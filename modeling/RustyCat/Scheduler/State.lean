import RustyCat.Task

/-!
# Scheduler state and record emission

`SchedulerState` of `scheduler_state.rs` with its counted insertions and
removals, and the emission functions of `emit.rs`.  A `World` is a scheduler
state together with the task cells.  An emission changes no scheduler field: it
only appends to the history of the task the record names.
-/

namespace RustyCat

structure RecordEntry where
  inner : InnerTask
  callbacks : TaskCallbacks
  deriving DecidableEq

/-- Leader and entry are clones of one `InnerTask`. -/
structure GroupState where
  leaderInner : InnerTask
  entry : RecordEntry
  entry_inner : entry.inner = leaderInner
  deriving DecidableEq

def GroupState.new (inner : InnerTask) (callbacks : TaskCallbacks) : GroupState :=
  { leaderInner := inner, entry := { inner := inner, callbacks := callbacks }, entry_inner := rfl }

/-- The cancellation token that scheduler and worker share. -/
structure ActiveState where
  cancelled : Bool
  deriving DecidableEq, Repr

structure SchedulerState where
  maxUploadConcurrency : Nat
  maxDownloadConcurrency : Nat
  globalProgressListener : List Nat
  groups : HashMap UniqueId GroupState
  taskIdToDedupe : HashMap TaskId UniqueId
  queued : List UniqueId
  queuedSet : Finset UniqueId
  pausedSet : Finset UniqueId
  active : HashMap UniqueId ActiveState
  cancelingSet : Finset UniqueId
  activeUploads : Nat
  activeDownloads : Nat
  offsets : HashMap UniqueId Nat
  knownTotals : HashMap UniqueId Nat
  /-- Whether the callback sender is still held. -/
  cbSubmit : Bool

namespace SchedulerState

def new (maxUpload maxDownload : Nat) (listeners : List Nat) : SchedulerState where
  maxUploadConcurrency := maxUpload
  maxDownloadConcurrency := maxDownload
  globalProgressListener := listeners
  groups := ∅
  taskIdToDedupe := ∅
  queued := []
  queuedSet := ∅
  pausedSet := ∅
  active := ∅
  cancelingSet := ∅
  activeUploads := 0
  activeDownloads := 0
  offsets := ∅
  knownTotals := ∅
  cbSubmit := true

def activeDirectionCount (s : SchedulerState) : Direction → Nat
  | .upload => s.activeUploads
  | .download => s.activeDownloads

def maxConcurrency (s : SchedulerState) : Direction → Nat
  | .upload => s.maxUploadConcurrency
  | .download => s.maxDownloadConcurrency

def canStartDirection (s : SchedulerState) (direction : Direction) : Bool :=
  s.activeDirectionCount direction < s.maxConcurrency direction

/-- A key that was not active adds one to the counter of its direction. -/
def insertActive (s : SchedulerState) (key : UniqueId) (active : ActiveState) : SchedulerState :=
  { s with
    active := s.active.insert key active
    activeUploads :=
      if key ∉ s.active ∧ key.1 = .upload then s.activeUploads + 1 else s.activeUploads
    activeDownloads :=
      if key ∉ s.active ∧ key.1 = .download then s.activeDownloads + 1 else s.activeDownloads }

/-- A key that was active takes one from the counter of its direction, which
saturates at zero. -/
def removeActive (s : SchedulerState) (key : UniqueId) : SchedulerState :=
  { s with
    active := s.active.erase key
    activeUploads :=
      if key ∈ s.active ∧ key.1 = .upload then s.activeUploads - 1 else s.activeUploads
    activeDownloads :=
      if key ∈ s.active ∧ key.1 = .download then s.activeDownloads - 1 else s.activeDownloads }

def currentOffset (s : SchedulerState) (key : UniqueId) : Nat :=
  (s.offsets.lookup key).getD 0

/-- The total found at run time wins over the preset one once it is positive. -/
def effectiveTotal (s : SchedulerState) (key : UniqueId) (inner : InnerTask) : Nat :=
  match s.knownTotals.lookup key with
  | some v => if v > 0 then v else inner.totalSize
  | none => inner.totalSize

/-- `queued.push_back` with its mirror set. -/
def pushQueued (s : SchedulerState) (key : UniqueId) : SchedulerState :=
  { s with queued := s.queued ++ [key], queuedSet := insert key s.queuedSet }

/-- `queued.pop_front` with its mirror set, when the queue is `key :: rest`. -/
def popQueued (s : SchedulerState) (key : UniqueId) (rest : List UniqueId) : SchedulerState :=
  { s with queued := rest, queuedSet := s.queuedSet.erase key }

/-- `queued.retain(|k| k != key)` with its mirror set. -/
def dropQueued (s : SchedulerState) (key : UniqueId) : SchedulerState :=
  { s with queued := s.queued.filter (· ≠ key), queuedSet := s.queuedSet.erase key }

def pause (s : SchedulerState) (key : UniqueId) : SchedulerState :=
  { s with pausedSet := insert key s.pausedSet }

/-- Records the offset of a progress event, and its total unless that is unknown. -/
def recordProgress (s : SchedulerState) (key : UniqueId) (nextOffset totalSize : Nat) :
    SchedulerState :=
  { s with
    offsets := s.offsets.insert key nextOffset
    knownTotals :=
      if totalSize > 0 then s.knownTotals.insert key totalSize else s.knownTotals }

def forgetProgress (s : SchedulerState) (key : UniqueId) : SchedulerState :=
  { s with offsets := s.offsets.erase key, knownTotals := s.knownTotals.erase key }

def interrupt (s : SchedulerState) (key : UniqueId) : SchedulerState :=
  { s with active := if key ∈ s.active then s.active.insert key { cancelled := true } else s.active }

def register (s : SchedulerState) (inner : InnerTask) (callbacks : TaskCallbacks) :
    SchedulerState :=
  { s with
    taskIdToDedupe := s.taskIdToDedupe.insert inner.taskId inner.dedupeKey
    groups := s.groups.insert inner.dedupeKey (GroupState.new inner callbacks) }

def unregister (s : SchedulerState) (key : UniqueId) (group : GroupState) : SchedulerState :=
  { s with
    groups := s.groups.erase key
    taskIdToDedupe := s.taskIdToDedupe.erase group.leaderInner.taskId }

end SchedulerState

structure World where
  state : SchedulerState
  heap : Heap

namespace World

def onState (w : World) (f : SchedulerState → SchedulerState) : World :=
  { w with state := f w.state }

def onCell (w : World) (id : TaskId) (f : TaskCell → TaskCell) : World :=
  { w with heap := w.heap.modify id f }

/-- The sinks a record reaches; none once the callback sender is gone. -/
def sinks (s : SchedulerState) (progressCb : Option Nat) : List Sink :=
  progressCb.toList.map Sink.progressCb ++ s.globalProgressListener.map Sink.listener

/-- `invoke_progress_cb` for the given callback and `emit_global_progress`. -/
def submit (w : World) (progressCb : Option Nat) (dto : FileTransferRecord) : World :=
  if w.state.cbSubmit then
    w.onCell dto.taskId fun cell => cell.log (.record dto (sinks w.state progressCb))
  else w

def record (inner : InnerTask) (status : TransferStatus) (transferred total : Nat) :
    FileTransferRecord where
  taskId := inner.taskId
  fileSign := inner.fileSign
  fileName := inner.fileName
  totalSize := total
  transferred := transferred
  status := status
  direction := inner.direction

def emitStatus (w : World) (entry : RecordEntry) (status : TransferStatus)
    (transferred total : Nat) : World :=
  w.submit entry.callbacks.progressCb (record entry.inner status transferred total)

def invokeCompleteCb (w : World) (callback : Nat) (id : TaskId) (payload : Option String) :
    World :=
  if w.state.cbSubmit then
    w.onCell id fun cell => cell.log (.completeCallback callback payload)
  else w

@[simp] theorem onState_state (w : World) (f : SchedulerState → SchedulerState) :
    (w.onState f).state = f w.state := rfl

@[simp] theorem onState_heap (w : World) (f : SchedulerState → SchedulerState) :
    (w.onState f).heap = w.heap := rfl

@[simp] theorem onCell_state (w : World) (id : TaskId) (f : TaskCell → TaskCell) :
    (w.onCell id f).state = w.state := rfl

@[simp] theorem onCell_heap (w : World) (id : TaskId) (f : TaskCell → TaskCell) :
    (w.onCell id f).heap = w.heap.modify id f := rfl

@[simp] theorem submit_state (w : World) (progressCb : Option Nat) (dto : FileTransferRecord) :
    (w.submit progressCb dto).state = w.state := by
  simp only [submit]
  split <;> rfl

@[simp] theorem emitStatus_state (w : World) (entry : RecordEntry) (status : TransferStatus)
    (transferred total : Nat) : (w.emitStatus entry status transferred total).state = w.state :=
  submit_state ..

@[simp] theorem invokeCompleteCb_state (w : World) (callback : Nat) (id : TaskId)
    (payload : Option String) : (w.invokeCompleteCb callback id payload).state = w.state := by
  simp only [invokeCompleteCb]
  split <;> rfl

/-- Emits a status at the recorded offset and the effective total of the key. -/
def emitCurrent (w : World) (key : UniqueId) (group : GroupState) (status : TransferStatus) :
    World :=
  w.emitStatus group.entry status (w.state.currentOffset key)
    (w.state.effectiveTotal key group.entry.inner)

@[simp] theorem emitCurrent_state (w : World) (key : UniqueId) (group : GroupState)
    (status : TransferStatus) : (w.emitCurrent key group status).state = w.state :=
  emitStatus_state ..

end World

end RustyCat
