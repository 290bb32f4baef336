import RustyCat.Scheduler.Start

/-!
# Command and event handlers

The command arms of `worker_loop`, `pause_group`, `resume_group` and
`cancel_group` of `executor.rs`, and `handle_worker_event`.  Pausing and
canceling an active group takes three effects one after the other: the lifecycle
exchange, the cancellation of the token and the update of the sets.  They are
separate functions because a running worker can act between them.
-/

namespace RustyCat

/-- `executor.cancel`: only an upload has something to abort, and only once. -/
def TaskCell.executorCancel (cell : TaskCell) (direction : Direction) : TaskCell :=
  match direction with
  | .download => cell
  | .upload =>
    let (life, first) := cell.life.beginAbort
    if first then { life := life, history := cell.history ++ [.abortUpload] }
    else { cell with life := life }

/-- The lifecycle exchange a stop command makes; a close asks for a pause. -/
def StopKind.begin (kind : StopKind) : Terminal → Terminal × StopRequestDisposition :=
  match kind with
  | .pause | .close => Terminal.beginPause
  | .cancel => Terminal.beginCancel

def TaskCell.acceptStop (cell : TaskCell) (kind : StopKind) : TaskCell :=
  (cell.setTerminal (kind.begin cell.life.terminal).1).log (.stopAccepted kind)

namespace World

/-- `begin_terminal_pause` or `begin_terminal_cancel` of the group's leader. -/
def claimStop (w : World) (key : UniqueId) (kind : StopKind) : World × StopRequestDisposition :=
  match w.state.groups.lookup key with
  | none => (w, .interruptNow)
  | some group =>
    let id := group.leaderInner.taskId
    (w.onCell id (·.acceptStop kind), (kind.begin (w.heap id).life.terminal).2)

def interruptIf (w : World) (disposition : StopRequestDisposition) (key : UniqueId) : World :=
  if disposition = .interruptNow then w.onState (·.interrupt key) else w

/-- The set updates of `pause_group`, and its record when no worker runs. -/
def pauseMark (w : World) (key : UniqueId) (wasActive : Bool) : World :=
  let marked := w.onState fun s => (s.dropQueued key).pause key
  if wasActive then marked
  else
    match marked.state.groups.lookup key with
    | none => marked
    | some group =>
      (marked.onCell group.leaderInner.taskId (·.log (.stopAccepted .pause))).emitCurrent
        key group .paused

def pauseGroup (w : World) (key : UniqueId) : World :=
  if key ∈ w.state.active then
    let (claimed, disposition) := w.claimStop key .pause
    (claimed.interruptIf disposition key).pauseMark key true
  else w.pauseMark key false

def pushIfIdle (w : World) (key : UniqueId) : World :=
  if key ∉ w.state.active ∧ key ∉ w.state.queuedSet then w.onState (·.pushQueued key) else w

def resumeGroup (w : World) (key : UniqueId) : World × Except MeowError Unit :=
  if key ∉ w.state.pausedSet then
    (w, .error (.fromCode .invalidTaskState "resume target is not paused"))
  else if key ∈ w.state.active then
    (w, .error (.fromCode .invalidTaskState "resume target is still stopping, retry later"))
  else
    let unpaused := w.onState fun s => { s with pausedSet := s.pausedSet.erase key }
    match unpaused.state.groups.lookup key with
    | none => (unpaused, .error (.fromCode .invalidTaskState "resume target group missing"))
    | some group =>
      ((unpaused.emitCurrent key group .pending).pushIfIdle key, .ok ())

/-- The set updates of `cancel_group` for a group whose worker still runs. -/
def cancelMark (w : World) (key : UniqueId) : World :=
  let marked := w.onState fun s =>
    { s.dropQueued key with
      pausedSet := s.pausedSet.erase key
      cancelingSet := insert key s.cancelingSet }
  match marked.state.groups.lookup key with
  | none => marked
  | some group =>
    marked.onState fun s =>
      { s with taskIdToDedupe := s.taskIdToDedupe.erase group.leaderInner.taskId }

/-- `cancel_group` without a worker: the task ends here. -/
def cancelInactive (w : World) (key : UniqueId) : World :=
  let dropped := w.onState fun s => { s.dropQueued key with pausedSet := s.pausedSet.erase key }
  let ended :=
    match dropped.state.groups.lookup key with
    | none => dropped
    | some group =>
      let removed := dropped.onState (·.unregister key group)
      let aborted := removed.onCell group.leaderInner.taskId fun cell =>
        (cell.acceptStop .cancel).executorCancel group.leaderInner.direction
      (aborted.emitCurrent key group .canceled).onState (·.forgetProgress key)
  ended.onState fun s => { s with cancelingSet := s.cancelingSet.erase key }

def cancelGroup (w : World) (key : UniqueId) : World :=
  if key ∈ w.state.active then
    let (claimed, disposition) := w.claimStop key .cancel
    (claimed.interruptIf disposition key).cancelMark key
  else w.cancelInactive key

/-- The record that rejects a second task with a registered key.  It is built
from the leader of the registered group. -/
def rejectDuplicate (w : World) (existing : GroupState) (callbacks : TaskCallbacks) : World :=
  let leader := existing.leaderInner
  w.submit callbacks.progressCb
    (record leader (.failed (.fromCode1 .duplicateTaskError)) 0 leader.totalSize)

/-- Registers a task and announces it as pending, and as running if a worker is. -/
def registerPending (w : World) (inner : InnerTask) (callbacks : TaskCallbacks) : World :=
  let key := inner.dedupeKey
  let group := GroupState.new inner callbacks
  let pending := (w.onState (·.register inner callbacks)).emitCurrent key group .pending
  if key ∈ w.state.active then pending.emitCurrent key group .transmission else pending

/-- The registering half of the `Enqueue` arm. -/
def enqueueNew (w : World) (inner : InnerTask) (callbacks : TaskCallbacks) : World :=
  (w.registerPending inner callbacks).pushIfIdle inner.dedupeKey

/-- The registering half of the `EnqueuePaused` arm: no queueing. -/
def enqueuePausedNew (w : World) (inner : InnerTask) (callbacks : TaskCallbacks) : World :=
  let registered := w.onState fun s => (s.register inner callbacks).pause inner.dedupeKey
  registered.emitCurrent inner.dedupeKey (GroupState.new inner callbacks) .paused

/-- `Close` for one active key.  Here the set insertion comes before the token. -/
def closeActive (w : World) (key : UniqueId) : World :=
  if key ∈ w.state.cancelingSet then
    match w.state.groups.lookup key with
    | none => w.onState (·.interrupt key)
    | some group =>
      (w.onState (·.interrupt key)).onCell group.leaderInner.taskId
        (·.log (.stopAccepted .close))
  else
    let (claimed, disposition) := w.claimStop key .close
    (claimed.onState (·.pause key)).interruptIf disposition key

def closeInactive (w : World) (key : UniqueId) : World :=
  match w.state.groups.lookup key with
  | none => w
  | some group =>
    (w.onCell group.leaderInner.taskId (·.log (.stopAccepted .close))).emitCurrent
      key group .paused

def closeClear (w : World) : World :=
  w.onState fun s =>
    { s with
      active := ∅
      activeUploads := 0
      activeDownloads := 0
      groups := ∅
      taskIdToDedupe := ∅
      queued := []
      queuedSet := ∅
      pausedSet := ∅
      cancelingSet := ∅
      offsets := ∅
      knownTotals := ∅
      cbSubmit := false }

def endGroup (w : World) (key : UniqueId) (last : World → GroupState → World) : World :=
  let ended :=
    match w.state.groups.lookup key with
    | none => w
    | some group => last (w.onState (·.unregister key group)) group
  ended.onState (·.forgetProgress key)

def releaseWorker (w : World) (key : UniqueId) : World :=
  w.onState fun s => { s with cancelingSet := s.cancelingSet.erase key }.removeActive key

def unpause (w : World) (key : UniqueId) : World :=
  w.onState fun s => { s with pausedSet := s.pausedSet.erase key }

def handleProgress (w : World) (key : UniqueId) (nextOffset totalSize : Nat) : World :=
  match w.state.groups.lookup key with
  | none => w
  | some group =>
    let recorded := w.onState (·.recordProgress key nextOffset totalSize)
    if key ∈ recorded.state.cancelingSet then recorded
    else
      recorded.emitStatus group.entry .transmission nextOffset
        (max totalSize (recorded.state.effectiveTotal key group.entry.inner))

def emitComplete (w : World) (key : UniqueId) (totalSize : Nat) (payload : Option String)
    (group : GroupState) : World :=
  let total := max totalSize (w.state.effectiveTotal key group.entry.inner)
  let emitted := w.emitStatus group.entry .complete total total
  match group.entry.callbacks.completeCb with
  | none => emitted
  | some callback => emitted.invokeCompleteCb callback group.entry.inner.taskId payload

def handleCompleted (w : World) (key : UniqueId) (totalSize : Nat) (payload : Option String) :
    World :=
  let released := ((w.releaseWorker key).unpause key).onState fun s =>
    { s with offsets := s.offsets.insert key totalSize }
  released.endGroup key fun w group => w.emitComplete key totalSize payload group

/-- A terminal record at the recorded offset, with the larger of the two totals. -/
def emitLast (w : World) (key : UniqueId) (totalSize : Nat) (status : TransferStatus)
    (group : GroupState) : World :=
  w.emitStatus group.entry status (w.state.currentOffset key)
    (max totalSize (w.state.effectiveTotal key group.entry.inner))

def handleFailed (w : World) (key : UniqueId) (error : MeowError) (totalSize : Nat) : World :=
  ((w.releaseWorker key).unpause key).endGroup key fun w group =>
    w.emitLast key totalSize (.failed error) group

/-- A stop that was a pause keeps the group and reopens its lifecycle; any other
`Canceled` event ends the task. -/
def handleCanceled (w : World) (key : UniqueId) (totalSize : Nat) : World :=
  let wasCanceling := key ∈ w.state.cancelingSet
  let released := w.releaseWorker key
  if key ∈ released.state.pausedSet ∧ ¬ wasCanceling then
    match released.state.groups.lookup key with
    | none => released
    | some group =>
      (released.onCell group.leaderInner.taskId fun cell =>
        cell.setTerminal cell.life.terminal.resetPause).emitLast key totalSize .paused group
  else
    (released.unpause key).endGroup key fun w group => w.emitLast key totalSize .canceled group

def handleWorkerEvent (w : World) : WorkerEvent → World
  | .progress key nextOffset totalSize => w.handleProgress key nextOffset totalSize
  | .completed key totalSize payload => w.handleCompleted key totalSize payload
  | .failed key error totalSize => w.handleFailed key error totalSize
  | .canceled key totalSize => w.handleCanceled key totalSize

/-- The provider abort a stopped or failed upload still owes when it was canceled. -/
def quiescentAbort (w : World) (key : UniqueId) : World :=
  if key.1 = .upload ∧ key ∈ w.state.cancelingSet then
    match w.state.groups.lookup key with
    | none => w
    | some group =>
      w.onCell group.leaderInner.taskId (·.executorCancel group.leaderInner.direction)
  else w

def handleQuiescentWorkerEvent (w : World) (event : WorkerEvent) : World :=
  let settled :=
    match event with
    | .progress _ _ _ | .completed _ _ _ => w
    | .failed key _ _ | .canceled key _ => w.quiescentAbort key
  settled.handleWorkerEvent event

end World

end RustyCat
