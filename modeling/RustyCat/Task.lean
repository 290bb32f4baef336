import RustyCat.Lib.HashMap
import RustyCat.Lib.Word
import RustyCat.Error
import RustyCat.Lifecycle

/-!
# Tasks, records and worker events

The data that scheduler and worker exchange: `InnerTask`, `FileTransferRecord`,
`WorkerEvent`.  Every task owns one cell that scheduler and worker share.  The
cell holds the lifecycle atomic and, as a ghost, the history of what happened to
the task: runs, requests to the protocol, accepted stops, aborts, the events sent
by workers and the records handed to callbacks.
-/

namespace RustyCat

inductive Direction where
  | upload
  | download
  deriving DecidableEq, Repr

/-- A process-local task number from `TaskId::new`. -/
abbrev TaskId := Nat

/-- The dedupe key: an upload by its file signature, a download by its url. -/
abbrev UniqueId := Direction × String

abbrev u64Max : Nat := Word.maxVal 64

-- the sizes of the sample tasks
theorem sample_chunk : 0 < 4 := by decide

theorem sample_size : 4 ≤ u64Max := by decide

theorem sample_total : 8 ≤ u64Max := by decide

/-- The fields of an `InnerTask` that scheduling and execution read.
`uploadFileSnapshot` is the verification scratch size of the snapshot of a file
source, and `none` for an in-memory source. -/
structure InnerTask where
  taskId : TaskId
  fileSign : String
  fileName : String
  uploadFileSnapshot : Option Nat
  direction : Direction
  totalSize : Nat
  chunkSize : Nat
  url : String
  maxChunkRetries : Nat
  maxUploadPrepareRetries : Nat
  maxPartsInFlight : Nat
  /-- The answer of `supports_parallel_parts` of the resolved protocol. -/
  supportsParallelParts : Bool
  totalSize_le : totalSize ≤ u64Max
  /-- The builders normalise a zero chunk size. -/
  chunkSize_pos : 0 < chunkSize
  deriving DecidableEq

def InnerTask.dedupeKey (inner : InnerTask) : UniqueId :=
  match inner.direction with
  | .upload => (.upload, inner.fileSign)
  | .download => (.download, inner.url)

@[simp] theorem InnerTask.dedupeKey_fst (inner : InnerTask) :
    inner.dedupeKey.1 = inner.direction := by
  unfold InnerTask.dedupeKey
  cases inner.direction <;> rfl

inductive TransferStatus where
  | none
  | pending
  | transmission
  | paused
  | complete
  | failed (error : MeowError)
  | canceled
  deriving DecidableEq, Repr

def TransferStatus.isTerminal : TransferStatus → Bool
  | complete | failed _ | canceled => true
  | none | pending | transmission | paused => false

/-- The `progress` ratio of the source is `transferred / totalSize` (and zero for
a zero total); the record keeps the numerator. -/
structure FileTransferRecord where
  taskId : TaskId
  fileSign : String
  fileName : String
  totalSize : Nat
  transferred : Nat
  status : TransferStatus
  direction : Direction
  deriving DecidableEq, Repr

structure TaskCallbacks where
  progressCb : Option Nat
  completeCb : Option Nat
  deriving DecidableEq, Repr

inductive Sink where
  | progressCb (id : Nat)
  | listener (id : Nat)
  deriving DecidableEq, Repr

inductive WorkerEvent where
  | progress (key : UniqueId) (nextOffset totalSize : Nat)
  | completed (key : UniqueId) (totalSize : Nat) (completionPayload : Option String)
  | failed (key : UniqueId) (error : MeowError) (totalSize : Nat)
  | canceled (key : UniqueId) (totalSize : Nat)
  deriving DecidableEq, Repr

namespace WorkerEvent

def key : WorkerEvent → UniqueId
  | progress key _ _ | completed key _ _ | failed key _ _ | canceled key _ => key

/-- `may_change_scheduler_readiness`: everything but a progress event. -/
def mayChangeSchedulerReadiness : WorkerEvent → Bool
  | progress _ _ _ => false
  | completed _ _ _ | failed _ _ _ | canceled _ _ => true

end WorkerEvent

inductive StopKind where
  | pause
  | cancel
  | close
  deriving DecidableEq, Repr

/-- A call into the transfer executor, with the offset it is about. -/
inductive Request where
  | prepare (localOffset : Nat)
  | chunk (offset : Nat)
  | part (offset : Nat)
  | complete
  deriving DecidableEq, Repr

inductive PartOutcome where
  | done
  | cancelled
  | failed
  | panicked
  deriving DecidableEq, Repr

/-- One entry of a task's ghost history. -/
inductive TaskEvent where
  /-- A worker run of the task started. -/
  | started
  /-- A pause, cancel or close was accepted for the task. -/
  | stopAccepted (kind : StopKind)
  | requested (request : Request)
  | returned (request : Request)
  /-- The protocol answered with `completed_file_id = Some`. -/
  | completedFileId
  /-- `complete_upload` returned, successfully or not. -/
  | completeUpload (ok : Bool)
  /-- `abort_upload` was invoked. -/
  | abortUpload
  /-- A completion claim was given up because the request it was made for did not
  complete the transfer; a stop that waited behind the claim is applied. -/
  | incomplete (stop : Option DeferredStop)
  /-- A part of a parallel transfer was spawned. -/
  | spawned (offset : Nat)
  /-- A part of a parallel transfer was joined. -/
  | joined (offset : Nat) (outcome : PartOutcome)
  /-- The worker sent an event to the scheduler. -/
  | sent (event : WorkerEvent)
  /-- A record was submitted to the listed sinks. -/
  | record (record : FileTransferRecord) (sinks : List Sink)
  /-- The complete callback was submitted. -/
  | completeCallback (callback : Nat) (payload : Option String)
  deriving DecidableEq, Repr

/-- A note of what the protocol said or of a part spawned or joined. -/
def TaskEvent.isNote : TaskEvent → Bool
  | spawned _ | joined _ _ | completedFileId | completeUpload _ => true
  | _ => false

def TaskEvent.isAnswer : TaskEvent → Bool
  | completedFileId | completeUpload _ => true
  | _ => false

theorem TaskEvent.isNote_of_isAnswer {e : TaskEvent} (answer : e.isAnswer = true) :
    e.isNote = true := by
  cases e <;> first | rfl | cases answer

/-- What scheduler and worker share about one task. -/
structure TaskCell where
  life : TransferLifecycle
  history : List TaskEvent
  deriving DecidableEq, Repr

namespace TaskCell

def new : TaskCell := { life := .new, history := [] }

def log (cell : TaskCell) (event : TaskEvent) : TaskCell :=
  { cell with history := cell.history ++ [event] }

def setTerminal (cell : TaskCell) (terminal : Terminal) : TaskCell :=
  { cell with life := { cell.life with terminal := terminal } }

def logAll (cell : TaskCell) (events : List TaskEvent) : TaskCell :=
  { cell with history := cell.history ++ events }

@[simp] theorem log_life (cell : TaskCell) (event : TaskEvent) :
    (cell.log event).life = cell.life := rfl

@[simp] theorem log_history (cell : TaskCell) (event : TaskEvent) :
    (cell.log event).history = cell.history ++ [event] := rfl

variable (cell : TaskCell) (terminal : Terminal)

@[simp] theorem setTerminal_terminal :
    (cell.setTerminal terminal).life.terminal = terminal := rfl

@[simp] theorem setTerminal_abortStarted :
    (cell.setTerminal terminal).life.abortStarted = cell.life.abortStarted := rfl

@[simp] theorem setTerminal_abortRequired :
    (cell.setTerminal terminal).life.abortRequired = cell.life.abortRequired := rfl

@[simp] theorem setTerminal_history :
    (cell.setTerminal terminal).history = cell.history := rfl

end TaskCell

abbrev Heap := TaskId → TaskCell

def Heap.modify (heap : Heap) (id : TaskId) (f : TaskCell → TaskCell) : Heap :=
  fun other => if other = id then f (heap id) else heap other

@[simp] theorem Heap.modify_self (heap : Heap) (id : TaskId) (f : TaskCell → TaskCell) :
    heap.modify id f id = f (heap id) := by
  simp [Heap.modify]

theorem Heap.modify_of_ne (heap : Heap) {id other : TaskId} (f : TaskCell → TaskCell)
    (different : other ≠ id) : heap.modify id f other = heap other := by
  simp [Heap.modify, different]

end RustyCat
