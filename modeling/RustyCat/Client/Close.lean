import RustyCat.Error
import RustyCat.Lib.Machine
import Mathlib.Logic.Function.Basic

/-!
# Closing the client

`meow_client.rs`: the lifecycle lock, the calls that pass its gate, and `close` with its
two branches.  A Pounce-only close runs in the caller's future; a mixed close runs on a
supervisor thread.  Code between two awaits under the lock is one step, and a future
may be dropped at each of its awaits.

Of an executor there is what `close` and the admissions see: the order of its command
queue, the receiver that its loop holds, and whether its close is complete.  The lock is
never poisoned.  What an executor answers to `pause`, `resume`, `cancel` and `snapshot`
once they have passed the gate is left out.
-/

namespace RustyCat

open Function

inductive ExecutorKind where
  | pounce
  | binary
  deriving DecidableEq

inductive BinaryLifecycle where
  | opened
  | closing
  | closed
  | closeFailed (pounceClosed binaryClosed : Bool)
  deriving DecidableEq

inductive QueueEntry where
  | task (taskId : Nat)
  | close
  deriving DecidableEq

structure ExecutorState where
  /-- What was put on the command queue, in order. -/
  log : List QueueEntry
  /-- The loop holds the receiver of the queue. -/
  receiving : Bool
  /-- `CLOSE_IN_PROGRESS` of the binary executor. -/
  inProgress : Bool
  /-- `is_close_complete`. -/
  complete : Bool
  deriving DecidableEq

def ExecutorState.fresh : ExecutorState where
  log := []
  receiving := true
  inProgress := false
  complete := false

def ExecutorState.release (executor : ExecutorState) : ExecutorState :=
  { executor with inProgress := false }

/-- The places of `Executor::close` and of `BinaryExecutor::close`. -/
inductive CloseOp where
  | idle
  | sending
  | awaitingReply
  | joining (result : Except MeowError Unit)
  | ended (result : Except MeowError Unit)

/-- What the loop does with the reply channel of a close command. -/
inductive CloseReply where
  | lost
  | retryable (e : MeowError)
  | complete (result : Except MeowError Unit)

/-- A close attempt: in the future of a caller, or on a supervisor thread. -/
inductive Attempt where
  | pounceOnly (caller : Nat) (op : CloseOp)
  | mixed (caller : Nat) (spawned : Bool) (progress : ExecutorKind → Bool)
      (ops : ExecutorKind → CloseOp)

def Attempt.awaitedBy (caller : Nat) : Attempt → Bool
  | .pounceOnly owner .sending | .pounceOnly owner .awaitingReply
  | .pounceOnly owner (.joining _) => owner = caller
  | _ => false

inductive Operation where
  | tryEnqueue
  | tryEnqueuePaused
  | tryEnqueueBinaryTask
  /-- `pause`, `resume`, `cancel` and `snapshot`. -/
  | control
  | close
  deriving DecidableEq

/-- An attempt that has written the lifecycle and has not notified yet. -/
structure Published where
  caller : Nat
  result : Except MeowError Unit
  /-- The result goes through a channel that the caller may have dropped. -/
  detached : Bool

structure ClientState where
  lifecycle : BinaryLifecycle
  closed : Bool
  executors : ExecutorKind → Option ExecutorState
  nextCaller : Nat
  nextTask : Nat
  /-- Calls that have passed `ensure_open` and not the gate. -/
  building : List (Nat × Operation)
  /-- Callers of `close` that wait for the notification. -/
  waiting : List Nat
  /-- Callers of a mixed close that wait for its result. -/
  listening : List Nat
  attempts : List Attempt
  published : List Published
  admitted : List (ExecutorKind × Nat)
  /-- The closes called on executors, with whether they were complete at the call. -/
  closeCalls : List (ExecutorKind × Bool)
  results : List (Operation × Except MeowError Unit)

def Operation.kind : Operation → ExecutorKind
  | tryEnqueueBinaryTask => .binary
  | tryEnqueue | tryEnqueuePaused | control | close => .pounce

/-- What an admission returns when the loop has dropped its receiver. -/
def Operation.sendFailed : Operation → MeowError
  | tryEnqueueBinaryTask =>
    .fromCode .commandSendFailed "enqueue binary task failed: channel closed"
  | tryEnqueuePaused => .fromCode .commandSendFailed "try_enqueue_paused_failed: channel closed"
  | tryEnqueue | control | close =>
    .fromCode .commandSendFailed "try_enqueue_failed: channel closed"

def ExecutorKind.sendFailed : ExecutorKind → MeowError
  | pounce => .fromCode .commandSendFailed "close_failed: channel closed"
  | binary => .fromCode .commandSendFailed "send binary close failed: channel closed"

def ExecutorKind.replyLost : ExecutorKind → MeowError
  | pounce => .fromCode .commandResponseFailed "close response failed: channel closed"
  | binary =>
    .fromCode .commandResponseFailed "receive binary close response failed: channel closed"

def clientClosedError : MeowError := .fromCode .clientClosed "meow client is already closed"

namespace ClientState

def origin : ClientState where
  lifecycle := .opened
  closed := false
  executors := fun _ => none
  nextCaller := 0
  nextTask := 0
  building := []
  waiting := []
  listening := []
  attempts := []
  published := []
  admitted := []
  closeCalls := []
  results := []

def answer (s : ClientState) (operation : Operation) (result : Except MeowError Unit) :
    ClientState :=
  { s with results := s.results ++ [(operation, result)] }

def setExecutor (s : ClientState) (kind : ExecutorKind) (executor : ExecutorState) : ClientState :=
  { s with executors := update s.executors kind (some executor) }

/-! ## The gate -/

def ensureOpen (s : ClientState) : Except MeowError Unit :=
  if s.closed then .error clientClosedError else .ok ()

def lockOpenLifecycle (s : ClientState) : Except MeowError Unit :=
  if s.lifecycle ≠ .opened ∨ s.closed then .error clientClosedError else .ok ()

/-- `get_exec_locked` and `get_binary_exec_locked`; a new executor may fail to start. -/
def getExecLocked (s : ClientState) (kind : ExecutorKind) (failure : Option MeowError) :
    Except MeowError (ClientState × ExecutorState) :=
  match s.executors kind, failure with
  | some executor, _ => .ok (s, executor)
  | none, some e => .error e
  | none, none => .ok (s.setExecutor kind .fresh, .fresh)

/-- `try_enqueue` of an executor; `refusal` is what it says when there is no room. -/
def trySend (s : ClientState) (operation : Operation) (executor : ExecutorState)
    (refusal : Option MeowError) : ClientState × Except MeowError Unit :=
  match refusal with
  | some e => (s, .error e)
  | none =>
    if executor.receiving then
      ({ s.setExecutor operation.kind
            { executor with log := executor.log ++ [.task s.nextTask] } with
          nextTask := s.nextTask + 1
          admitted := s.admitted ++ [(operation.kind, s.nextTask)] },
        .ok ())
    else (s, .error operation.sendFailed)

def accept (s : ClientState) (operation : Operation) (failure refusal : Option MeowError) :
    ClientState × Except MeowError Unit :=
  match s.lockOpenLifecycle with
  | .error e => (s, .error e)
  | .ok () =>
    match s.getExecLocked operation.kind failure with
    | .error e => (s, .error e)
    | .ok (s, executor) => s.trySend operation executor refusal

/-- What follows the lock of a control call; a binary task needs no Pounce executor. -/
def control (s : ClientState) (isBinary : Bool) (failure : Option MeowError) :
    ClientState × Except MeowError Unit :=
  match s.lockOpenLifecycle with
  | .error e => (s, .error e)
  | .ok () =>
    if isBinary ∧ (s.executors .binary).isSome then (s, .ok ())
    else
      match s.getExecLocked .pounce failure with
      | .error e => (s, .error e)
      | .ok (s, _) => (s, .ok ())

/-! ## The close of an executor -/

def isOk (result : Except MeowError Unit) : Bool :=
  match result with
  | .ok () => true
  | .error _ => false

def callClose (s : ClientState) (kind : ExecutorKind) (executor : ExecutorState) :
    ClientState × CloseOp :=
  let s := { s with closeCalls := s.closeCalls ++ [(kind, executor.complete)] }
  match kind with
  | .pounce => (s, .sending)
  | .binary =>
    if executor.complete then (s, .ended (.ok ()))
    else if executor.inProgress then
      (s, .ended (.error
        (.fromCode .commandResponseFailed "binary close is already in progress")))
    else (s.setExecutor .binary { executor with inProgress := true }, .sending)

inductive CloseAction where
  | send
  | reply (reply : CloseReply)
  /-- The join of the loop's thread, or its failure. -/
  | join (failure : Option MeowError)

/-- One await of a close; the Pounce loop only replies `Ok`. -/
def driveClose (s : ClientState) (kind : ExecutorKind) (executor : ExecutorState) :
    CloseOp → CloseAction → Option (ClientState × CloseOp)
  | .sending, .send =>
    if executor.receiving then
      some (s.setExecutor kind { executor with log := executor.log ++ [.close] }, .awaitingReply)
    else
      some (s.setExecutor kind executor.release,
        .ended (.error kind.sendFailed))
  | .awaitingReply, .reply .lost =>
    some (s.setExecutor kind executor.release,
      .ended (.error kind.replyLost))
  | .awaitingReply, .reply (.retryable e) =>
    if kind = .binary then
      some (s.setExecutor kind executor.release, .ended (.error e))
    else none
  | .awaitingReply, .reply (.complete result) =>
    if kind = .binary ∨ isOk result then some (s, .joining result) else none
  | .joining result, .join none =>
    some (s.setExecutor kind { executor.release with complete := true },
      .ended result)
  | .joining result, .join (some e) =>
    some (s.setExecutor kind executor.release,
      .ended (if isOk result then .error e else result))
  | _, _ => none

/-! ## Attempts -/

def startClose (s : ClientState) (onDispatcher : Bool) : ClientState :=
  let caller := s.nextCaller
  if onDispatcher then
    s.answer .close (.error (.fromCode .invalidTaskState
      "close cannot be awaited from a transfer callback; schedule it after the callback returns"))
  else
    match s.lifecycle with
    | .closing => { s with nextCaller := caller + 1, waiting := s.waiting ++ [caller] }
    | .closed => s.answer .close (.error clientClosedError)
    | .closeFailed pounceClosed binaryClosed =>
      { s with
        nextCaller := caller + 1
        lifecycle := .closing
        listening := s.listening ++ [caller]
        attempts := s.attempts ++ [.mixed caller false
          (fun
            | .pounce => pounceClosed
            | .binary => binaryClosed)
          fun _ => .idle] }
    | .opened =>
      if s.closed then s.answer .close (.error clientClosedError)
      else if (s.executors .binary).isSome then
        { s with
          nextCaller := caller + 1
          closed := true
          lifecycle := .closing
          listening := s.listening ++ [caller]
          attempts := s.attempts ++ [.mixed caller false (fun _ => false) fun _ => .idle] }
      else
        { s with
          nextCaller := caller + 1
          closed := true
          lifecycle := .closing
          attempts := s.attempts ++ [.pounceOnly caller .idle] }

def noteEnded (s : ClientState) (kind : ExecutorKind) (op : CloseOp)
    (progress : ExecutorKind → Bool) : ExecutorKind → Bool :=
  match op with
  | .ended result =>
    if isOk result ∨ ((s.executors kind).map ExecutorState.complete).getD false then
      update progress kind true
    else progress
  | _ => progress

/-- The first poll of a close: `pounce_close` and `binary_close` of the supervisor skip
an executor whose close is complete, and one that does not exist. -/
def pollClose (s : ClientState) : Attempt → ExecutorKind → Option (ClientState × Attempt)
  | .pounceOnly caller .idle, .pounce =>
    match s.executors .pounce with
    | none => some (s, .pounceOnly caller (.ended (.ok ())))
    | some executor =>
      let (s, op) := s.callClose .pounce executor
      some (s, .pounceOnly caller op)
  | .mixed caller true progress ops, kind =>
    match ops kind with
    | .idle =>
      if progress kind then
        some (s, .mixed caller true progress (update ops kind (.ended (.ok ()))))
      else
        match s.executors kind with
        | none =>
          some (s, .mixed caller true (update progress kind true)
            (update ops kind (.ended (.ok ()))))
        | some executor =>
          let (s, op) := s.callClose kind executor
          some (s, .mixed caller true (s.noteEnded kind op progress) (update ops kind op))
    | _ => none
  | _, _ => none

def driveAttempt (s : ClientState) (action : CloseAction) :
    Attempt → ExecutorKind → Option (ClientState × Attempt)
  | .pounceOnly caller op, .pounce => do
    let executor ← s.executors .pounce
    let (s, op) ← s.driveClose .pounce executor op action
    pure (s, .pounceOnly caller op)
  | .mixed caller true progress ops, kind => do
    let executor ← s.executors kind
    let (s, op) ← s.driveClose kind executor (ops kind) action
    pure (s, .mixed caller true (s.noteEnded kind op progress) (update ops kind op))
  | _, _ => none

def reconcileCloseProgress (s : ClientState) (progress : ExecutorKind → Bool)
    (kind : ExecutorKind) : Bool :=
  progress kind ||
    match s.executors kind with
    | none => true
    | some executor => executor.complete

def publishMixedCloseResult (s : ClientState) (caller : Nat) (progress : ExecutorKind → Bool)
    (result : Except MeowError Unit) : ClientState :=
  { s with
    lifecycle :=
      if progress .pounce ∧ progress .binary then .closed
      else .closeFailed (progress .pounce) (progress .binary)
    published := s.published ++ [⟨caller, result, true⟩] }

def publishPounceOnly (s : ClientState) (caller : Nat) (result : Except MeowError Unit) :
    ClientState :=
  { s with
    lifecycle := if isOk result then .closed else .opened
    closed := if isOk result then s.closed else false
    published := s.published ++ [⟨caller, result, false⟩] }

def mixedResult (pounce binary : Except MeowError Unit) : Except MeowError Unit :=
  if isOk pounce then binary else pounce

/-- An attempt whose closes have ended writes the lifecycle. -/
def publish (s : ClientState) : Attempt → Option ClientState
  | .pounceOnly caller (.ended result) => some (s.publishPounceOnly caller result)
  | .mixed caller true progress ops =>
    match ops .pounce, ops .binary with
    | .ended pounce, .ended binary =>
      some (s.publishMixedCloseResult caller (s.reconcileCloseProgress progress)
        (mixedResult pounce binary))
    | _, _ => none
  | _ => none

def releaseAll (s : ClientState) : ClientState :=
  { s with executors := fun kind => (s.executors kind).map ExecutorState.release }

/-- The supervisor's runtime does not start, or the attempt panics. -/
def abort (s : ClientState) (e : MeowError) : Attempt → Option ClientState
  | .mixed caller true progress _ =>
    some (s.releaseAll.publishMixedCloseResult caller
      (s.reconcileCloseProgress progress) (.error e))
  | _ => none

def spawnFails (s : ClientState) (e : MeowError) : Attempt → Option ClientState
  | .mixed caller false progress _ =>
    some (s.publishMixedCloseResult caller progress
      (.error (.fromCode .runtimeCreationFailedError
        ("spawn close supervisor failed: " ++ e.msg))))
  | _ => none

/-- `notify_waiters`, and the result for the caller if it still listens. -/
def deliver (s : ClientState) (entry : Published) : ClientState :=
  let woken := s.waiting.map fun _ => (Operation.close, Except.error clientClosedError)
  let own := if entry.detached ∧ entry.caller ∉ s.listening then []
    else [(Operation.close, entry.result)]
  { s with
    waiting := []
    listening := s.listening.filter (· ≠ entry.caller)
    results := s.results ++ woken ++ own }

def drop (s : ClientState) (caller : Nat) : ClientState :=
  { s with
    building := s.building.filter fun call => call.1 ≠ caller
    waiting := s.waiting.filter (· ≠ caller)
    listening := s.listening.filter (· ≠ caller)
    attempts := s.attempts.filter fun attempt => ¬ attempt.awaitedBy caller }

/-! ## The whole -/

inductive Label where
  /-- `ensure_open` of a call that has an await or a lock before it. -/
  | begin (operation : Operation)
  | pass (index : Nat) (isBinary : Bool) (failure refusal : Option MeowError)
  /-- `try_enqueue_binary_task`; `invalid` is what its validation says. -/
  | enqueueBinary (invalid failure refusal : Option MeowError)
  | startClose (onDispatcher : Bool)
  | spawn (index : Nat)
  | spawnFails (index : Nat) (e : MeowError)
  | poll (index : Nat) (kind : ExecutorKind)
  | drive (index : Nat) (kind : ExecutorKind) (action : CloseAction)
  | publish (index : Nat)
  | abort (index : Nat) (e : MeowError)
  | deliver (index : Nat)
  | drop (caller : Nat)
  /-- The loop of an executor ends and drops its receiver. -/
  | receiverGone (kind : ExecutorKind)

def begin (s : ClientState) (operation : Operation) : ClientState :=
  match s.ensureOpen with
  | .error e => s.answer operation (.error e)
  | .ok () =>
    { s with
      nextCaller := s.nextCaller + 1
      building := s.building ++ [(s.nextCaller, operation)] }

def pass (s : ClientState) (operation : Operation) (isBinary : Bool)
    (failure refusal : Option MeowError) : Option (ClientState × Except MeowError Unit) :=
  match operation with
  | .control => some (s.control isBinary failure)
  | .tryEnqueue | .tryEnqueuePaused => some (s.accept operation failure refusal)
  | .tryEnqueueBinaryTask | .close => none

def enqueueBinary (s : ClientState) (invalid failure refusal : Option MeowError) :
    ClientState × Except MeowError Unit :=
  match s.lockOpenLifecycle, invalid with
  | .ok (), some e => (s, .error e)
  | _, _ => s.accept .tryEnqueueBinaryTask failure refusal

def step (s : ClientState) : Label → Option ClientState
  | .begin operation =>
    match operation with
    | .tryEnqueue | .tryEnqueuePaused | .control => some (s.begin operation)
    | .tryEnqueueBinaryTask | .close => none
  | .pass index isBinary failure refusal => do
    let (_, operation) ← s.building[index]?
    let (after, result) ← { s with building := s.building.eraseIdx index }.pass operation isBinary
      failure refusal
    pure (after.answer operation result)
  | .enqueueBinary invalid failure refusal =>
    let (after, result) := s.enqueueBinary invalid failure refusal
    some (after.answer .tryEnqueueBinaryTask result)
  | .startClose onDispatcher => some (s.startClose onDispatcher)
  | .spawn index => do
    match ← s.attempts[index]? with
    | .mixed caller false progress ops =>
      pure { s with attempts := s.attempts.set index (.mixed caller true progress ops) }
    | _ => none
  | .spawnFails index e => do
    let attempt ← s.attempts[index]?
    { s with attempts := s.attempts.eraseIdx index }.spawnFails e attempt
  | .poll index kind => do
    let attempt ← s.attempts[index]?
    let (after, attempt) ← s.pollClose attempt kind
    pure { after with attempts := s.attempts.set index attempt }
  | .drive index kind action => do
    let attempt ← s.attempts[index]?
    let (after, attempt) ← s.driveAttempt action attempt kind
    pure { after with attempts := s.attempts.set index attempt }
  | .publish index => do
    let attempt ← s.attempts[index]?
    { s with attempts := s.attempts.eraseIdx index }.publish attempt
  | .abort index e => do
    let attempt ← s.attempts[index]?
    { s with attempts := s.attempts.eraseIdx index }.abort e attempt
  | .deliver index => do
    let entry ← s.published[index]?
    pure ({ s with published := s.published.eraseIdx index }.deliver entry)
  | .drop caller => some (s.drop caller)
  | .receiverGone kind => do
    let executor ← s.executors kind
    pure (s.setExecutor kind { executor with receiving := false })

end ClientState

end RustyCat
