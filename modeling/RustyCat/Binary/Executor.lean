import RustyCat.Error
import RustyCat.Lib.Machine

/-!
# The binary executor

`binary/executor.rs`: the callers that put commands on the queue, the scheduler loop
with its workers, and the thread that runs the callbacks.  Every step of one of them
is a label, so all interleavings are runs.

The callback thread does not die, so the scheduler always has it; what the loop does
to replace it is left out, and so is the registry that routes `cancel` calls to the
executor.  The client admits tasks only until a close has begun.  What was accepted,
stopped and called back is recorded on the side.
-/

namespace RustyCat

def binaryMaxConcurrency : Nat := 2

def binaryMaxOutstandingTasks : Nat := 1024

def binaryCommandCapacity : Nat := binaryMaxOutstandingTasks

def binaryCallbackCapacity : Nat := 2

def binaryTaskCanceled : MeowError := .fromCode .taskCanceled "binary task was canceled"

def binaryClientClosed : MeowError :=
  .fromCode .clientClosed "meow client closed before binary task completed"

def binaryTaskNotFound : MeowError := .fromCode .taskNotFound "binary task was not found"

inductive BinaryStop where
  | cancel
  | close
  deriving DecidableEq, Repr

def BinaryStop.error : BinaryStop → MeowError
  | cancel => binaryTaskCanceled
  | close => binaryClientClosed

inductive BinaryCommand where
  | enqueue (taskId : Nat)
  | cancel (taskId : Nat)
  | close
  deriving DecidableEq

def BinaryCommand.enqueued? : BinaryCommand → Option Nat
  | enqueue taskId => some taskId
  | cancel _ | close => none

def enqueuedIds (commands : List BinaryCommand) : List Nat :=
  commands.filterMap BinaryCommand.enqueued?

section Queue

variable {commands rest : List BinaryCommand} {taskId : Nat}

@[simp] theorem enqueuedIds_enqueue :
    enqueuedIds (.enqueue taskId :: rest) = taskId :: enqueuedIds rest := rfl

@[simp] theorem enqueuedIds_cancel : enqueuedIds (.cancel taskId :: rest) = enqueuedIds rest := rfl

@[simp] theorem enqueuedIds_close : enqueuedIds (.close :: rest) = enqueuedIds rest := rfl

@[simp] theorem enqueuedIds_append :
    enqueuedIds (commands ++ rest) = enqueuedIds commands ++ enqueuedIds rest :=
  List.filterMap_append

@[simp] theorem enqueuedIds_nil : enqueuedIds [] = [] := rfl

end Queue

/-- The places of the scheduler loop: the acknowledgements, the callback that may be
sent, the workers that may be launched, the exit, and the `select`. -/
inductive LoopPoint where
  | drain
  | flush
  | launch
  | check
  | select
  deriving DecidableEq

variable {β : Type}

structure CallbackJob (β : Type) where
  taskId : Nat
  result : Except MeowError β
  bodyPermit : Bool

structure BinaryState (β : Type) where
  admitting : Bool
  nextId : Nat
  /-- Permits taken from the pool of outstanding tasks. -/
  outstanding : Nat
  /-- Body permits that are free. -/
  bodySlots : Nat
  commands : List BinaryCommand
  pending : List Nat
  /-- The workers, each with the cell for its reason to stop. -/
  active : List (Nat × Option BinaryStop)
  /-- Events of workers that have ended. -/
  events : List (Nat × Except MeowError β)
  terminalJobs : List (CallbackJob β)
  callbackInflight : Nat
  /-- The channel to the callback thread. -/
  channel : List (CallbackJob β)
  running : Option (CallbackJob β)
  /-- A callback has returned, and is not acknowledged yet. -/
  returned : Option Nat
  acks : List Nat
  closing : Bool
  point : LoopPoint
  /-- The loop has ended and `close` has its reply. -/
  replied : Bool
  accepted : List Nat
  called : List (Nat × Except MeowError β)
  finished : List Nat
  outcomes : List (Nat × Except MeowError β)
  stops : List (Nat × BinaryStop)
  cancelOks : List Nat

namespace BinaryState

def origin : BinaryState β where
  admitting := true
  nextId := 0
  outstanding := 0
  bodySlots := binaryMaxConcurrency
  commands := []
  pending := []
  active := []
  events := []
  terminalJobs := []
  callbackInflight := 0
  channel := []
  running := none
  returned := none
  acks := []
  closing := false
  point := .drain
  replied := false
  accepted := []
  called := []
  finished := []
  outcomes := []
  stops := []
  cancelOks := []

/-! ## The callers -/

/-- `try_enqueue_binary_task`: the gate of the client, then `try_enqueue`. -/
def tryEnqueue (s : BinaryState β) : BinaryState β × Except MeowError Nat :=
  if ¬ s.admitting then
    (s, .error (.fromCode .clientClosed "meow client is already closed"))
  else if s.outstanding ≥ binaryMaxOutstandingTasks then
    (s, .error (.fromCode .binaryTaskQueueFull "binary task capacity reached 1024"))
  else if s.commands.length ≥ binaryCommandCapacity then
    (s, .error (.fromCode .commandSendFailed "enqueue binary task failed: no available capacity"))
  else
    ({ s with
        nextId := s.nextId + 1
        outstanding := s.outstanding + 1
        commands := s.commands ++ [.enqueue s.nextId]
        accepted := s.accepted ++ [s.nextId] },
      .ok s.nextId)

/-- `send(command).await`: it waits for room, and fails when the loop has ended. -/
def send (s : BinaryState β) (command : BinaryCommand) : Option (BinaryState β) :=
  if s.commands.length < binaryCommandCapacity ∧ s.replied = false then
    some { s with commands := s.commands ++ [command] }
  else none

/-! ## The scheduler -/

def finishTask (s : BinaryState β) (taskId : Nat) (result : Except MeowError β)
    (bodyPermit : Bool) : BinaryState β :=
  { s with
    terminalJobs := s.terminalJobs ++
      [{ taskId := taskId, result := result, bodyPermit := bodyPermit }] }

def noteStop (s : BinaryState β) (taskId : Nat) (stop : BinaryStop) : BinaryState β :=
  { s with stops := s.stops ++ [(taskId, stop)] }

def markCancel (taskId : Nat) (worker : Nat × Option BinaryStop) : Nat × Option BinaryStop :=
  if worker.1 = taskId then (taskId, some .cancel) else worker

def cancelTask (s : BinaryState β) (taskId : Nat) : BinaryState β × Except MeowError Unit :=
  if taskId ∈ s.pending then
    (({ s with pending := s.pending.erase taskId }.finishTask taskId
      (.error binaryTaskCanceled) false).noteStop taskId .cancel, .ok ())
  else if (taskId, none) ∈ s.active then
    ({ s with active := s.active.map (markCancel taskId) }.noteStop taskId .cancel, .ok ())
  else (s, .error binaryTaskNotFound)

def beginClose (s : BinaryState β) : BinaryState β :=
  { s with
    pending := []
    terminalJobs := s.terminalJobs ++ s.pending.map fun taskId =>
      { taskId := taskId, result := .error binaryClientClosed, bodyPermit := false }
    active := s.active.map fun worker => (worker.1, some .close)
    stops := s.stops ++ (s.pending ++ s.active.map Prod.fst).map fun taskId => (taskId, .close) }

def onCommand (s : BinaryState β) : BinaryCommand → BinaryState β
  | .enqueue taskId =>
    if s.closing then
      (s.finishTask taskId (.error binaryClientClosed) false).noteStop taskId .close
    else { s with pending := s.pending ++ [taskId] }
  | .cancel taskId =>
    let (after, answer) := s.cancelTask taskId
    match answer with
    | .ok () => { after with cancelOks := after.cancelOks ++ [taskId] }
    | .error _ => after
  | .close => { s.beginClose with closing := true }

/-- The result of a task whose worker ended with the reason in its cell. -/
def resultFor (reason : Option BinaryStop) (result : Except MeowError β) : Except MeowError β :=
  match reason with
  | some stop => .error stop.error
  | none => result

def isOk (result : Except MeowError β) : Bool :=
  match result with
  | .ok _ => true
  | .error _ => false

def onEvent (s : BinaryState β) (taskId : Nat) (reason : Option BinaryStop)
    (result : Except MeowError β) : BinaryState β :=
  let ended := resultFor reason result
  -- the permit goes on with a body, and is free again without one
  { s with
    active := s.active.eraseP fun worker => worker.1 = taskId
    bodySlots := if isOk ended then s.bodySlots else s.bodySlots + 1 }.finishTask taskId ended
      (isOk ended)

def flushCallbackJobs (s : BinaryState β) : BinaryState β :=
  if s.callbackInflight > 0 then s
  else
    match s.terminalJobs with
    | [] => s
    | job :: rest =>
      if s.channel.length < binaryCallbackCapacity then
        { s with terminalJobs := rest, channel := s.channel ++ [job], callbackInflight := 1 }
      else s

def tick (s : BinaryState β) : BinaryState β :=
  match s.point with
  | .drain =>
    match s.acks with
    | [] => { s with point := .flush }
    | _ :: rest => { s with acks := rest, callbackInflight := s.callbackInflight - 1 }
  | .flush => { s.flushCallbackJobs with point := .launch }
  | .launch =>
    match s.pending with
    | [] => { s with point := .check }
    | taskId :: rest =>
      if s.closing = false ∧ s.active.length < binaryMaxConcurrency ∧ 0 < s.bodySlots then
        { s with
          pending := rest
          active := s.active ++ [(taskId, none)]
          bodySlots := s.bodySlots - 1 }
      else { s with point := .check }
  | .check =>
    if s.closing ∧ s.pending = [] ∧ s.active = [] ∧ s.terminalJobs.isEmpty ∧
        s.callbackInflight = 0 then
      { s with replied := true }
    else { s with point := .select }
  | .select => s

/-! ## The whole -/

inductive Label (β : Type) where
  | enqueue
  /-- The client begins to close, so it admits no more tasks. -/
  | shut
  | sendCancel (taskId : Nat)
  | sendClose
  | tick
  | recvCommand
  | recvEvent
  | recvAck
  | workerEnds (taskId : Nat) (result : Except MeowError β)
  /-- The callback thread takes a job and calls back. -/
  | call
  /-- The callback returns or panics, and the job is dropped. -/
  | returns
  | ack

def step (s : BinaryState β) : Label β → Option (BinaryState β)
  | .enqueue => some s.tryEnqueue.1
  | .shut => some { s with admitting := false }
  | .sendCancel taskId => s.send (.cancel taskId)
  | .sendClose => if s.admitting then none else s.send .close
  | .tick => if s.replied ∨ s.point = .select then none else some s.tick
  | .recvCommand =>
    match s.commands with
    | [] => none
    | command :: rest =>
      if s.replied ∨ s.point ≠ .select then none
      else some { { s with commands := rest }.onCommand command with point := .drain }
  | .recvEvent =>
    match s.events with
    | [] => none
    | (taskId, result) :: rest =>
      match s.active.find? (·.1 = taskId) with
      | none => none
      | some (_, reason) =>
        if s.replied ∨ s.point ≠ .select then none
        else some { { s with events := rest }.onEvent taskId reason result with point := .drain }
  | .recvAck =>
    match s.acks with
    | [] => none
    | _ :: rest =>
      if s.replied ∨ s.point ≠ .select ∨ s.callbackInflight = 0 then none
      else some { s with
        acks := rest, callbackInflight := s.callbackInflight - 1, point := .drain }
  | .workerEnds taskId result =>
    if (s.active.any (·.1 = taskId)) ∧ ¬ s.events.any (·.1 = taskId) then
      some { s with
        events := s.events ++ [(taskId, result)]
        outcomes := s.outcomes ++ [(taskId, result)] }
    else none
  | .call =>
    match s.channel, s.running, s.returned with
    | job :: rest, none, none =>
      some { s with
        channel := rest, running := some job, called := s.called ++ [(job.taskId, job.result)] }
    | _, _, _ => none
  | .returns =>
    match s.running, s.returned with
    | some job, none =>
      some { s with
        running := none
        returned := some job.taskId
        outstanding := s.outstanding - 1
        bodySlots := if job.bodyPermit then s.bodySlots + 1 else s.bodySlots
        finished := s.finished ++ [job.taskId] }
    | _, _ => none
  | .ack =>
    match s.returned with
    | none => none
    | some taskId => some { s with returned := none, acks := s.acks ++ [taskId] }

end BinaryState

end RustyCat
