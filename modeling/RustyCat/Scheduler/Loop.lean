import RustyCat.Lib.Machine
import RustyCat.Scheduler.Invariant

/-!
# The worker loop

`worker_loop` of `executor.rs` as a machine.  Its inputs are the commands of the
client, the events of the workers and, while a close drains, the end of the
close.  A worker event is delivered only for an active key; the handler of a
terminal event makes the key inactive, so a started worker delivers one terminal
event.  Task ids come from a counter and are never used twice.
-/

namespace RustyCat

inductive TransferCmd where
  | enqueue (inner : InnerTask) (callbacks : TaskCallbacks)
  | enqueuePaused (inner : InnerTask) (callbacks : TaskCallbacks)
  | pause (id : TaskId)
  | resume (id : TaskId)
  | cancel (id : TaskId)
  | snapshot
  /-- The two lists are the orders in which the hash maps yield the active keys and
  the keys without a worker. -/
  | close (activeKeys inactiveKeys : List UniqueId)

inductive Reply where
  | none
  | result (answer : Except MeowError Unit)
  | snapshot (queuedGroups activeGroups : Nat) (activeKeys : Finset UniqueId)

def taskNotFoundError (id : TaskId) : MeowError :=
  .fromCode .taskNotFound s!"task not found: {id}"

namespace World

/-- Looks the task id up and applies the control function to its key. -/
def control (w : World) (id : TaskId) (act : World → UniqueId → World × Except MeowError Unit) :
    World × Except MeowError Unit :=
  match w.state.taskIdToDedupe.lookup id with
  | some key => act w key
  | none => (w, .error (taskNotFoundError id))

/-- The first half of `Close`: every worker is asked to stop, every group without
a worker reports `Paused`. -/
def closeBegin (w : World) (activeKeys inactiveKeys : List UniqueId) : World :=
  inactiveKeys.foldl closeInactive (activeKeys.foldl closeActive w)

/-- A command arm of the loop, with the workers it starts and its reply.  A
duplicate enqueue and a paused import do not look at the queue. -/
def handleCmd (w : World) : TransferCmd → World × List Started × Reply
  | .enqueue inner callbacks =>
    match w.state.groups.lookup inner.dedupeKey with
    | some existing => (w.rejectDuplicate existing callbacks, [], .none)
    | none =>
      let (next, started) := (w.enqueueNew inner callbacks).tryStartNext
      (next, started, .none)
  | .enqueuePaused inner callbacks =>
    match w.state.groups.lookup inner.dedupeKey with
    | some existing => (w.rejectDuplicate existing callbacks, [], .none)
    | none => (w.enqueuePausedNew inner callbacks, [], .none)
  | .pause id =>
    let (handled, answer) := w.control id fun w key => (w.pauseGroup key, .ok ())
    let (next, started) := handled.tryStartNext
    (next, started, .result answer)
  | .resume id =>
    let (handled, answer) := w.control id resumeGroup
    let (next, started) := handled.tryStartNext
    (next, started, .result answer)
  | .cancel id =>
    let (handled, answer) := w.control id fun w key => (w.cancelGroup key, .ok ())
    let (next, started) := handled.tryStartNext
    (next, started, .result answer)
  | .snapshot =>
    (w, [], .snapshot w.state.queued.length w.state.active.keys.card w.state.active.keys)
  | .close activeKeys inactiveKeys => (w.closeBegin activeKeys inactiveKeys, [], .none)

def handleEvent (w : World) (event : WorkerEvent) : World × List Started :=
  let handled := w.handleQuiescentWorkerEvent event
  if event.mayChangeSchedulerReadiness then handled.tryStartNext else (handled, [])

end World

inductive Phase where
  | running
  | draining
  | closed
  deriving DecidableEq, Repr

/-- The loop, where it stands, and the task ids used so far. -/
structure Loop where
  world : World
  phase : Phase
  issued : Finset TaskId

namespace Loop

def init (maxUpload maxDownload : Nat) (listeners : List Nat) : Loop where
  world := { state := .new maxUpload maxDownload listeners, heap := fun _ => .new }
  phase := .running
  issued := ∅

inductive Input where
  | cmd (cmd : TransferCmd)
  | event (event : WorkerEvent)
  /-- The drain of `Close` found no active group. -/
  | finishClose
  /-- The client registers or removes global listeners. -/
  | listeners (ids : List Nat)
  /-- A worker moves the lifecycle of its task. -/
  | worker (id : TaskId) (life : TransferLifecycle)

def used : TransferCmd → Finset TaskId
  | .enqueue inner _ | .enqueuePaused inner _ => {inner.taskId}
  | .pause _ | .resume _ | .cancel _ | .snapshot | .close _ _ => ∅

/-- The lists of a close are enumerations of the key sets they stand for. -/
def enumerates (s : SchedulerState) : TransferCmd → Bool
  | .close activeKeys inactiveKeys =>
    activeKeys.Nodup ∧ activeKeys.toFinset = s.active.keys ∧
    inactiveKeys.Nodup ∧ inactiveKeys.toFinset = s.groups.keys.filter (· ∉ s.active)
  | .enqueue _ _ | .enqueuePaused _ _ | .pause _ | .resume _ | .cancel _ | .snapshot => true

def phaseAfter : TransferCmd → Phase
  | .close _ _ => .draining
  | .enqueue _ _ | .enqueuePaused _ _ | .pause _ | .resume _ | .cancel _ | .snapshot => .running

/-- The world after a worker event; a draining close starts nothing. -/
def eventWorld (l : Loop) (event : WorkerEvent) : World :=
  match l.phase with
  | .running => (l.world.handleEvent event).1
  | .draining | .closed => l.world.handleQuiescentWorkerEvent event

def step (l : Loop) : Input → Option Loop
  | .cmd cmd =>
    if l.phase = .running ∧ Disjoint (used cmd) l.issued ∧ enumerates l.world.state cmd then
      some
        { world := (l.world.handleCmd cmd).1
          phase := phaseAfter cmd
          issued := used cmd ∪ l.issued }
    else none
  | .event event =>
    if l.phase ≠ .closed ∧ event.key ∈ l.world.state.active then
      some { l with world := l.eventWorld event }
    else none
  | .finishClose =>
    if l.phase = .draining ∧ l.world.state.active.keys = ∅ then
      some { l with world := l.world.closeClear, phase := .closed }
    else none
  | .listeners ids =>
    some { l with world := l.world.onState fun s => { s with globalProgressListener := ids } }
  | .worker id life =>
    some { l with world := l.world.onCell id fun cell => { cell with life := life } }

end Loop

end RustyCat
