import RustyCat.Scheduler.Loop
import RustyCat.Worker.Run

/-!
# Scheduler and workers together

The scheduler loop and one worker run for every active key, interleaved.  A
pause, a cancel and a close of an active group are several scheduler steps: the
lifecycle exchange, the cancellation of the token and the update of the sets.
Workers may step in between; events are handled only when the scheduler is back
in its loop.  Every worker has its own event queue, so the events of different
workers are handled in any order.
-/

namespace RustyCat

/-- Where the scheduler stands inside a command. -/
inductive SchedPc where
  | idle
  /-- The exchange of a pause or cancel was made; the token comes next. -/
  | token (key : UniqueId) (kind : StopKind) (disposition : StopRequestDisposition)
  /-- The sets come next. -/
  | marks (key : UniqueId) (kind : StopKind)
  /-- The active keys a close still has to stop, and the keys without a worker. -/
  | closing (activeKeys inactiveKeys : List UniqueId)
  /-- The exchange of a close was made for the key; the set comes next. -/
  | closeSet (key : UniqueId) (disposition : StopRequestDisposition)
      (activeKeys inactiveKeys : List UniqueId)
  /-- The token comes next. -/
  | closeToken (key : UniqueId) (disposition : StopRequestDisposition)
      (activeKeys inactiveKeys : List UniqueId)
  deriving DecidableEq

structure Worker where
  pc : Pc
  outbox : List WorkerEvent
  deriving DecidableEq

structure System where
  world : World
  phase : Phase
  /-- The tasks submitted so far. -/
  tasks : HashMap TaskId InnerTask
  sched : SchedPc
  workers : UniqueId → Option Worker

namespace System

def init (maxUpload maxDownload : Nat) (listeners : List Nat) : System where
  world := { state := .new maxUpload maxDownload listeners, heap := fun _ => .new }
  phase := .running
  tasks := ∅
  sched := .idle
  workers := fun _ => none

inductive Label where
  | cmd (cmd : TransferCmd)
  /-- The scheduler goes on with the command it is in. -/
  | sched
  /-- The scheduler handles the oldest event of the worker of the key. -/
  | deliver (key : UniqueId)
  | work (key : UniqueId) (choice : Choice)
  | finishClose
  | listeners (ids : List Nat)

def setWorker (s : System) (key : UniqueId) (worker : Option Worker) : System :=
  { s with workers := fun k => if k = key then worker else s.workers k }

def spawn (s : System) (started : Started) : System :=
  s.setWorker started.key (some { pc := .prepCheck 0 started.startOffset, outbox := [] })

/-- The world after `try_start_next`, with the workers it started. -/
def settle (s : System) (next : World × List Started) : System :=
  next.2.foldl spawn { s with world := next.1 }

def submitted : TransferCmd → Option InnerTask
  | .enqueue inner _ | .enqueuePaused inner _ => some inner
  | .pause _ | .resume _ | .cancel _ | .snapshot | .close _ _ => none

/-- The key of a pause or cancel of an active group. -/
def stops (s : System) : TransferCmd → Option (UniqueId × StopKind)
  | .pause id =>
    (s.world.state.taskIdToDedupe.lookup id).bind fun key =>
      if key ∈ s.world.state.active then some (key, .pause) else none
  | .cancel id =>
    (s.world.state.taskIdToDedupe.lookup id).bind fun key =>
      if key ∈ s.world.state.active then some (key, .cancel) else none
  | _ => none

def submit (s : System) (cmd : TransferCmd) : System :=
  match submitted cmd with
  | some inner => { s with tasks := s.tasks.insert inner.taskId inner }
  | none => s

/-- A command reaches the idle scheduler.  A stop of an active group and a close
begin here and go on in later steps. -/
def handle (s : System) (cmd : TransferCmd) : System :=
  match s.stops cmd with
  | some (key, kind) =>
    let (world, disposition) := s.world.claimStop key kind
    { s with world := world, sched := .token key kind disposition }
  | none =>
    match cmd with
    | .close activeKeys inactiveKeys => { s with sched := .closing activeKeys inactiveKeys }
    | _ =>
      let (world, started, _) := s.world.handleCmd cmd
      (s.submit cmd).settle (world, started)

/-- The set updates of a pause or a cancel of an active group. -/
def applyMarks (w : World) (key : UniqueId) : StopKind → World
  | .cancel => w.cancelMark key
  | .pause | .close => w.pauseMark key true

/-- The scheduler goes on inside a command. -/
def stepSched (s : System) : Option System :=
  match s.sched with
  | .idle => none
  | .token key kind disposition =>
    some { s with world := s.world.interruptIf disposition key, sched := .marks key kind }
  | .marks key kind =>
    some ({ s with sched := .idle }.settle (applyMarks s.world key kind).tryStartNext)
  | .closing [] inactiveKeys =>
    some { s with
      world := inactiveKeys.foldl World.closeInactive s.world
      phase := .draining
      sched := .idle }
  | .closing (key :: activeKeys) inactiveKeys =>
    if key ∈ s.world.state.cancelingSet then
      some { s with
        world := s.world.closeActive key
        sched := .closing activeKeys inactiveKeys }
    else
      let (world, disposition) := s.world.claimStop key .close
      some { s with
        world := world
        sched := .closeSet key disposition activeKeys inactiveKeys }
  | .closeSet key disposition activeKeys inactiveKeys =>
    some { s with
      world := s.world.onState (·.pause key)
      sched := .closeToken key disposition activeKeys inactiveKeys }
  | .closeToken key disposition activeKeys inactiveKeys =>
    some { s with
      world := s.world.interruptIf disposition key
      sched := .closing activeKeys inactiveKeys }

/-- The scheduler handles an event; a terminal one was the last of its worker. -/
def handleEvent (s : System) (key : UniqueId) (event : WorkerEvent) (rest : List WorkerEvent)
    (worker : Worker) : System :=
  let received :=
    if event.mayChangeSchedulerReadiness then s.setWorker key none
    else s.setWorker key (some { worker with outbox := rest })
  match s.phase with
  | .running => received.settle (s.world.handleEvent event)
  | .draining | .closed => { received with world := s.world.handleQuiescentWorkerEvent event }

/-- The run of the worker of a registered key. -/
def runAt (s : System) (key : UniqueId) : Option (InnerTask × Run) :=
  match s.workers key, s.world.state.active.lookup key, s.world.state.groups.lookup key with
  | some worker, some active, some group =>
    some (group.leaderInner,
      { pc := worker.pc
        outbox := worker.outbox
        token := active.cancelled
        cell := s.world.heap group.leaderInner.taskId })
  | _, _, _ => none

/-- Writes back what a step of the worker changed. -/
def setRun (s : System) (key : UniqueId) (id : TaskId) (run : Run) : System :=
  let written := s.world.onCell id fun _ => run.cell
  { s.setWorker key (some { pc := run.pc, outbox := run.outbox }) with
    world := if run.token then written.onState (·.interrupt key) else written }

def step (s : System) : Label → Option System
  | .cmd cmd =>
    if s.sched = .idle ∧ s.phase = .running ∧ Disjoint (Loop.used cmd) s.tasks.keys ∧
        Loop.enumerates s.world.state cmd then
      some (s.handle cmd)
    else none
  | .sched => s.stepSched
  | .deliver key =>
    if s.sched = .idle then
      match s.workers key with
      | some worker =>
        match worker.outbox with
        | event :: rest => some (s.handleEvent key event rest worker)
        | [] => none
      | none => none
    else none
  | .work key choice =>
    (s.runAt key).bind fun (inner, run) =>
      (run.step inner choice).map fun next => s.setRun key inner.taskId next
  | .finishClose =>
    if s.sched = .idle ∧ s.phase = .draining ∧ s.world.state.active.keys = ∅ then
      some { s with world := s.world.closeClear, phase := .closed }
    else none
  | .listeners ids =>
    some { s with world := s.world.onState fun st => { st with globalProgressListener := ids } }

end System

end RustyCat
