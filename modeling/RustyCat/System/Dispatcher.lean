import RustyCat.Lib.Channel
import RustyCat.System.Closing

/-!
# The loop and its callback dispatcher

`cb_dispatcher.rs` next to `worker_loop`.  A handler submits its callbacks one
after the other and waits while the queue is full; the dispatcher thread runs
them in the order of the queue.  The close replies after it has given up the
sender and joined the thread.
-/

namespace RustyCat

inductive CbJob where
  | progress (cb : Sink) (dto : FileTransferRecord)
  | complete (cb : Nat) (taskId : TaskId) (payload : Option String)
  deriving DecidableEq

namespace CbJob

def taskId : CbJob → TaskId
  | progress _ dto => dto.taskId
  | complete _ taskId _ => taskId

/-- `is_sampling_frame`: what `submit_progress` may drop. -/
def isSamplingFrame : CbJob → Bool
  | progress _ dto => dto.status = .transmission
  | complete _ _ _ => false

def callbackQueueCapacity : Nat := 2048

end CbJob

/-- The callbacks an entry of a task's history stands for. -/
def TaskEvent.jobs (id : TaskId) : TaskEvent → List CbJob
  | record r sinks => sinks.map fun cb => .progress cb r
  | completeCallback cb payload => [.complete cb id payload]
  | _ => []

def TaskCell.jobs (id : TaskId) (cell : TaskCell) : List CbJob :=
  cell.history.flatMap (·.jobs id)

/-- The worker loop with the callbacks its current handler still has to submit, the
dispatcher, the worker events handled so far, and whether the close has replied. -/
structure Service where
  loop : Loop
  pending : List CbJob
  dispatcher : Channel CbJob
  handled : List WorkerEvent
  replied : Bool

namespace Service

def init (maxUpload maxDownload : Nat) (listeners : List Nat) : Service where
  loop := .init maxUpload maxDownload listeners
  pending := []
  dispatcher := .empty
  handled := []
  replied := false

inductive Label where
  /-- The loop takes an input; its handler submits these callbacks. -/
  | input (input : Loop.Input) (jobs : List CbJob)
  | submit
  /-- The dispatcher thread takes the next callback. -/
  | receive
  /-- The callback returned or panicked. -/
  | finish
  /-- The dispatcher thread was joined and the close answers. -/
  | reply

/-- Inputs from other threads, which do not wait for the current handler. -/
def background : Loop.Input → Bool
  | .listeners _ | .worker _ _ => true
  | .cmd _ | .event _ | .finishClose => false

/-- The jobs are what the step noted for each task, in the task's order.  In which
order the tasks are served is left open. -/
def emits (l m : Loop) (jobs : List CbJob) : Bool :=
  (∀ job ∈ jobs, job.taskId ∈ m.issued) ∧
    ∀ id ∈ m.issued, (m.world.heap id).jobs id =
      (l.world.heap id).jobs id ++ jobs.filter (·.taskId = id)

/-- The thread ends when the sender is gone and the queue is empty. -/
def joined (s : Service) : Bool :=
  s.loop.phase = .closed ∧ s.pending = [] ∧ s.dispatcher.current = none ∧
    s.dispatcher.queue = []

/-- The step of a loop that has not exited. -/
def move (s : Service) : Label → Option Service
  | .input input jobs =>
    if s.pending = [] ∨ background input then
      (s.loop.step input).bind fun next =>
        if emits s.loop next jobs then
          some
            { s with
              loop := next
              pending := s.pending ++ jobs
              handled := s.handled ++ input.handled }
        else none
    else none
  | .submit =>
    match s.pending with
    | [] => none
    | job :: rest =>
      (s.dispatcher.send CbJob.callbackQueueCapacity CbJob.isSamplingFrame job).map fun next =>
        { s with dispatcher := next, pending := rest }
  | .receive => s.dispatcher.receive.map fun next => { s with dispatcher := next }
  | .finish => s.dispatcher.finish.map fun next => { s with dispatcher := next }
  | .reply => if s.joined then some { s with replied := true } else none

def step (s : Service) (label : Label) : Option Service :=
  if s.replied then none else s.move label

end Service

end RustyCat
