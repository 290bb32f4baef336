import Mathlib.Logic.Relation
import RustyCat.Worker.Run

/-!
# The machine of one task

What can happen to one task, with everything else left out: it is registered,
started, stopped and restarted any number of times, and it ends.  The worker is
the run machine; the scheduler's handling of the task is split into the steps
that a worker can observe.
-/

namespace RustyCat

/-- What the scheduler is about to do for the task inside a command. -/
inductive Focus where
  | none
  | token (kind : StopKind) (disposition : StopRequestDisposition)
  | marks (kind : StopKind)
  | closeSet (disposition : StopRequestDisposition)
  | closeToken (disposition : StopRequestDisposition)
  deriving DecidableEq

inductive TaskView where
  /-- Not registered: not yet, or no longer. -/
  | gone (cell : TaskCell)
  /-- Registered without a worker. -/
  | idle (inner : InnerTask) (cell : TaskCell)
  | live (inner : InnerTask) (run : Run) (paused canceling : Bool) (focus : Focus)

namespace TaskView

def cell : TaskView → TaskCell
  | gone cell | idle _ cell => cell
  | live _ run _ _ _ => run.cell

end TaskView

def TaskCell.logSome (cell : TaskCell) : Option TaskEvent → TaskCell
  | some event => cell.log event
  | none => cell

namespace TaskEvent

/-- A record of the task with one of the given statuses. -/
def IsRecord (inner : InnerTask) (ok : TransferStatus → Prop) (event : TaskEvent) : Prop :=
  ∃ r sinks, event = record r sinks ∧ r.direction = inner.direction ∧ ok r.status

end TaskEvent

/-- The exchange of a stop on a running task. -/
def Run.acceptStop (run : Run) (kind : StopKind) : Run :=
  { run with cell := run.cell.acceptStop kind }

def Run.interruptIf (run : Run) (disposition : StopRequestDisposition) : Run :=
  { run with token := run.token || disposition = .interruptNow }

/-- The steps of one task.  `ok` restricts the steps of the worker. -/
inductive TaskStep (ok : InnerTask → Run → Choice → Prop) : TaskView → TaskView → Prop where
  | register (inner : InnerTask) : TaskStep ok (.gone .new) (.idle inner .new)
  | emitIdle {inner : InnerTask} {cell : TaskCell} (event : TaskEvent)
      (plain : event.IsRecord inner fun status => status ≠ .complete ∧ status ≠ .canceled) :
      TaskStep ok (.idle inner cell) (.idle inner (cell.log event))
  | emitLive {inner : InnerTask} {run : Run} {paused canceling : Bool} {focus : Focus}
      (event : TaskEvent)
      (plain : event.IsRecord inner fun status => status ≠ .complete ∧ status ≠ .canceled) :
      TaskStep ok (.live inner run paused canceling focus)
        (.live inner { run with cell := run.cell.log event } paused canceling focus)
  | start {inner : InnerTask} {cell : TaskCell} (offset : Nat) :
      TaskStep ok (.idle inner cell)
        (.live inner (.spawn offset (cell.log .started)) false false .none)
  | pauseIdle {inner : InnerTask} {cell : TaskCell} (kind : StopKind) (pause : kind ≠ .cancel) :
      TaskStep ok (.idle inner cell) (.idle inner (cell.log (.stopAccepted kind)))
  | cancelIdle {inner : InnerTask} {cell : TaskCell} (event : Option TaskEvent)
      (last : ∀ e ∈ event, e.IsRecord inner fun status => status = .canceled) :
      TaskStep ok (.idle inner cell)
        (.gone (((cell.acceptStop .cancel).executorCancel inner.direction).logSome event))
  | clear {inner : InnerTask} {cell : TaskCell} : TaskStep ok (.idle inner cell) (.gone cell)
  | work {inner : InnerTask} {run next : Run} {paused canceling : Bool} {focus : Focus}
      (choice : Choice) (allowed : ok inner run choice)
      (taken : run.step inner choice = some next) :
      TaskStep ok (.live inner run paused canceling focus)
        (.live inner next paused canceling focus)
  | claim {inner : InnerTask} {run : Run} {paused : Bool} (kind : StopKind)
      (stop : kind ≠ .close) :
      TaskStep ok (.live inner run paused false .none)
        (.live inner (run.acceptStop kind) paused false
          (.token kind (kind.begin run.cell.life.terminal).2))
  | token {inner : InnerTask} {run : Run} {paused canceling : Bool} {kind : StopKind}
      {disposition : StopRequestDisposition} :
      TaskStep ok (.live inner run paused canceling (.token kind disposition))
        (.live inner (run.interruptIf disposition) paused canceling (.marks kind))
  | marksPause {inner : InnerTask} {run : Run} {paused canceling : Bool} {kind : StopKind}
      (pause : kind ≠ .cancel) :
      TaskStep ok (.live inner run paused canceling (.marks kind))
        (.live inner run true canceling .none)
  | marksCancel {inner : InnerTask} {run : Run} {paused canceling : Bool} :
      TaskStep ok (.live inner run paused canceling (.marks .cancel))
        (.live inner run false true .none)
  | close {inner : InnerTask} {run : Run} {paused : Bool} :
      TaskStep ok (.live inner run paused false .none)
        (.live inner (run.acceptStop .close) paused false
          (.closeSet (StopKind.begin .close run.cell.life.terminal).2))
  | closeSet {inner : InnerTask} {run : Run} {paused canceling : Bool}
      {disposition : StopRequestDisposition} :
      TaskStep ok (.live inner run paused canceling (.closeSet disposition))
        (.live inner run true canceling (.closeToken disposition))
  | closeToken {inner : InnerTask} {run : Run} {paused canceling : Bool}
      {disposition : StopRequestDisposition} :
      TaskStep ok (.live inner run paused canceling (.closeToken disposition))
        (.live inner (run.interruptIf disposition) paused canceling .none)
  | closeCanceling {inner : InnerTask} {run : Run} {paused : Bool} :
      TaskStep ok (.live inner run paused true .none)
        (.live inner
          { run with token := true, cell := run.cell.log (.stopAccepted .close) } paused true .none)
  | progress {inner : InnerTask} {run : Run} {paused canceling : Bool} {nextOffset total : Nat}
      {rest : List WorkerEvent}
      (head : run.outbox = .progress inner.dedupeKey nextOffset total :: rest) :
      TaskStep ok (.live inner run paused canceling .none)
        (.live inner { run with outbox := rest } paused canceling .none)
  | completed {inner : InnerTask} {run : Run} {paused canceling : Bool} {total : Nat}
      {payload : Option String} {rest : List WorkerEvent}
      (head : run.outbox = .completed inner.dedupeKey total payload :: rest)
      (event callback : Option TaskEvent)
      (last : ∀ e ∈ event, e.IsRecord inner fun status => status = .complete)
      (calls : ∀ e ∈ callback, ∃ id payload, e = .completeCallback id payload) :
      TaskStep ok (.live inner run paused canceling .none)
        (.gone ((run.cell.logSome event).logSome callback))
  | failed {inner : InnerTask} {run : Run} {paused canceling : Bool} {error : MeowError}
      {total : Nat} {rest : List WorkerEvent}
      (head : run.outbox = .failed inner.dedupeKey error total :: rest) (event : Option TaskEvent)
      (last : ∀ e ∈ event, e.IsRecord inner fun status => status = .failed error) :
      TaskStep ok (.live inner run paused canceling .none)
        (.gone ((if canceling then run.cell.executorCancel inner.direction else run.cell).logSome
          event))
  | stopped {inner : InnerTask} {run : Run} {total : Nat} {rest : List WorkerEvent}
      (head : run.outbox = .canceled inner.dedupeKey total :: rest) :
      TaskStep ok (.live inner run true false .none)
        (.idle inner (run.cell.setTerminal run.cell.life.terminal.resetPause))
  | canceled {inner : InnerTask} {run : Run} {paused canceling : Bool} {total : Nat}
      {rest : List WorkerEvent} (head : run.outbox = .canceled inner.dedupeKey total :: rest)
      (ends : paused = false ∨ canceling = true) (event : Option TaskEvent)
      (last : ∀ e ∈ event, e.IsRecord inner fun status => status = .canceled) :
      TaskStep ok (.live inner run paused canceling .none)
        (.gone ((if canceling then run.cell.executorCancel inner.direction else run.cell).logSome
          event))

abbrev TaskSteps (ok : InnerTask → Run → Choice → Prop) : TaskView → TaskView → Prop :=
  Relation.ReflTransGen (TaskStep ok)

end RustyCat
