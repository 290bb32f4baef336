import RustyCat.System.Arbitration

/-!
# The invariant of one task

A registered task without a worker is ready to start, a task with a worker keeps
the arbitration invariant, and the history of every task obeys the law.  Each
step of the task machine keeps this.
-/

namespace RustyCat

open History

/-- A registered task without a worker can start afresh. -/
structure RestOk (cell : TaskCell) : Prop where
  opened : cell.life.terminal = .opened
  uncanceled : ¬ cancelAccepted cell.history
  quiet : requested cell.history = returned cell.history
  unaborted : cell.life.abortStarted = false
  abortFree : aborts cell.history = 0
  incomplete : completeRecords cell.history = 0
  law : Trace.Always Law cell.history

def TaskView.Ok : TaskView → Prop
  | .gone cell => Trace.Always Law cell.history
  | .idle _ cell => RestOk cell
  | .live _ run paused canceling focus => LiveOk run.stance paused canceling focus

section Steps

variable {inner : InnerTask} {a : Stance} {paused canceling : Bool} {focus : Focus}
  {cell : TaskCell} {event : TaskEvent}

attribute [local simp] noteStop noteYield noteEnd TaskEvent.isRequested TaskEvent.isReturned
  TaskEvent.isCompleteRecord Law Trace.always_append_singleton

attribute [local grind =] WorkerEvent.mayChangeSchedulerReadiness Stance.busy Focus.interrupts
  Focus.cancels

theorem RestOk.new : RestOk .new where
  opened := rfl
  uncanceled := by simp [cancelAccepted, TaskCell.new]
  quiet := rfl
  unaborted := rfl
  abortFree := rfl
  incomplete := rfl
  law := Trace.always_nil _

theorem RestOk.emit (ok : RestOk cell)
    (plain : event.IsRecord inner fun status => status ≠ .complete ∧ status ≠ .canceled) :
    RestOk (cell.log event) := by
  obtain ⟨r, sinks, rfl, -, incomplete, uncanceled⟩ := plain
  cases ok
  constructor <;> simp_all

theorem RestOk.pause (ok : RestOk cell) (kind : StopKind) (pause : kind ≠ .cancel) :
    RestOk (cell.log (.stopAccepted kind)) := by
  cases ok
  constructor <;> simp_all

theorem RestOk.start (ok : RestOk cell) (offset : Nat) :
    LiveOk (Run.spawn offset (cell.log .started)).stance false false .none := by
  cases ok
  simp only [Run.spawn, Run.stance, Pc.mode, Pc.sawStop, Pc.calls]
  refine ⟨?_, ?_, ?_, ?_, ?_, ?_⟩
  · constructor <;> simp_all [Terminal.stopRequested]
  · constructor <;> simp_all [Terminal.claimed]
  · constructor <;> simp_all [Terminal.cancelRequested, Focus.cancels]
  · constructor <;> simp_all
  · constructor <;> simp_all
  · simp_all

theorem LiveOk.same {next : TaskCell} (ok : LiveOk a paused canceling focus)
    (terminal : next.life.terminal = a.cell.life.terminal)
    (started : next.life.abortStarted = a.cell.life.abortStarted)
    (summary : SameSummary a.cell.history next.history) (law : Trace.Always Law next.history) :
    LiveOk { a with cell := next } paused canceling focus := by
  obtain ⟨stop, claim, mark, calls, sent, -⟩ := ok
  cases stop
  cases claim
  cases mark
  cases calls
  cases sent
  cases summary
  refine ⟨?_, ?_, ?_, ?_, ?_, law⟩
  · constructor <;> grind -ring -linarith
  · constructor <;> grind -ring -linarith
  · constructor <;> grind -ring -linarith
  · constructor <;> grind -ring -linarith
  · constructor <;> grind -ring -linarith

theorem LiveOk.emit (ok : LiveOk a paused canceling focus)
    (plain : event.IsRecord inner fun status => status ≠ .complete ∧ status ≠ .canceled) :
    LiveOk { a with cell := a.cell.log event } paused canceling focus := by
  obtain ⟨r, sinks, rfl, -, incomplete, uncanceled⟩ := plain
  refine ok.same rfl rfl ?_ ?_
  · constructor <;> simp [incomplete]
  · simp [ok.law, incomplete, uncanceled]

theorem LiveOk.acceptStop (ok : LiveOk a paused false .none) (kind : StopKind)
    (begun : focus ≠ .none) (opened : ∀ disposition, focus ≠ .closeToken disposition)
    (interrupts : focus.interrupts = true ↔ (kind.begin a.cell.life.terminal).2 = .interruptNow)
    (cancels : focus.cancels = true ↔ kind = .cancel) :
    LiveOk { a with cell := a.cell.acceptStop kind } paused false focus := by
  have now := kind.begin_interruptNow_iff a.cell.life.terminal
  have cancel := kind.begin_cancelRequested a.cell.life.terminal
  obtain ⟨stop, claim, mark, calls, sent, law⟩ := ok
  cases stop
  cases claim
  cases mark
  cases calls
  cases sent
  refine ⟨?_, ?_, ?_, ?_, ?_, ?_⟩
  · constructor <;> simp [TaskCell.acceptStop] <;> grind -ring -linarith
  · constructor <;> simp [TaskCell.acceptStop] <;> grind -ring -linarith
  · constructor <;> simp [TaskCell.acceptStop, opened] <;> grind -ring -linarith
  · constructor <;> simp [TaskCell.acceptStop] <;> grind -ring -linarith
  · constructor <;> simp [TaskCell.acceptStop] <;> grind -ring -linarith
  · simpa [TaskCell.acceptStop]

theorem LiveOk.proceed {token' paused' canceling' : Bool} {next : Focus}
    (ok : LiveOk a paused canceling focus) (begun : focus ≠ .none)
    (token : token' = true → a.token = true ∨ focus.interrupts = true)
    (kept : a.token = true → token' = true)
    (interrupts : next.interrupts = true → focus.interrupts = true)
    (delivers : focus.interrupts = true → token' = true ∨ next.interrupts = true)
    (settled : next = .none → paused' = true ∨ canceling' = true)
    (closing : ∀ disposition, next = .closeToken disposition → paused' = true)
    (grows : canceling = true → canceling' = true)
    (cancels : canceling' = true ∨ next.cancels = true ↔ canceling = true ∨ focus.cancels = true) :
    LiveOk { a with token := token' } paused' canceling' next := by
  obtain ⟨stop, claim, mark, calls, sent, law⟩ := ok
  cases stop
  cases claim
  cases mark
  cases calls
  cases sent
  refine ⟨?_, ?_, ?_, ?_, ?_, law⟩
  · constructor <;> grind -ring -linarith
  · constructor <;> grind -ring -linarith
  · constructor <;> grind -ring -linarith
  · constructor <;> grind -ring -linarith
  · constructor <;> grind -ring -linarith

theorem LiveOk.closeCanceling (ok : LiveOk a paused true .none) :
    LiveOk { a with token := true, cell := a.cell.log (.stopAccepted .close) } paused true
      .none := by
  obtain ⟨stop, claim, mark, calls, sent, law⟩ := ok
  cases stop
  cases claim
  cases mark
  cases calls
  cases sent
  refine ⟨?_, ?_, ?_, ?_, ?_, ?_⟩
  · constructor <;> simp <;> grind -ring -linarith
  · constructor <;> simp <;> grind -ring -linarith
  · constructor <;> simp <;> grind -ring -linarith
  · constructor <;> simp <;> grind -ring -linarith
  · constructor <;> simp <;> grind -ring -linarith
  · simpa

theorem LiveOk.receive {rest : List WorkerEvent} (ok : LiveOk a paused canceling .none)
    (fewer : ∀ event ∈ rest, event ∈ a.outbox) :
    LiveOk { a with outbox := rest } paused canceling .none := by
  obtain ⟨stop, claim, mark, calls, sent, law⟩ := ok
  cases stop
  cases claim
  cases mark
  cases calls
  cases sent
  refine ⟨?_, ?_, ?_, ?_, ?_, law⟩
  · constructor <;> assumption
  · constructor <;> assumption
  · constructor <;> assumption
  · constructor <;> assumption
  · constructor <;> grind -ring -linarith

theorem law_logSome {event : Option TaskEvent} (law : Trace.Always Law cell.history)
    (obeys : ∀ e ∈ event, Law cell.history e) :
    Trace.Always Law (cell.logSome event).history := by
  cases event with
  | none => exact law
  | some e => exact Trace.always_append_singleton.mpr ⟨law, obeys e rfl⟩

theorem LiveOk.quiet {event : WorkerEvent} (ok : LiveOk a paused canceling focus)
    (sent : event ∈ a.outbox) (ends : event.mayChangeSchedulerReadiness = true) :
    requested a.cell.history = returned a.cell.history := by
  have idle := ok.calls.finished (ok.sent.terminal event sent ends)
  have counted := ok.calls.requests
  omega

theorem LiveOk.abort_law (ok : LiveOk a paused canceling focus)
    (quiet : requested a.cell.history = returned a.cell.history) (direction : Direction) :
    Trace.Always Law
      (if canceling then a.cell.executorCancel direction else a.cell).history := by
  split
  · exact a.cell.executorCancel_law direction ok.law ok.calls.aborts quiet ok.calls.incomplete
  · exact ok.law

variable {key : UniqueId} {total : Nat}

theorem LiveOk.stopped (ok : LiveOk a paused false .none) (sent : .canceled key total ∈ a.outbox) :
    RestOk (a.cell.setTerminal a.cell.life.terminal.resetPause) := by
  obtain ⟨-, requested, free, unaborted⟩ := ok.sent.canceled key total sent
  have uncanceled : ¬ cancelAccepted a.cell.history := by
    intro accepted
    rcases ok.mark.cancel accepted with marked | cancels
    · cases marked
    · cases cancels
  have pausing : a.cell.life.terminal = .pausing := by
    refine Terminal.eq_pausing requested (free rfl) ?_
    rw [← Bool.not_eq_true]
    exact fun cancel => uncanceled (ok.mark.terminal cancel)
  have counted := ok.calls.aborts
  rw [unaborted] at counted
  exact ⟨by rw [pausing]; rfl, uncanceled, ok.quiet sent rfl, unaborted, counted,
    ok.calls.incomplete, ok.law⟩

theorem LiveOk.canceled (ok : LiveOk a paused canceling .none)
    (sent : .canceled key total ∈ a.outbox) (ends : paused = false ∨ canceling = true)
    (event : Option TaskEvent)
    (last : ∀ e ∈ event, e.IsRecord inner fun status => status = .canceled) :
    Trace.Always Law ((if canceling then a.cell.executorCancel inner.direction
      else a.cell).logSome event).history := by
  have stop := (ok.sent.canceled key total sent).1
  have marked : canceling = true := by
    rcases ok.mark.settled rfl stop with paused' | marked
    · exact ends.resolve_left (by simp [paused'])
    · exact marked
  refine law_logSome (ok.abort_law (ok.quiet sent rfl) _) fun e member => ?_
  obtain ⟨r, sinks, rfl, direction, status⟩ := last e member
  rw [if_pos marked]
  refine ⟨fun _ => ⟨?_, fun upload => ?_⟩, fun complete => ?_⟩
  · exact (TaskCell.executorCancel_cancelAccepted ..).mpr (ok.mark.canceling marked)
  · rw [TaskCell.executorCancel_aborts _ _ ok.calls.aborts,
      if_pos (Or.inr (direction.symm.trans upload))]
  · rw [status] at complete
    cases complete

theorem RestOk.cancel (ok : RestOk cell) (event : Option TaskEvent)
    (last : ∀ e ∈ event, e.IsRecord inner fun status => status = .canceled) :
    Trace.Always Law
      (((cell.acceptStop .cancel).executorCancel inner.direction).logSome event).history := by
  have counted : aborts (cell.acceptStop .cancel).history =
      if (cell.acceptStop .cancel).life.abortStarted then 1 else 0 := by
    simp [TaskCell.acceptStop, ok.abortFree, ok.unaborted]
  refine law_logSome (TaskCell.executorCancel_law _ _ ?_ counted ?_ ?_) fun e member => ?_
  · simp [TaskCell.acceptStop, ok.law]
  · simp [TaskCell.acceptStop, ok.quiet]
  · simp [TaskCell.acceptStop, ok.incomplete]
  · obtain ⟨r, sinks, rfl, direction, status⟩ := last e member
    refine ⟨fun _ => ⟨?_, fun upload => ?_⟩, fun complete => ?_⟩
    · exact (TaskCell.executorCancel_cancelAccepted ..).mpr (by simp [TaskCell.acceptStop])
    · rw [TaskCell.executorCancel_aborts _ _ counted,
        if_pos (Or.inr (direction.symm.trans upload))]
    · rw [status] at complete
      cases complete

theorem LiveOk.completed {payload : Option String} (ok : LiveOk a paused canceling .none)
    (sent : .completed key total payload ∈ a.outbox) (event callback : Option TaskEvent)
    (last : ∀ e ∈ event, e.IsRecord inner fun status => status = .complete)
    (calls : ∀ e ∈ callback, ∃ id payload, e = .completeCallback id payload) :
    Trace.Always Law ((a.cell.logSome event).logSome callback).history := by
  refine law_logSome (law_logSome ok.law fun e member => ?_) fun e member => ?_
  · obtain ⟨r, sinks, rfl, -, status⟩ := last e member
    refine ⟨fun canceled => ?_, fun _ => ?_⟩
    · rw [status] at canceled
      cases canceled
    · have counted := ok.calls.aborts
      rw [ok.sent.completed _ _ _ sent] at counted
      exact counted
  · obtain ⟨id, payload, rfl⟩ := calls e member
    trivial

end Steps

theorem sent_of_head {run : Run} {event : WorkerEvent} {rest : List WorkerEvent}
    (head : run.outbox = event :: rest) : event ∈ run.stance.outbox := by
  rw [Run.stance, head]
  exact List.mem_cons_self

namespace TaskView

variable {ok : InnerTask → Run → Choice → Prop} {v w : TaskView}

theorem Ok.step (good : v.Ok) (step : TaskStep ok v w) : w.Ok := by
  cases step with
  | register inner => exact RestOk.new
  | emitIdle event plain => exact RestOk.emit good plain
  | emitLive event plain => exact LiveOk.emit good plain
  | start offset => exact RestOk.start good offset
  | pauseIdle kind pause => exact RestOk.pause good kind pause
  | cancelIdle event last => exact RestOk.cancel good event last
  | clear => exact RestOk.law good
  | work choice allowed taken =>
    exact LiveOk.acts good (Run.step_acts (Run.step_cases taken))
  | claim kind stop =>
    refine LiveOk.acceptStop good kind (by simp) (by simp) ?_ ?_
    · simp [Focus.interrupts, Run.stance]
    · simp [Focus.cancels]
  | token =>
    refine LiveOk.proceed good (by simp) ?_ ?_ ?_ ?_ ?_ ?_ id ?_ <;>
      simp_all [Focus.interrupts, Focus.cancels, Run.stance, Run.interruptIf]
  | marksPause | closeSet =>
    refine LiveOk.proceed good (by simp) ?_ ?_ ?_ ?_ ?_ ?_ id ?_ <;>
      simp_all [Focus.interrupts, Focus.cancels, Run.stance]
  | marksCancel =>
    refine LiveOk.proceed good (by simp) ?_ ?_ ?_ ?_ ?_ ?_ ?_ ?_ <;>
      simp_all [Focus.interrupts, Focus.cancels, Run.stance]
  | close =>
    refine LiveOk.acceptStop good .close (by simp) (by simp) ?_ ?_
    · simp [Focus.interrupts, Run.stance]
    · simp [Focus.cancels]
  | closeToken =>
    have paused := good.mark.closing _ rfl
    refine LiveOk.proceed good (by simp) ?_ ?_ ?_ ?_ ?_ ?_ id ?_ <;>
      simp_all [Focus.interrupts, Focus.cancels, Run.stance, Run.interruptIf]
  | closeCanceling => exact LiveOk.closeCanceling good
  | progress head =>
    refine LiveOk.receive good fun event member => ?_
    rw [Run.stance, head]
    exact List.mem_cons_of_mem _ member
  | completed head event callback last calls =>
    exact LiveOk.completed good (sent_of_head head) event callback last calls
  | failed head event last =>
    have quiet := LiveOk.quiet good (sent_of_head head) rfl
    refine law_logSome (LiveOk.abort_law good quiet _) fun e member => ?_
    obtain ⟨r, sinks, rfl, -, status⟩ := last e member
    simp [Law, status]
  | stopped head => exact LiveOk.stopped good (sent_of_head head)
  | canceled head ends event last =>
    exact LiveOk.canceled good (sent_of_head head) ends event last

theorem Ok.law (good : v.Ok) : Trace.Always Law v.cell.history := by
  cases v with
  | gone cell => exact good
  | idle inner cell => exact RestOk.law good
  | live inner run paused canceling focus => exact LiveOk.law good

end TaskView

theorem TaskSteps.ok {allowed : InnerTask → Run → Choice → Prop} {v w : TaskView}
    (steps : TaskSteps allowed v w) (good : v.Ok) : w.Ok := by
  induction steps with
  | refl => exact good
  | tail _ step ih => exact ih.step step

end RustyCat
