import RustyCat.System.History
import RustyCat.System.TaskMachine
import RustyCat.Worker.Effects

/-!
# Arbitration between a run and the stops

What holds of a task whose worker runs, whatever the run and the scheduler have
done so far: accepted stops and what the run knows of them, the completion
claim, the marks of the scheduler, the requests in flight and the events on
their way.  Every act of the run keeps it.
-/

namespace RustyCat

open History

namespace Focus

def interrupts : Focus → Bool
  | token _ disposition | closeSet disposition | closeToken disposition =>
    disposition = .interruptNow
  | none | marks _ => false

def cancels : Focus → Bool
  | token kind _ | marks kind => kind = .cancel
  | none | closeSet _ | closeToken _ => false

end Focus

/-- A stop the run knows of was accepted, and an accepted stop stays requested
until the run has its answer. -/
structure StopOk (a : Stance) : Prop where
  requested : a.cell.life.terminal.stopRequested = true → stopSince a.cell.history = true
  token : a.token = true → stopSince a.cell.history = true ∨ a.mode = .draining ∨
    a.mode = .failing ∨ a.mode = .finished
  draining : a.mode = .draining → a.token = true
  saw : a.sawStop = true → stopSince a.cell.history = true
  stopping : a.mode = .stopping → stopSince a.cell.history = true
  kept : stopSince a.cell.history = true → a.mode ≠ .finishing → a.mode ≠ .finished →
    a.cell.life.terminal.stopRequested = true
  yielded : yielded a.cell.history = true → a.mode = .stopping ∨ a.mode = .finished

/-- The mode of the run says whether the completion claim is held. -/
structure ClaimOk (a : Stance) (canceling : Bool) (focus : Focus) : Prop where
  claimed : a.mode = .claimed → a.cell.life.terminal.claimed = true
  working : a.mode = .working → a.cell.life.terminal.claimed = false
  draining : a.mode = .draining → a.cell.life.terminal.claimed = false
  stopping : a.mode = .stopping → canceling = false → a.cell.life.terminal.claimed = false
  token : a.token = true → a.busy → canceling = false → a.cell.life.terminal.claimed = false
  /-- An accepted stop reaches the run: by the token, or behind its claim. -/
  reached : stopSince a.cell.history = true → a.busy → a.token = true ∨ focus.interrupts = true ∨
    a.cell.life.terminal.claimed = true
  focus : focus.interrupts = true → a.busy → a.cell.life.terminal.claimed = false

/-- The marks of the scheduler and the accepted stops. -/
structure MarkOk (a : Stance) (paused marking : Bool) (focus : Focus) : Prop where
  begun : focus ≠ .none → stopSince a.cell.history = true
  settled : focus = .none → stopSince a.cell.history = true → paused = true ∨ marking = true
  canceling : marking = true → cancelAccepted a.cell.history
  marked : marking = true → stopSince a.cell.history = true
  cancel : cancelAccepted a.cell.history → marking = true ∨ focus.cancels = true
  cancels : focus.cancels = true → cancelAccepted a.cell.history
  terminal : a.cell.life.terminal.cancelRequested = true → cancelAccepted a.cell.history
  closing : ∀ disposition, focus = .closeToken disposition → paused = true

structure CallOk (a : Stance) : Prop where
  requests : requested a.cell.history = returned a.cell.history + a.calls
  finished : a.mode = .finished → a.calls = 0
  aborts : aborts a.cell.history = if a.cell.life.abortStarted then 1 else 0
  aborting : a.cell.life.abortStarted = true → a.mode = .failing ∨ a.mode = .finished
  incomplete : completeRecords a.cell.history = 0

/-- What the events that were sent and not handled yet say about the task. -/
structure SentOk (a : Stance) (canceling : Bool) : Prop where
  ended : ended a.cell.history = true ↔ a.mode = .finished
  terminal : ∀ event ∈ a.outbox, event.mayChangeSchedulerReadiness = true → a.mode = .finished
  canceled : ∀ key total, .canceled key total ∈ a.outbox →
    stopSince a.cell.history = true ∧ a.cell.life.terminal.stopRequested = true ∧
      (canceling = false → a.cell.life.terminal.claimed = false) ∧ a.cell.life.abortStarted = false
  completed : ∀ key total payload, .completed key total payload ∈ a.outbox → a.cell.life.abortStarted = false

structure LiveOk (a : Stance) (paused canceling : Bool) (focus : Focus) : Prop where
  stop : StopOk a
  claim : ClaimOk a canceling focus
  mark : MarkOk a paused canceling focus
  calls : CallOk a
  sent : SentOk a canceling
  law : Trace.Always Law a.cell.history

section Acts

variable {inner : InnerTask} {a b : Stance} {paused canceling : Bool} {focus : Focus}

attribute [local simp] Stance.onCell Stance.send noteStop noteYield noteEnd TaskEvent.isRequested
  TaskEvent.isReturned TaskEvent.isCompleteRecord TransferLifecycle.requireAbort
  TaskCell.logAll Law Trace.always_append_singleton

attribute [local grind =] WorkerEvent.mayChangeSchedulerReadiness Stance.busy
  TransferLifecycle.stopRequested Terminal.stopRequested Terminal.claimed
  Terminal.stopPending_eq Terminal.cancelRequested

attribute [local grind →] Terminal.stopRequested_of_unclaimed

theorem StopOk.act (ok : StopOk a) (claim : ClaimOk a canceling focus) (act : Act inner a b) :
    StopOk b := by
  cases ok
  cases claim
  cases act with
  | returned _ request call n inFlight plain =>
    cases sameSummary_notes (h := a.cell.history) plain
    constructor <;> simp [-List.append_assoc] <;> grind -ring -linarith
  | note _ events plain =>
    cases sameSummary_notes (h := a.cell.history) plain
    constructor <;> simp <;> grind -ring -linarith
  | _ => constructor <;> simp <;> grind -ring -linarith

theorem Focus.ne_none_of_interrupts (interrupts : focus.interrupts = true) : focus ≠ .none := by
  rintro rfl
  cases interrupts

theorem ClaimOk.act (ok : ClaimOk a canceling focus) (stop : StopOk a)
    (mark : MarkOk a paused canceling focus) (act : Act inner a b) :
    ClaimOk b canceling focus := by
  have begun : focus.interrupts = true → stopSince a.cell.history = true :=
    fun interrupts => mark.begun (Focus.ne_none_of_interrupts interrupts)
  cases ok
  cases stop
  cases act with
  | returned _ request call n inFlight plain =>
    cases sameSummary_notes (h := a.cell.history) plain
    constructor <;> simp [-List.append_assoc] <;> grind -ring -linarith
  | note _ events plain =>
    cases sameSummary_notes (h := a.cell.history) plain
    constructor <;> simp <;> grind -ring -linarith
  | _ => constructor <;> simp <;> grind -ring -linarith

theorem MarkOk.act (ok : MarkOk a paused canceling focus) (act : Act inner a b) :
    MarkOk b paused canceling focus := by
  obtain ⟨begun, settled, canceling, marked, cancel, cancels, terminal, closing⟩ := ok
  cases act with
  | returned _ request call n inFlight plain =>
    cases sameSummary_notes (h := a.cell.history) plain
    refine ⟨?_, ?_, ?_, ?_, ?_, ?_, ?_, closing⟩ <;> simp [-List.append_assoc] <;> grind -ring -linarith
  | note _ events plain =>
    cases sameSummary_notes (h := a.cell.history) plain
    refine ⟨?_, ?_, ?_, ?_, ?_, ?_, ?_, closing⟩ <;> simp <;> grind -ring -linarith
  | _ => refine ⟨?_, ?_, ?_, ?_, ?_, ?_, ?_, closing⟩ <;> simp <;> grind -ring -linarith

theorem CallOk.act (ok : CallOk a) (act : Act inner a b) : CallOk b := by
  cases ok
  cases act with
  | returned _ request call n inFlight plain =>
    cases sameSummary_notes (h := a.cell.history) plain
    constructor <;> simp [-List.append_assoc] <;> grind -ring -linarith
  | note _ events plain =>
    cases sameSummary_notes (h := a.cell.history) plain
    constructor <;> simp <;> grind -ring -linarith
  | abort =>
    have counted := a.cell.executorCancel_aborts inner.direction
    constructor <;> simp <;> grind -ring -linarith
  | _ => constructor <;> simp <;> grind -ring -linarith

theorem SentOk.act (ok : SentOk a canceling) (stop : StopOk a) (claim : ClaimOk a canceling focus)
    (calls : CallOk a) (act : Act inner a b) : SentOk b canceling := by
  cases ok
  cases stop
  cases claim
  cases calls
  cases act with
  | returned _ request call n inFlight plain =>
    cases sameSummary_notes (h := a.cell.history) plain
    constructor <;> simp [-List.append_assoc] <;> grind -ring -linarith
  | note _ events plain =>
    cases sameSummary_notes (h := a.cell.history) plain
    constructor <;> simp <;> grind -ring -linarith
  | _ => constructor <;> simp <;> grind -ring -linarith

/-- Every act leaves an entry that obeys the law. -/
theorem law_act (law : Trace.Always Law a.cell.history) (stop : StopOk a)
    (claim : ClaimOk a canceling focus) (calls : CallOk a) (sent : SentOk a canceling)
    (act : Act inner a b) : Trace.Always Law b.cell.history := by
  have open_ : a.mode ≠ .finished → ended a.cell.history = false := by
    intro going
    rw [← Bool.not_eq_true, sent.ended]
    exact going
  cases stop
  cases claim
  cases act with
  | returned _ request call n inFlight plain =>
    simp [-List.append_assoc, law_notes law plain]
  | note _ events plain => exact law_notes law plain
  | settlePart | settleStop | giveUpClaim | yieldClaim =>
    exact TaskCell.finishIncomplete_law law (by grind -ring -linarith)
  | abort =>
    exact a.cell.executorCancel_law _ law calls.aborts
      (by grind -ring -linarith [calls.requests]) calls.incomplete
  | _ =>
    simp
    grind -ring -linarith

theorem LiveOk.act (ok : LiveOk a paused canceling focus) (act : Act inner a b) :
    LiveOk b paused canceling focus where
  stop := ok.stop.act ok.claim act
  claim := ok.claim.act ok.stop ok.mark act
  mark := ok.mark.act act
  calls := ok.calls.act act
  sent := ok.sent.act ok.stop ok.claim ok.calls act
  law := law_act ok.law ok.stop ok.claim ok.calls ok.sent act

theorem LiveOk.acts (ok : LiveOk a paused canceling focus) (acts : Acts inner a b) :
    LiveOk b paused canceling focus := by
  induction acts with
  | refl => exact ok
  | tail _ act ih => exact ih.act act

end Acts

end RustyCat
