import RustyCat.System.Guarantees
import RustyCat.Worker.Termination

/-!
# Stop arbitration

A pause, a cancel or a close that is accepted while a worker runs is what ends
the run, unless the transfer completes or fails for another reason first.  The
protocol is assumed to answer `TaskCanceled` only where the run tests for it.
-/

namespace RustyCat

open History

namespace Pc

theorem Honest.mono {pc : Pc} {token token' stop stop' : Bool} (ok : pc.Honest token stop)
    (tokens : token = true → token' = true) (stops : stop = true → stop' = true) :
    pc.Honest token' stop' := by
  have retries : ∀ retry : Retry, retry.Honest stop → retry.Honest stop' := by
    intro retry honest
    cases retry with
    | failed attempt e => exact fun canceled => stops (honest canceled)
    | settled result => cases result <;> exact honest
    | _ => exact honest
  cases pc with
  | prepFailed attempt start e => exact fun canceled => tokens (ok canceled)
  | serialChunk offset total claimed retry => exact retries retry ok
  | join d =>
    refine ⟨fun part member => ?_, ok.failed⟩
    have honest := ok.parts part member
    obtain ⟨offset, pc⟩ := part
    cases pc with
    | retry retry => exact retries retry honest
    | _ => trivial
  | _ => exact ok

end Pc

namespace TaskView

def Honest : TaskView → Prop
  | gone cell => cell.Told
  | idle _ cell => cell.Told ∧ cell.life.abortRequired = false
  | live _ run _ _ _ =>
    run.Honest ∧ ∀ key total, .canceled key total ∈ run.outbox →
      run.pc = .finished ∧ run.cell.life.abortRequired = false

variable {v w : TaskView}

variable {canceling : Bool} {cell : TaskCell} {inner : InnerTask}

theorem Honest.rely {run : Run} {paused paused' canceling' : Bool} {focus focus' : Focus}
    {outbox : List WorkerEvent} {token : Bool}
    (good : Honest (.live inner run paused canceling focus))
    (fewer : ∀ event ∈ outbox, event ∈ run.outbox) (tokens : run.token = true → token = true)
    (stops : run.cell.life.stopRequested = true → cell.life.stopRequested = true)
    (same : cell.life.abortRequired = run.cell.life.abortRequired) (told : cell.Told) :
    Honest (.live inner ⟨run.pc, outbox, token, cell⟩ paused' canceling' focus') := by
  obtain ⟨⟨errors, doomed, -⟩, sent⟩ := good
  refine ⟨⟨errors.mono tokens stops, fun required => doomed (same ▸ required), told⟩, ?_⟩
  intro key total member
  obtain ⟨finished, free⟩ := sent key total (fewer _ member)
  exact ⟨finished, same.trans free⟩

theorem acceptStop_told {kind : StopKind} (told : cell.Told) :
    (cell.acceptStop kind).Told := by
  have exchanged : (cell.setTerminal (kind.begin cell.life.terminal).1).Told := told
  exact exchanged.log (by simp)

theorem acceptStop_stopRequested (kind : StopKind) :
    (cell.acceptStop kind).life.stopRequested = true := by
  simp [TaskCell.acceptStop, TransferLifecycle.stopRequested]

theorem logSome_told {event : Option TaskEvent} {statuses : TransferStatus → Prop}
    (told : cell.Told)
    (last : ∀ e ∈ event, e.IsRecord inner statuses) : (cell.logSome event).Told := by
  cases event with
  | none => exact told
  | some e =>
    obtain ⟨r, sinks, rfl, -⟩ := last e rfl
    exact told.log (by simp)

theorem abort_told {direction : Direction} (told : cell.Told) :
    (if canceling then cell.executorCancel direction else cell).Told := by
  split
  · exact told.executorCancel direction
  · exact told

/-- A worker whose protocol answers `TaskCanceled` only where the run tests for it. -/
def Polite (_ : InnerTask) (run : Run) (choice : Choice) : Prop := choice.Polite run

instance (inner : InnerTask) (run : Run) : DecidablePred (Polite inner run) :=
  inferInstanceAs (DecidablePred (Choice.Polite run))

theorem Honest.work {run next : Run} {paused : Bool} {focus : Focus} {choice : Choice}
    (good : Honest (.live inner run paused canceling focus)) (polite : choice.Polite run)
    (taken : run.step inner choice = some next) :
    Honest (.live inner next paused canceling focus) := by
  have step := Run.step_cases taken
  refine ⟨step.honest rfl polite good.1, fun key total sent => ?_⟩
  rcases step.sent_canceled sent with old | ⟨⟨known, stands⟩, finished, same⟩
  · -- nothing steps after the last event
    have finished := (good.2 key total old).1
    simp only [Run.step, finished, Run.stepExit] at taken
    cases taken
  · refine ⟨finished, ?_⟩
    rw [same, ← Bool.not_eq_true]
    intro required
    have doomed := good.1.doomed required
    rw [stands] at doomed
    exact doomed

theorem Honest.step (good : v.Honest) (step : TaskStep Polite v w) : w.Honest := by
  cases step with
  | register inner => exact ⟨by simp [TaskCell.Told, TaskCell.new], rfl⟩
  | emitIdle event plain =>
    obtain ⟨r, sinks, rfl, -⟩ := plain
    exact ⟨good.1.log (by simp), good.2⟩
  | emitLive event plain =>
    obtain ⟨r, sinks, rfl, -⟩ := plain
    exact good.rely (fun _ => id) id id rfl (good.1.told.log (by simp))
  | start offset =>
    refine ⟨⟨trivial, fun required => ?_, good.1.log (by simp)⟩, by simp [Run.spawn]⟩
    exact absurd (good.2.symm.trans required) (by simp)
  | pauseIdle kind pause => exact ⟨good.1.log (by simp), good.2⟩
  | cancelIdle event last =>
    exact logSome_told ((acceptStop_told good.1).executorCancel _) last
  | clear => exact good.1
  | work choice allowed taken => exact Honest.work good allowed taken
  | claim kind stop =>
    exact good.rely (fun _ => id) id (fun _ => acceptStop_stopRequested kind) rfl
      (acceptStop_told good.1.told)
  | close =>
    exact good.rely (fun _ => id) id (fun _ => acceptStop_stopRequested .close) rfl
      (acceptStop_told good.1.told)
  | token | closeToken =>
    exact good.rely (fun _ => id) (fun seen => by simp [seen]) id rfl good.1.told
  | marksPause | marksCancel | closeSet => exact good.rely (fun _ => id) id id rfl good.1.told
  | closeCanceling =>
    exact good.rely (fun _ => id) (fun _ => rfl) id rfl (good.1.told.log (by simp))
  | progress head =>
    refine good.rely (fun event member => ?_) id id rfl good.1.told
    rw [head]
    exact List.mem_cons_of_mem _ member
  | completed head event callback last calls =>
    have recorded := logSome_told good.1.told last
    cases callback with
    | none => exact recorded
    | some e =>
      obtain ⟨id, payload, rfl⟩ := calls e rfl
      exact recorded.log (by simp)
  | failed head event last | canceled head ends event last =>
    exact logSome_told (abort_told good.1.told) last
  | stopped head =>
    have free := (good.2 _ _ (by rw [head]; exact List.mem_cons_self)).2
    exact ⟨good.1.told, free⟩

theorem honest_of_steps (steps : TaskSteps Polite (.gone .new) v) : v.Honest := by
  induction steps with
  | refl => simp [Honest, TaskCell.Told, TaskCell.new]
  | tail _ step ih => exact ih.step step

theorem Honest.told (good : v.Honest) : v.cell.Told := by
  cases v with
  | gone cell => exact good
  | idle inner cell => exact good.1
  | live inner run paused canceling focus => exact good.1.told

end TaskView

namespace History

/-- What a task's history says about its stops. -/
structure StopArbitration (h : List TaskEvent) : Prop where
  /-- A run is canceled only if a stop was accepted during that run. -/
  accepted : ∀ before key total after, h = before ++ .sent (.canceled key total) :: after →
    stopSince before = true
  /-- A task is reported as canceled only if a cancel was accepted for it. -/
  canceled : ∀ before r sinks after, h = before ++ .record r sinks :: after →
    r.status = .canceled → cancelAccepted before
  /-- A stop that the protocol observed is not a failure of the task. -/
  unmasked : ∀ key e total, .sent (.failed key e total) ∈ h → isTaskCanceled e = false
  /-- A run sends one terminal event. -/
  once : ∀ before event after, h = before ++ .sent event :: after →
    event.mayChangeSchedulerReadiness = true → ended before = false
  /-- A claim that did not complete the transfer gives way to the accepted stop. -/
  applied : ∀ before stop after, h = before ++ .incomplete stop :: after →
    stopSince before = true → stop.isSome = true
  /-- From then on the run makes no request and does not complete. -/
  final : ∀ before event after, h = before ++ event :: after → yielded before = true →
    event.isRequested = false ∧ ∀ key total payload, event ≠ .sent (.completed key total payload)

theorem stopArbitration {h : List TaskEvent} (law : Trace.Always Law h)
    (told : ∀ key e total, .sent (.failed key e total) ∈ h → isTaskCanceled e = false) :
    StopArbitration h where
  accepted := fun before key total after split => (law before _ after split).1
  canceled := fun before r sinks after split status => ((law before _ after split).1 status).1
  unmasked := told
  once := by
    intro before event after split terminal
    have holds := law before _ after split
    cases event with
    | progress => cases terminal
    | completed => exact holds.2
    | failed => exact holds
    | canceled => exact holds.2
  applied := fun before stop after split => law before _ after split
  final := by
    intro before event after split gave
    have holds := law before _ after split
    cases event with
    | requested request => exact absurd (gave.symm.trans holds) (by simp)
    | sent event =>
      refine ⟨rfl, ?_⟩
      rintro key total payload ⟨⟩
      exact absurd (gave.symm.trans holds.1) (by simp)
    | _ => exact ⟨rfl, by simp⟩

end History

/-- A run that comes to its end: it can go on until it has sent its terminal event,
and every step brings that nearer. -/
structure Run.Ending (inner : InnerTask) (r : Run) : Prop where
  moves : r.pc ≠ .finished → ∃ choice, choice.Polite r ∧ (r.step inner choice).isSome = true
  nearer : ∀ choice next, r.step inner choice = some next →
    next.pc.fuel inner < r.pc.fuel inner
  reported : r.pc = .finished ↔ ended r.cell.history = true

theorem Pc.mode_finished (pc : Pc) : pc.mode = .finished ↔ pc = .finished := by
  cases pc with
  | serialChunk offset total claimed retry =>
    cases retry with
    | settled result => cases result <;> cases claimed <;> simp [Pc.mode]
    | _ => cases claimed <;> simp [Pc.mode]
  | _ => simp [Pc.mode]

theorem LiveOk.ending {inner : InnerTask} {r : Run} {paused canceling : Bool} {focus : Focus}
    (ok : LiveOk r.stance paused canceling focus) (delivered : focus.interrupts = false)
    (stop : stopSince r.cell.history = true) : r.Ending inner where
  moves := by
    intro going
    obtain ⟨choice, polite, _, enabled⟩ := r.exists_step going
    exact ⟨choice, polite, enabled⟩
  nearer := by
    intro choice next taken
    rcases (Run.step_cases taken).fuel_lt with ⟨offset, total, head, live⟩ | nearer
    · have working : r.stance.mode = .working := by
        simp only [Run.stance, head, Pc.mode]
      have unclaimed := ok.claim.working working
      rcases ok.claim.reached stop (Or.inl working) with token | interrupts | claimed
      · exact absurd (live.symm.trans token) (by simp)
      · exact absurd (delivered.symm.trans interrupts) (by simp)
      · exact absurd (unclaimed.symm.trans claimed) (by simp)
    · exact nearer
  reported := by
    rw [← Pc.mode_finished]
    exact ok.sent.ended.symm

namespace System

variable {maxUpload maxDownload : Nat} {listeners : List Nat} {s : System} {key : UniqueId}
  {inner : InnerTask} {r : Run} {limit : Direction → Nat}

theorem view_runAt (good : s.Ok limit) (there : s.runAt key = some (inner, r)) :
    ∃ paused canceling,
      s.view inner.taskId = .live inner r paused canceling (s.sched.focus key) := by
  simp only [runAt] at there
  split at there
  · rename_i worker token group staffed running found
    cases there
    rw [view_leader good.led found, staffed, KeyState.view_live found running]
    exact ⟨_, _, rfl⟩
  · cases there

/-- In every run whose protocol answers `TaskCanceled` only where the worker tests
for it, the stops of every task are arbitrated, and a stop that the scheduler has
delivered ends the run. -/
theorem run_stopArbitration
    (run : Machine.Run step (Allows TaskView.Polite) (init maxUpload maxDownload listeners) s) :
    (∀ id, StopArbitration (s.world.heap id).history) ∧
    ∀ key inner r, s.runAt key = some (inner, r) → s.sched = .idle →
      stopSince r.cell.history = true → r.Ending inner := by
  refine ⟨fun id => ?_, fun key inner r there idle stop => ?_⟩
  · have law := (reachable_view_ok run.reachable id).law
    have told := (TaskView.honest_of_steps (run_taskSteps run id)).told
    rw [view_cell] at law told
    exact stopArbitration law told
  · obtain ⟨paused, canceling, view⟩ := view_runAt (run_agrees run) there
    have ok := reachable_view_ok run.reachable inner.taskId
    rw [view, idle] at ok
    exact LiveOk.ending ok rfl stop

/-- What the witness below looks at: the program counter of the worker of the
sample key, with the scheduler back in its loop and a stop accepted. -/
def stoppedAt (s : System) (key : UniqueId) : Option Pc :=
  (s.runAt key).bind fun (_, r) =>
    if s.sched = .idle ∧ stopSince r.cell.history = true then some r.pc else none

/-- The protocol has just answered `TaskCanceled` to a chunk under a claim. -/
theorem run_stopArbitration_paused :
    ∃ s inner r, Machine.Run step (Allows TaskView.Polite) (init 1 1 []) s ∧
      s.runAt (.upload, "a") = some (inner, r) ∧
      r.pc = .serialChunk 0 4 true (.failed 0 (.fromCode1 .taskCanceled)) ∧
      r.Ending inner ∧ StopArbitration (s.world.heap 1).history := by
  have ends : ((Machine.exec step (init 1 1 []) (pausedRun.take 10)).bind
      (stoppedAt · (.upload, "a"))) =
      some (.serialChunk 0 4 true (.failed 0 (.fromCode1 .taskCanceled))) := by
    decide
  have permitted : Machine.ExecAllowed step (Allows TaskView.Polite) (init 1 1 [])
      (pausedRun.take 10) := by
    decide
  obtain ⟨s, executed, seen⟩ := Option.bind_eq_some_iff.mp ends
  obtain ⟨⟨inner, r⟩, there, seen⟩ := Option.bind_eq_some_iff.mp seen
  simp only [Option.ite_none_right_eq_some, Option.some.injEq] at seen
  obtain ⟨⟨idle, stop⟩, stands⟩ := seen
  have run := Machine.run_of_exec executed permitted
  exact ⟨s, inner, r, run, there, stands, (run_stopArbitration run).2 _ inner r there idle stop,
    (run_stopArbitration run).1 1⟩

/-- A protocol answers `TaskCanceled` only if it observes the stop. -/
def Observant (_ : InnerTask) (r : Run) : Choice → Prop
  | .prepare answer =>
    ∀ e ∈ answer.raised, isTaskCanceled e = true → r.cell.life.stopRequested = true
  | .complete answer =>
    ∀ e ∈ errorOf answer, isTaskCanceled e = true → r.cell.life.stopRequested = true
  | choice => choice.Polite r

instance (inner : InnerTask) (r : Run) : DecidablePred (Observant inner r)
  | .prepare answer => List.decidableBAll _ answer.raised
  | .complete answer => List.decidableBAll _ (errorOf answer)
  | .chunk choice => inferInstanceAs (Decidable (Choice.Polite r (.chunk choice)))
  | .part index choice => inferInstanceAs (Decidable (Choice.Polite r (.part index choice)))
  | .tick | .wake | .check _ | .join _ => isTrue trivial

/-- A pause is exchanged while `prepare` is in flight; the protocol stops on request
before the token is cancelled. -/
def prepareStopRun : List Label :=
  let key := (Direction.upload, "a")
  let stopped := Choice.prepare (.upload none (.error (.fromCode1 .taskCanceled)))
  [.cmd (.enqueue (Loop.sampleTask 1 "a") ⟨none, none⟩), .work key .tick, .cmd (.pause 1),
    .work key stopped, .work key .tick, .work key .tick, .work key .tick, .sched, .sched,
    .deliver key]

def parallelTask (id : TaskId) (sign : String) : InnerTask :=
  { Loop.sampleTask id sign with
    chunkSize := 2
    chunkSize_pos := Nat.two_pos
    maxPartsInFlight := 2
    supportsParallelParts := true }

/-- The parts of a parallel upload are done; a pause waits behind the claim for
`complete`, and the protocol stops on request. -/
def completeStopRun : List Label :=
  let key := (Direction.upload, "a")
  let prepared := Choice.prepare (.upload none (.ok { completedFileId := none, nextByte := none }))
  let accepted : UploadAnswer :=
    { source := none
      beforeLast := none
      chunk := .ok { completedFileId := none, nextByte := none }
      afterTerminal := none
      complete := .ok none }
  let transfer := fun index =>
    [Label.work key (.part index .grant), .work key (.part index (.retry .tick)),
      .work key (.part index (.retry (.answer (.upload accepted))))]
  [.cmd (.enqueue (parallelTask 1 "a") ⟨none, none⟩), .work key .tick, .work key prepared] ++
    transfer 0 ++ transfer 1 ++
    [.work key (.join 0), .work key (.join 0), .work key .tick, .work key .tick, .work key .tick,
      .work key (.check none), .cmd (.pause 1), .sched, .sched,
      .work key (.complete (.error (.fromCode1 .taskCanceled))), .work key .tick,
      .deliver key, .deliver key, .deliver key, .deliver key]

/-- A pause is accepted and the task is reported as failed with `TaskCanceled`, in
`prepare` and in the `complete` of a parallel upload. -/
theorem stop_reported_as_failure :
    (∃ s, Machine.Run step (Allows Observant) (init 1 1 [7]) s ∧
      .stopAccepted .pause ∈ (s.world.heap 1).history ∧
      s.statuses 1 = [.pending, .transmission, .failed (.fromCode1 .taskCanceled)] ∧
      ¬ StopArbitration (s.world.heap 1).history) ∧
    ∃ s, Machine.Run step (Allows Observant) (init 1 1 [7]) s ∧
      .stopAccepted .pause ∈ (s.world.heap 1).history ∧
      s.statuses 1 = [.pending, .transmission, .transmission, .transmission, .transmission,
        .failed (.fromCode1 .taskCanceled)] ∧
      ¬ StopArbitration (s.world.heap 1).history := by
  have failed : ∀ (h : List TaskEvent) key total,
      .sent (.failed key (.fromCode1 .taskCanceled) total) ∈ h → ¬ StopArbitration h := by
    intro h key total sent arbitrated
    have uncanceled := arbitrated.unmasked _ _ _ sent
    exact absurd uncanceled (by decide)
  have prepare : ((Machine.exec step (init 1 1 [7]) prepareStopRun).map fun s =>
      (decide (.stopAccepted .pause ∈ (s.world.heap 1).history), s.statuses 1,
        decide (.sent (.failed (.upload, "a") (.fromCode1 .taskCanceled) 4) ∈
          (s.world.heap 1).history))) =
      some (true, [.pending, .transmission, .failed (.fromCode1 .taskCanceled)], true) := by
    decide
  have complete : ((Machine.exec step (init 1 1 [7]) completeStopRun).map fun s =>
      (decide (.stopAccepted .pause ∈ (s.world.heap 1).history), s.statuses 1,
        decide (.sent (.failed (.upload, "a") (.fromCode1 .taskCanceled) 4) ∈
          (s.world.heap 1).history))) =
      some (true, [.pending, .transmission, .transmission, .transmission, .transmission,
        .failed (.fromCode1 .taskCanceled)], true) := by
    decide
  have permitted : Machine.ExecAllowed step (Allows Observant) (init 1 1 [7]) prepareStopRun ∧
      Machine.ExecAllowed step (Allows Observant) (init 1 1 [7]) completeStopRun := by
    decide
  refine ⟨?_, ?_⟩
  · obtain ⟨s, executed, seen⟩ := Option.map_eq_some_iff.mp prepare
    simp only [Prod.mk.injEq, decide_eq_true_eq] at seen
    exact ⟨s, Machine.run_of_exec executed permitted.1, seen.1, seen.2.1, failed _ _ _ seen.2.2⟩
  · obtain ⟨s, executed, seen⟩ := Option.map_eq_some_iff.mp complete
    simp only [Prod.mk.injEq, decide_eq_true_eq] at seen
    exact ⟨s, Machine.run_of_exec executed permitted.2, seen.1, seen.2.1, failed _ _ _ seen.2.2⟩

end System

end RustyCat
