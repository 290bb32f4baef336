import RustyCat.System.Stops
import RustyCat.Worker.Finalization

/-!
# Completed uploads are finalized

A run of an upload that transfers from below the end of the file completes only
after its protocol has finalized the upload.  A run that finds itself at the end
of the file completes at once, whether or not the upload was ever finalized.
-/

namespace RustyCat

/-- The `Completed` event of an upload has a finalization behind it. -/
def Backed (before : List TaskEvent) : TaskEvent → Prop
  | .sent (.completed key _ _) => key.1 = .upload → Finalized before
  | _ => True

section Acts

variable {inner : InnerTask} {a b : Stance}

theorem Act.extends (act : Act inner a b) : a.cell.history <+: b.cell.history := by
  cases act with
  | returned =>
    simp only [Stance.onCell, TaskCell.returnCall, List.append_assoc]
    exact List.prefix_append _ _
  | note => exact List.prefix_append _ _
  | settlePart | settleStop | giveUpClaim | yieldClaim =>
    simp only [Stance.onCell, TaskCell.finishIncomplete_history]
    split
    · exact List.prefix_append _ _
    · exact List.prefix_rfl
  | abort =>
    simp only [Stance.onCell, TaskCell.executorCancel_history]
    split
    · exact List.prefix_append _ _
    · exact List.prefix_rfl
  | request | progress | sendCompleted | sendFailed | sendCanceled =>
    exact List.prefix_append _ _
  | _ => exact List.prefix_rfl

theorem Acts.extends (acts : Acts inner a b) : a.cell.history <+: b.cell.history := by
  induction acts with
  | refl => exact List.prefix_rfl
  | tail _ act ih => exact ih.trans act.extends

theorem Act.going (act : Act inner a b) (going : b.mode ≠ .finished) : a.mode ≠ .finished := by
  cases act with
  | claim _ may | refuse _ may | giveUpClaim _ may | yieldClaim _ may | acknowledge _ may
  | complete _ may | panic _ may | drained _ may =>
    rw [may]
    simp
  | stop _ may | fail _ may | answer _ may | settleStop _ may =>
    rcases may with mode | mode <;> simp [mode]
  | sendCompleted | sendFailed | sendCanceled => exact absurd rfl going
  | _ => exact going

theorem Act.backed (act : Act inner a b) (going : b.mode ≠ .finished)
    (ok : Trace.Always Backed a.cell.history) : Trace.Always Backed b.cell.history := by
  have notes : ∀ events : List TaskEvent, (∀ e ∈ events, e.isNote = true) →
      Trace.Always Backed (a.cell.history ++ events) := by
    intro events plain
    refine ok.append fun before e member => ?_
    have noted := plain e member
    cases e with
    | sent event => cases noted
    | _ => trivial
  cases act with
  | returned _ request call n inFlight plain =>
    exact Trace.always_append_singleton.mpr ⟨notes _ plain, trivial⟩
  | note _ events plain => exact notes events plain
  | request | progress => exact Trace.always_append_singleton.mpr ⟨ok, trivial⟩
  | settlePart | settleStop | giveUpClaim | yieldClaim =>
    simp only [Stance.onCell, TaskCell.finishIncomplete_history]
    split
    · exact Trace.always_append_singleton.mpr ⟨ok, trivial⟩
    · exact ok
  | abort =>
    simp only [Stance.onCell, TaskCell.executorCancel_history]
    split
    · exact Trace.always_append_singleton.mpr ⟨ok, trivial⟩
    · exact ok
  | sendCompleted | sendFailed | sendCanceled => exact absurd rfl going
  | _ => exact ok

theorem Acts.backed (acts : Acts inner a b) (going : b.mode ≠ .finished)
    (ok : Trace.Always Backed a.cell.history) : Trace.Always Backed b.cell.history := by
  induction acts with
  | refl => exact ok
  | tail _ act ih => exact act.backed going (ih (act.going going))

end Acts

namespace Pc

/-- The run does not complete without a finalization. -/
def Open (inner : InnerTask) : Pc → Prop
  | serialHead offset _ | serialClaim offset _ | serialFinish offset _ => offset < inner.totalSize
  | serialChunk offset _ _ retry =>
    offset < inner.totalSize ∧ ∀ outcome, retry = .settled (.done outcome) →
      outcome.done = false ∧ outcome.nextOffset < inner.totalSize
  | serialDone _ _ | release _ _ | totalClaim _ | totalValidate _ => False
  | _ => True

end Pc

/-- The local offset a `prepare` in flight was called with. -/
def Pc.preparing : Pc → Option Nat
  | prepCall _ start => some start
  | _ => none

/-- `prepare` of an upload either reports the file as complete or leaves something
to transfer. -/
def Choice.LeavesWork (inner : InnerTask) (r : Run) : Choice → Prop
  | .prepare (.upload _ (.ok info)) =>
    info.completedFileId.isSome = true ∨
      ∀ start ∈ r.pc.preparing, max start (info.nextByte.getD 0) < inner.totalSize
  | _ => True

instance (inner : InnerTask) (r : Run) : DecidablePred (Choice.LeavesWork inner r)
  | .prepare (.upload _ (.ok _)) => inferInstanceAs (Decidable (_ ∨ _))
  | .prepare (.upload _ (.error _)) | .prepare (.download _) | .tick | .wake | .chunk _
  | .complete _ | .check _ | .part _ _ | .join _ => isTrue trivial

namespace Run

/-- The run of an upload is finalized or has still to be. -/
def Finalizes (inner : InnerTask) (r : Run) : Prop :=
  inner.direction = .upload → Finalized r.cell.history ∨ r.pc.Open inner

variable {inner : InnerTask} {r s : Run}

variable {v : PrepareOutcome} {choice : Choice}

theorem prepared_open (total : v.totalSize = inner.totalSize)
    (room : v.nextOffset < inner.totalSize) : (r.prepared inner v).pc.Open inner := by
  have known : knownTotal inner v = inner.totalSize := by
    simp only [knownTotal, total]
    split <;> rfl
  simp only [prepared]
  split
  · split
    · cases inner.direction <;> trivial
    · simp only [enterParallel, known, if_neg (Nat.not_le.mpr room)]
      trivial
  · exact room

theorem chunkDone_open {total : Nat} {claimed : Bool} {outcome : ChunkOutcome}
    (more : outcome.done = false) (room : outcome.nextOffset < inner.totalSize) :
    (r.chunkDone inner total claimed outcome).pc.Open inner := by
  simp only [chunkDone, more]
  cases claimed <;> exact room

theorem retry_open {offset total : Nat} {claimed token : Bool} {choice : RetryChoice}
    {retry next : Retry} {cell after : TaskCell} (upload : inner.direction = .upload)
    (moved : Retry.Step { inner := inner, mode := .whole, offset := offset, token := token }
      cell choice retry next after)
    (ok : Pc.Open inner (.serialChunk offset total claimed retry)) :
    Finalized after.history ∨ Pc.Open inner (.serialChunk offset total claimed next) := by
  obtain ⟨room, -⟩ := ok
  cases moved with
  | @returned attempt answer transfer called =>
    cases answer with
    | download result => simp [transferChunk, upload] at called
    | upload answer =>
      simp only [transferChunk, upload, Option.some.injEq] at called
      subst called
      have settles := uploadOneChunk_yields answer room inner.chunkSize_pos
      cases result : (uploadOneChunk inner offset inner.chunkSize answer).result with
      | error e => exact Or.inr ⟨room, by simp [Retry.afterCall]⟩
      | ok outcome =>
        rcases settles outcome result with finalized | more
        · left
          exact (finalized.of_append cell.history).append _
        · right
          refine ⟨room, fun other same => ?_⟩
          cases same
          exact more
  | _ => exact Or.inr ⟨room, by simp⟩

theorem prepOk_finalizes {attempt start : Nat} {answer : PrepareAnswer} {call : Call PrepareOutcome}
    (upload : inner.direction = .upload) (stands : r.pc = .prepCall attempt start)
    (called : prepareCall inner start answer = some call) (result : call.result = .ok v)
    (leaves : Choice.LeavesWork inner r (.prepare answer)) :
    Finalized (r.cell.returnCall (.prepare start) call).history ∨
      (prepared inner { r with cell := r.cell.returnCall (.prepare start) call } v).pc.Open
        inner := by
  cases answer with
  | download result => simp [prepareCall, upload] at called
  | upload source answer =>
    simp only [prepareCall, upload, Option.some.injEq] at called
    subst called
    obtain ⟨total, info, rfl, reported, next⟩ :=
      uploadPrepareOnce_yields start source answer v result
    cases given : info.completedFileId.isSome with
    | true => exact Or.inl (((reported given).of_append r.cell.history).append _)
    | false =>
      have room : max start (info.nextByte.getD 0) < inner.totalSize :=
        leaves.resolve_left (by simp [given]) start (by rw [stands]; rfl)
      exact Or.inr (prepared_open total (Nat.lt_of_le_of_lt (next given) room))

theorem prepared_finalized (done : Finalized r.cell.history) :
    Finalized (r.prepared inner v).cell.history := by
  have announced := done.append [.sent (.progress inner.dedupeKey v.nextOffset (knownTotal inner v))]
  simp only [prepared]
  split
  · split
    · cases inner.direction <;> exact announced
    · simp only [enterParallel]
      split
      · exact announced
      · exact announced.append _
  · exact announced

theorem joined_open {d : Driver} {part : Part} (settled : part.settled = true) :
    (r.joined inner d part).pc.Open inner := by
  obtain ⟨offset, pc⟩ := part
  cases pc with
  | acquire => cases settled
  | panicked text => trivial
  | retry retry =>
    cases retry with
    | settled result => cases result <;> trivial
    | _ => cases settled

theorem Step.finalized (taken : Step inner r r.pc choice s)
    (done : Finalized r.cell.history) : Finalized s.cell.history := by
  obtain ⟨more, added⟩ := (step_acts taken).extends
  have same : s.cell.history = r.cell.history ++ more := added.symm
  rw [same]
  exact done.append more

theorem Step.finalizes (taken : Step inner r r.pc choice s) (leaves : choice.LeavesWork inner r)
    (ok : r.Finalizes inner) : s.Finalizes inner := by
  intro upload
  rcases ok upload with done | open_
  · exact Or.inl (taken.finalized done)
  · have extended := taken.finalized
    generalize stands : r.pc = pc at taken open_
    cases taken with
    | prepOk called result =>
      exact (prepOk_finalizes upload stands called result leaves).imp_left prepared_finalized
    | serialRetry moved => exact retry_open upload moved open_
    | serialOutcome =>
      have more := open_.2 _ rfl
      exact Or.inr (chunkDone_open more.1 more.2)
    | serialClaim =>
      right
      simp only [claim]
      split
      · exact ⟨open_, by simp⟩
      · trivial
    | serialNext live more => exact Or.inr ⟨open_, by simp⟩
    | serialLast live last => exact Or.inr open_
    | serialFinish =>
      right
      dsimp only
      split
      · trivial
      · exact open_
    | serialAck | totalDownload | totalUpload | totalInvalid | totalValid | releaseFailed
    | released => exact open_.elim
    | @completeReturned total answer =>
      cases answer with
      | error e => exact Or.inr (by simp only [completed]; trivial)
      | ok payload =>
        left
        simp only [completed, upload]
        exact Finalized.append (Finalized.of_append (Or.inr List.mem_cons_self) _) _
    | completeClaim =>
      right
      simp only [claim]
      split <;> trivial
    | joined here settled => exact Or.inr (joined_open settled)
    | barrier =>
      right
      simp only [settleBarrier]
      split
      · trivial
      split
      · trivial
      · split <;> trivial
    | panicDrained empty =>
      right
      simp only [settlePanic, upload]
      trivial
    | _ => exact Or.inr trivial

theorem Step.ends {pc : Pc} (taken : Step inner r pc choice s) (finished : s.pc = .finished) :
    (∃ total, pc = .totalValidate total) ∨ (∃ total payload, pc = .release total payload) ∨
      (∃ total, pc = .exitCanceled total) ∨ ∃ e total settles, pc = .exitFailed e total settles := by
  cases taken with
  | totalValid => exact Or.inl ⟨_, rfl⟩
  | releaseFailed | released => exact Or.inr (Or.inl ⟨_, _, rfl⟩)
  | cleanupFailed | canceled => exact Or.inr (Or.inr (Or.inl ⟨_, rfl⟩))
  | failed => exact Or.inr (Or.inr (Or.inr ⟨_, _, _, rfl⟩))
  | prepOk called result =>
    simp only [prepared] at finished
    split at finished
    · split at finished
      · cases direction : inner.direction <;> rw [direction] at finished <;> cases finished
      · simp only [enterParallel] at finished
        split at finished <;> cases finished
    · cases finished
  | @joined d index part here settled =>
    obtain ⟨offset, pc⟩ := part
    cases pc with
    | acquire => cases settled
    | panicked text => cases finished
    | retry retry =>
      cases retry with
      | settled result => cases result <;> cases finished
      | _ => cases settled
  | serialClaim | totalDownload | totalUpload | completeClaim =>
    exfalso
    rcases fuel_claim (r := r) _ _ with same | same <;> rw [same] at finished <;> cases finished
  | serialOutcome =>
    simp only [chunkDone] at finished
    split at finished
    · cases finished
    · split at finished <;> cases finished
  | serialFinish =>
    dsimp only at finished
    split at finished <;> cases finished
  | barrier =>
    simp only [settleBarrier] at finished
    split at finished
    · cases finished
    split at finished
    · cases finished
    · split at finished <;> cases finished
  | panicDrained empty =>
    simp only [settlePanic] at finished
    cases direction : inner.direction <;> rw [direction] at finished <;> cases finished
  | @completeReturned total answer =>
    cases answer <;> cases finished
  | _ => cases finished

theorem Step.backed (taken : Step inner r r.pc choice s) (ok : r.Finalizes inner)
    (backed : Trace.Always Backed r.cell.history) :
    Trace.Always Backed s.cell.history := by
  by_cases finished : s.pc = .finished
  · have sends : ∀ (cell : TaskCell) event, Trace.Always Backed cell.history →
        Backed cell.history (.sent event) → Trace.Always Backed (cell.log (.sent event)).history :=
      fun cell event old new => Trace.always_append_singleton.mpr ⟨old, new⟩
    have completes : ∀ total payload, (inner.direction = .upload → ¬ r.pc.Open inner) →
        Trace.Always Backed (r.sendCompleted inner total payload).cell.history := by
      intro total payload closed
      refine sends _ _ backed fun upload => ?_
      rw [InnerTask.dedupeKey_fst] at upload
      exact (ok upload).resolve_right (closed upload)
    rcases taken.ends finished with ⟨total, stands⟩ | ⟨total, payload, stands⟩ |
      ⟨total, stands⟩ | ⟨e, total, settles, stands⟩
    · rw [stands] at taken completes
      cases taken with
      | prepInterrupted seen waiting => rcases waiting with same | same <;> cases same
      | totalInvalid => cases finished
      | totalValid => exact completes _ _ fun _ => id
    · rw [stands] at taken completes
      cases taken with
      | prepInterrupted seen waiting => rcases waiting with same | same <;> cases same
      | releaseFailed => exact sends _ _ backed trivial
      | released => exact completes _ _ fun _ => id
    · rw [stands] at taken
      cases taken with
      | prepInterrupted seen waiting => rcases waiting with same | same <;> cases same
      | cleanupFailed | canceled => exact sends _ _ backed trivial
    · rw [stands] at taken
      cases taken with
      | prepInterrupted seen waiting => rcases waiting with same | same <;> cases same
      | failed =>
        simp only [exitFailed]
        split
        · refine sends _ _ ?_ trivial
          simp only [abort, TaskCell.executorCancel_history]
          split
          · exact Trace.always_append_singleton.mpr ⟨backed, trivial⟩
          · exact backed
        · exact sends _ _ backed trivial
  · refine Acts.backed (step_acts taken) ?_ backed
    rw [stance, Ne, Pc.mode_finished]
    exact finished

end Run

namespace TaskView

variable {v w : TaskView}

/-- Every completed upload was finalized, and the current run keeps to that. -/
def Finalizes : TaskView → Prop
  | gone cell | idle _ cell => Trace.Always Backed cell.history
  | live inner run _ _ _ => Trace.Always Backed run.cell.history ∧ run.Finalizes inner

/-- A worker whose protocol leaves work after `prepare`. -/
def LeavesWork (inner : InnerTask) (run : Run) (choice : Choice) : Prop :=
  choice.LeavesWork inner run

instance (inner : InnerTask) (run : Run) : DecidablePred (LeavesWork inner run) :=
  inferInstanceAs (DecidablePred (Choice.LeavesWork inner run))

variable {cell : TaskCell}

theorem Finalizes.rely {inner : InnerTask} {run : Run} {paused canceling paused' canceling' : Bool}
    {focus focus' : Focus} {outbox : List WorkerEvent} {token : Bool}
    (good : Finalizes (.live inner run paused canceling focus)) (more : List TaskEvent)
    (added : cell.history = run.cell.history ++ more)
    (plain : ∀ before, ∀ e ∈ more, Backed before e) :
    Finalizes (.live inner ⟨run.pc, outbox, token, cell⟩ paused' canceling' focus') := by
  refine ⟨?_, fun upload => ?_⟩
  · rw [added]
    exact good.1.append plain
  · exact (good.2 upload).imp_left fun done => by
      rw [added]
      exact done.append more

theorem logSome_backed {event : Option TaskEvent} (backed : Trace.Always Backed cell.history)
    (plain : ∀ before, ∀ e ∈ event, Backed before e) :
    Trace.Always Backed (cell.logSome event).history := by
  cases event with
  | none => exact backed
  | some e => exact Trace.always_append_singleton.mpr ⟨backed, plain _ e rfl⟩

theorem backed_of_isRecord {inner : InnerTask} {statuses : TransferStatus → Prop}
    {event : TaskEvent} (recorded : event.IsRecord inner statuses) (before : List TaskEvent) :
    Backed before event := by
  obtain ⟨r, sinks, rfl, -⟩ := recorded
  trivial

theorem executorCancel_backed (direction : Direction) (backed : Trace.Always Backed cell.history) :
    Trace.Always Backed (cell.executorCancel direction).history := by
  rw [TaskCell.executorCancel_history]
  split
  · exact Trace.always_append_singleton.mpr ⟨backed, trivial⟩
  · exact backed

theorem Finalizes.step (good : v.Finalizes) (step : TaskStep LeavesWork v w) : w.Finalizes := by
  cases step with
  | register inner => exact Trace.always_nil _
  | emitIdle event plain =>
    exact Trace.always_append_singleton.mpr ⟨good, backed_of_isRecord plain _⟩
  | emitLive event plain =>
    refine good.rely [event] rfl fun before e member => ?_
    rw [List.mem_singleton.mp member]
    exact backed_of_isRecord plain before
  | start offset =>
    exact ⟨Trace.always_append_singleton.mpr ⟨good, trivial⟩, fun _ => Or.inr trivial⟩
  | pauseIdle kind pause => exact Trace.always_append_singleton.mpr ⟨good, trivial⟩
  | cancelIdle event last =>
    refine logSome_backed (executorCancel_backed _ ?_) fun before e member =>
      backed_of_isRecord (last e member) before
    exact Trace.always_append_singleton.mpr ⟨good, trivial⟩
  | clear => exact good
  | work choice allowed taken =>
    have step := Run.step_cases taken
    exact ⟨step.backed good.2 good.1, step.finalizes allowed good.2⟩
  | claim kind stop => exact good.rely [.stopAccepted kind] rfl (by simp [Backed])
  | close | closeCanceling => exact good.rely [.stopAccepted .close] rfl (by simp [Backed])
  | token | marksPause | marksCancel | closeSet | closeToken | progress =>
    exact good.rely [] (List.append_nil _).symm (by simp)
  | completed head event callback last calls =>
    refine logSome_backed (logSome_backed good.1 fun before e member =>
      backed_of_isRecord (last e member) before) fun before e member => ?_
    obtain ⟨id, payload, rfl⟩ := calls e member
    trivial
  | failed head event last | canceled head ends event last =>
    refine logSome_backed ?_ fun before e member => backed_of_isRecord (last e member) before
    split
    · exact executorCancel_backed _ good.1
    · exact good.1
  | stopped head => exact good.1

theorem finalizes_of_steps (steps : TaskSteps LeavesWork (.gone .new) v) : v.Finalizes := by
  induction steps with
  | refl => exact Trace.always_nil _
  | tail _ step ih => exact ih.step step

theorem Finalizes.backed (good : v.Finalizes) : Trace.Always Backed v.cell.history := by
  cases v with
  | gone cell => exact good
  | idle inner cell => exact good
  | live inner run paused canceling focus => exact good.1

end TaskView

namespace System

variable {maxUpload maxDownload : Nat} {listeners : List Nat} {s : System}

/-- In every run in which `prepare` reports an upload as complete or leaves something
to transfer, an upload is completed only after it was finalized. -/
theorem run_completed_finalized
    (run : Machine.Run step (Allows TaskView.LeavesWork) (init maxUpload maxDownload listeners) s)
    (id : TaskId) (before after : List TaskEvent) (key : UniqueId) (total : Nat)
    (payload : Option String)
    (sent : (s.world.heap id).history = before ++ .sent (.completed key total payload) :: after)
    (upload : key.1 = .upload) : Finalized before := by
  have backed := (TaskView.finalizes_of_steps (run_taskSteps run id)).backed
  rw [view_cell] at backed
  exact backed before _ after sent upload

def acceptAll : UploadAnswer where
  source := none
  beforeLast := none
  chunk := .ok { completedFileId := none, nextByte := none }
  afterTerminal := none
  complete := .ok none

/-- An upload of one chunk whose `prepare` answers with the given offset. -/
def serialRun (nextByte : Option Nat) : List Label :=
  let key := (Direction.upload, "a")
  [.cmd (.enqueue (Loop.sampleTask 1 "a") ⟨none, none⟩), .work key .tick,
    .work key (.prepare (.upload none (.ok { completedFileId := none, nextByte := nextByte }))),
    .work key .tick, .work key .tick, .work key (.chunk .tick),
    .work key (.chunk (.answer (.upload acceptAll))), .work key .tick, .work key .tick,
    .work key (.check none)]

theorem run_completed_finalized_serial :
    ∃ s before, Machine.Run step (Allows TaskView.LeavesWork) (init 1 1 []) s ∧
      (s.world.heap 1).history = before ++ [.sent (.completed (.upload, "a") 4 none)] ∧
      Finalized before := by
  have ends : ((Machine.exec step (init 1 1 []) (serialRun none)).map fun s =>
      (s.world.heap 1).history.getLast?) =
      some (some (.sent (.completed (.upload, "a") 4 none))) := by
    decide
  have permitted : Machine.ExecAllowed step (Allows TaskView.LeavesWork) (init 1 1 [])
      (serialRun none) := by
    decide
  obtain ⟨s, executed, last⟩ := Option.map_eq_some_iff.mp ends
  obtain ⟨before, sent⟩ := List.getLast?_eq_some_iff.mp last
  have run := Machine.run_of_exec executed permitted
  exact ⟨s, before, run, sent, run_completed_finalized run 1 before [] _ _ _ sent rfl⟩

/-- A parallel upload is paused when all its parts are done, and resumed. -/
def pausedAtTotalRun : List Label :=
  let key := (Direction.upload, "a")
  let prepared := Choice.prepare (.upload none (.ok { completedFileId := none, nextByte := none }))
  let transfer := fun index =>
    [Label.work key (.part index .grant), .work key (.part index (.retry .tick)),
      .work key (.part index (.retry (.answer (.upload acceptAll))))]
  [.cmd (.enqueue (parallelTask 1 "a") ⟨none, none⟩), .work key .tick, .work key prepared] ++
    transfer 0 ++ transfer 1 ++
    [.work key (.join 0), .work key (.join 0), .cmd (.pause 1), .sched, .sched, .work key .tick,
      .work key .tick, .work key (.check none), .deliver key, .deliver key, .deliver key,
      .deliver key, .cmd (.resume 1), .work key .tick, .work key prepared, .work key .tick,
      .work key (.check none)]

/-- Two uploads that complete without having been finalized: `prepare` answers that
every byte is there, and a parallel upload is resumed at its end. -/
theorem completed_without_finalization :
    (∃ s, Machine.Reachable step (init 1 1 []) s ∧
      .sent (.completed (.upload, "a") 4 none) ∈ (s.world.heap 1).history ∧
      ¬ Finalized (s.world.heap 1).history) ∧
    ∃ s, Machine.Reachable step (init 1 1 []) s ∧
      .sent (.completed (.upload, "a") 4 none) ∈ (s.world.heap 1).history ∧
      ¬ Finalized (s.world.heap 1).history := by
  have serial : ((Machine.exec step (init 1 1 []) (serialRun (some 4))).map fun s =>
      (decide (.sent (.completed (.upload, "a") 4 none) ∈ (s.world.heap 1).history),
        decide (Finalized (s.world.heap 1).history))) = some (true, false) := by
    decide
  have parallel : ((Machine.exec step (init 1 1 []) pausedAtTotalRun).map fun s =>
      (decide (.sent (.completed (.upload, "a") 4 none) ∈ (s.world.heap 1).history),
        decide (Finalized (s.world.heap 1).history))) = some (true, false) := by
    decide
  refine ⟨?_, ?_⟩
  · obtain ⟨s, executed, seen⟩ := Option.map_eq_some_iff.mp serial
    simp only [Prod.mk.injEq, decide_eq_true_eq, decide_eq_false_iff_not] at seen
    exact ⟨s, Machine.reachable_of_exec executed, seen⟩
  · obtain ⟨s, executed, seen⟩ := Option.map_eq_some_iff.mp parallel
    simp only [Prod.mk.injEq, decide_eq_true_eq, decide_eq_false_iff_not] at seen
    exact ⟨s, Machine.reachable_of_exec executed, seen⟩

end System

end RustyCat
