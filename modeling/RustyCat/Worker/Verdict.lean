import RustyCat.Lib.ListCount
import RustyCat.Worker.Run

/-!
# A stop is not a failure

How a run sorts the errors it meets.  A `TaskCanceled` that a protocol answers on
request must not become the failure of the task, and an error that asks for a
provider abort must not be hidden by a stop.
-/

namespace RustyCat

namespace Retry

/-- A `TaskCanceled` is carried only as far as `stop_requested` is read. -/
def Honest (stop : Bool) : Retry → Prop
  | failed _ e => isTaskCanceled e = true → stop = true
  | failedToken _ e | settled (.failed e) => isTaskCanceled e = false
  | _ => True

def Doomed : Retry → Prop
  | failed _ e | failedToken _ e | settled (.failed e) => isPermanent e = true
  | _ => False

end Retry

/-- A protocol answers `TaskCanceled` only if it sees the stop. -/
def RetryChoice.Polite (stop : Bool) : RetryChoice → Prop
  | .answer given => ∀ e ∈ given.raised, isTaskCanceled e = true → stop = true
  | .tick | .wake => True

/-- A protocol answers `TaskCanceled` to a chunk only if a stop is requested, to
`prepare` only once the token is cancelled, and never to `complete`. -/
def Choice.Polite (r : Run) : Choice → Prop
  | .prepare answer => ∀ e ∈ answer.raised, isTaskCanceled e = true → r.token = true
  | .chunk choice | .part _ (.retry choice) => choice.Polite r.cell.life.stopRequested
  | .complete answer => ∀ e ∈ errorOf answer, isTaskCanceled e = false
  | _ => True

instance (stop : Bool) : DecidablePred (RetryChoice.Polite stop)
  | .answer given => List.decidableBAll _ given.raised
  | .tick | .wake => isTrue trivial

instance (r : Run) : DecidablePred (Choice.Polite r)
  | .prepare answer => List.decidableBAll _ answer.raised
  | .chunk choice | .part _ (.retry choice) =>
    inferInstanceAs (Decidable (choice.Polite r.cell.life.stopRequested))
  | .complete answer => List.decidableBAll _ (errorOf answer)
  | .tick | .wake | .check _ | .join _ | .part _ .grant | .part _ (.panic _) => isTrue trivial

namespace TaskCell

/-- No `TaskCanceled` was reported as a failure. -/
def Told (cell : TaskCell) : Prop :=
  ∀ key e total, .sent (.failed key e total) ∈ cell.history → isTaskCanceled e = false

variable {cell : TaskCell}

theorem Told.log {event : TaskEvent} (told : cell.Told)
    (plain : ∀ key e total, event = .sent (.failed key e total) → isTaskCanceled e = false) :
    (cell.log event).Told := by
  intro key e total member
  rcases List.mem_append.mp member with old | new
  · exact told key e total old
  · exact plain key e total (List.mem_singleton.mp new).symm

theorem Told.notes {events : List TaskEvent} {life : TransferLifecycle} (told : cell.Told)
    (plain : ∀ e ∈ events, e.isNote = true) :
    Told { life := life, history := cell.history ++ events } := by
  intro key e total member
  rcases List.mem_append.mp member with old | new
  · exact told key e total old
  · cases plain _ new

theorem Told.returnCall {α : Type} {call : Call α} (told : cell.Told) (request : Request)
    (plain : ∀ e ∈ call.notes, e.isNote = true) : (cell.returnCall request call).Told :=
  Told.log (Told.notes told plain) (by simp)

theorem Told.finishIncomplete (told : cell.Told) : cell.finishIncomplete.Told := by
  simp only [TaskCell.finishIncomplete]
  split
  · exact Told.log told (by simp)
  · exact told

theorem Told.executorCancel (told : cell.Told) (direction : Direction) :
    (cell.executorCancel direction).Told := by
  cases direction with
  | download => exact told
  | upload =>
    simp only [TaskCell.executorCancel]
    split
    · exact Told.log told (by simp)
    · exact told

end TaskCell

namespace Retry

variable {ctx : RetryContext} {cell after : TaskCell} {choice : RetryChoice} {retry next : Retry}

variable (moved : Step ctx cell choice retry next after)
include moved

theorem Step.stopRequested_eq :
    after.life.stopRequested = cell.life.stopRequested := by
  cases moved with
  | returned attempt called =>
    simp only [TaskCell.returnCall]
    split <;> rfl
  | settle => exact TaskCell.finishIncomplete_stopRequested _
  | _ => rfl

theorem Step.told (told : cell.Told) :
    after.Told := by
  cases moved with
  | request attempt live => exact told.log (by simp)
  | returned attempt called => exact told.returnCall _ (transferChunk_sound called).plain
  | settle => exact told.finishIncomplete
  | _ => exact told

theorem Step.honest (polite : choice.Polite cell.life.stopRequested)
    (ok : retry.Honest cell.life.stopRequested) :
    next.Honest after.life.stopRequested := by
  rw [moved.stopRequested_eq]
  cases moved with
  | @returned attempt answer transfer called =>
    cases result : transfer.result with
    | ok outcome => trivial
    | error e =>
      intro canceled
      exact polite e ((transferChunk_sound called).cancels e result canceled) canceled
  | inspect plain =>
    -- the error was tested against `stop_requested`
    rw [Honest, ← Bool.not_eq_true]
    exact fun canceled => plain ⟨canceled, ok canceled⟩
  | giveUp => exact ok
  | _ => trivial

theorem Step.doomed_of_required
    (required : after.life.abortRequired = true) : cell.life.abortRequired = true ∨ next.Doomed := by
  cases moved with
  | @returned attempt answer transfer called =>
    by_cases asked : transfer.abortRequired = true
    · obtain ⟨e, result, permanent⟩ := (transferChunk_sound called).aborts asked
      rw [result]
      exact Or.inr permanent
    · simp only [TaskCell.returnCall, if_neg asked] at required
      exact Or.inl required
  | settle =>
    rw [TaskCell.finishIncomplete_abortRequired] at required
    exact Or.inl required
  | _ => exact Or.inl required

theorem Step.doomed (ok : retry.Doomed) :
    next.Doomed := by
  cases moved with
  | stopped canceled requested =>
    rw [not_isTaskCanceled_of_isPermanent ok] at canceled
    cases canceled
  | inspect plain => exact ok
  | masked seen can => simp [Doomed, isPermanent, can] at ok
  | giveUp => exact ok
  | delay again more => simp [Doomed, isPermanent, again] at ok
  | _ => exact ok.elim

end Retry

namespace Part

def Honest (stop : Bool) (part : Part) : Prop :=
  match part.pc with
  | .retry retry => retry.Honest stop
  | _ => True

def Doomed (part : Part) : Prop :=
  match part.pc with
  | .retry retry => retry.Doomed
  | .panicked _ => True
  | .acquire => False

theorem checkedParallelPartMemoryBytes_uncanceled {bodyBytes copies scratch : Nat} {e : MeowError}
    (refusal : checkedParallelPartMemoryBytes bodyBytes copies scratch = .error e) :
    isTaskCanceled e = false := by
  simp only [checkedParallelPartMemoryBytes] at refusal
  split at refusal
  · cases refusal
    rfl
  · split at refusal
    · cases refusal
      rfl
    · cases refusal

theorem partMemory_uncanceled {inner : InnerTask} {total offset : Nat} {e : MeowError}
    (refusal : partMemory inner total offset = .error e) : isTaskCanceled e = false := by
  simp only [partMemory] at refusal
  split at refusal
  · cases refusal
    rfl
  · split at refusal
    · rename_i refused
      cases refusal
      exact checkedParallelPartMemoryBytes_uncanceled refused
    · split at refusal
      · cases refusal
        rfl
      · split at refusal
        · cases refusal
          rfl
        · cases refusal

variable {inner : InnerTask} {total : Nat} {token : Bool} {cell after : TaskCell}
  {choice : PartChoice} {part next : Part}

variable (moved : Step inner total token cell choice part next after)
include moved

theorem Step.stopRequested_eq :
    after.life.stopRequested = cell.life.stopRequested := by
  cases moved with
  | retry moved => exact moved.stopRequested_eq
  | _ => rfl

theorem Step.told (told : cell.Told) : after.Told := by
  cases moved with
  | retry moved => exact moved.told told
  | panickedCalling text busy => exact told.log (by simp)
  | _ => exact told

theorem Step.honest (polite : ∀ retryChoice, choice = .retry retryChoice →
      retryChoice.Polite cell.life.stopRequested)
    (ok : part.Honest cell.life.stopRequested) : next.Honest after.life.stopRequested := by
  cases moved with
  | refused refusal => exact partMemory_uncanceled refusal
  | retry moved => exact moved.honest (polite _ rfl) ok
  | _ => trivial

theorem Step.doomed_of_required
    (required : after.life.abortRequired = true) : cell.life.abortRequired = true ∨ next.Doomed := by
  cases moved with
  | retry moved => exact moved.doomed_of_required required
  | _ => exact Or.inl required

theorem Step.doomed (ok : part.Doomed) : next.Doomed := by
  cases moved with
  | refused | interrupted | granted => exact ok.elim
  | retry moved => exact moved.doomed ok
  | panickedIdle | panickedCalling => trivial

end Part

namespace Driver

variable {d : Driver} {stop : Bool}

structure Honest (stop : Bool) (d : Driver) : Prop where
  parts : ∀ part ∈ d.parts, part.Honest stop
  failed : ∀ e, d.failed = some e → isTaskCanceled e = false

/-- The driver has recorded a failure or has a part with the property. -/
def Holds (p : Part → Prop) (d : Driver) : Prop :=
  d.failed.isSome = true ∨ ∃ part ∈ d.parts, p part

def Doomed (d : Driver) : Prop := d.Holds Part.Doomed

theorem Honest.fail {e : MeowError} (ok : d.Honest stop) (uncanceled : isTaskCanceled e = false) :
    (d.fail e).Honest stop where
  parts := ok.parts
  failed := by
    intro e' kept
    cases first : d.failed with
    | none =>
      simp only [Driver.fail, first, Option.none_or, Option.some.injEq] at kept
      rw [← kept]
      exact uncanceled
    | some old =>
      simp only [Driver.fail, first, Option.some_or] at kept
      exact ok.failed e' (first.trans kept)

theorem Honest.fill (ok : d.Honest stop) : d.fill.1.Honest stop where
  parts := by
    intro part member
    rcases List.mem_append.mp member with old | new
    · exact ok.parts part old
    · obtain ⟨offset, _, rfl⟩ := List.mem_map.mp new
      trivial
  failed := ok.failed

theorem Honest.topUp (ok : d.Honest stop) : d.topUp.1.Honest stop := by
  simp only [Driver.topUp]
  split
  · exact ok.fill
  · exact ok

theorem onDone_uncanceled {w : PartWindow} {offset : Nat} {e : MeowError}
    (refused : w.onDone offset = .error e) : isTaskCanceled e = false := by
  simp only [PartWindow.onDone] at refused
  split at refused
  · cases refused
    rfl
  · cases refused

theorem Honest.onJoined (ok : d.Honest stop) (offset : Nat) (result : ChunkRetryResult)
    (settled : (Retry.settled result).Honest stop) : (d.onJoined offset result).1.Honest stop := by
  cases result with
  | done outcome =>
    simp only [Driver.onJoined]
    split
    · exact ⟨ok.parts, ok.failed⟩
    · rename_i refused
      exact ok.fail (onDone_uncanceled refused)
  | cancelled => exact ⟨ok.parts, ok.failed⟩
  | failed e =>
    have failed := ok.fail (e := e) settled
    exact ⟨failed.parts, failed.failed⟩

theorem onJoined_failed {result : ChunkRetryResult} (offset : Nat)
    (already : d.failed.isSome = true) : (d.onJoined offset result).1.failed.isSome = true := by
  cases result with
  | done outcome =>
    simp only [Driver.onJoined]
    split
    · exact already
    · simp [Driver.fail]
  | cancelled => exact already
  | failed e => simp [Driver.onJoined, Driver.fail]

theorem onJoined_parts {result : ChunkRetryResult} (offset : Nat) :
    (d.onJoined offset result).1.parts = d.parts := by
  cases result with
  | done outcome =>
    simp only [Driver.onJoined]
    split <;> rfl
  | cancelled => rfl
  | failed e => rfl

variable {p : Part → Prop} {index : Nat}

theorem Holds.topUp (ok : d.Holds p) : d.topUp.1.Holds p := by
  simp only [Driver.topUp]
  split
  · rcases ok with failed | ⟨part, member, holds⟩
    · exact Or.inl failed
    · exact Or.inr ⟨part, List.mem_append_left _ member, holds⟩
  · exact ok

theorem Holds.onJoined (ok : d.Holds p) (offset : Nat)
    (result : ChunkRetryResult) : (d.onJoined offset result).1.Holds p := by
  rcases ok with failed | ⟨part, member, holds⟩
  · exact Or.inl (onJoined_failed offset failed)
  · exact Or.inr ⟨part, by rw [onJoined_parts]; exact member, holds⟩

theorem Honest.erase (ok : d.Honest stop) (index : Nat) :
    Honest stop { d with parts := d.parts.eraseIdx index } where
  parts := fun part member => ok.parts part (List.mem_of_mem_eraseIdx member)
  failed := ok.failed

theorem Honest.set {next : Part} (ok : d.Honest stop) (honest : next.Honest stop) :
    Honest stop { d with parts := d.parts.set index next } where
  parts := by
    intro part member
    rcases List.mem_or_eq_of_mem_set member with old | rfl
    · exact ok.parts part old
    · exact honest
  failed := ok.failed

theorem Holds.erase {part : Part} (here : d.parts[index]? = some part) (ok : d.Holds p) :
    Holds p { d with parts := d.parts.eraseIdx index } ∨ p part := by
  rcases ok with failed | ⟨other, member, holds⟩
  · exact Or.inl (Or.inl failed)
  · rcases List.mem_cons.mp ((ListCount.perm_eraseIdx here).mem_iff.mp member) with rfl | rest
    · exact Or.inr holds
    · exact Or.inl (Or.inr ⟨other, rest, holds⟩)

theorem Holds.set {part next : Part} (here : d.parts[index]? = some part) (moves : p part → p next)
    (ok : d.Holds p) :
    Holds p { d with parts := d.parts.set index next } := by
  have there : next ∈ d.parts.set index next :=
    List.mem_set (List.getElem?_eq_some_iff.mp here).1 _
  rcases ok.erase here with rest | holds
  · rcases rest with failed | ⟨other, member, holds⟩
    · exact Or.inl failed
    · refine Or.inr ⟨other, ?_, holds⟩
      rw [(ListCount.set_perm here next).mem_iff]
      exact List.mem_cons_of_mem _ member
  · exact Or.inr ⟨next, there, moves holds⟩

end Driver

namespace Pc

/-- No `TaskCanceled` is on its way to be reported as a failure. -/
def Honest (token stop : Bool) : Pc → Prop
  | prepFailed _ _ e => isTaskCanceled e = true → token = true
  | prepForce _ _ e | exitFailed e _ _ => isTaskCanceled e = false
  | serialChunk _ _ _ retry => retry.Honest stop
  | join d => d.Honest stop
  | barrier d => ∀ e, d.failed = some e → isTaskCanceled e = false
  | _ => True

def Doomed : Pc → Prop
  | prepFailed _ _ e => isPermanent e = true
  | serialChunk _ _ _ retry => retry.Doomed
  | join d => d.Doomed
  | barrier d => d.failed.isSome = true
  | prepForce _ _ _ | panicDrain _ _ | exitFailed _ _ _ | finished => True
  | _ => False

end Pc

namespace Run

/-- What a run knows about the errors it met and the abort it may owe. -/
structure Honest (r : Run) : Prop where
  errors : r.pc.Honest r.token r.cell.life.stopRequested
  doomed : r.cell.life.abortRequired = true → r.pc.Doomed
  told : r.cell.Told

variable {inner : InnerTask} {r s : Run}

variable {pc : Pc} {e : MeowError} {total : Nat}

theorem claim_honest {won lost : Pc} (told : r.cell.Told)
    (free : ¬ r.cell.life.abortRequired = true)
    (wonErrors : ∀ token stop, won.Honest token stop)
    (lostErrors : ∀ token stop, lost.Honest token stop) : (r.claim won lost).Honest := by
  refine ⟨?_, fun required => absurd required free, told⟩
  simp only [claim]
  split
  · exact wonErrors _ _
  · exact lostErrors _ _

theorem send_told {event : WorkerEvent} (told : r.cell.Told)
    (plain : ∀ key e total, event = .failed key e total → isTaskCanceled e = false) :
    (r.send event).cell.Told :=
  told.log fun key e total same => plain key e total (TaskEvent.sent.inj same)

theorem sendFailed_honest (told : r.cell.Told)
    (uncanceled : isTaskCanceled e = false) : (r.sendFailed inner e total).Honest := by
  refine ⟨trivial, fun _ => trivial, send_told told ?_⟩
  intro key e' total' same
  cases same
  exact uncanceled

theorem exitFailed_honest {settles : Bool} (told : r.cell.Told)
    (uncanceled : isTaskCanceled e = false) : (r.exitFailed inner e total settles).Honest := by
  simp only [exitFailed]
  split
  · exact sendFailed_honest (told.executorCancel inner.direction) uncanceled
  · exact sendFailed_honest told uncanceled

theorem joinWith_honest {next : Driver × List Nat} (told : r.cell.Told)
    (errors : next.1.Honest r.cell.life.stopRequested)
    (doomed : r.cell.life.abortRequired = true → next.1.Doomed) : (r.joinWith next).Honest := by
  refine ⟨errors, doomed, told.notes ?_⟩
  intro e member
  obtain ⟨offset, _, rfl⟩ := List.mem_map.mp member
  rfl

theorem validateParallelPartWindow_uncanceled {window chunk remaining copies scratch limit : Nat}
    (refused : validateParallelPartWindow window chunk remaining copies scratch limit = .error e) :
    isTaskCanceled e = false := by
  simp only [validateParallelPartWindow] at refused
  split at refused
  · cases refused
  split at refused
  · cases refused
    rfl
  · split at refused
    · cases refused
      rfl
    · repeat' split at refused
      all_goals
        cases refused
        try rfl

theorem prepared_honest {v : PrepareOutcome} (told : r.cell.Told)
    (free : ¬ r.cell.life.abortRequired = true) : (r.prepared inner v).Honest := by
  have announced : ∀ total,
      (r.send (.progress inner.dedupeKey v.nextOffset total)).cell.Told :=
    fun total => send_told told (by simp)
  simp only [prepared]
  split
  · split
    · rename_i refused
      cases inner.direction with
      | download | upload =>
        exact ⟨validateParallelPartWindow_uncanceled refused, fun _ => trivial, announced _⟩
    · simp only [enterParallel]
      split
      · exact ⟨trivial, fun required => absurd required free, announced _⟩
      refine joinWith_honest (announced _) (Driver.Honest.fill ⟨by simp [Driver.new], ?_⟩)
        fun required => absurd required free
      simp [Driver.new]
  · exact ⟨trivial, fun required => absurd required free, announced _⟩

theorem sendMoved_life (total : Nat) (moved : Option Nat) :
    (sendMoved inner r total moved).cell.life = r.cell.life := by
  cases moved <;> rfl

theorem sendMoved_told (told : r.cell.Told) (total : Nat) (moved : Option Nat) :
    (sendMoved inner r total moved).cell.Told := by
  cases moved with
  | none => exact told
  | some watermark => exact send_told told (by simp)

theorem joined_honest {d : Driver} {index : Nat} {part : Part}
    (here : d.parts[index]? = some part) (settled : part.settled = true) (told : r.cell.Told)
    (errors : d.Honest r.cell.life.stopRequested)
    (doomed : r.cell.life.abortRequired = true → d.Doomed) :
    (r.joined inner { d with parts := d.parts.eraseIdx index } part).Honest := by
  have noted : ∀ outcome, (r.log (.joined part.offset outcome)).cell.Told :=
    fun outcome => told.log (by simp)
  have rest := errors.erase index
  have honest := errors.parts part (List.mem_of_getElem? here)
  have left := fun required => (doomed required).erase here
  obtain ⟨offset, pc⟩ := part
  cases pc with
  | acquire => cases settled
  | panicked text => exact ⟨trivial, fun _ => trivial, noted _⟩
  | retry retry =>
    cases retry with
    | settled result =>
      cases result with
      | done outcome =>
        refine joinWith_honest (sendMoved_told (noted _) _ _) ?_ ?_
        · rw [sendMoved_life]
          exact (rest.onJoined offset (.done outcome) honest).topUp
        · rw [sendMoved_life]
          intro required
          exact (((left required).resolve_right id).onJoined offset (.done outcome)).topUp
      | cancelled =>
        exact ⟨rest.onJoined offset .cancelled honest,
          fun required => ((left required).resolve_right id).onJoined offset .cancelled, noted _⟩
      | failed e =>
        exact ⟨rest.onJoined offset (.failed e) honest,
          fun _ => Or.inl (by simp [Driver.onJoined, Driver.fail]), noted _⟩
    | _ => cases settled

theorem settleBarrier_honest {d : Driver} (told : r.cell.Told)
    (errors : ∀ e, d.failed = some e → isTaskCanceled e = false)
    (doomed : r.cell.life.abortRequired = true → d.failed.isSome = true) :
    (r.settleBarrier d).Honest := by
  simp only [settleBarrier]
  split
  · rename_i e failed
    exact ⟨errors e failed, fun _ => trivial, told⟩
  · rename_i none_
    have free : ¬ r.cell.life.abortRequired = true := by
      intro required
      have failed := doomed required
      rw [none_] at failed
      cases failed
    split
    · exact ⟨trivial, fun required => absurd required free, told⟩
    split
    · exact ⟨rfl, fun _ => trivial, told⟩
    · exact ⟨trivial, fun required => absurd required free, told⟩

theorem completed_honest {answer : Except MeowError (Option String)} (told : r.cell.Told)
    (free : ¬ r.cell.life.abortRequired = true)
    (polite : ∀ e ∈ errorOf answer, isTaskCanceled e = false) :
    (r.completed inner total answer).Honest := by
  have returned (noted : Run) (told : noted.cell.Told) :
      TaskCell.Told (TaskCell.log noted.cell (.returned .complete)) := told.log (by simp)
  have uploaded : (r.log (.completeUpload answer.isOk)).cell.Told := told.log (by simp)
  simp only [completed]
  cases inner.direction <;> cases answer with
  | ok payload => exact ⟨trivial, fun required => absurd required free, returned _ ‹_›⟩
  | error e => exact ⟨polite e (mem_errorOf.mpr rfl), fun _ => trivial, returned _ ‹_›⟩

/-- No step of a run with a polite protocol reports a stop as a failure. -/
theorem Step.honest {choice : Choice} (taken : Step inner r pc choice s) (stands : r.pc = pc)
    (polite : choice.Polite r) (ok : r.Honest) : s.Honest := by
  obtain ⟨errors, doomed, told⟩ := ok
  rw [stands] at errors doomed
  cases taken with
  | prepInterrupted seen waiting =>
    refine ⟨trivial, fun required => ?_, told⟩
    rcases waiting with rfl | rfl <;> exact doomed required
  | prepRequest | completeRequest => exact ⟨trivial, doomed, told.log (by simp)⟩
  | @prepOk attempt start answer call v called result =>
    have sound := prepareCall_sound called
    refine prepared_honest (told.returnCall _ sound.plain) fun required => ?_
    have calm : call.abortRequired = false := by
      rw [← Bool.not_eq_true]
      intro asked
      obtain ⟨e, failed, _⟩ := sound.aborts asked
      rw [result] at failed
      cases failed
    simp only [TaskCell.returnCall, calm] at required
    exact doomed required
  | @prepError attempt start answer call e called result =>
    have sound := prepareCall_sound called
    refine ⟨fun canceled => ?_, fun required => ?_, told.returnCall _ sound.plain⟩
    · exact polite e (sound.cancels e result canceled) canceled
    · by_cases asked : call.abortRequired = true
      · obtain ⟨e', failed, permanent⟩ := sound.aborts asked
        rw [result] at failed
        cases failed
        exact permanent
      · simp only [TaskCell.returnCall, if_neg asked] at required
        exact (doomed required).elim
  | prepMasked seen can free | prepDelay free more =>
    exact ⟨trivial, fun required => absurd required free, told⟩
  | prepUnmasked plain =>
    refine ⟨?_, fun _ => trivial, told⟩
    -- a `TaskCanceled` met a cancelled token and no abort is owed, so it was masked
    change isTaskCanceled _ = false
    rw [← Bool.not_eq_true]
    intro canceled
    refine plain ⟨errors canceled, cancellationCanMask_of_isTaskCanceled canceled, ?_⟩
    intro required
    rw [not_isTaskCanceled_of_isPermanent (doomed required)] at canceled
    cases canceled
  | prepGiveUp | serialFailed => exact ⟨errors, fun _ => trivial, told⟩
  | prepWake | serialInterrupted | serialLast | serialNext | serialCancelled | serialAck =>
    exact ⟨trivial, doomed, told⟩
  | serialClaim | totalDownload | totalUpload | completeClaim =>
    exact claim_honest told doomed (fun _ _ => trivial) fun _ _ => trivial
  | serialRetry moved =>
    exact ⟨moved.honest polite errors, fun required =>
      (moved.doomed_of_required required).elim (fun old => moved.doomed (doomed old)) id,
      moved.told told⟩
  | serialOutcome =>
    have announced : ∀ nextOffset total,
        (r.send (.progress inner.dedupeKey nextOffset total)).cell.Told :=
      fun _ _ => send_told told (by simp)
    simp only [chunkDone]
    split
    · exact ⟨trivial, doomed, announced _ _⟩
    split
    · exact ⟨trivial, doomed, announced _ _⟩
    · exact ⟨trivial, doomed, announced _ _⟩
  | serialFinish =>
    refine ⟨?_, fun required => ?_, told.finishIncomplete⟩
    · dsimp only
      split <;> trivial
    · rw [TaskCell.finishIncomplete_abortRequired] at required
      exact (doomed required).elim
  | totalInvalid => exact ⟨not_isTaskCanceled_of_isPermanent (LocalError.isPermanent_error _),
      fun _ => trivial, told⟩
  | totalValid | released | canceled => exact ⟨trivial, fun _ => trivial, send_told told (by simp)⟩
  | @part d index choice part next cell here moved =>
    refine ⟨?_, fun required => ?_, moved.told told⟩
    · have same := moved.stopRequested_eq
      have honest := moved.honest (by rintro _ rfl; exact polite)
        (errors.parts part (List.mem_of_getElem? here))
      rw [same] at honest
      change Driver.Honest cell.life.stopRequested _
      rw [same]
      exact errors.set honest
    · rcases moved.doomed_of_required required with old | new
      · exact (doomed old).set here moved.doomed
      · exact Or.inr ⟨next, List.mem_set (List.getElem?_eq_some_iff.mp here).1 _, new⟩
  | joined here settled => exact joined_honest here settled told errors doomed
  | drained empty =>
    refine ⟨errors.failed, fun required => ?_, told⟩
    refine (doomed required).resolve_right ?_
    rintro ⟨part, member, _⟩
    rw [empty] at member
    cases member
  | panicPart here moved => exact ⟨trivial, fun _ => trivial, moved.told told⟩
  | panicJoined here settled => exact ⟨trivial, fun _ => trivial, told.log (by simp)⟩
  | panicDrained empty =>
    simp only [settlePanic]
    cases inner.direction with
    | download | upload => exact ⟨rfl, fun _ => trivial, told⟩
  | barrier => exact settleBarrier_honest told errors doomed
  | completeInvalid upload =>
    exact ⟨not_isTaskCanceled_of_isPermanent (LocalError.isPermanent_error _),
      fun _ => trivial, told.executorCancel _⟩
  | completeReturned => exact completed_honest told doomed polite
  | releaseFailed | cleanupFailed =>
    exact sendFailed_honest told
      (not_isTaskCanceled_of_isPermanent (LocalError.isPermanent_error _))
  | failed => exact exitFailed_honest told errors

theorem prepared_outbox {v : PrepareOutcome} :
    (r.prepared inner v).outbox =
      r.outbox ++ [.progress inner.dedupeKey v.nextOffset (knownTotal inner v)] := by
  simp only [prepared]
  split
  · split
    · cases inner.direction <;> rfl
    · simp only [enterParallel]
      split <;> rfl
  · rfl

theorem joined_outbox (inner : InnerTask) (r : Run) (d : Driver) (part : Part) :
    (r.joined inner d part).outbox = r.outbox ∨
      ∃ watermark, (r.joined inner d part).outbox =
        r.outbox ++ [.progress inner.dedupeKey watermark d.window.total] := by
  obtain ⟨offset, pc⟩ := part
  cases pc with
  | acquire => exact Or.inl rfl
  | panicked text => exact Or.inl rfl
  | retry retry =>
    cases retry with
    | settled result =>
      cases result with
      | done outcome =>
        simp only [joined, joinWith]
        cases (d.onJoined offset (.done outcome)).2 with
        | none => exact Or.inl rfl
        | some watermark => exact Or.inr ⟨watermark, rfl⟩
      | cancelled | failed => exact Or.inl rfl
    | _ => exact Or.inl rfl

theorem Step.sent_canceled {choice : Choice} {key : UniqueId} (taken : Step inner r pc choice s)
    (sent : .canceled key total ∈ s.outbox) :
    .canceled key total ∈ r.outbox ∨
      (∃ known, pc = .exitCanceled known) ∧ s.pc = .finished ∧ s.cell.life = r.cell.life := by
  cases taken with
  | canceled => exact Or.inr ⟨⟨_, rfl⟩, rfl, rfl⟩
  | prepOk called result =>
    rw [prepared_outbox] at sent
    exact Or.inl (by simpa using sent)
  | @joined d index part here settled =>
    rcases joined_outbox inner r { d with parts := d.parts.eraseIdx index } part with
      same | ⟨watermark, same⟩
    · rw [same] at sent
      exact Or.inl sent
    · rw [same] at sent
      exact Or.inl (by simpa using sent)
  | serialOutcome =>
    simp only [chunkDone] at sent
    split at sent
    · exact Or.inl (by simpa [goto, send] using sent)
    · split at sent <;> exact Or.inl (by simpa [goto, send] using sent)
  | barrier =>
    simp only [settleBarrier] at sent
    split at sent
    · exact Or.inl sent
    split at sent
    · exact Or.inl sent
    · split at sent <;> exact Or.inl sent
  | panicDrained empty =>
    simp only [settlePanic] at sent
    cases direction : inner.direction <;> rw [direction] at sent <;> exact Or.inl sent
  | @completeReturned total answer =>
    simp only [completed] at sent
    cases direction : inner.direction <;> cases answer <;> rw [direction] at sent <;>
      exact Or.inl sent
  | failed =>
    simp only [exitFailed] at sent
    split at sent <;> exact Or.inl (by simpa [sendFailed, goto, send, abort] using sent)
  | releaseFailed | cleanupFailed => exact Or.inl (by simpa [sendFailed, goto, send] using sent)
  | released | totalValid => exact Or.inl (by simpa [sendCompleted, goto, send] using sent)
  | _ => exact Or.inl sent

end Run

end RustyCat
