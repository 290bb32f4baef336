import RustyCat.Lib.Machine
import RustyCat.Worker.Retry

/-!
# The discipline of the chunk retry loop

The retry loop with everything that can happen around it: a pause or a cancel of
the lifecycle, the token, and a sibling that asks for an abort.  The ghost fields
are the results of the attempts, the number of attempts and whether the loop has
read a cancelled token.
-/

namespace RustyCat

structure RetryRun where
  retry : Retry
  cell : TaskCell
  token : Bool
  results : List (Except MeowError ChunkOutcome)
  attempts : Nat
  observed : Bool

inductive RetryInput where
  | loop (choice : RetryChoice)
  | pause
  | cancel
  /-- The token is cancelled. -/
  | interrupt
  | requireAbort

/-- The places of the loop that read the token. -/
def Retry.readsToken : Retry → Bool
  | check _ | failedToken _ _ | backoff _ => true
  | call _ | failed _ _ | settleClaim | settled _ => false

/-- The results of the attempts, with that of the answer if the choice is one. -/
def RetryChoice.record (ctx : RetryContext) (results : List (Except MeowError ChunkOutcome)) :
    RetryChoice → List (Except MeowError ChunkOutcome)
  | .answer given =>
    results ++ ((transferChunk ctx.inner ctx.mode ctx.offset given).map Call.result).toList
  | .tick | .wake => results

namespace RetryRun

/-- The loop is entered; the task may have been stopped before. -/
def new (cell : TaskCell) (token : Bool) : RetryRun where
  retry := .check 0
  cell := cell
  token := token
  results := []
  attempts := 0
  observed := false

variable (inner : InnerTask) (mode : ChunkTransferMode) (offset : Nat)

def context (s : RetryRun) : RetryContext where
  inner := inner
  mode := mode
  offset := offset
  token := s.token

def step (s : RetryRun) : RetryInput → Option RetryRun
  | .loop choice =>
    (s.retry.step (s.context inner mode offset) s.cell choice).map fun (next, cell) =>
      { s with
        retry := next
        cell := cell
        results := choice.record (s.context inner mode offset) s.results
        attempts := if next.calling then s.attempts + 1 else s.attempts
        observed := s.observed || (s.token && s.retry.readsToken && choice = .tick) }
  | .pause => some { s with cell := s.cell.setTerminal s.cell.life.terminal.beginPause.1 }
  | .cancel => some { s with cell := s.cell.setTerminal s.cell.life.terminal.beginCancel.1 }
  | .interrupt => some { s with token := true }
  | .requireAbort => some { s with cell := { s.cell with life := s.cell.life.requireAbort } }

def LastError (s : RetryRun) (e : MeowError) : Prop :=
  s.results.getLast? = some (.error e)

/-- Before the attempt with this number: every earlier one failed, the last one so
that it may be repeated. -/
def Before (limit : Nat) (s : RetryRun) (attempt : Nat) : Prop :=
  attempt ≤ limit ∧ s.results.length = attempt ∧
    (attempt = 0 ∨ ∃ e, s.LastError e ∧ isTransportRetryable e = true)

def Place (limit : Nat) (s : RetryRun) : Prop :=
  match s.retry with
  | .check attempt => s.Before limit attempt ∧ s.attempts = attempt
  | .call attempt => s.Before limit attempt ∧ s.attempts = attempt + 1
  | .failed attempt e | .failedToken attempt e =>
    attempt ≤ limit ∧ s.results.length = attempt + 1 ∧ s.attempts = attempt + 1 ∧ s.LastError e
  | .backoff attempt => s.Before limit (attempt + 1) ∧ s.attempts = attempt + 1
  | .settleClaim =>
    s.attempts ≤ limit + 1 ∧
      ∃ e, s.LastError e ∧ isTaskCanceled e = true ∧ s.cell.life.stopRequested = true
  | .settled (.done v) => s.attempts ≤ limit + 1 ∧ s.results.getLast? = some (.ok v)
  | .settled (.failed e) => s.attempts ≤ limit + 1 ∧ s.LastError e
  | .settled .cancelled =>
    s.attempts ≤ limit + 1 ∧
      (∀ r, s.results.getLast? = some r → ∃ e, r = .error e ∧ isPermanent e = false) ∧
      (s.token = true ∨ ∃ e, s.LastError e ∧ isTaskCanceled e = true ∧
        s.cell.life.stopRequested = true ∧ s.cell.life.terminal.claimed = false)

structure Law (limit : Nat) (s : RetryRun) : Prop where
  place : s.Place limit
  observed : s.observed = true → s.token = true

variable {inner mode offset} {s next : RetryRun} {limit : Nat}

theorem law_new (limit : Nat) (cell : TaskCell) (token : Bool) : (new cell token).Law limit where
  place := ⟨⟨Nat.zero_le _, rfl, .inl rfl⟩, rfl⟩
  observed := nofun

theorem Law.around {cell : TaskCell} {token : Bool} (law : s.Law limit)
    (stop : s.cell.life.stopRequested = true → cell.life.stopRequested = true)
    (claim : cell.life.terminal.claimed = s.cell.life.terminal.claimed)
    (kept : s.token = true → token = true) :
    Law limit { s with cell := cell, token := token } := by
  refine ⟨?_, fun seen => kept (law.observed seen)⟩
  have place := law.place
  obtain ⟨retry, old, oldToken, results, attempts, observed⟩ := s
  cases retry with
  | check attempt | call attempt | failed attempt e | failedToken attempt e | backoff attempt =>
    exact place
  | settleClaim =>
    obtain ⟨bound, e, last, canceled, stopped⟩ := place
    exact ⟨bound, e, last, canceled, stop stopped⟩
  | settled result =>
    cases result with
    | done v | failed e => exact place
    | cancelled =>
      obtain ⟨bound, last, why⟩ := place
      refine ⟨bound, last, why.imp kept ?_⟩
      rintro ⟨e, last, canceled, stopped, free⟩
      exact ⟨e, last, canceled, stop stopped, claim.trans free⟩

theorem Before.last {attempt : Nat} (before : s.Before limit attempt) :
    ∀ r, s.results.getLast? = some r → ∃ e, r = .error e ∧ isPermanent e = false := by
  intro r last
  obtain ⟨-, length, rfl | ⟨e, failed, retryable⟩⟩ := before
  · rw [List.length_eq_zero_iff.mp length] at last
    cases last
  · refine ⟨e, Option.some.inj (last.symm.trans failed), ?_⟩
    simp [isPermanent, retryable]

theorem Law.loop (law : s.Law inner.maxChunkRetries) {choice : RetryChoice}
    (taken : s.step inner mode offset (.loop choice) = some next) :
    next.Law inner.maxChunkRetries := by
  simp only [step, Option.map_eq_some_iff, Prod.exists] at taken
  obtain ⟨retry, cell, moved, rfl⟩ := taken
  have cases := Retry.step_cases moved
  have place := law.place
  refine ⟨?_, ?_⟩
  · obtain ⟨before, old, token, results, attempts, observed⟩ := s
    simp only [context] at cases
    cases cases with
    | headInterrupted seen | backoffInterrupted seen =>
      obtain ⟨before, count⟩ := place
      exact ⟨(Nat.le_of_eq count).trans (Nat.le_succ_of_le before.1), before.last, .inl seen⟩
    | request attempt live =>
      obtain ⟨before, count⟩ := place
      exact ⟨before, congrArg (· + 1) count⟩
    | @returned attempt answer transfer called =>
      obtain ⟨⟨bound, length, -⟩, count⟩ := place
      have recorded : RetryChoice.record (context inner mode offset ⟨.call attempt, old, token,
          results, attempts, observed⟩) results (.answer answer) = results ++ [transfer.result] := by
        simp only [RetryChoice.record, context, called]
        rfl
      simp only [recorded]
      cases result : transfer.result with
      | ok v =>
        exact ⟨(Nat.le_of_eq count).trans (Nat.succ_le_succ bound), List.getLast?_concat⟩
      | error e =>
        refine ⟨bound, ?_, count, List.getLast?_concat⟩
        rw [List.length_append, List.length_singleton]
        exact congrArg (· + 1) length
    | stopped canceled requested =>
      obtain ⟨bound, -, count, last⟩ := place
      exact ⟨(Nat.le_of_eq count).trans (Nat.succ_le_succ bound), _, last, canceled, requested⟩
    | inspect plain => exact place
    | @masked attempt e seen can =>
      obtain ⟨bound, -, count, last⟩ := place
      refine ⟨(Nat.le_of_eq count).trans (Nat.succ_le_succ bound), fun r same => ⟨e, ?_, ?_⟩, .inl seen⟩
      · exact Option.some.inj (same.symm.trans last)
      · simp [isPermanent, can]
    | giveUp =>
      obtain ⟨bound, -, count, last⟩ := place
      exact ⟨(Nat.le_of_eq count).trans (Nat.succ_le_succ bound), last⟩
    | delay again more =>
      obtain ⟨bound, length, count, last⟩ := place
      exact ⟨⟨more, length, .inr ⟨_, last, again⟩⟩, count⟩
    | settle =>
      obtain ⟨bound, e, last, canceled, stopped⟩ := place
      refine ⟨bound, fun r same => ⟨e, ?_, ?_⟩, .inr ⟨e, last, canceled, ?_, ?_⟩⟩
      · exact Option.some.inj (same.symm.trans last)
      · simp [isPermanent, cancellationCanMask_of_isTaskCanceled canceled]
      · exact (old.finishIncomplete_stopRequested).trans stopped
      · change old.finishIncomplete.life.terminal.claimed = false
        simp
    | wake attempt =>
      obtain ⟨before, count⟩ := place
      exact ⟨before, count⟩
  · intro seen
    simp only [Bool.or_eq_true, Bool.and_eq_true] at seen
    obtain seen | seen := seen
    · exact law.observed seen
    · exact seen.1.1

theorem Law.step (law : s.Law inner.maxChunkRetries) {input : RetryInput}
    (taken : s.step inner mode offset input = some next) : next.Law inner.maxChunkRetries := by
  cases input with
  | loop choice => exact law.loop taken
  | pause =>
    cases taken
    exact law.around (fun _ => Terminal.beginPause_stopRequested _)
      (Terminal.beginPause_claimed _) id
  | cancel =>
    cases taken
    exact law.around (fun _ => Terminal.beginCancel_stopRequested _)
      (Terminal.beginCancel_claimed _) id
  | interrupt =>
    cases taken
    exact law.around id rfl fun _ => rfl
  | requireAbort =>
    cases taken
    exact law.around id rfl id

theorem Law.attempt (law : s.Law limit) {input : RetryInput}
    (taken : s.step inner mode offset input = some next) :
    next.attempts = s.attempts ∨ next.attempts = s.attempts + 1 ∧ s.token = false ∧
      (s.attempts = 0 ∨ ∃ e, s.LastError e ∧ isTransportRetryable e = true) := by
  cases input with
  | loop choice =>
    simp only [RetryRun.step, Option.map_eq_some_iff, Prod.exists] at taken
    obtain ⟨retry, cell, moved, rfl⟩ := taken
    have place := law.place
    cases calls : retry.calling with
    | false =>
      left
      simp
    | true =>
      right
      obtain ⟨before, old, token, results, attempts, observed⟩ := s
      have cases := Retry.step_cases moved
      simp only [context] at cases
      cases cases with
      | request attempt live =>
        obtain ⟨⟨-, -, last⟩, count⟩ := place
        exact ⟨rfl, live, last.imp_left count.trans⟩
      | @returned attempt answer transfer called =>
        cases result : transfer.result <;> rw [result] at calls <;> cases calls
      | _ => cases calls
  | _ =>
    cases taken
    exact .inl rfl

theorem Law.permanent (law : s.Law limit) {e : MeowError} (last : s.LastError e)
    (permanent : isPermanent e = true) :
    (∃ attempt, s.retry = .failed attempt e ∨ s.retry = .failedToken attempt e) ∨
      s.retry = .settled (.failed e) := by
  have place := law.place
  have notRetryable : isTransportRetryable e = false := by simp_all [isPermanent]
  have same : ∀ {other}, s.LastError other → other = e := fun failed =>
    Except.error.inj (Option.some.inj (failed.symm.trans last))
  have notBefore : ∀ attempt, ¬ s.Before limit attempt := by
    rintro attempt ⟨-, length, rfl | ⟨other, failed, retryable⟩⟩
    · rw [LastError, List.length_eq_zero_iff.mp length] at last
      cases last
    · rw [same failed, notRetryable] at retryable
      cases retryable
  simp only [Place] at place
  split at place
  · exact absurd place.1 (notBefore _)
  · exact absurd place.1 (notBefore _)
  · rename_i attempt other here
    rw [same place.2.2.2] at here
    exact .inl ⟨attempt, .inl here⟩
  · rename_i attempt other here
    rw [same place.2.2.2] at here
    exact .inl ⟨attempt, .inr here⟩
  · exact absurd place.1 (notBefore _)
  · obtain ⟨-, other, failed, canceled, -⟩ := place
    rw [same failed, not_isTaskCanceled_of_isPermanent permanent] at canceled
    cases canceled
  · cases last.symm.trans place.2
  · rename_i other here
    rw [same place.2] at here
    exact .inr here
  · obtain ⟨other, equal, hidden⟩ := place.2.1 _ last
    cases equal
    rw [permanent] at hidden
    cases hidden

theorem Law.done_iff (law : s.Law limit) (v : ChunkOutcome) :
    s.results.getLast? = some (.ok v) ↔ s.retry = .settled (.done v) := by
  have place := law.place
  have notBefore : s.results.getLast? = some (.ok v) → ∀ attempt, ¬ s.Before limit attempt := by
    intro last attempt before
    obtain ⟨e, equal, -⟩ := before.last _ last
    cases equal
  simp only [Place] at place
  split at place
  · rename_i here
    rw [here]
    exact ⟨fun last => absurd place.1 (notBefore last _), nofun⟩
  · rename_i here
    rw [here]
    exact ⟨fun last => absurd place.1 (notBefore last _), nofun⟩
  · rename_i here
    rw [here, place.2.2.2]
    exact ⟨nofun, nofun⟩
  · rename_i here
    rw [here, place.2.2.2]
    exact ⟨nofun, nofun⟩
  · rename_i here
    rw [here]
    exact ⟨fun last => absurd place.1 (notBefore last _), nofun⟩
  · rename_i here
    obtain ⟨-, e, failed, -⟩ := place
    rw [here, failed]
    exact ⟨nofun, nofun⟩
  · rename_i w here
    rw [here, place.2]
    constructor
    · intro same
      cases same
      rfl
    · intro same
      cases same
      rfl
  · rename_i here
    rw [here, place.2]
    exact ⟨nofun, nofun⟩
  · rename_i here
    rw [here]
    refine ⟨fun last => ?_, nofun⟩
    obtain ⟨e, equal, -⟩ := place.2.1 _ last
    cases equal

theorem Law.attempts_le (law : s.Law limit) : s.attempts ≤ limit + 1 := by
  have place := law.place
  simp only [Place] at place
  split at place
  · exact place.2 ▸ Nat.le_succ_of_le place.1.1
  · exact place.2 ▸ Nat.succ_le_succ place.1.1
  · exact place.2.2.1 ▸ Nat.succ_le_succ place.1
  · exact place.2.2.1 ▸ Nat.succ_le_succ place.1
  · exact place.2 ▸ Nat.le_succ_of_le place.1.1
  · exact place.1
  · exact place.1
  · exact place.1
  · exact place.1

/-- The discipline of the loop, for every limit, every sequence of results and every
moment of a stop. -/
theorem chunk_retry_discipline {cell : TaskCell} {token : Bool}
    (reached : Machine.Reachable (step inner mode offset) (new cell token) s) :
    s.attempts ≤ 1 + inner.maxChunkRetries ∧
    (∀ input next, s.step inner mode offset input = some next → s.attempts < next.attempts →
      s.observed = false ∧ s.token = false ∧
      (s.attempts = 0 ∨ ∃ e, s.LastError e ∧ isTransportRetryable e = true)) ∧
    (∀ v, s.results.getLast? = some (.ok v) ↔ s.retry = .settled (.done v)) ∧
    (s.retry = .settled .cancelled → s.token = true ∨ ∃ e, s.LastError e ∧
      isTaskCanceled e = true ∧ s.cell.life.stopRequested = true ∧
      s.cell.life.terminal.claimed = false) ∧
    (∀ e, s.LastError e → isPermanent e = true →
      (∃ attempt, s.retry = .failed attempt e ∨ s.retry = .failedToken attempt e) ∨
        s.retry = .settled (.failed e)) ∧
    ∀ e, s.retry = .settled (.failed e) → s.LastError e := by
  have law : s.Law inner.maxChunkRetries :=
    reached.invariant (Law inner.maxChunkRetries) (law_new _ cell token)
      fun _ _ _ law _ taken => law.step taken
  refine ⟨?_, ?_, law.done_iff, ?_, fun e last permanent => law.permanent last permanent, ?_⟩
  · rw [Nat.add_comm]
    exact law.attempts_le
  · intro input next taken more
    obtain same | ⟨-, live, last⟩ := law.attempt taken
    · omega
    · refine ⟨?_, live, last⟩
      cases seen : s.observed with
      | false => rfl
      | true => rw [law.observed seen] at live; cases live
  · intro here
    have place := law.place
    simp only [Place, here] at place
    exact place.2.2
  · intro e here
    have place := law.place
    simp only [Place, here] at place
    exact place.2

def sampleTask : InnerTask where
  taskId := 0
  fileSign := ""
  fileName := ""
  uploadFileSnapshot := none
  direction := .download
  totalSize := 8
  chunkSize := 4
  url := "u"
  maxChunkRetries := 1
  maxUploadPrepareRetries := 0
  maxPartsInFlight := 1
  supportsParallelParts := false
  totalSize_le := sample_total
  chunkSize_pos := sample_chunk

/-- A transport error, a retry, and a protocol that stops on a pause behind a claim. -/
theorem chunk_retry_discipline_sample : ∃ s,
    Machine.Reachable (step sampleTask .whole 4)
      (new (TaskCell.new.setTerminal .completing) false) s ∧
    s.attempts = 2 ∧ s.retry = .settled .cancelled ∧ s.cell.life.terminal = .pausing ∧
    s.attempts ≤ 1 + sampleTask.maxChunkRetries := by
  have reached : Machine.Reachable (step sampleTask .whole 4)
      (new (TaskCell.new.setTerminal .completing) false) _ :=
    Machine.reachable_of_exec (show Machine.exec (step sampleTask .whole 4) _
      [.loop .tick, .loop (.answer (.download (.error (.fromCode1 .httpError)))), .loop .tick,
       .loop .tick, .loop .wake, .loop .tick, .pause,
       .loop (.answer (.download (.error (.fromCode1 .taskCanceled)))), .loop .tick,
       .loop .tick] = some _ from rfl)
  exact ⟨_, reached, rfl, rfl, rfl, (chunk_retry_discipline reached).1⟩

end RetryRun

end RustyCat
