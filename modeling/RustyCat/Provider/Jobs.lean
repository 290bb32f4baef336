import RustyCat.Provider.Drive

/-!
# Conditions on the tasks of an instance

A condition on a task, its phase and the state of the instance holds of every task
in every run, if the calls for the task keep it and the calls for other tasks do not
disturb it.
-/

namespace RustyCat

/-- The chunks of the task that are known to be stored. -/
def JobPhase.Confirmed : JobPhase → Nat → Prop
  | .waiting confirmed, offset => offset < confirmed
  | .running run, offset => offset < run.start ∨ offset ∈ run.acked
  | .ended, _ => False

namespace UploadTask

variable {task : UploadTask} {run : ChunkRun}

theorem Aligned.chunk (aligned : task.Aligned run.start) {offset : Nat}
    (point : Grid.Point run.start task.chunkSize task.totalSize offset) :
    ∃ k < task.totalChunks, offset = k * task.chunkSize := by
  obtain ⟨inside, j, rfl⟩ := point
  rcases aligned with atEnd | ⟨m, isStart⟩
  · omega
  · refine ⟨m + j, ?_, by rw [isStart, Nat.add_mul, Nat.mul_comm m]⟩
    rw [lt_totalChunks_iff, Nat.add_mul, Nat.mul_comm m, ← isStart]
    exact inside

theorem Aligned.confirmed (aligned : task.Aligned run.start) {x k : Nat}
    (covered : Grid.Below run.start task.chunkSize task.totalSize (· ∈ run.acked) x)
    (inside : k < task.totalChunks) (below : k * task.chunkSize < x) :
    (JobPhase.running run).Confirmed (k * task.chunkSize) := by
  rw [lt_totalChunks_iff] at inside
  rcases Nat.lt_or_ge (k * task.chunkSize) run.start with early | late
  · exact Or.inl early
  · rcases aligned with atEnd | divides
    · omega
    · have steps : task.chunkSize ∣ k * task.chunkSize - run.start :=
        Nat.dvd_sub (Nat.dvd_mul_left ..) divides
      exact Or.inr (covered _ (Grid.point_iff.mpr ⟨inside, late, steps⟩) below)

end UploadTask

namespace Drive

variable {σ τ P C D A : Type}

/-- The calls keep the condition: of the task they are made for, and of a task that
is `apart` from it.  While a task runs, the others wait; only a cancellation may
come beside a running task. -/
structure Keeps (p : UploadProtocol σ τ P C D A) (apart : τ → τ → Prop)
    (I : τ → JobPhase → σ → Prop) : Prop where
  prepared : ∀ {task confirmed input state start}, I task (.waiting confirmed) state →
    startOffset (p.totalSize task) confirmed (p.prepare task confirmed input state).2 = some start →
    I task (.running ⟨start, []⟩) (p.prepare task confirmed input state).1
  prepareFailed : ∀ {task confirmed input state}, I task (.waiting confirmed) state →
    startOffset (p.totalSize task) confirmed (p.prepare task confirmed input state).2 = none →
    I task (.waiting confirmed) (p.prepare task confirmed input state).1
  acked : ∀ {task run offset input state info}, I task (.running run) state →
    Grid.Point run.start (p.chunkSize task) (p.totalSize task) offset →
    (p.uploadChunk task offset input state).2 = .ok info →
    I task (.running { run with acked := offset :: run.acked })
      (p.uploadChunk task offset input state).1
  chunkFailed : ∀ {task run offset input state e}, I task (.running run) state →
    Grid.Point run.start (p.chunkSize task) (p.totalSize task) offset →
    (p.uploadChunk task offset input state).2 = .error e →
    I task (.running run) (p.uploadChunk task offset input state).1
  paused : ∀ {task run confirmed state}, I task (.running run) state →
    run.Confirms (p.chunkSize task) (p.totalSize task) confirmed →
    I task (.waiting confirmed) state
  completeFailed : ∀ {task run input state e}, I task (.running run) state →
    run.AllAcked (p.chunkSize task) (p.totalSize task) →
    (p.completeUpload task input state).2 = .error e →
    I task (.running run) (p.completeUpload task input state).1
  besidePrepare : ∀ {task confirmed input state other c}, apart task other →
    I other (.waiting c) state → I other (.waiting c) (p.prepare task confirmed input state).1
  besideChunk : ∀ {task run offset input state other c}, I task (.running run) state →
    apart task other → I other (.waiting c) state → I other (.waiting c) (p.uploadChunk task offset input state).1
  besideComplete : ∀ {task run input state other c}, I task (.running run) state →
    apart task other → I other (.waiting c) state → I other (.waiting c) (p.completeUpload task input state).1
  besideAbort : ∀ {task input state other phase}, apart task other →
    I other phase state → I other phase (p.abortUpload task input state).1

/-- Of every task that has not ended the condition holds, two of them are `apart`, and
at most one of them runs. -/
structure JobsOk (apart : τ → τ → Prop) (I : τ → JobPhase → σ → Prop) (s : Drive σ τ) : Prop where
  apart : ∀ {i j : Nat} {a b : Job τ}, i ≠ j → s.jobs[i]? = some a → s.jobs[j]? = some b → a.phase ≠ .ended →
    b.phase ≠ .ended → apart a.task b.task
  oneRuns : ∀ {i j : Nat} {a b : Job τ}, i ≠ j → s.jobs[i]? = some a → s.jobs[j]? = some b →
    a.phase.isRunning = true → b.phase.isRunning = false
  holds : ∀ {i : Nat} {job : Job τ}, s.jobs[i]? = some job → job.phase ≠ .ended → I job.task job.phase s.state

/-- The tasks that are submitted meet the condition, and are `apart` from the live ones. -/
def Admits (apart : τ → τ → Prop) (I : τ → JobPhase → σ → Prop) (s : Drive σ τ) :
    DriveLabel τ P C D A → Prop
  | .submit task =>
    (∀ job ∈ s.jobs, job.phase ≠ .ended → apart job.task task ∧ apart task job.task) ∧
      I task (.waiting 0) s.state
  | _ => True

section Change

variable {apart : τ → τ → Prop} {I : τ → JobPhase → σ → Prop} {s : Drive σ τ} {index : Nat}
  {job : Job τ}

theorem getElem?_setPhase {state : σ} {phase : JobPhase} {j : Nat} {other : Job τ}
    (there : ({ s with state := state }.setPhase index job phase).jobs[j]? = some other) :
    j = index ∧ other = ⟨job.task, phase⟩ ∨ j ≠ index ∧ s.jobs[j]? = some other := by
  simp only [setPhase, List.getElem?_set] at there
  split at there
  · rename_i same
    split at there
    · cases there
      exact Or.inl ⟨same.symm, rfl⟩
    · cases there
  · rename_i different
    exact Or.inr ⟨fun same => different same.symm, there⟩

theorem setPhase_self {state : σ} (here : s.jobs[index]? = some job) :
    { s with state := state }.setPhase index job job.phase = { s with state := state } := by
  obtain ⟨inside, rfl⟩ := List.getElem?_eq_some_iff.mp here
  exact congrArg (Drive.mk · state) (List.set_getElem_self inside)

theorem JobsOk.change (ok : JobsOk apart I s) (here : s.jobs[index]? = some job)
    (live : job.phase ≠ .ended) {phase : JobPhase} {state : σ}
    (mine : phase ≠ .ended → I job.task phase state)
    (calm : phase.isRunning = true → ∀ j other, j ≠ index → s.jobs[j]? = some other →
      other.phase.isRunning = false)
    (others : ∀ j other, j ≠ index → s.jobs[j]? = some other → other.phase ≠ .ended →
      I other.task other.phase state) :
    JobsOk apart I ({ s with state := state }.setPhase index job phase) where
  apart := by
    intro i j a b different isA isB liveA liveB
    rcases getElem?_setPhase isA with ⟨rfl, rfl⟩ | ⟨_, oldA⟩
    · rcases getElem?_setPhase isB with ⟨rfl, rfl⟩ | ⟨_, oldB⟩
      · exact absurd rfl different
      · exact ok.apart (a := job) different here oldB live liveB
    · rcases getElem?_setPhase isB with ⟨rfl, rfl⟩ | ⟨_, oldB⟩
      · exact ok.apart (b := job) different oldA here liveA live
      · exact ok.apart different oldA oldB liveA liveB
  oneRuns := by
    intro i j a b different isA isB runsA
    rcases getElem?_setPhase isA with ⟨rfl, rfl⟩ | ⟨notA, oldA⟩
    · rcases getElem?_setPhase isB with ⟨rfl, rfl⟩ | ⟨notB, oldB⟩
      · exact absurd rfl different
      · exact calm runsA j b notB oldB
    · rcases getElem?_setPhase isB with ⟨rfl, rfl⟩ | ⟨_, oldB⟩
      · rw [← Bool.not_eq_true]
        intro runs
        rw [calm runs i a notA oldA] at runsA
        cases runsA
      · exact ok.oneRuns different oldA oldB runsA
  holds := by
    intro j other isOther liveOther
    rcases getElem?_setPhase isOther with ⟨rfl, rfl⟩ | ⟨notMine, old⟩
    · exact mine liveOther
    · exact others j other notMine old liveOther

end Change

section Runs

variable {p : UploadProtocol σ τ P C D A} {apart : τ → τ → Prop} {I : τ → JobPhase → σ → Prop}
  {s t : Drive σ τ} {label : DriveLabel τ P C D A}

theorem not_isRunning_of_quiescent (calm : s.quiescent = true) (index j : Nat) (other : Job τ)
    (_ : j ≠ index) (there : s.jobs[j]? = some other) : other.phase.isRunning = false := by
  simpa using List.all_eq_true.mp calm other (List.mem_of_getElem? there)

theorem waits {phase : JobPhase} (live : phase ≠ .ended) (still : phase.isRunning = false) :
    ∃ c, phase = .waiting c := by
  cases phase with
  | waiting c => exact ⟨c, rfl⟩
  | running run => cases still
  | ended => exact absurd rfl live

theorem JobsOk.others (ok : JobsOk apart I s) {index : Nat} {job : Job τ}
    (here : s.jobs[index]? = some job) (live : job.phase ≠ .ended) {state : σ}
    (still : ∀ j other, j ≠ index → s.jobs[j]? = some other → other.phase.isRunning = false)
    (beside : ∀ {other c}, apart job.task other → I other (.waiting c) s.state →
      I other (.waiting c) state) :
    ∀ j other, j ≠ index → s.jobs[j]? = some other → other.phase ≠ .ended →
      I other.task other.phase state := by
  intro j other different there liveOther
  obtain ⟨c, waiting⟩ := waits liveOther (still j other different there)
  have held := ok.holds there liveOther
  rw [waiting] at held ⊢
  exact beside (ok.apart (Ne.symm different) here there live liveOther) held

theorem getElem?_submit {task : τ} {i : Nat} {job : Job τ}
    (there : (s.jobs ++ [⟨task, .waiting 0⟩])[i]? = some job) :
    s.jobs[i]? = some job ∨ i = s.jobs.length ∧ job = ⟨task, .waiting 0⟩ := by
  rw [List.getElem?_append] at there
  split at there
  · exact Or.inl there
  rename_i beyond
  obtain ⟨small, same⟩ := List.getElem?_eq_some_iff.mp there
  simp only [List.length_singleton, Nat.lt_one_iff] at small
  simp only [small, List.getElem_cons_zero] at same
  exact Or.inr ⟨by omega, same.symm⟩

theorem JobsOk.submit (ok : JobsOk apart I s) {task : τ}
    (away : ∀ job ∈ s.jobs, job.phase ≠ .ended → apart job.task task ∧ apart task job.task)
    (mine : I task (.waiting 0) s.state) :
    JobsOk apart I { s with jobs := s.jobs ++ [⟨task, .waiting 0⟩] } where
  apart := by
    intro i j a b different isA isB liveA liveB
    rcases getElem?_submit isA with oldA | ⟨rfl, rfl⟩
    · rcases getElem?_submit isB with oldB | ⟨_, rfl⟩
      · exact ok.apart different oldA oldB liveA liveB
      · exact (away a (List.mem_of_getElem? oldA) liveA).1
    · rcases getElem?_submit isB with oldB | ⟨rfl, _⟩
      · exact (away b (List.mem_of_getElem? oldB) liveB).2
      · exact absurd rfl different
  oneRuns := by
    intro i j a b different isA isB runsA
    rcases getElem?_submit isA with oldA | ⟨_, rfl⟩
    · rcases getElem?_submit isB with oldB | ⟨_, rfl⟩
      · exact ok.oneRuns different oldA oldB runsA
      · rfl
    · cases runsA
  holds := by
    intro i job there live
    rcases getElem?_submit there with old | ⟨_, rfl⟩
    · exact ok.holds old live
    · exact mine

theorem JobsOk.step (keeps : Keeps p apart I) (ok : JobsOk apart I s) (admits : Admits apart I s label)
    (taken : s.step p label = some t) : JobsOk apart I t := by
  -- the others do not run while a running task makes its calls
  have still : ∀ {index : Nat} {task : τ} {run : ChunkRun},
      s.jobs[index]? = some ⟨task, .running run⟩ → ∀ (j : Nat) (other : Job τ), j ≠ index →
      s.jobs[j]? = some other → other.phase.isRunning = false :=
    fun here j other different there => ok.oneRuns (Ne.symm different) here there rfl
  cases step_cases taken with
  | submitted task => exact ok.submit admits.1 admits.2
  | prepared here calm answered =>
    exact ok.change here nofun (fun _ => keeps.prepared (ok.holds here nofun) answered)
      (fun _ => not_isRunning_of_quiescent calm _)
      (ok.others here nofun (not_isRunning_of_quiescent calm _) keeps.besidePrepare)
  | prepareFailed here calm answered =>
    rw [← setPhase_self here]
    exact ok.change here nofun (fun _ => keeps.prepareFailed (ok.holds here nofun) answered) nofun
      (ok.others here nofun (not_isRunning_of_quiescent calm _) keeps.besidePrepare)
  | acked here point answered =>
    exact ok.change here nofun (fun _ => keeps.acked (ok.holds here nofun) point answered)
      (fun _ => still here) (ok.others here nofun (still here) (keeps.besideChunk (ok.holds here nofun)))
  | chunkFailed here point answered =>
    rw [← setPhase_self here]
    exact ok.change here nofun (fun _ => keeps.chunkFailed (ok.holds here nofun) point answered)
      (fun _ => still here) (ok.others here nofun (still here) (keeps.besideChunk (ok.holds here nofun)))
  | paused here confirms =>
    exact ok.change here nofun (fun _ => keeps.paused (ok.holds here nofun) confirms) nofun
      fun _ _ _ there live => ok.holds there live
  | completed here all answered =>
    exact ok.change here nofun (fun live => absurd rfl live) nofun
      (ok.others here nofun (still here) (keeps.besideComplete (ok.holds here nofun)))
  | completeFailed here all answered =>
    rw [← setPhase_self here]
    exact ok.change here nofun (fun _ => keeps.completeFailed (ok.holds here nofun) all answered)
      (fun _ => still here) (ok.others here nofun (still here) (keeps.besideComplete (ok.holds here nofun)))
  | failed here live =>
    exact ok.change here live (fun alive => absurd rfl alive) nofun
      fun _ _ _ there alive => ok.holds there alive
  | cancelled here live =>
    exact ok.change here live (fun alive => absurd rfl alive) nofun
      fun _ _ different there alive =>
        keeps.besideAbort (ok.apart (Ne.symm different) here there live alive) (ok.holds there alive)

theorem run_jobsOk (keeps : Keeps p apart I) {state : σ}
    (reached : Machine.Run (step p) (Admits apart I) { jobs := [], state := state } s) :
    JobsOk apart I s :=
  reached.invariant (JobsOk apart I) ⟨nofun, nofun, nofun⟩
    fun _ _ _ ok admits taken => ok.step keeps admits taken

end Runs

end Drive

end RustyCat
