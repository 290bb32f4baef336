import RustyCat.Lib.Grid
import RustyCat.Lib.Machine
import RustyCat.Worker.Upload

/-!
# How the executor drives an upload protocol

A protocol instance outlives the tasks that use it.  The executor calls `prepare`
with the offset it has confirmed, then `upload_chunk` for every chunk from the
offset that `prepare` leads to up to the end, in any order and with repetitions,
and then `complete_upload`.  A task may be paused and resumed, may fail and may be
cancelled; at most one of them runs at a time.

What is on the other side of the network belongs to the protocol's state.  Each
call takes what comes back from there as a parameter.
-/

namespace RustyCat

abbrev Bytes := List UInt8

/-- What a protocol reads of a task; `content` is what the source holds. -/
structure UploadTask where
  url : String
  content : Bytes
  chunkSize : Nat
  chunkSize_pos : 0 < chunkSize
  length_le : content.length ≤ u64Max

namespace UploadTask

def totalSize (task : UploadTask) : Nat := task.content.length

/-- The bytes the executor hands over for the chunk at the offset. -/
def chunkAt (task : UploadTask) (offset : Nat) : Bytes :=
  (task.content.drop offset).take task.chunkSize

theorem length_chunkAt (task : UploadTask) (offset : Nat) :
    (task.chunkAt offset).length = min task.chunkSize (task.totalSize - offset) := by
  simp [chunkAt, totalSize]

def totalChunks (task : UploadTask) : Nat :=
  (task.totalSize + task.chunkSize - 1) / task.chunkSize

theorem lt_totalChunks_iff {task : UploadTask} {k : Nat} :
    k < task.totalChunks ↔ k * task.chunkSize < task.totalSize := by
  rw [totalChunks, Nat.lt_iff_add_one_le, Nat.le_div_iff_mul_le task.chunkSize_pos, Nat.add_mul,
    Nat.one_mul]
  have := task.chunkSize_pos
  omega

/-- A run may begin here: at a chunk or at the end. -/
def Aligned (task : UploadTask) (start : Nat) : Prop :=
  start = task.totalSize ∨ task.chunkSize ∣ start

theorem flatMap_chunkAt (task : UploadTask) (n : Nat) :
    (List.range n).flatMap (fun k => task.chunkAt (k * task.chunkSize)) =
      task.content.take (n * task.chunkSize) := by
  induction n with
  | zero => simp
  | succ n ih =>
    rw [List.range_succ, List.flatMap_append, ih, List.flatMap_singleton, Nat.add_mul, Nat.one_mul,
      List.take_add, chunkAt]

theorem flatMap_chunkAt_totalChunks (task : UploadTask) :
    (List.range task.totalChunks).flatMap (fun k => task.chunkAt (k * task.chunkSize)) =
      task.content := by
  rw [flatMap_chunkAt, List.take_of_length_le]
  exact Nat.le_of_not_lt fun inside => Nat.lt_irrefl _ (lt_totalChunks_iff.mpr inside)

end UploadTask

/-- The calls of a `BreakpointUpload` on its state.  `P`, `C`, `D` and `A` are what
comes back during the four calls. -/
structure UploadProtocol (σ τ P C D A : Type) where
  totalSize : τ → Nat
  chunkSize : τ → Nat
  prepare : τ → Nat → P → σ → σ × Except MeowError UploadResumeInfo
  uploadChunk : τ → Nat → C → σ → σ × Except MeowError UploadResumeInfo
  completeUpload : τ → D → σ → σ × Except MeowError (Option String)
  abortUpload : τ → A → σ → σ × Except MeowError Unit

/-- The chunks of one run of a task: where it began, and the offsets acknowledged. -/
structure ChunkRun where
  start : Nat
  acked : List Nat
  deriving DecidableEq

inductive JobPhase where
  /-- It does not run; the next `prepare` gets the offset. -/
  | waiting (confirmed : Nat)
  | running (run : ChunkRun)
  | ended
  deriving DecidableEq

structure Job (τ : Type) where
  task : τ
  phase : JobPhase
  deriving DecidableEq

def JobPhase.isRunning : JobPhase → Bool
  | running _ => true
  | _ => false

/-- The tasks given to the instance, in the order they came, and its state. -/
structure Drive (σ τ : Type) where
  jobs : List (Job τ)
  state : σ

inductive DriveLabel (τ P C D A : Type) where
  | submit (task : τ)
  | prepare (job : Nat) (input : P)
  | uploadChunk (job offset : Nat) (input : C)
  /-- The run stops; the offset is where the confirmed prefix of its chunks ends. -/
  | pause (job confirmed : Nat)
  | complete (job : Nat) (input : D)
  | fail (job : Nat)
  | cancel (job : Nat) (input : A)

namespace ChunkRun

def AllAcked (chunk total : Nat) (run : ChunkRun) : Prop :=
  Grid.Below run.start chunk total (· ∈ run.acked) total

/-- The offset ends a prefix of acknowledged chunks. -/
def Confirms (chunk total : Nat) (run : ChunkRun) (offset : Nat) : Prop :=
  run.start ≤ offset ∧ Grid.Edge run.start chunk total offset ∧
    Grid.Below run.start chunk total (· ∈ run.acked) offset

instance (chunk total : Nat) (run : ChunkRun) : Decidable (run.AllAcked chunk total) :=
  inferInstanceAs (Decidable (Grid.Below _ _ _ (· ∈ run.acked) _))

instance (chunk total : Nat) (run : ChunkRun) (offset : Nat) :
    Decidable (run.Confirms chunk total offset) :=
  inferInstanceAs (Decidable (_ ∧ _ ∧ Grid.Below _ _ _ (· ∈ run.acked) _))

end ChunkRun

namespace Drive

variable {σ τ P C D A : Type}

def setPhase (s : Drive σ τ) (index : Nat) (job : Job τ) (phase : JobPhase) : Drive σ τ :=
  { s with jobs := s.jobs.set index { job with phase := phase } }

theorem setPhase_sole {s : Drive σ τ} {job : Job τ} (sole : s.jobs = [job]) (phase : JobPhase) :
    (s.setPhase 0 job phase).jobs = [⟨job.task, phase⟩] := by
  simp [setPhase, sole]

def quiescent (s : Drive σ τ) : Bool := s.jobs.all fun job => !job.phase.isRunning

/-- The offset a successful `prepare` leads to. -/
def startOffset (total confirmed : Nat) (answer : Except MeowError UploadResumeInfo) : Option Nat :=
  match answer with
  | .error _ => none
  | .ok info =>
    if info.completedFileId.isSome ∨ info.nextByte.getD 0 > total then none
    else some (min (max confirmed (info.nextByte.getD 0)) total)

theorem startOffset_same {total confirmed start : Nat}
    (answered : startOffset total confirmed
      (.ok { completedFileId := none, nextByte := some confirmed }) = some start) :
    start = confirmed ∧ confirmed ≤ total := by
  simp only [startOffset, Option.isSome_none, Bool.false_eq_true, Option.getD_some, false_or,
    max_self] at answered
  split at answered
  · cases answered
  · cases answered
    omega

section Steps

variable (p : UploadProtocol σ τ P C D A)

def step (s : Drive σ τ) : DriveLabel τ P C D A → Option (Drive σ τ)
  | .submit task => some { s with jobs := s.jobs ++ [{ task := task, phase := .waiting 0 }] }
  | .prepare index input =>
    (s.jobs[index]?).bind fun job =>
      match job.phase with
      | .waiting confirmed =>
        if s.quiescent then
          let (state, answer) := p.prepare job.task confirmed input s.state
          match startOffset (p.totalSize job.task) confirmed answer with
          | some start =>
            some ({ s with state := state }.setPhase index job (.running ⟨start, []⟩))
          | none => some { s with state := state }
        else none
      | _ => none
  | .uploadChunk index offset input =>
    (s.jobs[index]?).bind fun job =>
      match job.phase with
      | .running run =>
        if Grid.Point run.start (p.chunkSize job.task) (p.totalSize job.task) offset then
          let (state, answer) := p.uploadChunk job.task offset input s.state
          match answer with
          | .ok _ =>
            some ({ s with state := state }.setPhase index job
              (.running { run with acked := offset :: run.acked }))
          | .error _ => some { s with state := state }
        else none
      | _ => none
  | .pause index confirmed =>
    (s.jobs[index]?).bind fun job =>
      match job.phase with
      | .running run =>
        if run.Confirms (p.chunkSize job.task) (p.totalSize job.task) confirmed then
          some (s.setPhase index job (.waiting confirmed))
        else none
      | _ => none
  | .complete index input =>
    (s.jobs[index]?).bind fun job =>
      match job.phase with
      | .running run =>
        if run.AllAcked (p.chunkSize job.task) (p.totalSize job.task) then
          let (state, answer) := p.completeUpload job.task input s.state
          match answer with
          | .ok _ => some ({ s with state := state }.setPhase index job .ended)
          | .error _ => some { s with state := state }
        else none
      | _ => none
  | .fail index =>
    (s.jobs[index]?).bind fun job =>
      if job.phase = .ended then none else some (s.setPhase index job .ended)
  | .cancel index input =>
    (s.jobs[index]?).bind fun job =>
      if job.phase = .ended then none
      else
        let (state, _) := p.abortUpload job.task input s.state
        some ({ s with state := state }.setPhase index job .ended)

/-- The steps, one constructor for each thing a step can do. -/
inductive Step (s : Drive σ τ) : DriveLabel τ P C D A → Drive σ τ → Prop where
  | submitted (task : τ) :
      Step s (.submit task) { s with jobs := s.jobs ++ [{ task := task, phase := .waiting 0 }] }
  | prepared {index confirmed start : Nat} {input : P} {task : τ}
      (here : s.jobs[index]? = some ⟨task, .waiting confirmed⟩) (calm : s.quiescent = true)
      (answered : startOffset (p.totalSize task) confirmed
        (p.prepare task confirmed input s.state).2 = some start) :
      Step s (.prepare index input)
        ({ s with state := (p.prepare task confirmed input s.state).1 }.setPhase index
          ⟨task, .waiting confirmed⟩ (.running ⟨start, []⟩))
  | prepareFailed {index confirmed : Nat} {input : P} {task : τ}
      (here : s.jobs[index]? = some ⟨task, .waiting confirmed⟩) (calm : s.quiescent = true)
      (answered : startOffset (p.totalSize task) confirmed
        (p.prepare task confirmed input s.state).2 = none) :
      Step s (.prepare index input)
        { s with state := (p.prepare task confirmed input s.state).1 }
  | acked {index offset : Nat} {input : C} {task : τ} {run : ChunkRun} {info : UploadResumeInfo}
      (here : s.jobs[index]? = some ⟨task, .running run⟩)
      (point : Grid.Point run.start (p.chunkSize task) (p.totalSize task) offset)
      (answered : (p.uploadChunk task offset input s.state).2 = .ok info) :
      Step s (.uploadChunk index offset input)
        ({ s with state := (p.uploadChunk task offset input s.state).1 }.setPhase index
          ⟨task, .running run⟩ (.running { run with acked := offset :: run.acked }))
  | chunkFailed {index offset : Nat} {input : C} {task : τ} {run : ChunkRun} {e : MeowError}
      (here : s.jobs[index]? = some ⟨task, .running run⟩)
      (point : Grid.Point run.start (p.chunkSize task) (p.totalSize task) offset)
      (answered : (p.uploadChunk task offset input s.state).2 = .error e) :
      Step s (.uploadChunk index offset input)
        { s with state := (p.uploadChunk task offset input s.state).1 }
  | paused {index confirmed : Nat} {task : τ} {run : ChunkRun}
      (here : s.jobs[index]? = some ⟨task, .running run⟩)
      (confirms : run.Confirms (p.chunkSize task) (p.totalSize task) confirmed) :
      Step s (.pause index confirmed) (s.setPhase index ⟨task, .running run⟩ (.waiting confirmed))
  | completed {index : Nat} {input : D} {task : τ} {run : ChunkRun} {payload : Option String}
      (here : s.jobs[index]? = some ⟨task, .running run⟩)
      (all : run.AllAcked (p.chunkSize task) (p.totalSize task))
      (answered : (p.completeUpload task input s.state).2 = .ok payload) :
      Step s (.complete index input)
        ({ s with state := (p.completeUpload task input s.state).1 }.setPhase index
          ⟨task, .running run⟩ .ended)
  | completeFailed {index : Nat} {input : D} {task : τ} {run : ChunkRun} {e : MeowError}
      (here : s.jobs[index]? = some ⟨task, .running run⟩)
      (all : run.AllAcked (p.chunkSize task) (p.totalSize task))
      (answered : (p.completeUpload task input s.state).2 = .error e) :
      Step s (.complete index input)
        { s with state := (p.completeUpload task input s.state).1 }
  | failed {index : Nat} {job : Job τ} (here : s.jobs[index]? = some job)
      (live : job.phase ≠ .ended) : Step s (.fail index) (s.setPhase index job .ended)
  | cancelled {index : Nat} {input : A} {job : Job τ} (here : s.jobs[index]? = some job)
      (live : job.phase ≠ .ended) :
      Step s (.cancel index input)
        ({ s with state := (p.abortUpload job.task input s.state).1 }.setPhase index job .ended)

variable {p} {s t : Drive σ τ} {label : DriveLabel τ P C D A}

theorem step_cases (taken : s.step p label = some t) : Step p s label t := by
  cases label with
  | submit task =>
    cases taken
    exact .submitted task
  | prepare index input =>
    simp only [step, Option.bind_eq_some_iff] at taken
    obtain ⟨⟨task, phase⟩, here, taken⟩ := taken
    cases phase with
    | waiting confirmed =>
      simp only [Option.ite_none_right_eq_some] at taken
      obtain ⟨calm, taken⟩ := taken
      split at taken
      · rename_i start answered
        cases taken
        exact .prepared here calm answered
      · rename_i answered
        cases taken
        exact .prepareFailed here calm answered
    | running run => cases taken
    | ended => cases taken
  | uploadChunk index offset input =>
    simp only [step, Option.bind_eq_some_iff] at taken
    obtain ⟨⟨task, phase⟩, here, taken⟩ := taken
    cases phase with
    | running run =>
      simp only [Option.ite_none_right_eq_some] at taken
      obtain ⟨point, taken⟩ := taken
      cases answered : (p.uploadChunk task offset input s.state).2 with
      | ok info =>
        simp only [answered, Option.some.injEq] at taken
        subst taken
        exact .acked here point answered
      | error e =>
        simp only [answered, Option.some.injEq] at taken
        subst taken
        exact .chunkFailed here point answered
    | waiting confirmed => cases taken
    | ended => cases taken
  | pause index confirmed =>
    simp only [step, Option.bind_eq_some_iff] at taken
    obtain ⟨⟨task, phase⟩, here, taken⟩ := taken
    cases phase with
    | running run =>
      simp only [Option.ite_none_right_eq_some, Option.some.injEq] at taken
      obtain ⟨confirms, rfl⟩ := taken
      exact .paused here confirms
    | waiting confirmed => cases taken
    | ended => cases taken
  | complete index input =>
    simp only [step, Option.bind_eq_some_iff] at taken
    obtain ⟨⟨task, phase⟩, here, taken⟩ := taken
    cases phase with
    | running run =>
      simp only [Option.ite_none_right_eq_some] at taken
      obtain ⟨all, taken⟩ := taken
      cases answered : (p.completeUpload task input s.state).2 with
      | ok payload =>
        simp only [answered, Option.some.injEq] at taken
        subst taken
        exact .completed here all answered
      | error e =>
        simp only [answered, Option.some.injEq] at taken
        subst taken
        exact .completeFailed here all answered
    | waiting confirmed => cases taken
    | ended => cases taken
  | fail index =>
    simp only [step, Option.bind_eq_some_iff, Option.ite_none_left_eq_some,
      Option.some.injEq] at taken
    obtain ⟨job, here, live, rfl⟩ := taken
    exact .failed here live
  | cancel index input =>
    simp only [step, Option.bind_eq_some_iff, Option.ite_none_left_eq_some,
      Option.some.injEq] at taken
    obtain ⟨job, here, live, rfl⟩ := taken
    exact .cancelled here live

end Steps

end Drive

end RustyCat
