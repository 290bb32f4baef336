import RustyCat.Download.Loader
import RustyCat.Lib.Machine

/-!
# Runs of a progress object

Sequences of stagings, checkpoints and compactions, each of which may fail, on a progress
object that was made fresh or by a loader.  The batch threshold asks for few checkpoints as
long as no compaction takes parts away again.
-/

namespace RustyCat.Download

namespace DownloadProgress

open UploadFile (IoErrorKind)

/-- What is done to a progress object under the checkpoint barrier. -/
inductive Operation where
  /-- `elapsed` tells whether the last checkpoint is long ago. -/
  | stage (offset : Nat) (digest : Digest) (elapsed : Bool)
  /-- Begin, sync and commit; `ok` tells whether all three came to an end. -/
  | checkpoint (ok : Bool)
  /-- The same for the timer. -/
  | timer (ok : Bool)
  | compact (ok : Bool)
  deriving DecidableEq

/-- The progress after a checkpoint; a failed one leaves the parts pending. -/
def checkpointed (p : DownloadProgress) (ok : Bool) : DownloadProgress :=
  let (due, begun) := p.beginExternalCheckpoint
  if due && ok then begun.committed else begun

def step (p : DownloadProgress) : Operation → DownloadProgress
  | .stage offset digest elapsed =>
    match p.stageDoneWithDigestDeferred offset digest elapsed with
    | .ok (_, next) => next
    | .error _ => p
  | .checkpoint ok => p.checkpointed ok
  | .timer ok => if p.checkpointTimerArmed then p.checkpointed ok else p
  | .compact ok => if ok then p.compacted else p

def run (p : DownloadProgress) (ops : List Operation) : DownloadProgress := ops.foldl step p

/-- The object as it was made: fresh, or by one of the loaders. -/
inductive Made : DownloadProgress → Prop where
  | fresh (layout : Layout) : Made (.fresh layout)
  | loaded (sha : List UInt8 → Digest) (view : LoadView) (layout : Layout)
      {p : DownloadProgress} (loaded : loadOrCreate sha view layout = .ok p) : Made p
  | loadedSerial (sha : List UInt8 → Digest) (view : LoadView) (layout : Layout)
      {p : DownloadProgress} (loaded : loadOrCreateSerial sha view layout = .ok p) : Made p

variable {p q : DownloadProgress}

/-! ## The invariant along a run -/

theorem orderly_fresh (layout : Layout) (s : Snapshot layout.partCount) :
    Orderly { fresh layout with snapshot := s } := by
  constructor
  · exact List.nodup_nil
  · intro index
    simp [fresh]
  · intro index member
    cases member
  · rfl

theorem orderly_of_loadSidecar {usable : Nat → Nat → Bool} {through : Nat → Nat → Nat}
    {sha : List UInt8 → Digest} {view : LoadView} {layout : Layout}
    (loaded : loadSidecar usable through sha view layout = .ok p) : p.Orderly := by
  obtain rfl | ⟨_, _, verified, -, -, -, -, rfl⟩ := loadSidecar_eq_ok loaded
  · exact orderly_fresh layout _
  · exact orderly_fresh layout verified

theorem Made.orderly (made : Made p) : p.Orderly := by
  cases made with
  | fresh layout => exact orderly_fresh layout _
  | loaded sha view layout loaded | loadedSerial sha view layout loaded =>
    exact orderly_of_loadSidecar loaded

theorem Orderly.begun (orderly : p.Orderly) : p.beginExternalCheckpoint.2.Orderly :=
  ⟨orderly.nodup, orderly.bitmap, orderly.disjoint, orderly.threshold⟩

theorem Orderly.checkpointed (orderly : p.Orderly) (ok : Bool) : (p.checkpointed ok).Orderly := by
  simp only [DownloadProgress.checkpointed]
  split
  · exact orderly.begun.committed
  · exact orderly.begun

theorem Orderly.step (orderly : p.Orderly) (op : Operation) : (p.step op).Orderly := by
  cases op with
  | stage offset digest elapsed =>
    obtain ⟨-, error⟩ | ⟨index, -, ⟨-, done⟩ | ⟨-, -, again⟩ | ⟨undone, new, inside, outcome, armed,
      staged, -⟩⟩ := p.stageDoneWithDigestDeferred_cases offset digest elapsed
    · simp only [DownloadProgress.step, error]
      exact orderly
    · simp only [DownloadProgress.step, done]
      exact orderly
    · simp only [DownloadProgress.step, again]
      exact orderly
    · simp only [DownloadProgress.step, staged]
      exact orderly.staged digest inside undone new armed
  | checkpoint ok => exact orderly.checkpointed ok
  | timer ok =>
    simp only [DownloadProgress.step]
    split
    · exact orderly.checkpointed ok
    · exact orderly
  | compact ok =>
    cases ok with
    | false => exact orderly
    | true => exact orderly.compacted

theorem Orderly.run (orderly : p.Orderly) (ops : List Operation) : (p.run ops).Orderly := by
  induction ops generalizing p with
  | nil => exact orderly
  | cons op ops ih => exact ih (orderly.step op)

/-! ## The batch threshold -/

/-- The operation stages a new part, and with it the pending ones fill a batch. -/
def requests (p : DownloadProgress) : Operation → Bool
  | .stage offset _ _ =>
    match p.layout.indexOf offset with
    | some index => !p.snapshot.isSet index && !Bitmap.test p.pendingBits index && p.fillsBatch
    | none => false
  | _ => false

def batchRequests : DownloadProgress → List Operation → Nat
  | _, [] => 0
  | p, op :: ops => (if p.requests op then 1 else 0) + batchRequests (p.step op) ops

/-- Every checkpoint that is asked for by the batch threshold is made at once, under the
same barrier, and no checkpoint fails. -/
def Served : DownloadProgress → List Operation → Prop
  | _, [] => True
  | p, op :: ops =>
    (p.requests op = true → ops.head? = some (.checkpoint true)) ∧
      op ≠ .checkpoint false ∧ op ≠ .timer false ∧ Served (p.step op) ops

instance : (p : DownloadProgress) → (ops : List Operation) → Decidable (Served p ops)
  | _, [] => .isTrue trivial
  | p, op :: ops =>
    let _ := instDecidableServed (p.step op) ops
    inferInstanceAs (Decidable (_ ∧ _ ∧ _ ∧ _))

def Operation.compacts : Operation → Bool
  | .compact true => true
  | _ => false

def doneCount (p : DownloadProgress) : Nat :=
  (List.range p.layout.partCount).countP p.snapshot.isSet

theorem doneCount_le : p.doneCount ≤ p.layout.partCount :=
  List.countP_le_length.trans List.length_range.le

theorem countP_range_mem {l : List Nat} {n : Nat} (nodup : l.Nodup) (inside : ∀ i ∈ l, i < n) :
    (List.range n).countP (fun i => decide (i ∈ l)) = l.length := by
  rw [List.countP_eq_length_filter]
  refine List.Perm.length_eq ?_
  rw [List.perm_ext_iff_of_nodup (List.nodup_range.filter _) nodup]
  intro i
  simp only [List.mem_filter, List.mem_range, decide_eq_true_eq, and_iff_right_iff_imp]
  exact inside i

theorem countP_or_disjoint {l : List Nat} {a b : Nat → Bool}
    (disjoint : ∀ i, b i = true → a i = false) :
    l.countP (fun i => a i || b i) = l.countP a + l.countP b := by
  induction l with
  | nil => rfl
  | cons i l ih =>
    have apart := disjoint i
    simp only [List.countP_cons, ih]
    cases first : a i with
    | true =>
      have absent : b i = false := by
        by_contra present
        rw [first] at apart
        exact absurd (apart (Bool.of_not_eq_false present)) (by decide)
      simp [absent]
      omega
    | false =>
      simp
      omega

theorem Orderly.doneCount_committed (orderly : p.Orderly) (commits : Commits p q) :
    q.doneCount = p.doneCount + p.pending.length := by
  have done : q.snapshot.isSet = fun index =>
      p.snapshot.isSet index || decide (index ∈ p.pending.map (·.index)) :=
    funext commits.done
  have parts : q.layout.partCount = p.layout.partCount := by rw [commits.layout]
  rw [doneCount, doneCount, done, parts, countP_or_disjoint,
    countP_range_mem orderly.nodup fun index => index_lt, List.length_map]
  exact fun index pending => orderly.disjoint index (of_decide_eq_true pending)

theorem Orderly.commits_checkpointed (orderly : p.Orderly) : Commits p (p.checkpointed true) := by
  have same : p.checkpointed true = p.beginExternalCheckpoint.2.committed := by
    cases idle : p.pending <;>
      simp only [DownloadProgress.checkpointed, beginExternalCheckpoint, idle] <;> rfl
  obtain ⟨layout, done, digests, others, pending, cleared⟩ := orderly.begun.commits
  rw [same]
  exact ⟨layout, done, digests, others, pending, cleared⟩

/-- The parts that wait for a checkpoint that comes next. -/
def expected (p : DownloadProgress) (ops : List Operation) : Nat :=
  if ops.head? = some (.checkpoint true) then p.pending.length else 0

theorem counts_stage (p : DownloadProgress) (offset : Nat) (digest : Digest) (elapsed : Bool) :
    (p.step (.stage offset digest elapsed)).doneCount = p.doneCount ∧
      (p.step (.stage offset digest elapsed)).layout = p.layout ∧
      (p.requests (.stage offset digest elapsed) = true →
        (p.step (.stage offset digest elapsed)).pending.length ≥ p.checkpointThreshold) := by
  obtain ⟨missing, error⟩ | ⟨index, found, ⟨done, same⟩ | ⟨undone, pending, same⟩ |
    ⟨undone, new, inside, outcome, armed, staged, -⟩⟩ :=
    p.stageDoneWithDigestDeferred_cases offset digest elapsed
  · simp [DownloadProgress.step, error, requests, missing]
  · simp [DownloadProgress.step, same, requests, found, done]
  · simp [DownloadProgress.step, same, requests, found, pending]
  · simp only [DownloadProgress.step, staged, requests, found, undone, new, fillsBatch]
    refine ⟨rfl, rfl, fun filled => ?_⟩
    simp only [Bool.not_false, Bool.and_true, Bool.true_and, decide_eq_true_eq] at filled
    change p.checkpointThreshold ≤ (p.pending ++ [_]).length
    rw [List.length_append, List.length_singleton]
    omega

theorem Orderly.batchRequests_le (orderly : p.Orderly) {ops : List Operation}
    (served : Served p ops) (kept : ∀ op ∈ ops, op.compacts = false) :
    p.checkpointThreshold * batchRequests p ops + p.doneCount + p.expected ops ≤
      p.layout.partCount := by
  induction ops generalizing p with
  | nil =>
    simp only [batchRequests, expected, List.head?_nil, reduceCtorEq, if_false, Nat.mul_zero,
      Nat.zero_add, Nat.add_zero]
    exact doneCount_le
  | cons op ops ih =>
    obtain ⟨prompt, succeeds, timely, served⟩ := served
    obtain ⟨gentle, kept⟩ := List.forall_mem_cons.mp kept
    have rest := ih (orderly.step op) served kept
    rw [(orderly.step op).threshold] at rest
    have commits := orderly.commits_checkpointed
    have layout := commits.layout
    have made := orderly.doneCount_committed commits
    cases op with
    | stage offset digest elapsed =>
      obtain ⟨done, layout, filled⟩ := p.counts_stage offset digest elapsed
      rw [layout, ← orderly.threshold, done] at rest
      simp only [batchRequests, expected, List.head?_cons, reduceCtorEq, Option.some.injEq, if_false]
      split
      · rename_i requested
        have next := prompt requested
        rw [expected, if_pos next] at rest
        have full := filled requested
        rw [Nat.mul_add, Nat.mul_one]
        omega
      · rw [Nat.zero_add]
        omega
    | checkpoint ok =>
      cases ok with
      | false => exact absurd rfl succeeds
      | true =>
        rw [DownloadProgress.step, layout, ← orderly.threshold, made] at rest
        simp only [batchRequests, expected, requests, List.head?_cons, if_true, DownloadProgress.step]
        simp only [Bool.false_eq_true, if_false, Nat.zero_add]
        omega
    | timer ok =>
      cases ok with
      | false => exact absurd rfl timely
      | true =>
        simp only [batchRequests, expected, requests, List.head?_cons, Option.some.injEq, reduceCtorEq,
          Bool.false_eq_true, if_false, Nat.zero_add]
        by_cases armed : p.checkpointTimerArmed
        · simp only [DownloadProgress.step, armed, if_true, layout, made, ← orderly.threshold] at rest ⊢
          omega
        · simp only [DownloadProgress.step, armed, Bool.false_eq_true, if_false,
            ← orderly.threshold] at rest ⊢
          omega
    | compact ok =>
      cases ok with
      | true => exact absurd gentle (by decide)
      | false =>
        simp only [DownloadProgress.step, Bool.false_eq_true, if_false, ← orderly.threshold] at rest
        simp only [batchRequests, expected, requests, List.head?_cons, Option.some.injEq, reduceCtorEq,
          DownloadProgress.step, Bool.false_eq_true, if_false, Nat.zero_add]
        omega

theorem Orderly.batchRequests_le_max (orderly : p.Orderly) {ops : List Operation}
    (served : Served p ops) (kept : ∀ op ∈ ops, op.compacts = false) :
    batchRequests p ops ≤ maxBatchCheckpoints := by
  have bound := orderly.batchRequests_le served kept
  have counted : p.layout.partCount ≤ maxBatchCheckpoints * p.checkpointThreshold := by
    have covered : ¬ Blocks.count maxBatchCheckpoints p.layout.partCount * maxBatchCheckpoints <
        p.layout.partCount := fun short => Nat.lt_irrefl _ (Blocks.lt_count (by decide) short)
    have enough : Blocks.count maxBatchCheckpoints p.layout.partCount ≤ p.checkpointThreshold := by
      rw [orderly.threshold]
      exact Nat.le_max_right _ _
    have scaled := Nat.mul_le_mul_left maxBatchCheckpoints enough
    rw [Nat.mul_comm] at covered
    omega
  have positive : 0 < p.checkpointThreshold := by
    rw [orderly.threshold]
    exact Nat.lt_of_lt_of_le (by decide) (Nat.le_max_left _ _)
  refine Nat.le_of_mul_le_mul_left ?_ positive
  rw [Nat.mul_comm _ maxBatchCheckpoints]
  omega

/-- From any object that was made fresh or by a loader, after any operations: part ranges
and `index_of` agree, and so do list and bitmap of the pending parts; a commit adds these
and nothing else, a done part is not staged again, the watermark ends the longest run of
done parts, and without compactions the batch threshold asks for at most sixteen
checkpoints. -/
theorem progress_bookkeeping (made : Made p) (ops : List Operation) :
    let q := p.run ops
    (∀ index < q.layout.partCount, ∃ start len, q.layout.partRange index = .ok (start, len) ∧
      0 < len ∧ start + len ≤ q.layout.total) ∧
    (∀ position < q.layout.total, ∃! index, index < q.layout.partCount ∧
      ∃ start len, q.layout.partRange index = .ok (start, len) ∧
        start ≤ position ∧ position < start + len) ∧
    (∀ offset index, q.layout.indexOf offset = some index ↔
      index < q.layout.partCount ∧ ∃ len, q.layout.partRange index = .ok (offset, len)) ∧
    (q.pending.map (·.index)).Nodup ∧
    (∀ index, Bitmap.test q.pendingBits index = true ↔ index ∈ q.pending.map (·.index)) ∧
    (∀ index ∈ q.pending.map (·.index), q.snapshot.isSet index = false) ∧
    Commits q (q.step (.checkpoint true)) ∧
    (∀ offset digest elapsed, q.isDone offset = true →
      q.stageDoneWithDigestDeferred offset digest elapsed = .ok (⟨false, false⟩, q)) ∧
    (∃ n, q.DoneFront n ∧ q.contiguousWatermark = q.layout.frontEnd n) ∧
    (q.allDone = true ↔ q.contiguousWatermark = q.layout.total) ∧
    ∀ later, Served q later → (∀ op ∈ later, op.compacts = false) →
      batchRequests q later ≤ maxBatchCheckpoints := by
  intro q
  have orderly : q.Orderly := made.orderly.run ops
  refine ⟨?_, ?_, ?_, orderly.nodup, orderly.bitmap, orderly.disjoint,
    orderly.commits_checkpointed, ?_, q.contiguousWatermark_eq, allDone_iff_watermark,
    fun later => orderly.batchRequests_le_max⟩
  · intro index inside
    have ordered := Layout.partStart_lt_partEnd inside
    have within := q.layout.partEnd_le index
    exact ⟨_, _, Layout.partRange_eq inside, by omega, by omega⟩
  · intro position inside
    obtain ⟨index, ⟨counted, low, high⟩, unique⟩ := Layout.existsUnique_part inside
    refine ⟨index, ⟨counted, _, _, Layout.partRange_eq counted, low, by omega⟩, ?_⟩
    rintro other ⟨counted', start, len, range, low', high'⟩
    rw [Layout.partRange_eq counted'] at range
    cases range
    exact unique other ⟨counted', low', by omega⟩
  · intro offset index
    rw [Layout.indexOf_eq_some]
    refine and_congr_right fun inside => ?_
    rw [Layout.partRange_eq inside]
    constructor
    · rintro rfl
      exact ⟨_, rfl⟩
    · rintro ⟨len, range⟩
      cases range
      rfl
  · intro offset digest elapsed done
    obtain ⟨missing, -⟩ | ⟨index, found, ⟨-, same⟩ | ⟨undone, -⟩ | ⟨undone, -⟩⟩ :=
      q.stageDoneWithDigestDeferred_cases offset digest elapsed
    · simp [isDone, missing] at done
    · exact same
    · simp [isDone, found, undone] at done
    · simp [isDone, found, undone] at done

def nineParts : DownloadProgress :=
  .fresh
    { sampleLayout with
      total := 9, chunk := 1, total_le := by decide, chunk_le := by decide
      chunk_pos := Nat.one_pos, partCount_le := by decide }

/-- All but the first part are staged and committed, and a compaction takes them away. -/
def round : List Operation :=
  (List.range' 1 8).map (fun offset => .stage offset .zero false) ++
    [.checkpoint true, .compact true]

/-- After one such round the object is as it was made, and staging the same parts asks for
one more checkpoint. -/
theorem progress_bookkeeping_round :
    Served (nineParts.run round) (round.dropLast) ∧
      batchRequests (nineParts.run round) (round.dropLast) ≤ maxBatchCheckpoints := by
  have served : Served (nineParts.run round) (round.dropLast) := by decide +kernel
  obtain ⟨-, -, -, -, -, -, -, -, -, -, bound⟩ := progress_bookkeeping (.fresh _) round
  exact ⟨served, bound _ served (by decide)⟩

/-- With compactions between them there is no bound: seventeen rounds ask for seventeen
checkpoints. -/
theorem seventeen_batches :
    Made nineParts ∧ Served nineParts (List.replicate 17 round).flatten ∧
      batchRequests nineParts (List.replicate 17 round).flatten = 17 := by
  refine ⟨.fresh _, ?_, ?_⟩
  · decide +kernel
  · decide +kernel

end DownloadProgress

end RustyCat.Download
