import RustyCat.Download.World
import Mathlib.Data.List.Nodup
import Mathlib.Data.List.Count

/-!
# Parts, pending parts and the watermark

The parts cut the file without gap or overlap, the watermark ends the longest run of done
parts from the first one, and the pending list, the pending bitmap and the committed
bitmap speak of disjoint sets of parts.
-/

namespace RustyCat.Download

open UploadFile (IoErrorKind)

/-! ## Part ranges -/

namespace Layout

variable {layout : Layout} {index : Nat}

/-- `part_range`: where the part begins, and its length. -/
def partRange (layout : Layout) (index : Nat) : Except IoErrorKind (Nat × Nat) :=
  match Word.checkedMul 64 index layout.chunk with
  | none => .error .invalidInput
  | some offset =>
    let stop := min (Word.saturatingAdd 64 offset layout.chunk) layout.total
    match Word.checkedSub stop offset with
    | none => .error .invalidInput
    | some len => .ok (offset, len)

theorem partRange_eq (inside : index < layout.partCount) :
    layout.partRange index =
      .ok (layout.partStart index, layout.partEnd index - layout.partStart index) := by
  have begins := partStart_lt inside
  have ordered := partStart_lt_partEnd inside
  have fits : Word.checkedMul 64 index layout.chunk = some (layout.partStart index) :=
    Word.checkedMul_eq_some.mpr ⟨(begins.trans_le layout.total_le).le, rfl⟩
  have stop : min (Word.saturatingAdd 64 (layout.partStart index) layout.chunk) layout.total =
      layout.partEnd index := Word.min_saturatingAdd layout.total_le _ _
  simp only [partRange, fits, stop, Word.checkedSub, if_pos ordered.le]

def frontEnd (layout : Layout) (n : Nat) : Nat := min (n * layout.chunk) layout.total

theorem frontEnd_succ (n : Nat) : layout.frontEnd (n + 1) = layout.partEnd n := by
  rw [frontEnd, partEnd, Nat.add_mul, Nat.one_mul]

theorem frontEnd_eq_partStart (inside : index < layout.partCount) :
    layout.frontEnd index = layout.partStart index := by
  have := partStart_lt inside
  unfold frontEnd partStart at *
  omega

theorem frontEnd_partCount : layout.frontEnd layout.partCount = layout.total := by
  have counted : ¬ layout.partCount * layout.chunk < layout.total := fun short =>
    Nat.lt_irrefl _ (Blocks.lt_count layout.chunk_pos short)
  unfold frontEnd
  omega

theorem frontEnd_lt_total (inside : index < layout.partCount) :
    layout.frontEnd index < layout.total := by
  rw [frontEnd_eq_partStart inside]
  exact partStart_lt inside

theorem existsUnique_part {position : Nat} (inside : position < layout.total) :
    ∃! index, index < layout.partCount ∧ layout.partStart index ≤ position ∧
      position < layout.partEnd index := by
  have low : position / layout.chunk * layout.chunk ≤ position := Nat.div_mul_le_self _ _
  have high : position < position / layout.chunk * layout.chunk + layout.chunk :=
    Nat.lt_div_mul_add layout.chunk_pos
  refine ⟨position / layout.chunk, ⟨?_, low, ?_⟩, ?_⟩
  · exact Blocks.lt_count layout.chunk_pos (by omega)
  · unfold partEnd
    omega
  · rintro index ⟨-, begins, ends⟩
    unfold partStart at begins
    unfold partEnd at ends
    symm
    apply Nat.div_eq_of_lt_le begins
    rw [Nat.add_mul, Nat.one_mul]
    omega

end Layout

namespace DownloadProgress

variable {p : DownloadProgress}

/-! ## The watermark -/

/-- The first `n` parts are done and the next one is not. -/
structure DoneFront (p : DownloadProgress) (n : Nat) : Prop where
  le : n ≤ p.layout.partCount
  done : ∀ index < n, p.snapshot.isSet index = true
  next : n < p.layout.partCount → p.snapshot.isSet n = false

variable {index n partCount : Nat} {parts : List PendingPart}

theorem watermarkFrom_eq {fuel : Nat} (rest : index + fuel = p.layout.partCount)
    (done : ∀ earlier < index, p.snapshot.isSet earlier = true) :
    ∃ n, p.DoneFront n ∧
      p.watermarkFrom fuel index (p.layout.frontEnd index) = p.layout.frontEnd n := by
  induction fuel generalizing index with
  | zero => exact ⟨index, ⟨by omega, done, by omega⟩, rfl⟩
  | succ fuel ih =>
    rw [watermarkFrom]
    split
    · rename_i isSet
      have inside : index < p.layout.partCount := by omega
      have step : min (Word.saturatingAdd 64 (p.layout.frontEnd index) p.layout.chunk)
          p.layout.total = p.layout.frontEnd (index + 1) := by
        rw [Word.min_saturatingAdd p.layout.total_le, Layout.frontEnd_eq_partStart inside,
          Layout.frontEnd_succ]
        rfl
      rw [step]
      refine ih (by omega) fun earlier before => ?_
      obtain before | rfl := Nat.lt_succ_iff_lt_or_eq.mp before
      · exact done earlier before
      · exact isSet
    · rename_i unset
      exact ⟨index, ⟨by omega, done, fun _ => Bool.eq_false_of_not_eq_true unset⟩, rfl⟩

theorem contiguousWatermark_eq (p : DownloadProgress) :
    ∃ n, p.DoneFront n ∧ p.contiguousWatermark = p.layout.frontEnd n := by
  have zero : p.layout.frontEnd 0 = 0 := by simp [Layout.frontEnd]
  have found := watermarkFrom_eq (p := p) (Nat.zero_add _) (by simp)
  rw [zero] at found
  exact found

theorem DoneFront.unique {m : Nat} (first : p.DoneFront n) (second : p.DoneFront m) :
    n = m := by
  have sets := first.done m
  have sets' := second.done n
  have stops := first.next
  have stops' := second.next
  have le := first.le
  have le' := second.le
  rcases Nat.lt_trichotomy n m with less | same | more
  · simp [sets' less] at stops
    omega
  · exact same
  · simp [sets more] at stops'
    omega

theorem allDone_iff : p.allDone = true ↔ p.DoneFront p.layout.partCount := by
  simp only [allDone, List.all_eq_true, List.mem_range]
  exact ⟨fun done => ⟨le_rfl, done, fun less => absurd less (Nat.lt_irrefl _)⟩,
    fun front => front.done⟩

theorem allDone_iff_watermark : p.allDone = true ↔ p.contiguousWatermark = p.layout.total := by
  obtain ⟨n, front, watermark⟩ := p.contiguousWatermark_eq
  rw [allDone_iff, watermark]
  constructor
  · intro all
    rw [front.unique all, Layout.frontEnd_partCount]
  · intro whole
    obtain less | rfl := front.le.lt_or_eq
    · have := Layout.frontEnd_lt_total less
      omega
    · exact front

/-! ## Pending parts -/

/-- The pending list has no part twice, the pending bitmap is the set of its parts, and
none of them is committed. -/
structure Orderly (p : DownloadProgress) : Prop where
  nodup : (p.pending.map (·.index)).Nodup
  bitmap : ∀ index, Bitmap.test p.pendingBits index = true ↔ index ∈ p.pending.map (·.index)
  disjoint : ∀ index ∈ p.pending.map (·.index), p.snapshot.isSet index = false
  threshold : p.checkpointThreshold =
    max defaultCheckpointBatchParts (Blocks.count maxBatchCheckpoints p.layout.partCount)

theorem index_lt (pending : index ∈ p.pending.map (·.index)) :
    index < p.layout.partCount := by
  obtain ⟨part, member, rfl⟩ := List.mem_map.mp pending
  exact p.pending_lt part member

theorem length_pendingBits_set (p : DownloadProgress) (index : Nat) :
    (Bitmap.set p.pendingBits index).length = Bitmap.width p.layout.partCount :=
  (Bitmap.length_set _ _).trans p.pendingBits_length

def staged (p : DownloadProgress) (index : Nat) (digest : Digest)
    (inside : index < p.layout.partCount) : DownloadProgress :=
  { p with
    pending := p.pending ++ [⟨index, digest⟩]
    pendingBits := Bitmap.set p.pendingBits index
    pendingBits_length := p.length_pendingBits_set index
    pending_lt := by
      intro part member
      rcases List.mem_append.mp member with earlier | new
      · exact p.pending_lt part earlier
      · rw [List.mem_singleton.mp new]
        exact inside }

def fillsBatch (p : DownloadProgress) : Bool :=
  p.pending.length + 1 ≥ max p.checkpointThreshold 1

/-- What staging a part can do. -/
theorem stageDoneWithDigestDeferred_cases (p : DownloadProgress) (offset : Nat) (digest : Digest)
    (elapsed : Bool) :
    (p.layout.indexOf offset = none ∧
      p.stageDoneWithDigestDeferred offset digest elapsed = .error .invalidInput) ∨
    ∃ index, p.layout.indexOf offset = some index ∧
      ((p.snapshot.isSet index = true ∧
        p.stageDoneWithDigestDeferred offset digest elapsed = .ok (⟨false, false⟩, p)) ∨
      (p.snapshot.isSet index = false ∧ Bitmap.test p.pendingBits index = true ∧
        p.stageDoneWithDigestDeferred offset digest elapsed = .ok (⟨true, false⟩, p)) ∨
      (p.snapshot.isSet index = false ∧ Bitmap.test p.pendingBits index = false ∧
        ∃ (inside : index < p.layout.partCount) (outcome : StageDoneOutcome) (armed : Bool),
          p.stageDoneWithDigestDeferred offset digest elapsed =
            .ok (outcome, { p.staged index digest inside with checkpointTimerArmed := armed }) ∧
          (p.fillsBatch = true → outcome.checkpointDue = true))) := by
  unfold stageDoneWithDigestDeferred
  split
  · rename_i missing
    exact .inl ⟨missing, rfl⟩
  · rename_i index found
    refine .inr ⟨index, found, ?_⟩
    have inside := (Layout.indexOf_eq_some.mp found).1
    have isDone : p.isDone offset = p.snapshot.isSet index := by simp [DownloadProgress.isDone, found]
    rw [isDone]
    cases done : p.snapshot.isSet index with
    | true => exact .inl ⟨rfl, rfl⟩
    | false =>
      cases pending : Bitmap.test p.pendingBits index with
      | true => exact .inr (.inl ⟨rfl, rfl, rfl⟩)
      | false =>
        refine .inr (.inr ⟨rfl, rfl, inside, ?_⟩)
        simp only [Bool.false_eq_true, if_false, List.length_append, List.length_singleton]
        split
        · exact ⟨_, p.checkpointTimerArmed, rfl, fun _ => rfl⟩
        rename_i quiet
        refine ⟨_, _, rfl, fun filled => ?_⟩
        exact absurd (.inl (of_decide_eq_true filled)) quiet

theorem Orderly.staged (orderly : p.Orderly) (digest : Digest) (inside : index < p.layout.partCount)
    (undone : p.snapshot.isSet index = false) (new : Bitmap.test p.pendingBits index = false)
    (armed : Bool) :
    Orderly { p.staged index digest inside with checkpointTimerArmed := armed } := by
  have absent : index ∉ p.pending.map (·.index) := by
    rw [← orderly.bitmap, new]
    exact Bool.false_ne_true
  have bound : index / 8 < p.pendingBits.length :=
    p.pendingBits_length ▸ Bitmap.div_lt_width inside
  constructor
  · simp only [DownloadProgress.staged, List.map_append, List.map_cons, List.map_nil]
    exact orderly.nodup.append (List.nodup_singleton _) (List.disjoint_singleton.mpr absent)
  · intro other
    simp only [DownloadProgress.staged, List.map_append, List.map_cons, List.map_nil,
      List.mem_append, List.mem_singleton, Bitmap.test_set bound, Bool.or_eq_true,
      decide_eq_true_eq, orderly.bitmap]
    rw [or_comm, @eq_comm _ index]
  · intro other member
    simp only [DownloadProgress.staged, List.map_append, List.map_cons, List.map_nil,
      List.mem_append, List.mem_singleton] at member
    obtain earlier | rfl := member
    · exact orderly.disjoint other earlier
    · exact undone
  · exact orderly.threshold

theorem Orderly.adopt (orderly : p.Orderly) (next : Snapshot p.layout.partCount) :
    (p.adopt next).Orderly := by
  constructor
  · exact List.nodup_nil
  · intro index
    simp [DownloadProgress.adopt]
  · intro index member
    cases member
  · exact orderly.threshold

/-! ## Commits -/

theorem isSet_foldl_mark (inside : ∀ part ∈ parts, part.index < partCount) (s : Snapshot partCount)
    (index : Nat) :
    (parts.foldl (fun s part => s.mark part.index part.digest) s).isSet index =
      (s.isSet index || decide (index ∈ parts.map (·.index))) := by
  induction parts generalizing s with
  | nil => simp
  | cons part parts ih =>
    obtain ⟨here, later⟩ := List.forall_mem_cons.mp inside
    rw [List.foldl_cons, ih later, Snapshot.isSet_mark here]
    by_cases same : part.index = index
    · simp [same]
    · simp [same, Ne.symm same]

theorem digests_foldl_mark_of_not_mem (absent : index ∉ parts.map (·.index))
    (s : Snapshot partCount) :
    (parts.foldl (fun s part => s.mark part.index part.digest) s).digests[index]? =
      s.digests[index]? := by
  induction parts generalizing s with
  | nil => rfl
  | cons part parts ih =>
    rw [List.map_cons, List.mem_cons, not_or] at absent
    rw [List.foldl_cons, ih absent.2]
    exact List.getElem?_set_ne (Ne.symm absent.1)

theorem digests_foldl_mark_of_mem (nodup : (parts.map (·.index)).Nodup) {part : PendingPart}
    (member : part ∈ parts) (inside : part.index < partCount) (s : Snapshot partCount) :
    (parts.foldl (fun s part => s.mark part.index part.digest) s).digests[part.index]? =
      some part.digest := by
  induction parts generalizing s with
  | nil => cases member
  | cons first parts ih =>
    rw [List.map_cons, List.nodup_cons] at nodup
    rw [List.foldl_cons]
    obtain rfl | later := List.mem_cons.mp member
    · rw [digests_foldl_mark_of_not_mem nodup.1]
      exact List.getElem?_set_self (s.digests_length.symm ▸ inside)
    · exact ih nodup.2 later _

/-- A commit adds the pending parts with their digests and touches no other part. -/
structure Commits (before after : DownloadProgress) : Prop where
  layout : after.layout = before.layout
  done : ∀ index, after.snapshot.isSet index =
    (before.snapshot.isSet index || decide (index ∈ before.pending.map (·.index)))
  digests : ∀ part ∈ before.pending, after.snapshot.digests[part.index]? = some part.digest
  others : ∀ index ∉ before.pending.map (·.index),
    after.snapshot.digests[index]? = before.snapshot.digests[index]?
  pending : after.pending = []
  cleared : ∀ index, Bitmap.test after.pendingBits index = false

theorem Orderly.commits (orderly : p.Orderly) : Commits p p.committed := by
  unfold committed
  split
  · rename_i idle
    have none : p.pending = [] := List.isEmpty_iff.mp idle
    constructor
    · rfl
    · simp [none]
    · simp [none]
    · exact fun _ _ => rfl
    · exact none
    · intro index
      apply Bool.eq_false_of_not_eq_true
      simp [orderly.bitmap, none]
  · constructor
    · rfl
    · exact isSet_foldl_mark p.pending_lt p.snapshot
    · exact fun part member =>
        digests_foldl_mark_of_mem orderly.nodup member (p.pending_lt part member) p.snapshot
    · exact fun index absent => digests_foldl_mark_of_not_mem absent p.snapshot
    · rfl
    · exact fun index => Bitmap.test_zeros _ _

theorem Orderly.committed (orderly : p.Orderly) : p.committed.Orderly := by
  unfold DownloadProgress.committed
  split
  · exact orderly
  · exact orderly.adopt _

/-! ## Compaction -/

/-- `retain_contiguous_prefix_after_data_sync` when it succeeds. -/
def compacted (p : DownloadProgress) : DownloadProgress :=
  { p.adopt p.retainedSnapshot with checkpointTimerArmed := false }

theorem Orderly.compacted (orderly : p.Orderly) : p.compacted.Orderly := by
  obtain ⟨nodup, bitmap, disjoint, threshold⟩ := orderly.adopt p.retainedSnapshot
  exact ⟨nodup, bitmap, disjoint, threshold⟩

end DownloadProgress

end RustyCat.Download
