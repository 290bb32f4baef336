import RustyCat.Download.Headers
import RustyCat.Lib.Bitmap
import RustyCat.Lib.Blocks
import RustyCat.UploadFile.Model

/-!
# The progress of a download

`DownloadProgress` of `download_progress.rs` in memory: the committed bitmap with
its digests, the parts that wait for a checkpoint, and the latched validator.  The
lengths of bitmap and digest table are part of the data, so the branches of the
source that answer an index outside of them cannot be taken and are not repeated
here; the same holds for allocation failures.
-/

namespace RustyCat.Download

open UploadFile (IoErrorKind)

structure Digest where
  bytes : List UInt8
  length_eq : bytes.length = 32
  deriving DecidableEq

def Digest.zero : Digest := ⟨List.replicate 32 0, List.length_replicate⟩

/-! ## Snapshots -/

/-- Bitmap and digests as one checkpoint publishes them. -/
structure Snapshot (partCount : Nat) where
  bits : List UInt8
  digests : List Digest
  bits_length : bits.length = Bitmap.width partCount
  digests_length : digests.length = partCount
  deriving DecidableEq

namespace Snapshot

variable {partCount : Nat}

def empty (partCount : Nat) : Snapshot partCount where
  bits := Bitmap.zeros partCount
  digests := List.replicate partCount Digest.zero
  bits_length := Bitmap.length_zeros partCount
  digests_length := List.length_replicate

def isSet (s : Snapshot partCount) (index : Nat) : Bool := Bitmap.test s.bits index

def mark (s : Snapshot partCount) (index : Nat) (digest : Digest) : Snapshot partCount where
  bits := Bitmap.set s.bits index
  digests := s.digests.set index digest
  bits_length := (Bitmap.length_set _ _).trans s.bits_length
  digests_length := List.length_set.trans s.digests_length

def clearPart (s : Snapshot partCount) (index : Nat) : Snapshot partCount where
  bits := Bitmap.clear s.bits index
  digests := s.digests.set index Digest.zero
  bits_length := (Bitmap.length_clear _ _).trans s.bits_length
  digests_length := List.length_set.trans s.digests_length

def view (s : Snapshot partCount) (index : Nat) : Option Digest :=
  if s.isSet index then s.digests[index]? else none

variable {s : Snapshot partCount}

variable {index : Nat}

theorem isSet_mark (inside : index < partCount) (digest : Digest) (other : Nat) :
    (s.mark index digest).isSet other = (decide (index = other) || s.isSet other) :=
  Bitmap.test_set (s.bits_length ▸ Bitmap.div_lt_width inside) other

theorem isSet_clearPart (s : Snapshot partCount) (index other : Nat) :
    (s.clearPart index).isSet other = (decide (index ≠ other) && s.isSet other) :=
  Bitmap.test_clear _ _ _

@[simp] theorem isSet_empty (index : Nat) : (empty partCount).isSet index = false :=
  Bitmap.test_zeros _ _

@[simp] theorem view_empty (index : Nat) : (empty partCount).view index = none := by
  simp [view]

theorem view_mark (inside : index < partCount) (digest : Digest) (other : Nat) :
    (s.mark index digest).view other = if index = other then some digest else s.view other := by
  have bound : index < s.digests.length := s.digests_length.symm ▸ inside
  simp only [view, isSet_mark inside]
  by_cases here : index = other
  · subst here
    simp [mark, bound]
  · simp [mark, here]

theorem view_clearPart (s : Snapshot partCount) (index other : Nat) :
    (s.clearPart index).view other = if index = other then none else s.view other := by
  simp only [view, isSet_clearPart]
  by_cases here : index = other
  · simp [here]
  · simp [clearPart, here]

theorem isSome_view (inside : index < partCount) :
    (s.view index).isSome = s.isSet index := by
  have bound : index < s.digests.length := s.digests_length.symm ▸ inside
  unfold view
  split <;> simp_all

theorem lt_of_view {digest : Digest} (done : s.view index = some digest) : index < partCount := by
  unfold view at done
  split at done
  · rw [← s.digests_length]
    exact (List.getElem?_eq_some_iff.mp done).1
  · cases done

end Snapshot

structure PendingPart where
  index : Nat
  digest : Digest
  deriving DecidableEq

structure StageDoneOutcome where
  checkpointDue : Bool
  armTimer : Bool
  deriving DecidableEq

def maxPartCount : Nat := 1000000

def defaultCheckpointBatchParts : Nat := 8

def maxBatchCheckpoints : Nat := 16

def checkpointTimerMaxPartCount : Nat := 4096

/-! ## The layout -/

/-- The fields that are fixed for one download, within the bounds of their types and
of the checks of `fresh`. -/
structure Layout where
  total : Nat
  chunk : Nat
  maxParts : Nat
  identity : List UInt8
  total_le : total ≤ u64Max
  chunk_le : chunk ≤ u64Max
  chunk_pos : 0 < chunk
  maxParts_le : maxParts ≤ Word.maxVal 32
  identity_le : identity.length ≤ Word.maxVal 16
  partCount_le : Blocks.count chunk total ≤ maxPartCount

def sampleLayout : Layout :=
  ⟨8, 4, 1, [], sample_total, sample_size, sample_chunk, by decide, by decide, by decide⟩

namespace Layout

variable {layout : Layout} {index : Nat}

def partCount (layout : Layout) : Nat := Blocks.count layout.chunk layout.total

def indexOf (layout : Layout) (offset : Nat) : Option Nat :=
  if offset % layout.chunk = 0 ∧ offset / layout.chunk < layout.partCount then
    some (offset / layout.chunk)
  else none

def partStart (layout : Layout) (index : Nat) : Nat := index * layout.chunk

def partEnd (layout : Layout) (index : Nat) : Nat :=
  min (index * layout.chunk + layout.chunk) layout.total

theorem partStart_lt (inside : index < layout.partCount) :
    layout.partStart index < layout.total :=
  Blocks.lt_of_lt_count layout.chunk_pos inside

theorem partStart_lt_partEnd (inside : index < layout.partCount) :
    layout.partStart index < layout.partEnd index := by
  have := partStart_lt inside
  have := layout.chunk_pos
  unfold partStart partEnd at *
  omega

theorem partEnd_le (index : Nat) : layout.partEnd index ≤ layout.total := Nat.min_le_right _ _

theorem indexOf_eq_some {offset : Nat} :
    layout.indexOf offset = some index ↔
      index < layout.partCount ∧ offset = layout.partStart index := by
  unfold indexOf partStart
  constructor
  · intro found
    split_ifs at found with aligned
    cases found
    exact ⟨aligned.2, (Nat.div_mul_cancel (Nat.dvd_of_mod_eq_zero aligned.1)).symm⟩
  · rintro ⟨inside, rfl⟩
    rw [Nat.mul_div_cancel _ layout.chunk_pos, Nat.mul_mod_left]
    exact if_pos ⟨rfl, inside⟩

end Layout

structure DownloadProgress where
  layout : Layout
  /-- The fields `bits` and `digests`. -/
  snapshot : Snapshot layout.partCount
  expectedValidator : Option Text
  pending : List PendingPart
  pendingBits : List UInt8
  checkpointThreshold : Nat
  checkpointTimerArmed : Bool
  pendingBits_length : pendingBits.length = Bitmap.width layout.partCount
  pending_lt : ∀ part ∈ pending, part.index < layout.partCount

namespace DownloadProgress

variable {p : DownloadProgress}

/-- `fresh`, without the checks that make the layout. -/
def fresh (layout : Layout) : DownloadProgress where
  layout := layout
  snapshot := .empty layout.partCount
  expectedValidator := none
  pending := []
  pendingBits := Bitmap.zeros layout.partCount
  checkpointThreshold :=
    max defaultCheckpointBatchParts (Blocks.count maxBatchCheckpoints layout.partCount)
  checkpointTimerArmed := false
  pendingBits_length := Bitmap.length_zeros _
  pending_lt := nofun

def setExpectedValidator (p : DownloadProgress) (validator : Text) : DownloadProgress :=
  { p with expectedValidator := some validator }

def isDone (p : DownloadProgress) (offset : Nat) : Bool :=
  match p.layout.indexOf offset with
  | some index => p.snapshot.isSet index
  | none => false

/-- The end of the longest run of done parts from the first one; the loop of
`contiguous_watermark` from part `index` on, `fuel` parts before the last. -/
def watermarkFrom (p : DownloadProgress) : Nat → Nat → Nat → Nat
  | 0, _, watermark => watermark
  | fuel + 1, index, watermark =>
    if p.snapshot.isSet index then
      p.watermarkFrom fuel (index + 1)
        (min (Word.saturatingAdd 64 watermark p.layout.chunk) p.layout.total)
    else watermark

def contiguousWatermark (p : DownloadProgress) : Nat :=
  p.watermarkFrom p.layout.partCount 0 0

def allDone (p : DownloadProgress) : Bool :=
  (List.range p.layout.partCount).all p.snapshot.isSet

/-! ## Staging and checkpoints -/

/-- `stage_done_with_digest_deferred`; `elapsed` tells whether the last checkpoint is
at least `DEFAULT_CHECKPOINT_INTERVAL` ago. -/
def stageDoneWithDigestDeferred (p : DownloadProgress) (offset : Nat) (digest : Digest)
    (elapsed : Bool) : Except IoErrorKind (StageDoneOutcome × DownloadProgress) :=
  match found : p.layout.indexOf offset with
  | none => .error .invalidInput
  | some index =>
    if p.isDone offset then .ok (⟨false, false⟩, p)
    -- the earlier attempt staged the part and its checkpoint failed
    else if Bitmap.test p.pendingBits index then .ok (⟨true, false⟩, p)
    else
      let staged : DownloadProgress := { p with
        pending := p.pending ++ [⟨index, digest⟩]
        pendingBits := Bitmap.set p.pendingBits index
        pendingBits_length := (Bitmap.length_set _ _).trans p.pendingBits_length
        pending_lt := by
          intro part member
          rcases List.mem_append.mp member with earlier | new
          · exact p.pending_lt part earlier
          · rw [List.mem_singleton.mp new]
            exact (Layout.indexOf_eq_some.mp found).1 }
      let timerEnabled : Bool := p.layout.partCount ≤ checkpointTimerMaxPartCount
      if staged.pending.length ≥ max p.checkpointThreshold 1 ∨ (timerEnabled ∧ elapsed) then
        .ok (⟨true, false⟩, staged)
      else
        .ok (⟨false, timerEnabled && !p.checkpointTimerArmed⟩,
          { staged with checkpointTimerArmed := timerEnabled || p.checkpointTimerArmed })

def beginExternalCheckpoint (p : DownloadProgress) : Bool × DownloadProgress :=
  (!p.pending.isEmpty, { p with checkpointTimerArmed := false })

def beginTimerCheckpoint (p : DownloadProgress) : Bool × DownloadProgress :=
  if p.checkpointTimerArmed then p.beginExternalCheckpoint else (false, p)

/-- The snapshot that `commit_checkpoint_after_data_sync` publishes. -/
def nextSnapshot (p : DownloadProgress) : Snapshot p.layout.partCount :=
  p.pending.foldl (fun s part => s.mark part.index part.digest) p.snapshot

/-- What the fields become once a snapshot is published. -/
def adopt (p : DownloadProgress) (next : Snapshot p.layout.partCount) : DownloadProgress :=
  { p with
    snapshot := next
    pending := []
    pendingBits := Bitmap.zeros p.layout.partCount
    pendingBits_length := Bitmap.length_zeros _
    pending_lt := nofun }

/-- How many parts `retain_contiguous_prefix_after_data_sync` keeps. -/
def retainedParts (p : DownloadProgress) : Nat :=
  if p.contiguousWatermark = p.layout.total then p.layout.partCount
  else p.contiguousWatermark / p.layout.chunk

def retainedSnapshot (p : DownloadProgress) : Snapshot p.layout.partCount :=
  (List.range' p.retainedParts (p.layout.partCount - p.retainedParts)).foldl
    Snapshot.clearPart p.snapshot

end DownloadProgress

/-! ## The latched validator -/

/-- `validate_or_latch_range_validator` on the shared slot of the task. -/
def validateOrLatchRangeValidator (slot : Option DownloadProgress) (actual : Option Text)
    (validatorRequired : Bool) (mode : String) : Except MeowError DownloadProgress :=
  match slot with
  | none => .error (.fromCode .invalidTaskState
      s!"{mode} download progress missing while validating generation")
  | some progress =>
    match progress.expectedValidator, actual with
    | some expected, some actual =>
      if expected = actual then .ok progress
      else .error (.fromCode .invalidRange
        (s!"{mode} range response generation mismatch: expected ETag " ++
          s!"{String.ofList expected}, got {String.ofList actual}"))
    | some _, none => .error (.fromCode .invalidRange
        s!"{mode} range response must include the prepared strong ETag")
    | none, some actual => .ok (progress.setExpectedValidator actual)
    | none, none =>
      if validatorRequired then .error (.fromCode .invalidRange
        s!"{mode} multi-range download requires a strong ETag")
      else .ok progress

/-- The latch lets the validator pass. -/
def LatchAdmits (latch actual : Option Text) (required : Bool) : Prop :=
  match latch with
  | some expected => actual = some expected
  | none => required = true → actual.isSome = true

/-- The progress after a response with an admitted validator. -/
def DownloadProgress.latched (p : DownloadProgress) (actual : Option Text) : DownloadProgress :=
  { p with expectedValidator := p.expectedValidator.or actual }

theorem DownloadProgress.latched_eq_self {p : DownloadProgress} {actual : Option Text}
    (same : p.expectedValidator.or actual = p.expectedValidator) : p.latched actual = p := by
  cases p
  simp_all [latched]

theorem validateOrLatchRangeValidator_eq_ok {slot : Option DownloadProgress}
    {actual : Option Text} {required : Bool} {mode : String} {after : DownloadProgress} :
    validateOrLatchRangeValidator slot actual required mode = .ok after ↔
      ∃ before, slot = some before ∧ LatchAdmits before.expectedValidator actual required ∧
        after = before.latched actual := by
  cases slot with
  | none => simp [validateOrLatchRangeValidator]
  | some before =>
    simp only [validateOrLatchRangeValidator, Option.some.injEq, exists_eq_left']
    cases latch : before.expectedValidator with
    | some expected =>
      have kept : before.latched actual = before :=
        DownloadProgress.latched_eq_self (by simp [latch])
      rw [kept]
      cases actual with
      | none => simp [LatchAdmits]
      | some actual =>
        simp only [LatchAdmits, Option.some.injEq]
        split
        · rename_i same
          simp [same, eq_comm]
        · rename_i different
          simp [Ne.symm different]
    | none =>
      cases actual with
      | none =>
        have kept : before.latched none = before :=
          DownloadProgress.latched_eq_self (by simp [latch])
        rw [kept]
        cases required <;> simp [LatchAdmits, eq_comm]
      | some actual =>
        have set : before.latched (some actual) = before.setExpectedValidator actual := by
          simp [DownloadProgress.latched, DownloadProgress.setExpectedValidator, latch]
        simp [LatchAdmits, set, eq_comm]

end RustyCat.Download
