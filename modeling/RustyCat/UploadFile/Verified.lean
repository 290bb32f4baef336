import Mathlib.Data.List.Induction
import RustyCat.UploadFile.Readback

/-!
# Verified reads

What the functions of a snapshot return, for a snapshot that describes a content:
a verified range is a slice of that content, and a full validation has read the
opened file and the visible path back as that content.
-/

namespace RustyCat

open Interaction Interaction.Attempt Blocks

namespace UploadFile

variable {Digest : Type} [DecidableEq Digest] {sha256 : List UInt8 → Digest}
  {snapshot : UploadFileSnapshot Digest} {content : List UInt8} {events : Trace}

/-- The snapshot was made from a scan of the content. -/
structure Describes (sha256 : List UInt8 → Digest) (snapshot : UploadFileSnapshot Digest)
    (content : List UInt8) : Prop where
  len : snapshot.generation.len = content.length
  whole : snapshot.content.sha256 = sha256 content
  blocks : snapshot.content.blockSha256 =
    blockDigests sha256 snapshot.content.verificationBlockBytes content
  positive : 0 < snapshot.content.verificationBlockBytes

theorem eq_of_matches (collisionFree : Function.Injective sha256)
    {identity : ContentIdentity Digest} (whole : identity.sha256 = sha256 content) {size : Nat}
    {other : List UInt8} (same : identity.matches (contentScan sha256 size other) = true) :
    other = content := by
  simp only [ContentIdentity.matches, decide_eq_true_eq] at same
  exact collisionFree (same.1.symm.trans whole)

/-! ## Ranges -/

omit [DecidableEq Digest] in
theorem Describes.digest (describes : Describes sha256 snapshot content) {index : Nat}
    {expected : Digest} (found : snapshot.content.blockSha256[index]? = some expected) :
    expected = sha256 (block snapshot.content.verificationBlockBytes content index) := by
  rw [describes.blocks, blockDigests, List.getElem?_map, Option.map_eq_some_iff] at found
  obtain ⟨at_, there, rfl⟩ := found
  obtain ⟨_, rfl⟩ := List.getElem?_eq_some_iff.mp there
  rw [List.getElem_range]

variable {file : Handle}

theorem readBlocks_returns (collisionFree : Function.Injective sha256)
    (describes : Describes sha256 snapshot content) {offset len : Nat}
    (inside : offset + len ≤ content.length) {index count : Nat} {output bytes : List UInt8}
    (returned : Program.Returns (snapshot.readBlocks sha256 file offset len
      (List.range' index count) output).run events (.ok bytes))
    (overlaps : offset < (index + 1) * snapshot.content.verificationBlockBytes)
    (last : ∀ later, index ≤ later → later < index + count →
      later * snapshot.content.verificationBlockBytes < offset + len)
    (all : offset + len ≤ (index + count) * snapshot.content.verificationBlockBytes)
    (so_far : output = slice content offset
      (min (offset + len) (max offset (index * snapshot.content.verificationBlockBytes)))) :
    bytes = slice content offset (offset + len) := by
  induction count generalizing index output events with
  | zero =>
    obtain ⟨rfl, rfl⟩ := returns_pure.mp returned
    rw [so_far]
    congr 1
    rw [Nat.add_zero] at all
    omega
  | succ count ih =>
    simp only [List.range'_succ, UploadFileSnapshot.readBlocks] at returned
    obtain ⟨one, scratch, rest, rfl, read, returned⟩ := returns_bind_ok.mp returned
    obtain ⟨length, _⟩ := readExactAt_returns (returns_mapError.mp read)
    have here := last index (Nat.le_refl _) (by omega)
    rw [describes.len] at length
    generalize size_eq : snapshot.content.verificationBlockBytes = size at *
    split at returned
    · exact absurd returned not_returns_throw
    rename_i expected found
    split at returned
    · exact absurd returned not_returns_throw
    rename_i agrees
    have expected_eq := describes.digest found
    rw [size_eq] at expected_eq
    have same : scratch = block size content index :=
      collisionFree ((not_not.mp agrees).trans expected_eq)
    have next : (index + 1) * size = index * size + size := by
      rw [Nat.add_mul, Nat.one_mul]
    have after : (index + 1 + 1) * size = index * size + size + size := by
      rw [Nat.add_mul, Nat.one_mul, next]
    rw [next] at overlaps
    -- The bytes copied from this block, as a slice of the content.
    have copied : (scratch.drop (max offset (index * size) - index * size)).take
        (min (offset + len) (index * size + min (snapshot.generation.len - index * size) size) -
          index * size - (max offset (index * size) - index * size)) =
        slice content (max offset (index * size)) (min (offset + len) (index * size + size)) := by
      have inner := @slice_slice _ content (index * size) (index * size + size)
        (max offset (index * size) - index * size)
        (min (offset + len) (index * size + min (content.length - index * size) size) -
          index * size) (by omega)
      rw [describes.len, same, block_eq_slice]
      refine inner.trans ?_
      congr 1 <;> omega
    rw [copied] at returned
    refine ih returned (by rw [after]; omega) (fun later low high => last later (by omega)
      (by omega)) (by rw [Nat.add_right_comm, Nat.add_assoc]; exact all) ?_
    have start : min (offset + len) (max offset (index * size)) = max offset (index * size) := by
      omega
    rw [so_far, start, slice_append (by omega) (by omega), next]
    congr 1
    omega

theorem readVerifiedRange_returns (collisionFree : Function.Injective sha256)
    (describes : Describes sha256 snapshot content) {offset len : Nat} {bytes : List UInt8}
    (inside : offset + len ≤ content.length) (returned : Program.Returns
      (snapshot.readVerifiedRangeBlocking sha256 file offset len).run events (.ok bytes)) :
    bytes = slice content offset (offset + len) := by
  simp only [UploadFileSnapshot.readVerifiedRangeBlocking] at returned
  split at returned
  · rename_i empty
    obtain ⟨_, rfl⟩ := returns_pure.mp returned
    rw [empty, Nat.add_zero, slice_self]
  · have positive := describes.positive
    refine readBlocks_returns collisionFree describes inside returned ?_ ?_ ?_ ?_
    all_goals generalize snapshot.content.verificationBlockBytes = size at *
    · exact (Nat.div_lt_iff_lt_mul positive).mp (Nat.lt_succ_self _)
    · intro later low high
      have upper : later * size ≤ (offset + len - 1) / size * size :=
        Nat.mul_le_mul_right size (by omega)
      have floor : (offset + len - 1) / size * size ≤ offset + len - 1 := Nat.div_mul_le_self _ _
      omega
    · have ordered : offset / size ≤ (offset + len - 1) / size := Nat.div_le_div_right (by omega)
      have ends : offset + len - 1 < ((offset + len - 1) / size + 1) * size :=
        (Nat.div_lt_iff_lt_mul positive).mp (Nat.lt_succ_self _)
      rw [Nat.add_sub_cancel' (by omega)]
      omega
    · have begins : offset / size * size ≤ offset := Nat.div_mul_le_self _ _
      rw [Nat.max_eq_left begins, Nat.min_eq_right (by omega), slice_self]

/-! ## Calls that only look -/

/-- Calls that neither change the shared handle nor reach the protocol. -/
def Op.looks : Op → Bool
  | .open | .stat _ | .statPath | .readAt _ _ _ | .accepted | .acceptHandle _ | .acceptPath _ =>
    true
  | _ => false

abbrev Looks {α : Type} (p : Program Op Answer α) : Prop :=
  Program.Only (fun op => op.looks = true) p

theorem readLoop_looks (file : Handle) (offset len fuel : Nat) (filled : List UInt8) :
    Looks (readLoop file offset len fuel filled).run := by
  induction fuel generalizing filled with
  | zero => exact only_pure _
  | succ fuel ih =>
    simp only [readLoop]
    split
    · refine only_bind (only_ask rfl) fun data => ?_
      split
      · exact only_throw _
      · exact ih _
    · exact only_pure _

omit [DecidableEq Digest] in
theorem scanLoop_looks (file : Handle) (len size fuel : Nat) (full : List UInt8)
    (hasher : BlockHasher Digest) :
    Looks (scanLoop sha256 file len size fuel full hasher).run := by
  induction fuel generalizing full hasher with
  | zero => exact only_pure _
  | succ fuel ih =>
    simp only [scanLoop]
    split
    · exact only_bind (readLoop_looks ..) fun buffer => ih _ _
    · exact only_pure _

omit [DecidableEq Digest] in
theorem scanFileAt_looks (file : Handle) (len size : Nat) :
    Looks (scanFileAt sha256 file len size).run := by
  simp only [scanFileAt]
  split
  · exact only_throw _
  split
  · exact only_throw _
  · exact only_bind (scanLoop_looks ..) fun result => only_pure _

omit [DecidableEq Digest] in
theorem scanFileStably_looks (file : Handle) (len size : Nat) (path description : String) :
    Looks (scanFileStably sha256 file len size path description).run := by
  simp only [scanFileStably]
  refine only_bind (only_ask rfl) fun before => ?_
  split
  · exact only_throw _
  refine only_bind (only_mapError (scanFileAt_looks ..)) fun scan => ?_
  refine only_bind (only_ask rfl) fun after => ?_
  split
  · exact only_throw _
  · exact only_pure _

theorem verifyVisiblePathContent_looks (path : String) (len : Nat)
    (identity : ContentIdentity Digest) (initialScan : Bool) :
    Looks (verifyVisiblePathContent sha256 path len identity initialScan).run := by
  simp only [verifyVisiblePathContent]
  refine only_bind (only_ask rfl) fun file => ?_
  refine only_bind (only_ask rfl) fun metadata => ?_
  split
  · exact only_throw _
  split
  · exact only_throw _
  refine only_bind (scanFileStably_looks ..) fun scan => ?_
  split
  · exact only_throw _
  · exact only_pure _

variable (snapshot) in
theorem validateHandle_looks (verifyContent : Bool) (file : Handle) (generation : FileGeneration)
    (accepted : Option FileGeneration) :
    Looks (snapshot.validateHandle sha256 verifyContent file generation accepted).run := by
  simp only [UploadFileSnapshot.validateHandle]
  split
  · refine only_bind (scanFileStably_looks ..) fun scan => ?_
    split
    · exact only_throw _
    · exact only_bind (only_ask rfl) fun _ => only_pure _
  · exact only_pure _

variable (snapshot) in
theorem validatePath_looks (verifyContent : Bool) (handle path : FileGeneration)
    (accepted : Option FileGeneration) :
    Looks (snapshot.validatePath sha256 verifyContent handle path accepted).run := by
  simp only [UploadFileSnapshot.validatePath]
  split
  · refine only_bind (verifyVisiblePathContent_looks ..) fun _ => ?_
    exact only_bind (only_ask rfl) fun _ => only_pure _
  · split
    · exact only_bind (only_ask rfl) fun _ => only_pure _
    · exact only_pure _

variable (snapshot) in
theorem reopen_looks : Looks (snapshot.reopen sha256).run := by
  simp only [UploadFileSnapshot.reopen]
  refine only_bind (only_ask rfl) fun file => ?_
  refine only_bind (only_ask rfl) fun opened => ?_
  split
  · exact only_throw _
  refine only_bind (only_mapError (scanFileAt_looks ..)) fun scan => ?_
  refine only_bind (only_ask rfl) fun after => ?_
  split
  · exact only_throw _
  split
  · exact only_throw _
  · exact only_pure _

variable (snapshot) in
theorem readVerifiedRange_looks (file : Handle) (offset len : Nat) :
    Looks (snapshot.readVerifiedRangeBlocking sha256 file offset len).run := by
  have blocks : ∀ (indices : List Nat) (output : List UInt8),
      Looks (snapshot.readBlocks sha256 file offset len indices output).run := by
    intro indices
    induction indices with
    | nil => exact fun output => only_pure _
    | cons index rest ih =>
      intro output
      simp only [UploadFileSnapshot.readBlocks]
      refine only_bind (only_mapError (readLoop_looks ..)) fun scratch => ?_
      split
      · exact only_throw _
      split
      · exact only_throw _
      · exact ih _
  simp only [UploadFileSnapshot.readVerifiedRangeBlocking]
  split
  · exact only_pure _
  · exact blocks _ _

/-! ## The shared handle -/

/-- The handle the slot was last seen to hold. -/
def seen (held : Option Handle) : Event Op Answer → Option Handle
  | ⟨.lock, answer⟩ => answer
  | ⟨.publish file _, _⟩ => some file
  | _ => held

def heldSlot (events : Trace) : Option Handle :=
  events.foldl seen none

theorem heldSlot_snoc (events : Trace) (event : Event Op Answer) :
    heldSlot (events ++ [event]) = seen (heldSlot events) event := by
  rw [heldSlot, List.foldl_append]
  rfl

theorem heldSlot_looks {more : Trace} (looks : ∀ event ∈ more, event.op.looks = true) :
    heldSlot (events ++ more) = heldSlot events := by
  induction more using List.reverseRecOn with
  | nil => rw [List.append_nil]
  | append_singleton more event ih =>
    rw [← List.append_assoc, heldSlot_snoc, ih fun e member => looks e (by simp [member])]
    have plain := looks event (by simp)
    obtain ⟨op, answer⟩ := event
    cases op <;> first | rfl | cases plain

theorem heldSlot_append {more : Trace}
    (held : heldSlot more = some file) : heldSlot (events ++ more) = some file := by
  induction more using List.reverseRecOn generalizing file with
  | nil => cases held
  | append_singleton more event ih =>
    rw [heldSlot_snoc] at held
    rw [← List.append_assoc, heldSlot_snoc]
    obtain ⟨op, answer⟩ := event
    cases op <;> first | exact held | exact ih held

theorem openedFile_returns
    (returned : Program.Returns (snapshot.openedFileBlocking sha256).run events (.ok file)) :
    heldSlot events = some file := by
  simp only [UploadFileSnapshot.openedFileBlocking] at returned
  obtain ⟨_, held, rest, rfl, locked, returned⟩ := returns_bind_ok.mp returned
  obtain ⟨answer, rfl, ok⟩ := returns_ask.mp locked
  obtain rfl : answer = held := Except.ok.inj ok
  split at returned
  · rename_i known
    obtain ⟨_, _, _, rfl, unlocked, ended⟩ := returns_bind_ok.mp returned
    obtain ⟨_, rfl, _⟩ := returns_ask.mp unlocked
    obtain ⟨rfl, rfl⟩ := returns_pure.mp ended
    rfl
  · obtain ⟨reads, result, last, rfl, _, returned⟩ := returns_bind_ok.mp returned
    split at returned
    · rename_i opened generation
      obtain ⟨_, _, _, rfl, published, ended⟩ := returns_bind_ok.mp returned
      obtain ⟨_, rfl, _⟩ := returns_ask.mp published
      obtain ⟨rfl, rfl⟩ := returns_pure.mp ended
      rw [List.append_nil, ← List.append_assoc, heldSlot_snoc]
      rfl
    · obtain ⟨_, _, _, _, _, failed⟩ := returns_bind_ok.mp returned
      exact absurd failed not_returns_throw

end UploadFile

end RustyCat
