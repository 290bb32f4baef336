import RustyCat.Lib.Blocks
import RustyCat.UploadFile.Transfer

/-!
# What the reads of a source prove

A scan that returns has read the whole file once, and its digests are those of
the consecutive blocks of what it read.  With a collision-free hash, digests that
match the first scan mean that the same bytes were read.
-/

namespace RustyCat

open Interaction Interaction.Attempt Blocks

namespace UploadFile

abbrev Trace := List (Event Op Answer)

/-! ## Block digests -/

section Digests

variable {Digest : Type} (sha256 : List UInt8 → Digest) {size : Nat}

def blockDigests (size : Nat) (content : List UInt8) : List Digest :=
  (List.range (count size content.length)).map fun index => sha256 (block size content index)

/-- What the block hasher holds after it was fed the content. -/
structure Absorbed (size : Nat) (content : List UInt8) (hasher : BlockHasher Digest) : Prop where
  pending : hasher.block = content.drop (content.length / size * size)
  digests : hasher.digests = (List.range (content.length / size)).map fun index =>
    sha256 (block size content index)

theorem Absorbed.start : Absorbed sha256 size [] { block := [], digests := [] } :=
  ⟨by simp, by simp⟩

variable {sha256} {content : List UInt8} {hasher : BlockHasher Digest}

theorem Absorbed.length (absorbed : Absorbed sha256 size content hasher) :
    hasher.block.length = content.length % size := by
  rw [absorbed.pending, List.length_drop]
  have split := Nat.div_add_mod content.length size
  rw [Nat.mul_comm] at split
  omega

theorem whole_blocks_append (content data : List UInt8) :
    (List.range (content.length / size)).map
        (fun index => sha256 (block size (content ++ data) index)) =
      (List.range (content.length / size)).map fun index => sha256 (block size content index) := by
  refine List.map_congr_left fun index member => ?_
  have before : (index + 1) * size ≤ content.length / size * size :=
    Nat.mul_le_mul_right size (List.mem_range.mp member)
  have whole : content.length / size * size ≤ content.length := Nat.div_mul_le_self _ _
  rw [Nat.add_mul, Nat.one_mul] at before
  rw [block_append (by omega)]

variable {data : List UInt8}

theorem Absorbed.extend (absorbed : Absorbed sha256 size content hasher)
    (short : hasher.block.length + data.length < size) :
    Absorbed sha256 size (content ++ data)
      { block := hasher.block ++ data, digests := hasher.digests } := by
  have length := absorbed.length
  have split := Nat.div_add_mod content.length size
  have same : (content ++ data).length / size = content.length / size := by
    rw [List.length_append, Nat.div_eq_of_lt_le]
    · rw [Nat.mul_comm]
      omega
    · rw [Nat.add_mul, Nat.one_mul, Nat.mul_comm]
      omega
  have whole : content.length / size * size ≤ content.length := Nat.div_mul_le_self _ _
  constructor
  · rw [same, List.drop_append_of_le_length whole, absorbed.pending]
  · rw [same, absorbed.digests, whole_blocks_append]

theorem Absorbed.fill (absorbed : Absorbed sha256 size content hasher) (positive : 0 < size)
    (full : hasher.block.length + data.length = size) :
    Absorbed sha256 size (content ++ data)
      { block := [], digests := hasher.digests ++ [sha256 (hasher.block ++ data)] } := by
  have length := absorbed.length
  have split := Nat.div_add_mod content.length size
  have total : (content ++ data).length = (content.length / size + 1) * size := by
    rw [List.length_append, Nat.add_mul, Nat.one_mul, Nat.mul_comm]
    omega
  have next : (content ++ data).length / size = content.length / size + 1 := by
    rw [total, Nat.mul_div_cancel _ positive]
  have whole : content.length / size * size ≤ content.length := Nat.div_mul_le_self _ _
  constructor
  · rw [next, ← total, List.drop_length]
  · have last : block size (content ++ data) (content.length / size) = hasher.block ++ data := by
      rw [block, List.drop_append_of_le_length whole, ← absorbed.pending, List.take_of_length_le]
      rw [List.length_append]
      omega
    rw [next, List.range_succ, List.map_append, List.map_singleton, whole_blocks_append, last,
      absorbed.digests]

theorem Absorbed.buffer (positive : 0 < size) {fuel : Nat}
    (absorbed : Absorbed sha256 size content hasher) (enough : data.length ≤ fuel) :
    Absorbed sha256 size (content ++ data) (absorbBuffer sha256 size fuel hasher data) := by
  induction fuel generalizing content hasher data with
  | zero =>
    obtain rfl : data = [] := List.length_eq_zero_iff.mp (by omega)
    rw [List.append_nil]
    exact absorbed
  | succ fuel ih =>
    simp only [absorbBuffer]
    split
    · rename_i empty
      rw [empty, List.append_nil]
      exact absorbed
    · rename_i filled
      have some : 0 < data.length := List.length_pos_iff.mpr filled
      have room : hasher.block.length < size := by
        rw [absorbed.length]
        exact Nat.mod_lt _ positive
      generalize amount : min (size - hasher.block.length) data.length = take
      have taken : (data.take take).length = take := by
        rw [List.length_take]
        omega
      have parts : content ++ data = content ++ data.take take ++ data.drop take := by
        rw [List.append_assoc, List.take_append_drop]
      have shorter : (data.drop take).length ≤ fuel := by
        rw [List.length_drop]
        omega
      rw [parts]
      split
      · rename_i whole
        refine ih (absorbed.fill positive ?_) shorter
        rw [← List.length_append]
        exact whole
      · rename_i partly
        refine ih (absorbed.extend ?_) shorter
        rw [List.length_append, taken] at partly
        omega

theorem Absorbed.digests_eq (absorbed : Absorbed sha256 size content hasher)
    (positive : 0 < size) :
    (if hasher.block = [] then hasher.digests else hasher.digests ++ [sha256 hasher.block]) =
      blockDigests sha256 size content := by
  have length := absorbed.length
  have split := Nat.div_add_mod content.length size
  rw [Nat.mul_comm] at split
  have rest : content.length % size < size := Nat.mod_lt _ positive
  split
  · rename_i empty
    rw [empty, List.length_nil] at length
    have blocks : count size content.length = content.length / size := by
      conv_lhs => rw [← split, ← length, Nat.add_zero]
      exact count_of_dvd positive
    rw [blockDigests, blocks, absorbed.digests]
  · rename_i partly
    have some : 0 < hasher.block.length := List.length_pos_iff.mpr partly
    have blocks : count size content.length = content.length / size + 1 := by
      conv_lhs => rw [← split]
      exact count_of_rest (by omega) rest
    rw [blockDigests, blocks, List.range_succ, List.map_append, List.map_singleton,
      absorbed.digests, block_last, absorbed.pending]
    rw [Nat.add_mul, Nat.one_mul]
    omega

end Digests

/-! ## Reads -/

/-- The events are consecutive reads of the file from the offset on, and these are
their bytes. -/
inductive ReadBack (file : Handle) : Nat → List UInt8 → Trace → Prop where
  | nil (offset : Nat) : ReadBack file offset [] []
  | cons {offset len : Nat} {data : { data : List UInt8 // data.length ≤ len }}
      {rest : List UInt8} {events : Trace}
      (later : ReadBack file (offset + data.val.length) rest events) :
      ReadBack file offset (data.val ++ rest) (⟨.readAt file offset len, .ok data⟩ :: events)

variable {offset : Nat}

theorem ReadBack.append {file : Handle} {first second : List UInt8} {one two : Trace}
    (begin_ : ReadBack file offset first one)
    (rest : ReadBack file (offset + first.length) second two) :
    ReadBack file offset (first ++ second) (one ++ two) := by
  induction begin_ with
  | nil => exact rest
  | cons later ih =>
    rw [List.append_assoc]
    refine .cons (ih ?_)
    rwa [List.length_append, ← Nat.add_assoc] at rest

variable {file : Handle} {events : Trace}

theorem readLoop_returns {len fuel : Nat} {filled bytes : List UInt8}
    (returned : Program.Returns (readLoop file offset len fuel filled).run events (.ok bytes))
    (within : filled.length ≤ len) (enough : len - filled.length ≤ fuel) :
    bytes.length = len ∧ ∃ data, bytes = filled ++ data ∧
      ReadBack file (offset + filled.length) data events := by
  induction fuel generalizing filled events with
  | zero =>
    obtain ⟨rfl, rfl⟩ := returns_pure.mp returned
    exact ⟨by omega, [], (List.append_nil _).symm, .nil _⟩
  | succ fuel ih =>
    simp only [readLoop] at returned
    split at returned
    · obtain ⟨_, data, rest, rfl, asked, looped⟩ := returns_bind_ok.mp returned
      obtain ⟨answer, rfl, ok⟩ := returns_ask.mp asked
      obtain rfl : answer = .ok data := ok
      split at looped
      · exact absurd looped not_returns_throw
      rename_i some
      have positive : 0 < data.val.length := List.length_pos_iff.mpr some
      have bound := data.property
      obtain ⟨length, more, rfl, reads⟩ := ih looped
        (by rw [List.length_append]; omega) (by rw [List.length_append]; omega)
      refine ⟨length, data.val ++ more, List.append_assoc .., .cons ?_⟩
      rwa [List.length_append, ← Nat.add_assoc] at reads
    · obtain ⟨rfl, rfl⟩ := returns_pure.mp returned
      exact ⟨by omega, [], (List.append_nil _).symm, .nil _⟩

theorem readExactAt_returns {len : Nat} {bytes : List UInt8}
    (returned : Program.Returns (readExactAt file offset len).run events (.ok bytes)) :
    bytes.length = len ∧ ReadBack file offset bytes events := by
  obtain ⟨length, data, rfl, reads⟩ := readLoop_returns returned (Nat.zero_le _)
    (Nat.sub_le _ _)
  exact ⟨length, reads⟩

/-! ## Scans -/

section Scan

variable {Digest : Type} {sha256 : List UInt8 → Digest} {len size : Nat}

theorem scanLoop_returns (positive : 0 < size) {fuel : Nat} {full last : List UInt8}
    {hasher final : BlockHasher Digest}
    (returned : Program.Returns (scanLoop sha256 file len size fuel full hasher).run events
      (.ok (last, final)))
    (within : full.length ≤ len) (enough : len - full.length ≤ fuel)
    (absorbed : Absorbed sha256 size full hasher) :
    last.length = len ∧ Absorbed sha256 size last final ∧ ∃ data, last = full ++ data ∧
      ReadBack file full.length data events := by
  induction fuel generalizing full hasher events with
  | zero =>
    obtain ⟨rfl, same⟩ := returns_pure.mp returned
    cases same
    exact ⟨by omega, absorbed, [], (List.append_nil _).symm, .nil _⟩
  | succ fuel ih =>
    simp only [scanLoop] at returned
    split at returned
    · obtain ⟨one, buffer, rest, rfl, read, looped⟩ := returns_bind_ok.mp returned
      obtain ⟨length, reads⟩ := readExactAt_returns read
      have room : 0 < hashBufferBytes := by decide
      obtain ⟨whole, scanned, data, rfl, more⟩ := ih looped
        (by rw [List.length_append]; omega) (by rw [List.length_append]; omega)
        (absorbed.buffer positive (Nat.le_refl _))
      refine ⟨whole, scanned, buffer ++ data, List.append_assoc .., reads.append ?_⟩
      rwa [List.length_append] at more
    · obtain ⟨rfl, same⟩ := returns_pure.mp returned
      cases same
      exact ⟨by omega, absorbed, [], (List.append_nil _).symm, .nil _⟩

def contentScan (sha256 : List UInt8 → Digest) (size : Nat) (content : List UInt8) :
    ContentScan Digest where
  sha256 := sha256 content
  blockSha256 := blockDigests sha256 size content

theorem scanFileAt_returns {scan : ContentScan Digest}
    (returned : Program.Returns (scanFileAt sha256 file len size).run events (.ok scan)) :
    0 < size ∧ ∃ content, content.length = len ∧ ReadBack file 0 content events ∧
      scan = contentScan sha256 size content := by
  simp only [scanFileAt] at returned
  split at returned
  · exact absurd returned not_returns_throw
  rename_i supported
  have positive : 0 < size := by omega
  split at returned
  · exact absurd returned not_returns_throw
  obtain ⟨one, ⟨full, hasher⟩, two, rfl, looped, ended⟩ :=
    returns_bind_ok.mp returned
  obtain ⟨rfl, rfl⟩ := returns_pure.mp ended
  obtain ⟨length, absorbed, data, same, reads⟩ := scanLoop_returns positive looped
    (Nat.zero_le _) (Nat.sub_le _ _) (.start sha256)
  obtain rfl : full = data := same
  refine ⟨positive, full, length, ?_, ?_⟩
  · rw [List.append_nil]
    exact reads
  · rw [contentScan, ← absorbed.digests_eq positive]

end Scan

end UploadFile

end RustyCat
