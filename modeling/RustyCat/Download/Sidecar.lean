import RustyCat.Download.Progress
import RustyCat.Lib.Codec

/-!
# The sidecar file

Encoding and decoding of the `.rcdl` sidecar of `download_progress.rs`.  A header with
the parameters of the download precedes the bitmap and the digest of each part; its
identity field carries its own length.
-/

namespace RustyCat.Download

open Codec

open UploadFile (IoErrorKind)

def sidecarMagic : Nat := 0x5243444C

def sidecarVersion : Nat := 2

def encodeSnapshot (layout : Layout) (snapshot : Snapshot layout.partCount) : List UInt8 :=
  toLE 4 sidecarMagic ++ (toLE 2 sidecarVersion ++ (toLE 8 layout.total ++
    (toLE 8 layout.chunk ++ (toLE 4 layout.maxParts ++ (toLE 2 layout.identity.length ++
      (layout.identity ++ (snapshot.bits ++ snapshot.digests.flatMap Digest.bytes)))))))

def sidecarHeaderLen : Nat := 28

/-- `part_count_for` on a target with 64-bit pointers. -/
def partCountFor (total chunk : Nat) : Except IoErrorKind Nat :=
  if chunk = 0 then .error .invalidInput
  else if maxPartCount < Blocks.count chunk total then .error .invalidInput
  else .ok (Blocks.count chunk total)

/-- The checks of `fresh`, in its order; the first two bounds are those of `u64`. -/
def freshLayout (total chunk maxParts : Nat) (identity : List UInt8)
    (total_le : total ≤ u64Max) (chunk_le : chunk ≤ u64Max) : Except IoErrorKind Layout :=
  if maxParts_le : maxParts ≤ Word.maxVal 32 then
    if identity_le : identity.length ≤ Word.maxVal 16 then
      if chunk_pos : 0 < chunk then
        if partCount_le : Blocks.count chunk total ≤ maxPartCount then
          .ok ⟨total, chunk, maxParts, identity, total_le, chunk_le, chunk_pos, maxParts_le,
            identity_le, partCount_le⟩
        else .error .invalidInput
      else .error .invalidInput
    else .error .invalidInput
  else .error .invalidInput

def expectedV2EncodedLen (total chunk : Nat) (identity : List UInt8) : Except IoErrorKind Nat := do
  if Word.maxVal 16 < identity.length then throw .invalidInput
  let partCount ← partCountFor total chunk
  return sidecarHeaderLen + identity.length + Bitmap.width partCount + partCount * 32

def readDigests : (count : Nat) → (bytes : List UInt8) → count * 32 ≤ bytes.length → List Digest
  | 0, _, _ => []
  | count + 1, bytes, enough =>
    ⟨bytes.take 32, by rw [List.length_take]; omega⟩ ::
      readDigests count (bytes.drop 32) (by rw [List.length_drop]; omega)

variable {count chunk total maxParts : Nat} {digests : List Digest} {identity raw : List UInt8}
  {layout : Layout}

theorem length_readDigests {bytes : List UInt8}
    (enough : count * 32 ≤ bytes.length) : (readDigests count bytes enough).length = count := by
  induction count generalizing bytes with
  | zero => rfl
  | succ count ih => simp [readDigests, ih]

/-- The part of `decode` after the identity. -/
def decodeBody (partCount : Nat) (body : List UInt8) : Option (List UInt8 × List Digest) :=
  if sized : body.length = Bitmap.width partCount + partCount * 32 then
    some (body.take (Bitmap.width partCount),
      readDigests partCount (body.drop (Bitmap.width partCount))
        (by rw [List.length_drop]; omega))
  else none

/-- `decode`; the number of parts in flight is read and not compared. -/
def decode (raw : List UInt8) (total chunk _maxParts : Nat) (identity : List UInt8) :
    Option (List UInt8 × List Digest) := do
  let rest ← readNumber 4 sidecarMagic raw
  let rest ← readNumber 2 sidecarVersion rest
  let rest ← readNumber 8 total rest
  let rest ← readNumber 8 chunk rest
  let (_, rest) ← readExact 4 rest
  let rest ← readNumber 2 identity.length rest
  let body ← readBytes identity rest
  let partCount ← (partCountFor total chunk).toOption
  decodeBody partCount body

theorem length_flatMap_bytes (digests : List Digest) :
    (digests.flatMap Digest.bytes).length = digests.length * 32 := by
  induction digests with
  | nil => rfl
  | cons digest digests ih =>
    rw [List.flatMap_cons, List.length_append, ih, digest.length_eq, List.length_cons]
    omega

theorem readDigests_flatMap (enough : digests.length * 32 ≤ (digests.flatMap Digest.bytes).length) :
    readDigests digests.length (digests.flatMap Digest.bytes) enough = digests := by
  induction digests with
  | nil => rfl
  | cons digest digests ih =>
    have front : (digest.bytes ++ digests.flatMap Digest.bytes).take 32 = digest.bytes :=
      List.take_left' digest.length_eq
    have back : (digest.bytes ++ digests.flatMap Digest.bytes).drop 32 =
        digests.flatMap Digest.bytes := List.drop_left' digest.length_eq
    simp only [List.length_cons, List.flatMap_cons, readDigests, front, back]
    rw [ih]

/-! ## Both directions -/

theorem partCountFor_eq_ok :
    partCountFor total chunk = .ok count ↔
      0 < chunk ∧ Blocks.count chunk total ≤ maxPartCount ∧ Blocks.count chunk total = count := by
  unfold partCountFor
  split_ifs with zero large
  · simp [zero]
  · simp only [false_iff]
    omega
  · simp only [Except.ok.injEq]
    omega

theorem flatMap_readDigests {bytes : List UInt8} (enough : count * 32 ≤ bytes.length)
    (sized : bytes.length = count * 32) :
    (readDigests count bytes enough).flatMap Digest.bytes = bytes := by
  induction count generalizing bytes with
  | zero =>
    obtain rfl := List.eq_nil_of_length_eq_zero (sized.trans (Nat.zero_mul 32))
    rfl
  | succ count ih =>
    have rest : (bytes.drop 32).length = count * 32 := by rw [List.length_drop]; omega
    rw [readDigests, List.flatMap_cons, ih rest.ge rest]
    exact List.take_append_drop 32 bytes

theorem decodeBody_eq_some {partCount : Nat} {body bits : List UInt8} :
    decodeBody partCount body = some (bits, digests) ↔
      bits.length = Bitmap.width partCount ∧ digests.length = partCount ∧
        body = bits ++ digests.flatMap Digest.bytes := by
  unfold decodeBody
  constructor
  · intro decoded
    split_ifs at decoded with sized
    cases decoded
    have rest : (body.drop (Bitmap.width partCount)).length = partCount * 32 := by
      rw [List.length_drop]
      omega
    refine ⟨by rw [List.length_take]; omega, length_readDigests _, ?_⟩
    rw [flatMap_readDigests rest.ge rest, List.take_append_drop]
  · rintro ⟨width, rfl, rfl⟩
    have sized : (bits ++ digests.flatMap Digest.bytes).length =
        Bitmap.width digests.length + digests.length * 32 := by
      rw [List.length_append, width, length_flatMap_bytes]
    have back : (bits ++ digests.flatMap Digest.bytes).drop (Bitmap.width digests.length) =
        digests.flatMap Digest.bytes := List.drop_left' width
    rw [dif_pos sized, List.take_left' width]
    simp only [back, readDigests_flatMap]

theorem decode_eq_some {bits : List UInt8} :
    decode raw total chunk maxParts identity = some (bits, digests) ↔
      ∃ (layout : Layout) (s : Snapshot layout.partCount),
        (layout.total = total ∧ layout.chunk = chunk ∧ layout.identity = identity) ∧
        (s.bits = bits ∧ s.digests = digests) ∧ raw = encodeSnapshot layout s := by
  simp only [decode, Option.bind_eq_bind, Option.bind_eq_some_iff, Prod.exists,
    readNumber_eq_some, readBytes_eq_some, readExact_eq_some, decodeBody_eq_some]
  constructor
  · rintro ⟨_, ⟨-, rfl⟩, _, ⟨-, rfl⟩, _, ⟨total_lt, rfl⟩, _, ⟨chunk_lt, rfl⟩, field, _,
      ⟨rfl, sized⟩, _, ⟨identity_lt, rfl⟩, _, rfl, count, counted, width, rfl, rfl⟩
    have counted : partCountFor total chunk = .ok digests.length := by
      cases outcome : partCountFor total chunk with
      | error kind => rw [outcome] at counted; cases counted
      | ok n => rw [outcome] at counted; cases counted; rfl
    obtain ⟨positive, fits, same⟩ := partCountFor_eq_ok.mp counted
    obtain ⟨field_lt, field_eq⟩ := toLE_fromLE field
    rw [sized] at field_lt field_eq
    let layout : Layout := {
      total := total
      chunk := chunk
      maxParts := fromLE field
      identity := identity
      total_le := by unfold u64Max Word.maxVal; omega
      chunk_le := by unfold u64Max Word.maxVal; omega
      chunk_pos := positive
      maxParts_le := by unfold Word.maxVal; omega
      identity_le := by unfold Word.maxVal; omega
      partCount_le := fits }
    refine ⟨layout, ⟨bits, digests, ?_, same.symm⟩, ⟨rfl, rfl, rfl⟩, ⟨rfl, rfl⟩, ?_⟩
    · exact width.trans (congrArg Bitmap.width same.symm)
    · simp only [encodeSnapshot, layout, field_eq]
  · rintro ⟨layout, s, ⟨rfl, rfl, rfl⟩, ⟨rfl, rfl⟩, rfl⟩
    have total_le := layout.total_le
    have chunk_le := layout.chunk_le
    have identity_le := layout.identity_le
    unfold u64Max Word.maxVal at total_le chunk_le
    unfold Word.maxVal at identity_le
    refine ⟨_, ⟨by decide, rfl⟩, _, ⟨by decide, rfl⟩, _, ⟨by omega, rfl⟩, _, ⟨by omega, rfl⟩, _, _,
      ⟨rfl, length_toLE 4 _⟩, _, ⟨by omega, rfl⟩, _, rfl, layout.partCount, ?_, s.bits_length,
      s.digests_length, rfl⟩
    have counted : partCountFor layout.total layout.chunk = .ok layout.partCount :=
      partCountFor_eq_ok.mpr ⟨layout.chunk_pos, layout.partCount_le, rfl⟩
    rw [counted]
    rfl

theorem freshLayout_eq_ok {total_le : total ≤ u64Max} {chunk_le : chunk ≤ u64Max}
    (accepted : freshLayout total chunk maxParts identity total_le chunk_le = .ok layout) :
    layout.total = total ∧ layout.chunk = chunk ∧ layout.maxParts = maxParts ∧
      layout.identity = identity := by
  unfold freshLayout at accepted
  split_ifs at accepted
  cases accepted
  exact ⟨rfl, rfl, rfl, rfl⟩

theorem expectedV2EncodedLen_eq (layout : Layout) :
    expectedV2EncodedLen layout.total layout.chunk layout.identity =
      .ok (sidecarHeaderLen + layout.identity.length + Bitmap.width layout.partCount +
        layout.partCount * 32) := by
  have counted : partCountFor layout.total layout.chunk = .ok layout.partCount :=
    partCountFor_eq_ok.mpr ⟨layout.chunk_pos, layout.partCount_le, rfl⟩
  have short : ¬ Word.maxVal 16 < layout.identity.length := Nat.not_lt.mpr layout.identity_le
  simp only [expectedV2EncodedLen, counted, if_neg short]
  rfl

theorem length_encodeSnapshot (s : Snapshot layout.partCount) :
    (encodeSnapshot layout s).length =
      sidecarHeaderLen + layout.identity.length + Bitmap.width layout.partCount +
        layout.partCount * 32 := by
  simp only [encodeSnapshot, List.length_append, length_toLE, s.bits_length, length_flatMap_bytes,
    s.digests_length, sidecarHeaderLen]
  omega

theorem encodeSnapshot_append_inj {other : Layout} {s : Snapshot layout.partCount}
    {t : Snapshot other.partCount} {more more' : List UInt8}
    (same : encodeSnapshot layout s ++ more = encodeSnapshot other t ++ more') :
    (layout.total = other.total ∧ layout.chunk = other.chunk ∧
      layout.identity = other.identity) ∧ more = more' := by
  have width {n bits : Nat} (le : n ≤ Word.maxVal (8 * bits)) : n < 256 ^ bits := by
    have power : 256 ^ bits = 2 ^ (8 * bits) := by rw [Nat.pow_mul]
    have positive := Nat.two_pow_pos (8 * bits)
    unfold Word.maxVal at le
    omega
  simp only [encodeSnapshot, List.append_assoc] at same
  obtain ⟨-, same⟩ := toLE_append_inj (by decide) (by decide) same
  obtain ⟨-, same⟩ := toLE_append_inj (by decide) (by decide) same
  obtain ⟨total, same⟩ := toLE_append_inj (width layout.total_le) (width other.total_le) same
  obtain ⟨chunk, same⟩ := toLE_append_inj (width layout.chunk_le) (width other.chunk_le) same
  obtain ⟨-, same⟩ :=
    toLE_append_inj (width layout.maxParts_le) (width other.maxParts_le) same
  obtain ⟨idLen, same⟩ :=
    toLE_append_inj (width layout.identity_le) (width other.identity_le) same
  obtain ⟨identity, same⟩ := List.append_inj same idLen
  refine ⟨⟨total, chunk, identity⟩, ?_⟩
  have parts : layout.partCount = other.partCount := by
    rw [Layout.partCount, Layout.partCount, total, chunk]
  rw [← List.append_assoc, ← List.append_assoc] at same
  exact (List.append_inj same (by
    simp only [List.length_append, length_flatMap_bytes, s.bits_length, t.bits_length,
      s.digests_length, t.digests_length, parts])).2

theorem decode_params_unique {total' chunk' maxParts' : Nat} {identity' : List UInt8}
    (first : (decode raw total chunk maxParts identity).isSome)
    (second : (decode raw total' chunk' maxParts' identity').isSome) :
    total = total' ∧ chunk = chunk' ∧ identity = identity' := by
  obtain ⟨⟨bits, digests⟩, first⟩ := Option.isSome_iff_exists.mp first
  obtain ⟨⟨bits', digests'⟩, second⟩ := Option.isSome_iff_exists.mp second
  obtain ⟨layout, s, ⟨rfl, rfl, rfl⟩, -, rfl⟩ := decode_eq_some.mp first
  obtain ⟨other, t, ⟨rfl, rfl, rfl⟩, -, same⟩ := decode_eq_some.mp second
  exact (encodeSnapshot_append_inj (congrArg (· ++ []) same)).1

theorem decode_eq_none_of_cut {s : Snapshot layout.partCount} {more : List UInt8}
    (extra : more ≠ [])
    (cut : raw ++ more = encodeSnapshot layout s ∨ raw = encodeSnapshot layout s ++ more)
    (total chunk maxParts : Nat) (identity : List UInt8) :
    decode raw total chunk maxParts identity = none := by
  by_contra accepted
  obtain ⟨⟨bits, digests⟩, accepted⟩ := Option.ne_none_iff_exists'.mp accepted
  obtain ⟨other, t, -, -, rfl⟩ := decode_eq_some.mp accepted
  obtain short | long := cut
  · exact extra (encodeSnapshot_append_inj (short.trans (List.append_nil _).symm)).2
  · exact extra (encodeSnapshot_append_inj ((List.append_nil _).trans long)).2.symm

/-- What is encoded reads back, only encodings read back, and each of them for one set
of parameters; a file cut short or with bytes added is no sidecar for any parameters. -/
theorem sidecar_codec :
    (∀ (total chunk maxParts : Nat) (identity : List UInt8) (total_le : total ≤ u64Max)
      (chunk_le : chunk ≤ u64Max) (layout : Layout) (s : Snapshot layout.partCount),
      freshLayout total chunk maxParts identity total_le chunk_le = .ok layout →
      expectedV2EncodedLen total chunk identity = .ok (encodeSnapshot layout s).length ∧
      ∀ anyParts, decode (encodeSnapshot layout s) total chunk anyParts identity =
        some (s.bits, s.digests)) ∧
    (∀ (raw : List UInt8) (total chunk maxParts : Nat) (identity bits : List UInt8)
      (digests : List Digest),
      decode raw total chunk maxParts identity = some (bits, digests) →
      ∃ (layout : Layout) (s : Snapshot layout.partCount),
        (layout.total = total ∧ layout.chunk = chunk ∧ layout.identity = identity) ∧
        (s.bits = bits ∧ s.digests = digests) ∧ raw = encodeSnapshot layout s) ∧
    (∀ (raw : List UInt8) (total chunk maxParts total' chunk' maxParts' : Nat)
      (identity identity' : List UInt8),
      (decode raw total chunk maxParts identity).isSome →
      (decode raw total' chunk' maxParts' identity').isSome →
      total = total' ∧ chunk = chunk' ∧ identity = identity') ∧
    (∀ (layout : Layout) (s : Snapshot layout.partCount) (raw more : List UInt8)
      (total chunk maxParts : Nat) (identity : List UInt8), more ≠ [] →
      raw ++ more = encodeSnapshot layout s ∨ raw = encodeSnapshot layout s ++ more →
      decode raw total chunk maxParts identity = none) := by
  refine ⟨?_, ?_, ?_, ?_⟩
  · intro total chunk maxParts identity total_le chunk_le layout s accepted
    obtain ⟨rfl, rfl, -, rfl⟩ := freshLayout_eq_ok accepted
    refine ⟨?_, fun anyParts => ?_⟩
    · rw [expectedV2EncodedLen_eq, length_encodeSnapshot]
    · exact decode_eq_some.mpr ⟨layout, s, ⟨rfl, rfl, rfl⟩, ⟨rfl, rfl⟩, rfl⟩
  · intro raw total chunk maxParts identity bits digests decoded
    exact decode_eq_some.mp decoded
  · intro raw total chunk maxParts total' chunk' maxParts' identity identity' first second
    exact decode_params_unique first second
  · intro layout s raw more total chunk maxParts identity extra cut
    exact decode_eq_none_of_cut extra cut total chunk maxParts identity

/-- A file of five bytes in parts of two. -/
theorem sidecar_codec_sample :
    ∃ layout : Layout,
      freshLayout 5 2 3 [0x61] (by decide) (by decide) = .ok layout ∧
      decode (encodeSnapshot layout (.empty layout.partCount)) 5 2 9 [0x61] =
        some (Bitmap.zeros layout.partCount, List.replicate layout.partCount Digest.zero) :=
  let layout : Layout := ⟨5, 2, 3, [0x61], by decide, by decide, by decide, by decide, by decide,
    by decide⟩
  have accepted : freshLayout 5 2 3 [0x61] (by decide) (by decide) = .ok layout := rfl
  ⟨layout, accepted, (sidecar_codec.1 5 2 3 [0x61] _ _ layout (.empty _) accepted).2 9⟩

end RustyCat.Download
