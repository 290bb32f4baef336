import RustyCat.Download.Bookkeeping

/-!
# Loading a sidecar

`load_or_create` and `load_or_create_serial`: a part counts as done only after its bytes
in the target were hashed and the hash was compared with the digest in the sidecar.  The
cleanup of stale checkpoint files has no influence on the result and is left out.
-/

namespace RustyCat.Download

open UploadFile (IoErrorKind)

/-- A regular sidecar file; the length may be reported before the last write to it. -/
structure SidecarFile where
  reportedLen : Nat
  content : List UInt8

/-- What the file system answers while a sidecar is loaded. -/
structure LoadView where
  /-- The target file, or why it has no metadata. -/
  target : Except IoErrorKind (List UInt8)
  /-- `sidecar_namespace_is_owned` -/
  namespaceOwned : Except IoErrorKind Bool
  sidecar : Except IoErrorKind (Option SidecarFile)
  /-- Opening or reading the target fails while this part is hashed. -/
  readFault : Nat → Option IoErrorKind

namespace LoadView

variable (view : LoadView)

def targetLen : Except IoErrorKind Nat :=
  match view.target with
  | .ok content => .ok content.length
  | .error .notFound => .ok 0
  | .error e => .error e

/-- `read_sidecar_bounded`, which reads one byte more than it expects. -/
def readSidecarBounded (expectedLen : Nat) : Except IoErrorKind (Option (List UInt8)) :=
  match view.sidecar with
  | .error e => .error e
  | .ok none => .ok none
  | .ok (some file) =>
    if file.reportedLen ≠ expectedLen then .ok none
    else if (file.content.take (expectedLen + 1)).length ≠ expectedLen then .ok none
    else .ok (some (file.content.take (expectedLen + 1)))

/-- `digest_open_file_range` for one part, with the open before it. -/
def digestPart (sha : List UInt8 → Digest) (layout : Layout) (index : Nat) :
    Except IoErrorKind Digest :=
  match view.readFault index, view.target with
  | some e, _ => .error e
  | none, .error e => .error e
  | none, .ok content =>
    if layout.partEnd index ≤ content.length then
      .ok (sha (Blocks.slice content (layout.partStart index) (layout.partEnd index)))
    else .error .unexpectedEof

/-- The body of the loop of `verify_completed_parts_through`. -/
def verifyPart (sha : List UInt8 → Digest) (layout : Layout) (through : Nat)
    (s : Snapshot layout.partCount) (index : Nat) :
    Except IoErrorKind (Snapshot layout.partCount) :=
  if layout.partEnd index > through then .ok (s.clearPart index)
  else if s.isSet index then
    match view.digestPart sha layout index with
    | .error e => .error e
    | .ok actual =>
      if s.digests[index]? ≠ some actual then .ok (s.clearPart index) else .ok s
  else .ok s

def verifyCompletedPartsThrough (sha : List UInt8 → Digest) (layout : Layout) (through : Nat)
    (s : Snapshot layout.partCount) : Except IoErrorKind (Snapshot layout.partCount) :=
  (List.range layout.partCount).foldlM (view.verifyPart sha layout through) s

end LoadView

/-- The decoded tables as a snapshot of the layout; `decode` answers no other lengths. -/
def snapshotOf (layout : Layout) : List UInt8 × List Digest → Option (Snapshot layout.partCount)
  | (bits, digests) =>
    if sized : bits.length = Bitmap.width layout.partCount ∧ digests.length = layout.partCount then
      some ⟨bits, digests, sized.1, sized.2⟩
    else none

/-- The common course of the two loaders: `usable` tells which target lengths have a
sidecar looked at, `through` up to where its parts are verified. -/
def loadSidecar (usable : Nat → Nat → Bool) (through : Nat → Nat → Nat)
    (sha : List UInt8 → Digest) (view : LoadView) (layout : Layout) :
    Except IoErrorKind DownloadProgress := do
  let fresh := DownloadProgress.fresh layout
  let targetLen ← view.targetLen
  if usable targetLen layout.total then
    let owned ← view.namespaceOwned
    if owned then
      let expectedLen ← expectedV2EncodedLen layout.total layout.chunk layout.identity
      let raw ← view.readSidecarBounded expectedLen
      match raw.bind fun raw =>
          (decode raw layout.total layout.chunk layout.maxParts layout.identity).bind
            (snapshotOf layout) with
      | some s =>
        let verified ←
          view.verifyCompletedPartsThrough sha layout (through targetLen layout.total) s
        return { fresh with snapshot := verified }
      | none => return fresh
    else return fresh
  else return fresh

/-- `load_or_create` for parameters that `fresh` accepts. -/
def loadOrCreate : (List UInt8 → Digest) → LoadView → Layout → Except IoErrorKind DownloadProgress :=
  loadSidecar (fun targetLen total => targetLen = total) (fun _ total => total)

/-- `load_or_create_serial` for parameters that `fresh` accepts. -/
def loadOrCreateSerial :
    (List UInt8 → Digest) → LoadView → Layout → Except IoErrorKind DownloadProgress :=
  loadSidecar (fun targetLen total => targetLen ≤ total) (fun targetLen _ => targetLen)

/-! ## Verification -/

section Verify

variable {view : LoadView} {sha : List UInt8 → Digest} {layout : Layout} {through : Nat}
  {s s' : Snapshot layout.partCount} {index : Nat} {digest : Digest}

theorem view_verifyPart (verified : view.verifyPart sha layout through s index = .ok s')
    (other : Nat) :
    s'.view other = some digest ↔ s.view other = some digest ∧
      (other = index → layout.partEnd index ≤ through ∧
        view.digestPart sha layout index = .ok digest) := by
  unfold LoadView.verifyPart at verified
  by_cases far : layout.partEnd index > through
  · rw [if_pos far] at verified
    cases verified
    rw [Snapshot.view_clearPart]
    by_cases here : index = other
    · subst here
      rw [if_pos rfl]
      constructor
      · exact nofun
      · rintro ⟨-, near⟩
        exact absurd (near rfl).1 (Nat.not_le.mpr far)
    · simp [here, Ne.symm here]
  · rw [if_neg far] at verified
    by_cases isSet : s.isSet index = true
    · rw [if_pos isSet] at verified
      split at verified
      · cases verified
      rename_i actual hashed
      split_ifs at verified with mismatch
      · cases verified
        rw [Snapshot.view_clearPart]
        by_cases here : index = other
        · subst here
          rw [if_pos rfl]
          constructor
          · exact nofun
          · rintro ⟨stored, same⟩
            obtain ⟨-, same⟩ := same rfl
            rw [hashed] at same
            cases same
            simp only [Snapshot.view, isSet, if_true] at stored
            exact absurd stored mismatch
        · simp [here, Ne.symm here]
      · cases verified
        rw [ne_eq, not_not] at mismatch
        constructor
        · intro stored
          refine ⟨stored, ?_⟩
          rintro rfl
          simp only [Snapshot.view, isSet, if_true] at stored
          rw [mismatch, Option.some.injEq] at stored
          exact ⟨by omega, stored ▸ hashed⟩
        · exact And.left
    · rw [if_neg isSet] at verified
      cases verified
      constructor
      · intro stored
        refine ⟨stored, ?_⟩
        rintro rfl
        simp [Snapshot.view, isSet] at stored
      · exact And.left

theorem view_foldlM_verifyPart {count : Nat}
    (verified : (List.range count).foldlM (view.verifyPart sha layout through) s = .ok s')
    (other : Nat) :
    s'.view other = some digest ↔ s.view other = some digest ∧
      (other < count → layout.partEnd other ≤ through ∧
        view.digestPart sha layout other = .ok digest) := by
  induction count generalizing s' with
  | zero =>
    cases verified
    simp
  | succ count ih =>
    rw [List.range_succ, List.foldlM_append] at verified
    obtain ⟨middle, before, last⟩ := Result.bind_eq_ok.mp verified
    simp only [List.foldlM_cons, List.foldlM_nil, bind_pure] at last
    rw [view_verifyPart last, ih before]
    constructor
    · rintro ⟨⟨stored, earlier⟩, here⟩
      refine ⟨stored, fun less => ?_⟩
      obtain less | rfl := Nat.lt_succ_iff_lt_or_eq.mp less
      · exact earlier less
      · exact here rfl
    · rintro ⟨stored, checked⟩
      exact ⟨⟨stored, fun less => checked (Nat.lt_succ_of_lt less)⟩,
        fun same => same ▸ checked (same ▸ Nat.lt_succ_self _)⟩

theorem view_verifyCompletedPartsThrough
    (verified : view.verifyCompletedPartsThrough sha layout through s = .ok s') :
    s'.view index = some digest ↔ s.view index = some digest ∧
      layout.partEnd index ≤ through ∧ view.digestPart sha layout index = .ok digest := by
  rw [view_foldlM_verifyPart verified]
  constructor
  · rintro ⟨stored, checked⟩
    exact ⟨stored, checked (Snapshot.lt_of_view stored)⟩
  · rintro ⟨stored, checked⟩
    exact ⟨stored, fun _ => checked⟩

end Verify

/-! ## What a loader answers -/

section Load

variable {usable : Nat → Nat → Bool} {through : Nat → Nat → Nat} {view : LoadView}
  {sha : List UInt8 → Digest} {layout : Layout} {p : DownloadProgress}

theorem readSidecarBounded_eq_some {expectedLen : Nat} {raw : List UInt8} :
    view.readSidecarBounded expectedLen = .ok (some raw) ↔
      raw.length = expectedLen ∧ view.sidecar = .ok (some ⟨expectedLen, raw⟩) := by
  have cut (content : List UInt8) : (content.take (expectedLen + 1)).length = expectedLen ↔
      content.length = expectedLen := by
    rw [List.length_take]
    omega
  unfold LoadView.readSidecarBounded
  constructor
  · intro read
    split at read
    · cases read
    · cases read
    · rename_i file found
      split_ifs at read with reported sized
      · cases read
      · cases read
      cases read
      rw [not_not] at reported sized
      have whole : file.content.take (expectedLen + 1) = file.content :=
        List.take_of_length_le (by have := (cut _).mp sized; omega)
      refine ⟨sized, found.trans ?_⟩
      rw [whole, ← reported]
  · rintro ⟨sized, found⟩
    simp only [found]
    rw [if_neg (not_not.mpr rfl), if_neg (not_not.mpr ((cut raw).mpr sized)),
      List.take_of_length_le (by omega)]

variable {s : Snapshot layout.partCount} {content : List UInt8}

theorem snapshotOf_eq_some {tables : List UInt8 × List Digest} :
    snapshotOf layout tables = some s ↔ tables = (s.bits, s.digests) := by
  obtain ⟨bits, digests⟩ := tables
  unfold snapshotOf
  constructor
  · intro found
    simp only at found
    split_ifs at found
    cases found
    rfl
  · rintro ⟨⟩
    exact dif_pos ⟨s.bits_length, s.digests_length⟩

/-- The sidecar that is found names this download and holds the snapshot. -/
def Found (view : LoadView) (layout : Layout) (s : Snapshot layout.partCount) : Prop :=
  ∃ raw, view.sidecar = .ok (some ⟨raw.length, raw⟩) ∧
    decode raw layout.total layout.chunk layout.maxParts layout.identity =
      some (s.bits, s.digests)

/-- A loader answers the fresh progress, or the verified parts of the sidecar. -/
theorem loadSidecar_eq_ok (loaded : loadSidecar usable through sha view layout = .ok p) :
    p = .fresh layout ∨ ∃ (targetLen : Nat) (s verified : Snapshot layout.partCount),
      view.targetLen = .ok targetLen ∧ usable targetLen layout.total = true ∧
      Found view layout s ∧
      view.verifyCompletedPartsThrough sha layout (through targetLen layout.total) s =
        .ok verified ∧ p = { DownloadProgress.fresh layout with snapshot := verified } := by
  obtain ⟨targetLen, measured, loaded⟩ := Result.bind_eq_ok.mp loaded
  split_ifs at loaded with useful
  · obtain ⟨owned, checked, loaded⟩ := Result.bind_eq_ok.mp loaded
    split_ifs at loaded
    · obtain ⟨expectedLen, -, loaded⟩ := Result.bind_eq_ok.mp loaded
      obtain ⟨raw, read, loaded⟩ := Result.bind_eq_ok.mp loaded
      split at loaded
      · rename_i s decoded
        obtain ⟨raw, rfl, packed⟩ := Option.bind_eq_some_iff.mp decoded
        obtain ⟨tables, unpacked, same⟩ := Option.bind_eq_some_iff.mp packed
        obtain rfl := snapshotOf_eq_some.mp same
        obtain ⟨sized, found⟩ := readSidecarBounded_eq_some.mp read
        obtain ⟨verified, checked, same⟩ := Result.bind_eq_ok.mp loaded
        refine .inr ⟨targetLen, s, verified, measured, useful, ⟨raw, ?_, unpacked⟩, checked,
          (Result.pure_eq_ok.mp same).symm⟩
        rw [found, sized]
      · exact .inl (Result.pure_eq_ok.mp loaded).symm
    · exact .inl (Result.pure_eq_ok.mp loaded).symm
  · exact .inl (Result.pure_eq_ok.mp loaded).symm

theorem loadSidecar_of_found {targetLen : Nat} {verified : Snapshot layout.partCount}
    (measured : view.targetLen = .ok targetLen) (useful : usable targetLen layout.total = true)
    (owned : view.namespaceOwned = .ok true) (found : Found view layout s)
    (checked : view.verifyCompletedPartsThrough sha layout (through targetLen layout.total) s =
      .ok verified) :
    loadSidecar usable through sha view layout =
      .ok { DownloadProgress.fresh layout with snapshot := verified } := by
  obtain ⟨raw, found, decoded⟩ := found
  obtain ⟨other, t, ⟨total, chunk, identity⟩, -, rfl⟩ := decode_eq_some.mp decoded
  have expected : expectedV2EncodedLen layout.total layout.chunk layout.identity =
      .ok (encodeSnapshot other t).length := by
    rw [← total, ← chunk, ← identity, expectedV2EncodedLen_eq, length_encodeSnapshot]
  have read := readSidecarBounded_eq_some.mpr ⟨rfl, found⟩
  have same : snapshotOf layout (s.bits, s.digests) = some s := snapshotOf_eq_some.mpr rfl
  simp only [loadSidecar, measured, useful, owned, expected, read, decoded, same, checked,
    Option.bind_some, if_true, bind, Except.bind]
  rfl

/-- A part that counts as done was set in a sidecar of this download, and its bytes in the
target have the digest that stands there. -/
structure Backed (sha : List UInt8 → Digest) (view : LoadView) (layout : Layout) (index : Nat)
    (content : List UInt8) (digest : Digest) : Prop where
  target : view.target = .ok content
  found : ∃ s, Found view layout s ∧ s.view index = some digest
  inside : layout.partEnd index ≤ content.length
  same : sha (Blocks.slice content (layout.partStart index) (layout.partEnd index)) = digest

theorem digestPart_eq_ok {index : Nat} {digest : Digest}
    (hashed : view.digestPart sha layout index = .ok digest) :
    ∃ content, view.target = .ok content ∧ layout.partEnd index ≤ content.length ∧
      sha (Blocks.slice content (layout.partStart index) (layout.partEnd index)) = digest := by
  unfold LoadView.digestPart at hashed
  split at hashed
  · cases hashed
  · cases hashed
  · rename_i content _ target
    split_ifs at hashed with inside
    cases hashed
    exact ⟨content, target, inside, rfl⟩

section

variable (loaded : loadSidecar usable through sha view layout = .ok p)
include loaded

theorem layout_of_loadSidecar :
    p.layout = layout := by
  obtain rfl | ⟨_, _, _, -, -, -, -, rfl⟩ := loadSidecar_eq_ok loaded
  · rfl
  · rfl

theorem backed_of_loadSidecar {index : Nat} (inside : index < layout.partCount)
    (done : p.snapshot.isSet index = true) :
    ∃ content digest, Backed sha view layout index content digest := by
  obtain rfl | ⟨targetLen, s, verified, -, -, found, checked, rfl⟩ := loadSidecar_eq_ok loaded
  · simp [DownloadProgress.fresh] at done
  · have seen : (verified.view index).isSome = true := (Snapshot.isSome_view inside).trans done
    obtain ⟨digest, seen⟩ := Option.isSome_iff_exists.mp seen
    obtain ⟨stored, -, hashed⟩ := (view_verifyCompletedPartsThrough checked).mp seen
    obtain ⟨content, target, whole, same⟩ := digestPart_eq_ok hashed
    exact ⟨content, digest, target, ⟨s, found, stored⟩, whole, same⟩

theorem backed_of_isDone {offset : Nat} (done : p.isDone offset = true) :
    ∃ index content digest, layout.indexOf offset = some index ∧
      Backed sha view layout index content digest := by
  have same := layout_of_loadSidecar loaded
  unfold DownloadProgress.isDone at done
  split at done
  · rename_i index found
    rw [same] at found
    obtain ⟨content, digest, backed⟩ :=
      backed_of_loadSidecar loaded (Layout.indexOf_eq_some.mp found).1 done
    exact ⟨index, content, digest, found, backed⟩
  · cases done

theorem watermark_le_of_loadSidecar {targetLen : Nat} (measured : view.targetLen = .ok targetLen) :
    p.contiguousWatermark ≤ targetLen := by
  have same := layout_of_loadSidecar loaded
  obtain ⟨n, front, watermark⟩ := p.contiguousWatermark_eq
  rw [watermark]
  cases n with
  | zero => simp [Layout.frontEnd]
  | succ n =>
    have inside : n < layout.partCount := same ▸ front.le
    obtain ⟨content, digest, backed⟩ :=
      backed_of_loadSidecar loaded inside (front.done n (Nat.lt_succ_self n))
    rw [LoadView.targetLen, backed.target] at measured
    cases measured
    rw [Layout.frontEnd_succ, same]
    exact backed.inside

theorem not_isDone_of_not_found (foreign : ∀ s, ¬ Found view layout s)
    (offset : Nat) : p.isDone offset = false := by
  by_contra done
  obtain ⟨index, content, digest, -, backed⟩ :=
    backed_of_isDone loaded (Bool.of_not_eq_false done)
  obtain ⟨s, found, -⟩ := backed.found
  exact foreign s found

end

theorem verifyPart_isOk (sha : List UInt8 → Digest) (target : view.target = .ok content)
    (readable : ∀ index, view.readFault index = none) (s : Snapshot layout.partCount)
    (index : Nat) : ∃ t, view.verifyPart sha layout content.length s index = .ok t := by
  unfold LoadView.verifyPart
  split_ifs with far isSet
  · exact ⟨_, rfl⟩
  · have hashed : view.digestPart sha layout index =
        .ok (sha (Blocks.slice content (layout.partStart index) (layout.partEnd index))) := by
      simp only [LoadView.digestPart, readable, target]
      exact if_pos (by omega)
    rw [hashed]
    dsimp only
    split_ifs
    · exact ⟨_, rfl⟩
    · exact ⟨_, rfl⟩
  · exact ⟨_, rfl⟩

theorem foldlM_verifyPart_isOk (sha : List UInt8 → Digest) (target : view.target = .ok content)
    (readable : ∀ index, view.readFault index = none) (indices : List Nat)
    (s : Snapshot layout.partCount) :
    ∃ t, indices.foldlM (view.verifyPart sha layout content.length) s = .ok t := by
  induction indices generalizing s with
  | nil => exact ⟨s, rfl⟩
  | cons index indices ih =>
    obtain ⟨middle, first⟩ := verifyPart_isOk sha target readable s index
    obtain ⟨t, rest⟩ := ih middle
    exact ⟨t, Result.bind_eq_ok.mpr ⟨middle, first, rest⟩⟩

/-- A sidecar of this download over a target whose done parts are unchanged. -/
structure Intact (sha : List UInt8 → Digest) (view : LoadView) (layout : Layout)
    (content : List UInt8) (s : Snapshot layout.partCount) : Prop where
  target : view.target = .ok content
  owned : view.namespaceOwned = .ok true
  readable : ∀ index, view.readFault index = none
  found : Found view layout s
  unchanged : ∀ index digest, s.view index = some digest →
    layout.partEnd index ≤ content.length →
    sha (Blocks.slice content (layout.partStart index) (layout.partEnd index)) = digest

theorem Intact.reloaded (intact : Intact sha view layout content s)
    (useful : usable content.length layout.total = true)
    (whole : through content.length layout.total = content.length) :
    ∃ p, loadSidecar usable through sha view layout = .ok p ∧
      ∀ index < layout.partCount, s.isSet index = true →
        layout.partEnd index ≤ content.length → p.isDone (layout.partStart index) = true := by
  have measured : view.targetLen = .ok content.length := by
    rw [LoadView.targetLen, intact.target]
  obtain ⟨verified, checked⟩ :=
    foldlM_verifyPart_isOk sha intact.target intact.readable (List.range layout.partCount) s
  refine ⟨_, loadSidecar_of_found measured useful intact.owned intact.found
    (whole.symm ▸ checked), fun index inside isSet ends => ?_⟩
  have stored : (s.view index).isSome = true := (Snapshot.isSome_view inside).trans isSet
  obtain ⟨digest, stored⟩ := Option.isSome_iff_exists.mp stored
  have hashed : view.digestPart sha layout index = .ok digest := by
    simp only [LoadView.digestPart, intact.readable, intact.target]
    rw [if_pos ends, intact.unchanged index digest stored ends]
  have kept : verified.view index = some digest :=
    (view_verifyCompletedPartsThrough checked).mpr ⟨stored, ends, hashed⟩
  have indexed : layout.indexOf (layout.partStart index) = some index :=
    Layout.indexOf_eq_some.mpr ⟨inside, rfl⟩
  have done : verified.isSet index = true := by
    rw [← Snapshot.isSome_view inside, kept]
    rfl
  simp only [DownloadProgress.isDone, DownloadProgress.fresh, indexed, done]

end Load

/-- A loaded part is backed by its bytes and by a sidecar of this very download; a sidecar
that a checkpoint left is loaded again; one that was cut short, extended or made for another
download counts for nothing; and where the stored digest is that of some bytes, they are in
the target unless the two collide. -/
theorem sidecar_load_sound (sha : List UInt8 → Digest) (view : LoadView) (layout : Layout) :
    (∀ p, loadOrCreate sha view layout = .ok p ∨ loadOrCreateSerial sha view layout = .ok p →
      (∀ offset, p.isDone offset = true → ∃ index content digest,
        layout.indexOf offset = some index ∧ Backed sha view layout index content digest) ∧
      (∀ targetLen, view.targetLen = .ok targetLen → p.contiguousWatermark ≤ targetLen) ∧
      (∀ (other : Layout) (s : Snapshot other.partCount) (raw more : List UInt8) (len : Nat),
        view.sidecar = .ok (some ⟨len, raw⟩) →
        (more ≠ [] ∧
          (raw ++ more = encodeSnapshot other s ∨ raw = encodeSnapshot other s ++ more) ∨
        raw = encodeSnapshot other s ∧ (other.total, other.chunk, other.identity) ≠
          (layout.total, layout.chunk, layout.identity)) →
        ∀ offset, p.isDone offset = false) ∧
      (∀ index content digest original, Backed sha view layout index content digest →
        sha original = digest →
        (∀ bytes, sha bytes = sha original → bytes = original) →
        Blocks.slice content (layout.partStart index) (layout.partEnd index) = original)) ∧
    (∀ (other : Layout) (s : Snapshot other.partCount) (content : List UInt8),
      (other.total, other.chunk, other.identity) =
        (layout.total, layout.chunk, layout.identity) →
      view.sidecar = .ok (some ⟨(encodeSnapshot other s).length, encodeSnapshot other s⟩) →
      view.target = .ok content → view.namespaceOwned = .ok true →
      (∀ index, view.readFault index = none) →
      (∀ index digest, s.view index = some digest → other.partEnd index ≤ content.length →
        sha (Blocks.slice content (other.partStart index) (other.partEnd index)) = digest) →
      (content.length = layout.total → ∃ p, loadOrCreate sha view layout = .ok p ∧
        ∀ index < other.partCount, s.isSet index = true →
          other.partEnd index ≤ content.length → p.isDone (other.partStart index) = true) ∧
      (content.length ≤ layout.total → ∃ p, loadOrCreateSerial sha view layout = .ok p ∧
        ∀ index < other.partCount, s.isSet index = true →
          other.partEnd index ≤ content.length → p.isDone (other.partStart index) = true)) := by
  refine ⟨fun p loaded => ?_, ?_⟩
  · obtain ⟨usable, through, loaded⟩ : ∃ usable through,
        loadSidecar usable through sha view layout = .ok p := by
      obtain parallel | serial := loaded
      · exact ⟨_, _, parallel⟩
      · exact ⟨_, _, serial⟩
    refine ⟨fun offset => backed_of_isDone loaded, fun targetLen =>
      watermark_le_of_loadSidecar loaded, ?_, ?_⟩
    · intro other s raw more len sidecar changed
      refine not_isDone_of_not_found loaded ?_
      rintro t ⟨raw', found, decoded⟩
      rw [sidecar] at found
      cases found
      obtain ⟨extra, cut⟩ | ⟨rfl, foreign⟩ := changed
      · rw [decode_eq_none_of_cut extra cut] at decoded
        cases decoded
      · have own : decode (encodeSnapshot other s) other.total other.chunk 0 other.identity =
            some (s.bits, s.digests) :=
          decode_eq_some.mpr ⟨other, s, ⟨rfl, rfl, rfl⟩, ⟨rfl, rfl⟩, rfl⟩
        obtain ⟨total, chunk, identity⟩ := decode_params_unique
          (Option.isSome_of_eq_some own) (Option.isSome_of_eq_some decoded)
        exact foreign (by rw [total, chunk, identity])
    · intro index content digest original backed known unique
      exact unique _ (backed.same.trans known.symm)
  · intro other s content params sidecar target owned readable unchanged
    obtain ⟨total, chunk, maxParts, identity, _, _, _, _, _, _⟩ := other
    simp only [Prod.mk.injEq] at params
    obtain ⟨rfl, rfl, rfl⟩ := params
    have intact : Intact sha view layout content s :=
      ⟨target, owned, readable, ⟨_, sidecar, decode_eq_some.mpr
        ⟨_, s, ⟨rfl, rfl, rfl⟩, ⟨rfl, rfl⟩, rfl⟩⟩, unchanged⟩
    exact ⟨fun whole => intact.reloaded (decide_eq_true whole) whole.symm,
      fun short => intact.reloaded (decide_eq_true short) rfl⟩

/-- A file of three bytes in parts of two, with a sidecar for its first part. -/
theorem sidecar_load_sound_sample :
    ∃ (layout : Layout) (s : Snapshot layout.partCount) (view : LoadView) (p : DownloadProgress),
      view.target = .ok [1, 2] ∧
      view.sidecar = .ok (some ⟨(encodeSnapshot layout s).length, encodeSnapshot layout s⟩) ∧
      loadOrCreateSerial (fun _ => .zero) view layout = .ok p ∧ p.isDone 0 = true := by
  let layout : Layout := ⟨3, 2, 1, [0x61], by decide, by decide, by decide, by decide, by decide,
    by decide⟩
  let s : Snapshot layout.partCount := (Snapshot.empty layout.partCount).mark 0 .zero
  let view : LoadView := {
    target := .ok [1, 2]
    namespaceOwned := .ok true
    sidecar := .ok (some ⟨(encodeSnapshot layout s).length, encodeSnapshot layout s⟩)
    readFault := fun _ => none }
  have unchanged : ∀ index digest, s.view index = some digest →
      layout.partEnd index ≤ [(1 : UInt8), 2].length → Digest.zero = digest := by
    intro index digest stored _
    rw [Snapshot.view_mark (by decide)] at stored
    split_ifs at stored
    · exact Option.some.inj stored
    · simp at stored
  obtain ⟨p, loaded, done⟩ := ((sidecar_load_sound (fun _ => .zero) view layout).2 layout s [1, 2]
    rfl rfl rfl rfl (fun _ => rfl) unchanged).2 (by decide)
  exact ⟨layout, s, view, p, rfl, rfl, loaded, done 0 (by decide) (by decide) (by decide)⟩

end RustyCat.Download
