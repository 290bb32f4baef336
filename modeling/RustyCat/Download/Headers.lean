import RustyCat.Lib.Ascii
import RustyCat.Lib.Result
import RustyCat.Task

/-!
# The headers of a range response

The header checks of `dflt/mod.rs` and the range arithmetic of
`default_http_transfer_chunks.rs`.  A `HeaderMap` is the list of its field lines,
the names in lower case; a value is the bytes of one line.  Texts are lists of
characters.
-/

namespace RustyCat.Download

open Ascii

abbrev Text := List Char

abbrev HeaderValue := List UInt8

abbrev HeaderMap := List (String × HeaderValue)

def HeaderMap.getAll (headers : HeaderMap) (name : String) : List HeaderValue :=
  (headers.filter (·.1 = name)).map (·.2)

def HeaderMap.get (headers : HeaderMap) (name : String) : Option HeaderValue :=
  (HeaderMap.getAll headers name).head?

/-- `HeaderMap::insert` removes every earlier value of the name. -/
def HeaderMap.insert (headers : HeaderMap) (name : String) (value : HeaderValue) : HeaderMap :=
  headers.filter (·.1 ≠ name) ++ [(name, value)]

theorem HeaderMap.getAll_insert (headers : HeaderMap) (name : String) (value : HeaderValue) :
    HeaderMap.getAll (HeaderMap.insert headers name value) name = [value] := by
  simp [HeaderMap.getAll, HeaderMap.insert, List.filter_filter]

theorem HeaderMap.getAll_insert_of_ne {name other : String} (different : name ≠ other)
    (headers : HeaderMap) (value : HeaderValue) :
    HeaderMap.getAll (HeaderMap.insert headers name value) other =
      HeaderMap.getAll headers other := by
  simp only [HeaderMap.getAll, HeaderMap.insert, List.filter_append, List.filter_filter,
    List.map_append]
  have none : ([(name, value)].filter fun line => line.1 = other) = [] := by simp [different]
  rw [none, List.map_nil, List.append_nil]
  congr 1
  refine List.filter_congr fun line _ => ?_
  by_cases same : line.1 = other
  · simp [same, Ne.symm different]
  · simp [same]

/-- `HeaderValue::to_str`: a space up to a tilde, or a tab. -/
def toStr (value : HeaderValue) : Option Text :=
  if value.all fun byte => 32 ≤ byte ∧ byte < 127 ∨ byte = 9 then
    some (value.map fun byte => Char.ofNat byte.toNat)
  else none

def fromStr (text : Text) : Option HeaderValue :=
  let bytes := text.flatMap String.utf8EncodeChar
  if bytes.all fun byte => 32 ≤ byte ∧ byte ≠ 127 ∨ byte = 9 then some bytes else none

def Visible (c : Char) : Prop := 32 ≤ c.toNat ∧ c.toNat < 127 ∨ c.toNat = 9

instance : DecidablePred Visible := fun c =>
  inferInstanceAs (Decidable (32 ≤ c.toNat ∧ c.toNat < 127 ∨ c.toNat = 9))

theorem fromStr_of_visible {text : Text} (visible : ∀ c ∈ text, Visible c) :
    fromStr text = some (text.map fun c => UInt8.ofNat c.toNat) := by
  have bytes : text.flatMap String.utf8EncodeChar =
      text.map fun c => UInt8.ofNat c.toNat := by
    rw [List.flatMap_congr (g := fun c => [UInt8.ofNat c.toNat])]
    · exact List.map_eq_flatMap.symm
    · intro c member
      have := visible c member
      rw [String.utf8EncodeChar]
      exact if_pos (by unfold Visible at this; change c.toNat ≤ 127; omega)
  have valid : ((text.map fun c => UInt8.ofNat c.toNat).all
      fun byte => 32 ≤ byte ∧ byte ≠ 127 ∨ byte = 9) = true := by
    rw [List.all_map, List.all_eq_true]
    intro c member
    have := visible c member
    simp only [Function.comp, decide_eq_true_eq, UInt8.le_iff_toNat_le, ne_eq, ← UInt8.toNat_inj,
      UInt8.toNat_ofNat', UInt8.reduceToNat]
    unfold Visible at this
    omega
  simp only [fromStr, bytes, valid, if_true]

theorem visible_of_toStr {value : HeaderValue} {text : Text} (read : toStr value = some text) :
    (∀ c ∈ text, Visible c) ∧ text.map (fun c => UInt8.ofNat c.toNat) = value := by
  unfold toStr at read
  split_ifs at read with printable
  cases read
  rw [List.all_eq_true] at printable
  have char (byte : UInt8) : (Char.ofNat byte.toNat).toNat = byte.toNat := by
    have := byte.toNat_lt
    rw [Char.ofNat, dif_pos (.inl (by omega))]
    rfl
  constructor
  · intro c member
    obtain ⟨byte, here, rfl⟩ := List.mem_map.mp member
    have := printable byte here
    simp only [decide_eq_true_eq, UInt8.le_iff_toNat_le, UInt8.lt_iff_toNat_lt, ← UInt8.toNat_inj,
      UInt8.reduceToNat] at this
    rw [Visible, char]
    exact this
  · simp [Function.comp_def, char]

def trimText : Text → Text := trim isWhitespace

/-- `eq_ignore_ascii_case` with a text in lower case. -/
def eqIgnoreCase (text : Text) (lower : String) : Bool :=
  text.map Char.toLower = lower.toList

def parseU64 : Text → Option Nat := parseUnsigned u64Max

/-! ## Single-valued headers -/

def requireSingleHeader (headers : HeaderMap) (name context : String) :
    Except MeowError (Option Text) :=
  match HeaderMap.getAll headers name with
  | [] => .ok none
  | [value] =>
    match toStr value with
    | some text => .ok (some text)
    | none => .error (.fromCode .invalidRange s!"{context} contains an invalid {name} header")
  | _ :: _ :: _ =>
    .error (.fromCode .invalidRange s!"{context} contains multiple {name} headers")

/-- The header is absent, or it has one line with this text. -/
def Sole (headers : HeaderMap) (name : String) : Option Text → Prop
  | none => HeaderMap.getAll headers name = []
  | some text => ∃ value, HeaderMap.getAll headers name = [value] ∧ toStr value = some text

variable {context : String} {headers : HeaderMap}

theorem requireSingleHeader_eq_ok {name : String} {found : Option Text} :
    requireSingleHeader headers name context = .ok found ↔ Sole headers name found := by
  unfold requireSingleHeader
  split
  · rename_i absent
    cases found <;> simp [Sole, absent]
  · rename_i value only
    cases found with
    | none => cases text : toStr value <;> simp [Sole, only]
    | some expected => cases text : toStr value <;> simp [Sole, only, text]
  · rename_i first second rest several
    cases found <;> simp [Sole, several]

def ensureResponseIdentityEncoding (headers : HeaderMap) (context : String) :
    Except MeowError Unit := do
  match ← requireSingleHeader headers "content-encoding" context with
  | none => .ok ()
  | some value =>
    if eqIgnoreCase value "identity" then .ok ()
    else .error (.fromCode .invalidRange
      s!"{context} used content-encoding {String.ofList value}")

/-- No content coding, or the identity alone. -/
def IdentityEncoding (headers : HeaderMap) : Prop :=
  ∃ found, Sole headers "content-encoding" found ∧
    ∀ text ∈ found, eqIgnoreCase text "identity" = true

theorem ensureResponseIdentityEncoding_eq_ok :
    ensureResponseIdentityEncoding headers context = .ok () ↔ IdentityEncoding headers := by
  simp only [ensureResponseIdentityEncoding, Result.bind_eq_ok, requireSingleHeader_eq_ok,
    IdentityEncoding]
  refine exists_congr fun found => and_congr_right fun _ => ?_
  cases found with
  | none => simp
  | some value => simp only [Option.mem_some_iff, forall_eq']; split <;> simp_all

def setAcceptEncodingIdentity (headers : HeaderMap) : HeaderMap :=
  HeaderMap.insert headers "accept-encoding" ("identity".toList.flatMap String.utf8EncodeChar)

def ensureAcceptEncodingIdentity (headers : HeaderMap) (context : String) :
    Except MeowError Unit := do
  match ← requireSingleHeader headers "accept-encoding" context with
  | some value =>
    if eqIgnoreCase value "identity" then .ok ()
    else .error (.fromCode .invalidRange s!"{context} must preserve Accept-Encoding: identity")
  | none => .error (.fromCode .invalidRange s!"{context} removed Accept-Encoding: identity")

/-! ## Entity tags -/

/-- A comma outside the quotes, which open and close at every quote. -/
def commaOutside : Bool → HeaderValue → Bool
  | _, [] => false
  | quoted, byte :: rest =>
    if byte = 34 then commaOutside (!quoted) rest
    else if byte = 44 ∧ quoted = false then true
    else commaOutside quoted rest

def isAsciiWhitespace (byte : UInt8) : Bool :=
  byte = 32 ∨ byte = 9 ∨ byte = 10 ∨ byte = 12 ∨ byte = 13

def stripFront (front : HeaderValue) (bytes : HeaderValue) : Option HeaderValue :=
  if front.isPrefixOf bytes then some (bytes.drop front.length) else none

/-- A quoted opaque tag, perhaps a weak one, whose bytes the grammar of entity tags allows. -/
def isOpaqueTag (value : HeaderValue) : Bool :=
  let bytes := trim isAsciiWhitespace value
  let bytes := (stripFront [87, 47] bytes).getD bytes
  match stripFront [34] bytes with
  | none => false
  | some tag =>
    tag.getLast? = some 34 ∧
      tag.dropLast.all fun byte => byte = 33 ∨ (35 ≤ byte ∧ byte ≤ 126) ∨ 128 ≤ byte

def requireUnambiguousEtag (headers : HeaderMap) (context : String) :
    Except MeowError (Option Text) :=
  match HeaderMap.getAll headers "etag" with
  | [] => .ok none
  | [value] =>
    if commaOutside false value then
      .error (.fromCode .invalidRange
        s!"{context} contains an ambiguous comma-combined ETag header")
    else
      match toStr value with
      | some ascii => .ok (some ascii)
      | none =>
        if isOpaqueTag value then .ok none
        else .error (.fromCode .invalidRange s!"{context} contains an invalid etag header")
  | _ :: _ :: _ => .error (.fromCode .invalidRange s!"{context} contains multiple etag headers")

/-- At most one entity tag, and no two tags combined into one line. -/
structure UnambiguousEtag (headers : HeaderMap) : Prop where
  single : (HeaderMap.getAll headers "etag").length ≤ 1
  separate : ∀ value ∈ HeaderMap.getAll headers "etag", commaOutside false value = false
  readable : ∀ value ∈ HeaderMap.getAll headers "etag",
    (toStr value).isSome = true ∨ isOpaqueTag value = true

theorem requireUnambiguousEtag_eq_ok :
    (∃ found, requireUnambiguousEtag headers context = .ok found) ↔ UnambiguousEtag headers := by
  unfold requireUnambiguousEtag
  split
  · rename_i absent
    exact ⟨fun _ => ⟨by simp [absent], by simp [absent], by simp [absent]⟩, fun _ => ⟨none, rfl⟩⟩
  · rename_i value only
    constructor
    · rintro ⟨found, ok⟩
      rw [Result.guard_eq_ok] at ok
      obtain ⟨separate, ok⟩ := ok
      refine ⟨by simp [only], by simpa [only] using separate, ?_⟩
      intro other member
      obtain rfl : other = value := by simpa [only] using member
      split at ok
      · rename_i ascii visible
        simp [visible]
      · split at ok
        · rename_i tag
          exact .inr tag
        · cases ok
    · rintro ⟨_, separate, readable⟩
      have here : value ∈ HeaderMap.getAll headers "etag" := by simp [only]
      simp only [separate value here, Bool.false_eq_true, if_false]
      cases visible : toStr value with
      | some ascii => exact ⟨some ascii, rfl⟩
      | none =>
        have tag := (readable value here).resolve_left (by simp [visible])
        exact ⟨none, by simp [tag]⟩
  · rename_i first second rest several
    refine ⟨by rintro ⟨_, ⟨⟩⟩, fun tags => ?_⟩
    have := tags.single
    simp [several] at this

/-- `download_generation_validator`: the tag that `If-Match` may repeat. -/
def downloadGenerationValidator (headers : HeaderMap) : Option Text := do
  let found ← (requireUnambiguousEtag headers "download response").toOption.join
  let etag := trimText found
  if eqIgnoreCase (etag.take 2) "w/" then none
  else
    let quoted : Bool := 2 ≤ etag.length ∧ etag.head? = some '"' ∧ etag.getLast? = some '"'
    let azureToken : Bool :=
      (etag.take 2 = "0x".toList ∨ etag.take 2 = "0X".toList) ∧
        8 ≤ (etag.drop 2).length ∧
        (etag.drop 2).all fun c => c.isDigit ∨ c.toLower ∈ "abcdef".toList
    let azureBlobResponse : Bool :=
      ((HeaderMap.get headers "x-ms-blob-type").bind toStr).any
          (fun value => eqIgnoreCase (trimText value) "blockblob") ∧
        (HeaderMap.get headers "x-ms-version").isSome ∧
        (HeaderMap.get headers "x-ms-request-id").isSome
    if quoted ∨ (azureToken ∧ azureBlobResponse) then some etag else none

end RustyCat.Download
