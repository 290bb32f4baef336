import RustyCat.Oss.Listing

/-!
# The spellings of an object key

The two decoders of percent-encoded keys, the lenient one for the URL of a task and the
strict one for listings, agree on every spelling of a key; so a listed upload belongs to
a task if both spell the same key.
-/

namespace RustyCat

open Ascii

/-! ## The loops of the decoders -/

/-- The loop of `decode_object_key`; a read outside the bytes has no result. -/
def objectKeyLoop (bytes : List UInt8) (index : Nat) : Option (List UInt8) := do
  if index < bytes.length then
    let byte ← bytes[index]?
    if byte = 37 ∧ index + 2 < bytes.length then
      let high ← bytes[index + 1]?
      let low ← bytes[index + 2]?
      match hexValue high, hexValue low with
      | some h, some l => return (h <<< 4 ||| l) :: (← objectKeyLoop bytes (index + 3))
      | _, _ => return byte :: (← objectKeyLoop bytes (index + 1))
    else return byte :: (← objectKeyLoop bytes (index + 1))
  else return []
termination_by bytes.length - index

/-- The loop of `decode_url_encoded_text`. -/
def urlEncodedLoop (bytes : List UInt8) (index : Nat) : Option (Except String (List UInt8)) := do
  if index < bytes.length then
    let byte ← bytes[index]?
    if byte = 37 then
      if index + 2 ≥ bytes.length then return .error "truncated URL escape in OSS XML"
      else
        match hexValue (← bytes[index + 1]?) with
        | none => return .error "invalid URL escape in OSS XML"
        | some h =>
          match hexValue (← bytes[index + 2]?) with
          | none => return .error "invalid URL escape in OSS XML"
          | some l => return ((h <<< 4 ||| l) :: ·) <$> (← urlEncodedLoop bytes (index + 3))
    else return (byte :: ·) <$> (← urlEncodedLoop bytes (index + 1))
  else return .ok []
termination_by bytes.length - index

section Loops

variable {bytes rest : List UInt8} {index : Nat}

theorem ahead {byte : UInt8} (unread : bytes.drop index = byte :: rest) :
    index < bytes.length ∧ bytes[index]? = some byte ∧ bytes.drop (index + 1) = rest := by
  have inside : index < bytes.length := by
    by_contra outside
    rw [List.drop_eq_nil_of_le (Nat.le_of_not_lt outside)] at unread
    cases unread
  rw [List.drop_eq_getElem_cons inside, List.cons.injEq] at unread
  exact ⟨inside, List.getElem?_eq_some_iff.mpr ⟨inside, unread.1⟩, unread.2⟩

theorem length_le_of_drop (unread : bytes.drop index = []) : ¬ index < bytes.length := by
  simpa using unread

theorem truncated {byte : UInt8} (unread : bytes.drop index = byte :: rest)
    (short : ∀ high low tail, rest ≠ high :: low :: tail) : ¬ index + 2 < bytes.length := by
  intro inside
  have length := congrArg List.length unread
  rw [List.length_drop, List.length_cons] at length
  match rest with
  | [] => simp at length; omega
  | [a] => simp at length; omega
  | high :: low :: tail => exact short high low tail rfl

theorem objectKeyLoop_eq (unread : bytes.drop index = rest) :
    objectKeyLoop bytes index = some (decodeObjectKeyBytes rest) := by
  fun_induction decodeObjectKeyBytes rest generalizing index with
  | case1 high low rest h l isLow isHigh ih =>
    obtain ⟨inside, read, next⟩ := ahead unread
    obtain ⟨_, read', next⟩ := ahead next
    obtain ⟨inside', read'', next⟩ := ahead next
    rw [objectKeyLoop]
    simp only [inside, inside', read, read', read'', isHigh, isLow, ih next, if_true, and_self,
      Option.bind_eq_bind, Option.bind_some]
    rfl
  | case2 high low rest invalid ih =>
    obtain ⟨inside, read, after⟩ := ahead unread
    obtain ⟨_, read', next⟩ := ahead after
    obtain ⟨inside', read'', _⟩ := ahead next
    rw [objectKeyLoop]
    simp only [inside, inside', read, read', read'', ih after, if_true, and_self,
      Option.bind_eq_bind, Option.bind_some]
    rfl
  | case3 byte rest other ih =>
    obtain ⟨inside, read, after⟩ := ahead unread
    rw [objectKeyLoop]
    have plain : ¬ (byte = 37 ∧ index + 2 < bytes.length) := fun ⟨percent, inside⟩ =>
      truncated unread (fun _ _ _ => other _ _ _ percent) inside
    simp only [inside, read, ih after, plain, if_true, if_false, Option.bind_eq_bind,
      Option.bind_some]
    rfl
  | case4 =>
    rw [objectKeyLoop, if_neg (length_le_of_drop unread)]
    rfl

theorem urlEncodedLoop_eq (unread : bytes.drop index = rest) :
    urlEncodedLoop bytes index = some (decodeUrlEncodedBytes rest) := by
  fun_induction decodeUrlEncodedBytes rest generalizing index with
  | case1 =>
    rw [urlEncodedLoop, if_neg (length_le_of_drop unread)]
    rfl
  | case2 high low rest h l isLow isHigh ih =>
    obtain ⟨inside, read, next⟩ := ahead unread
    obtain ⟨_, read', next⟩ := ahead next
    obtain ⟨inside', read'', next⟩ := ahead next
    rw [urlEncodedLoop]
    simp only [inside, Nat.not_le.mpr inside', read, read', read'', isHigh, isLow, ih next,
      if_true, if_false, Option.bind_eq_bind, Option.bind_some]
    cases decodeUrlEncodedBytes rest <;> rfl
  | case3 high low rest invalid =>
    obtain ⟨inside, read, next⟩ := ahead unread
    obtain ⟨_, read', next⟩ := ahead next
    obtain ⟨inside', read'', _⟩ := ahead next
    rw [urlEncodedLoop]
    simp only [inside, Nat.not_le.mpr inside', read, read', read'', if_true, if_false,
      Option.bind_eq_bind, Option.bind_some]
    cases isHigh : hexValue high with
    | none => rfl
    | some h =>
      cases isLow : hexValue low with
      | none => rfl
      | some l => exact absurd isLow (invalid h l isHigh)
  | case4 rest short =>
    obtain ⟨inside, read, _⟩ := ahead unread
    rw [urlEncodedLoop]
    simp only [inside, read, Nat.le_of_not_lt (truncated unread short), if_true,
      Option.bind_eq_bind, Option.bind_some]
    rfl
  | case5 byte rest _ other ih =>
    obtain ⟨inside, read, after⟩ := ahead unread
    rw [urlEncodedLoop]
    simp only [inside, read, ih after, if_neg other, if_true, Option.bind_eq_bind, Option.bind_some]
    cases decodeUrlEncodedBytes rest <;> rfl

end Loops

/-! ## Spellings -/

/-- The hexadecimal digit of the number, in either case. -/
def HexDigit (n : Nat) (digit : UInt8) : Prop :=
  (utf8Bytes "0123456789abcdef")[n]? = some digit ∨ (utf8Bytes "0123456789ABCDEF")[n]? = some digit

/-- A text in which some bytes of the key, the percent signs among them, are escaped. -/
inductive Spelling : List UInt8 → List UInt8 → Prop
  | nil : Spelling [] []
  | plain {byte : UInt8} {text key : List UInt8} (literal : byte ≠ 37) :
      Spelling text key → Spelling (byte :: text) (byte :: key)
  | escaped {byte high low : UInt8} {text key : List UInt8}
      (isHigh : HexDigit (byte.toNat / 16) high) (isLow : HexDigit (byte.toNat % 16) low) :
      Spelling text key → Spelling (37 :: high :: low :: text) (byte :: key)

def Spells (value key : String) : Prop := Spelling (utf8Bytes value) (utf8Bytes key)

theorem hexValue_of_hexDigit {n : Nat} {digit : UInt8} (small : n < 16) (hex : HexDigit n digit) :
    hexValue digit = some (UInt8.ofNat n) := by
  have digits : ∀ n < 16,
      (utf8Bytes "0123456789abcdef")[n]?.bind hexValue = some (UInt8.ofNat n) ∧
      (utf8Bytes "0123456789ABCDEF")[n]?.bind hexValue = some (UInt8.ofNat n) := by decide
  obtain ⟨lower, upper⟩ := digits n small
  obtain here | here := hex
  · rwa [here] at lower
  · rwa [here] at upper

theorem escaped_byte (byte : UInt8) :
    UInt8.ofNat (byte.toNat / 16) <<< 4 ||| UInt8.ofNat (byte.toNat % 16) = byte := by
  have bytes : ∀ n < 256, UInt8.ofNat (n / 16) <<< 4 ||| UInt8.ofNat (n % 16) = UInt8.ofNat n := by
    decide +kernel
  rw [bytes byte.toNat byte.toNat_lt, UInt8.ofNat_toNat]

variable {text key : List UInt8} {value : String}

theorem decodeUrlEncodedBytes_of_spelling (spelling : Spelling text key) :
    decodeUrlEncodedBytes text = .ok key := by
  induction spelling with
  | nil => rfl
  | plain literal _ ih =>
    rw [decodeUrlEncodedBytes, ih]
    · rfl
    · exact fun _ _ _ percent => absurd percent literal
    · exact literal
  | escaped isHigh isLow _ ih =>
    rename_i byte high low text key _
    have := byte.toNat_lt
    rw [decodeUrlEncodedBytes, hexValue_of_hexDigit (by omega) isHigh,
      hexValue_of_hexDigit (by omega) isLow, ih]
    exact congrArg (fun byte => Except.ok (byte :: key)) (escaped_byte byte)

theorem decodeObjectKeyBytes_of_urlEncoded (accepted : decodeUrlEncodedBytes text = .ok key) :
    decodeObjectKeyBytes text = key := by
  fun_induction decodeUrlEncodedBytes text generalizing key with
  | case1 =>
    cases accepted
    rfl
  | case2 high low rest h l isLow isHigh ih =>
    obtain ⟨decoded, later, same⟩ := Result.bind_eq_ok.mp accepted
    cases same
    rw [decodeObjectKeyBytes, isHigh, isLow, ← ih later]
  | case3 high low rest invalid => cases accepted
  | case4 => cases accepted
  | case5 byte rest _ other ih =>
    obtain ⟨decoded, later, same⟩ := Result.bind_eq_ok.mp accepted
    cases same
    rw [decodeObjectKeyBytes, ih later]
    exact fun _ _ _ percent => absurd percent other

theorem decodeObjectKey_of_urlEncodedText {text : String}
    (accepted : decodeUrlEncodedText value = .ok text) : decodeObjectKey value = .ok text := by
  obtain ⟨bytes, decoded, read⟩ := Result.bind_eq_ok.mp accepted
  rw [decodeObjectKey, decodeObjectKeyBytes_of_urlEncoded decoded]
  split at read
  · cases read
    rfl
  · cases read

theorem decodeUrlEncodedText_of_spells {key : String} (spells : Spells value key) :
    decodeUrlEncodedText value = .ok key := by
  have text : fromUtf8 (utf8Bytes key) = some key := fromUtf8_eq_some.mpr rfl
  exact Result.bind_eq_ok.mpr ⟨_, decodeUrlEncodedBytes_of_spelling spells, by rw [text]⟩

/-! ## Whose uploads a listing names -/

/-- The text of the only key of an entry, as it stands in the document. -/
def KeyText (block : XmlElement) (raw : String) : Prop :=
  ∃ element, block.childElements "Key" 2 = .ok [element] ∧
    raw = String.join (element.children.filterMap XmlNode.text?)

/-- The entry names an upload of the key with the id. -/
def Lists (block : XmlElement) (upload : String × String) : Prop :=
  (∃ raw, KeyText block raw ∧ Spells raw upload.1) ∧
    block.exactlyOneNonemptyText "UploadId" = .ok upload.2

/-- A key that is not empty is spelled, with its white space escaped. -/
def SpelledKey (block : XmlElement) : Prop :=
  ∀ raw, KeyText block raw → raw ≠ "" →
    (∀ c ∈ raw.toList, isWhitespace c = false) ∧ ∃ key, Spells raw key

theorem exactlyOneNonemptyText_eq_ok {parent : XmlElement} {tag : String}
    (read : parent.exactlyOneNonemptyText tag = .ok value) :
    ∃ element, parent.childElements tag 2 = .ok [element] ∧ value ≠ "" ∧
      value = trimText (String.join (element.children.filterMap XmlNode.text?)) := by
  obtain ⟨text, once, kept⟩ := Result.bind_eq_ok.mp read
  obtain ⟨nonempty, same⟩ := Result.guard_eq_ok.mp kept
  cases same
  obtain ⟨elements, found, once⟩ := Result.bind_eq_ok.mp once
  split at once
  · obtain ⟨_, same⟩ := Result.guard_eq_ok.mp once
    cases same
    exact ⟨_, found, nonempty, rfl⟩
  · cases once
  · cases once

theorem lists_of_uploadEntry {block : XmlElement} {upload : String × String}
    (spelled : SpelledKey block) (read : uploadEntry true block = .ok upload) :
    Lists block upload := by
  simp only [uploadEntry, Result.bind_eq_ok] at read
  obtain ⟨itemKey, one, key, decoded, id, named, same⟩ := read
  cases same
  obtain ⟨element, found, nonempty, trimmed⟩ := exactlyOneNonemptyText_eq_ok one
  have text : KeyText block (String.join (element.children.filterMap XmlNode.text?)) :=
    ⟨element, found, rfl⟩
  generalize String.join (element.children.filterMap XmlNode.text?) = raw at text trimmed
  have some : raw ≠ "" := by
    rintro rfl
    exact nonempty trimmed
  obtain ⟨noBlank, spelledKey, spells⟩ := spelled raw text some
  rw [trimText, trim_eq_self_of_forall noBlank, String.ofList_toList] at trimmed
  subst trimmed
  have same : Except.ok key = Except.ok spelledKey :=
    decoded.symm.trans (decodeUrlEncodedText_of_spells spells)
  cases same
  exact ⟨⟨_, text, spells⟩, named⟩

theorem uploadIdsForKey_eq {blocks : List XmlElement} {key : String} {ids : List String}
    {seen : List (String × String)} (spelled : ∀ block ∈ blocks, SpelledKey block)
    (read : uploadIdsForKey true key seen blocks = .ok ids) :
    ∃ uploads, List.Forall₂ Lists blocks uploads ∧
      ids = (uploads.filter (·.1 = key)).map (·.2) := by
  induction blocks generalizing seen ids with
  | nil =>
    cases read
    exact ⟨[], .nil, rfl⟩
  | cons block blocks ih =>
    obtain ⟨upload, entry, read⟩ := Result.bind_eq_ok.mp read
    obtain ⟨_, read⟩ := Result.guard_eq_ok.mp read
    obtain ⟨later, rest, same⟩ := Result.bind_eq_ok.mp read
    obtain ⟨here, others⟩ := List.forall_mem_cons.mp spelled
    obtain ⟨uploads, listed, rfl⟩ := ih others rest
    cases same
    refine ⟨upload :: uploads, .cons (lists_of_uploadEntry here entry) listed, ?_⟩
    by_cases mine : upload.1 = key
    · simp [mine]
    · simp [mine]

/-- Both decoders read every spelling of a key as the key, the lenient one reads what the
strict one accepts, and both read only their input; so the uploads that a listing names
for a task are those whose key the task spells too. -/
theorem object_key_agreement :
    (∀ value key, Spells value key →
      decodeObjectKey value = .ok key ∧ decodeUrlEncodedText value = .ok key) ∧
    (∀ value text, decodeUrlEncodedText value = .ok text → decodeObjectKey value = .ok text) ∧
    (∀ bytes, objectKeyLoop bytes 0 = some (decodeObjectKeyBytes bytes) ∧
      urlEncodedLoop bytes 0 = some (decodeUrlEncodedBytes bytes)) ∧
    ∀ (env : OssEnv) (task : UploadTask) url taskKey document root blocks page,
      env.parseUrl task.url = .ok url →
      Spells (String.ofList (url.path.toList.dropWhile (· = '/'))) taskKey →
      XmlElement.documentRoot document "ListMultipartUploadsResult" = .ok root →
      root.listingUsesUrlEncoding = .ok true →
      root.childElements "Upload" maxOssListEntries = .ok blocks →
      (∀ block ∈ blocks, SpelledKey block) →
      env.objectKeyFromTaskUrl task = .ok taskKey ∧
      (parseUploadPageForKey (.ok document) taskKey = .ok page →
        ∃ uploads, List.Forall₂ Lists blocks uploads ∧
          page.uploadIdsForKey = (uploads.filter (·.1 = taskKey)).map (·.2)) := by
  refine ⟨fun value key spells => ?_, fun _ _ => decodeObjectKey_of_urlEncodedText,
    fun bytes => ⟨objectKeyLoop_eq rfl, urlEncodedLoop_eq rfl⟩, ?_⟩
  · have strict := decodeUrlEncodedText_of_spells spells
    exact ⟨decodeObjectKey_of_urlEncodedText strict, strict⟩
  intro env task url taskKey document root blocks page isUrl spells isRoot encoded listed spelled
  constructor
  · rw [OssEnv.objectKeyFromTaskUrl, isUrl]
    exact decodeObjectKey_of_urlEncodedText (decodeUrlEncodedText_of_spells spells)
  · intro read
    simp only [parseUploadPageForKey, Result.bind_eq_ok] at read
    obtain ⟨_, ⟨⟩, _, isRoot', _, encoded', _, listed', ids, read, truncated, _, made⟩ := read
    cases isRoot.symm.trans isRoot'
    cases encoded.symm.trans encoded'
    cases listed.symm.trans listed'
    have same : page.uploadIdsForKey = ids := by
      split at made
      · simp only [Result.bind_eq_ok] at made
        obtain ⟨_, _, _, _, _, _, made⟩ := made
        cases made
        rfl
      · cases made
        rfl
    rw [same]
    exact uploadIdsForKey_eq spelled read

end RustyCat
