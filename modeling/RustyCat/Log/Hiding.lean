import Mathlib.Data.List.Infix
import RustyCat.Log.Window

/-!
# Redaction hides the secret

What `redact_secrets` writes does not depend on the value of a sensitive key, on a bearer
token, or on a quoted member, and it leaves texts alone that hold no secret.
-/

namespace RustyCat.Log

open Ascii Scan

/-! ## The passes before the loop -/

/-- No encoded separator stands in the text. -/
def Intact (text : Text) : Prop :=
  ∀ rest ∈ text.tails, percentAssignmentSeparatorLen rest = none

instance : DecidablePred Intact := fun text =>
  inferInstanceAs (Decidable (∀ rest ∈ text.tails, percentAssignmentSeparatorLen rest = none))

def isEncodingChar (c : Char) : Bool := "%235da".toList.contains c.toLower

theorem separator_spec : ∀ pattern ∈ encodedSeparators,
    pattern.head? = some '%' ∧ ∀ c ∈ pattern, isEncodingChar c = true := by
  decide

theorem percentAssignmentSeparatorLen_eq_none {rest : Text} :
    percentAssignmentSeparatorLen rest = none ↔
      ∀ pattern ∈ encodedSeparators,
        eqIgnoreAsciiCase (rest.take pattern.length) pattern = false := by
  simp [percentAssignmentSeparatorLen, percentPatternLen]

theorem eqIgnoreAsciiCase_iff {actual expected : Text} :
    eqIgnoreAsciiCase actual expected = true ↔ lowercase actual = lowercase expected := by
  simp [eqIgnoreAsciiCase]

variable {c separator : Char} {text behind key value : Text} {after before : Nat}

theorem percentAssignmentSeparatorLen_of_ne (other : c ≠ '%') (rest : Text) :
    percentAssignmentSeparatorLen (c :: rest) = none := by
  rw [percentAssignmentSeparatorLen_eq_none]
  intro pattern member
  obtain ⟨more, rfl⟩ := List.head?_eq_some_iff.mp (separator_spec pattern member).1
  by_contra same
  have same := eqIgnoreAsciiCase_iff.mp (Bool.of_not_eq_false same)
  simp only [lowercase, List.length_cons, List.take_succ_cons, List.map_cons, List.cons.injEq] at same
  exact toLower_ne_percent other (same.1.trans (by decide))

theorem percentAssignmentSeparatorLen_append (intact : percentAssignmentSeparatorLen text = none)
    (other : isEncodingChar c = false)
    (rest : Text) : percentAssignmentSeparatorLen (text ++ c :: rest) = none := by
  rw [percentAssignmentSeparatorLen_eq_none] at intact ⊢
  intro pattern member
  obtain short | long := Nat.lt_or_ge text.length pattern.length
  · by_contra same
    have same := eqIgnoreAsciiCase_iff.mp (Bool.of_not_eq_false same)
    have here : c ∈ (text ++ c :: rest).take pattern.length := by
      obtain ⟨n, length⟩ : ∃ n, pattern.length = text.length + (n + 1) :=
        ⟨pattern.length - text.length - 1, by omega⟩
      rw [length, List.take_length_add_append]
      simp
    have lower : c.toLower ∈ lowercase pattern := same ▸ List.mem_map_of_mem here
    obtain ⟨d, inside, equal⟩ := List.mem_map.mp lower
    have := (separator_spec pattern member).2 d inside
    rw [isEncodingChar, equal, ← isEncodingChar, other] at this
    cases this
  · rw [List.take_append_of_le_length long]
    exact intact pattern member

/-- A text in which the first pass finds no separator, whatever follows. -/
def Quiet (text : Text) : Prop :=
  ∀ a q, text = a ++ q → q ≠ [] → ∀ rest, percentAssignmentSeparatorLen (q ++ rest) = none

theorem quiet_of_not_mem (unescaped : '%' ∉ text) : Quiet text := by
  intro a q split nonempty rest
  obtain ⟨c, q, rfl⟩ := List.exists_cons_of_ne_nil nonempty
  refine percentAssignmentSeparatorLen_of_ne (fun same => unescaped ?_) _
  rw [split, ← same]
  simp

theorem quiet_of_intact {front : Text} (unescaped : '%' ∉ front) (intact : Intact key)
    (other : isEncodingChar c = false) (plain : '%' ∉ behind) :
    Quiet (front ++ (key ++ c :: behind)) := by
  intro a q split nonempty rest
  obtain ⟨more, rfl, later⟩ | ⟨more, rfl, rfl⟩ := List.append_eq_append_iff.mp split
  · -- the position is in the key or behind it
    obtain ⟨rest', rfl, last⟩ | ⟨tail, rfl, rfl⟩ := List.append_eq_append_iff.mp later
    · refine quiet_of_not_mem ?_ rest' q last nonempty rest
      rw [List.mem_cons, not_or]
      refine ⟨?_, plain⟩
      rintro rfl
      cases other
    · rw [List.append_assoc, List.cons_append]
      exact percentAssignmentSeparatorLen_append
        (intact tail ((List.mem_tails _ _).mpr (List.suffix_append more tail))) other (behind ++ rest)
  · -- the position is in front of the key
    cases more with
    | nil =>
      rw [List.nil_append, List.append_assoc, List.cons_append]
      exact percentAssignmentSeparatorLen_append
        (intact key ((List.mem_tails _ _).mpr List.suffix_rfl)) other (behind ++ rest)
    | cons d q' =>
      rw [List.cons_append, List.cons_append]
      refine percentAssignmentSeparatorLen_of_ne (fun equal => unescaped ?_) _
      simp [equal]

/-- What the first two passes make of a text that they enter at its start. -/
def prepared (text : Text) : Text := run xmlRule [] (run percentRule [] text)

theorem redactSecrets_eq (text : Text) : redactSecrets text = run secretRule [] (prepared text) :=
  rfl

theorem percentRule_forgets {after : Text}
    (fresh : ∀ c ∈ after.head?, isEncodedKeyChar c = false) (past past' : Text) :
    run percentRule past after = run percentRule past' after := by
  have near {one other : Text}
      (same : one.takeWhile isEncodedKeyChar = other.takeWhile isEncodedKeyChar) (rest : Text) :
      run percentRule one rest = run percentRule other rest := by
    refine run_congr
      (fun one other => one.takeWhile isEncodedKeyChar = other.takeWhile isEncodedKeyChar) ?_ ?_
      same rest
    · intro one other c same
      simp only [List.takeWhile_cons, same]
    · intro one other rest same
      simp only [percentRule, same]
  cases after with
  | nil => rfl
  | cons c after =>
    have other : c ≠ '%' := by
      rintro rfl
      exact absurd (fresh '%' rfl) (by decide)
    have none (past : Text) : percentRule past (c :: after) = none := by
      rw [percentRule, percentAssignmentSeparatorLen_of_ne other]
    rw [run_none (none past), run_none (none past')]
    refine congrArg _ (near ?_ after)
    simp [fresh c rfl]

theorem xmlRule_of_ne {before rest : Text} (other : c ≠ '<') :
    xmlRule before (c :: rest) = none := by
  unfold xmlRule
  split
  · rename_i same
    cases same
    exact absurd rfl other
  · rfl

theorem prepared_append {after : Text} (quiet : Quiet text) (untagged : '<' ∉ text)
    (fresh : ∀ c ∈ after.head?, isEncodedKeyChar c = false) :
    prepared (text ++ after) = text ++ prepared after := by
  have first : run percentRule [] (text ++ after) = text ++ run percentRule [] after := by
    rw [run_append_of_none]
    · rw [percentRule_forgets fresh]
    · intro a q split nonempty
      rw [percentRule, quiet a q split nonempty]
  have second (rest : Text) : run xmlRule [] (text ++ rest) = text ++ run xmlRule [] rest := by
    rw [run_append_of_none]
    · rw [run_congr (fun _ _ => True) (fun _ _ _ _ => trivial) (fun _ _ _ _ => rfl) trivial]
    · intro a q split nonempty
      obtain ⟨c, q, rfl⟩ := List.exists_cons_of_ne_nil nonempty
      refine xmlRule_of_ne fun same => untagged ?_
      rw [split, ← same]
      simp
  rw [prepared, first, second, prepared]

theorem head?_prepared {after : Text} (fresh : ∀ c ∈ after.head?, isEncodedKeyChar c = false)
    (untagged : ∀ c ∈ after.head?, c ≠ '<') : (prepared after).head? = after.head? := by
  cases after with
  | nil => rfl
  | cons c after =>
    have other : c ≠ '%' := by
      rintro rfl
      exact absurd (fresh '%' rfl) (by decide)
    have none : percentRule [] (c :: after) = none := by
      rw [percentRule, percentAssignmentSeparatorLen_of_ne other]
    rw [prepared, run_none none, run_none (xmlRule_of_ne (untagged c rfl))]
    rfl

/-! ## Keys -/

structure SensitiveKey (key : Text) : Prop where
  chars : ∀ c ∈ key, isAssignmentKeyChar c = true
  sensitive : isSensitiveRawQueryKey key = true

theorem SensitiveKey.ne_nil (known : SensitiveKey key) : key ≠ [] := by
  rintro rfl
  exact absurd known.sensitive (by decide)

theorem SensitiveKey.keyed (known : SensitiveKey key) (rest : Text) :
    Keyed (key ++ rest) := by
  obtain ⟨c, more, rfl⟩ := List.exists_cons_of_ne_nil known.ne_nil
  exact ⟨c, more ++ rest, rfl, known.chars c List.mem_cons_self⟩

theorem decodeQueryKey_of_token {name : Text} (token : ∀ c ∈ name, isTokenChar c = true) :
    decodeQueryKey name = some name := by
  have small (c : Char) (here : isTokenChar c = true) :
      c.toNat < 128 ∧ c.toNat ≠ 37 ∧ c.toNat ≠ 43 := by
    have other : c ≠ '%' := by
      rintro rfl
      cases here
    have range := key_range (c := c) (by simp [isAssignmentKeyChar, here])
    have : c.toNat ≠ 37 := fun same => other (Char.toNat_inj.mp same)
    omega
  have encoded : name.flatMap String.utf8EncodeChar = name.map fun c => UInt8.ofNat c.toNat := by
    rw [List.map_eq_flatMap]
    refine List.flatMap_congr fun c member => ?_
    rw [String.utf8EncodeChar]
    exact if_pos (by have := small c (token c member); change c.toNat ≤ 127; omega)
  have decoded : decodeQueryBytes (name.flatMap String.utf8EncodeChar) =
      some (name.flatMap String.utf8EncodeChar) := by
    rw [encoded]
    clear encoded
    induction name with
    | nil => rfl
    | cons c name ih =>
      have here := small c (token c List.mem_cons_self)
      have byte (n : Nat) (least : n < 128) (differs : c.toNat ≠ n) :
          UInt8.ofNat c.toNat ≠ UInt8.ofNat n := by
        intro same
        have := congrArg UInt8.toNat same
        simp only [UInt8.toNat_ofNat'] at this
        omega
      rw [List.map_cons, decodeQueryBytes]
      · rw [ih fun d member => token d (List.mem_cons_of_mem c member)]
        rfl
      · intro high low rest same
        exact absurd same (byte 37 (by decide) here.2.1)
      · intro same
        exact absurd same (byte 37 (by decide) here.2.1)
      · intro same
        exact absurd same (byte 43 (by decide) here.2.2)
  have bytes : (⟨(name.flatMap String.utf8EncodeChar).toArray⟩ : ByteArray) = name.utf8Encode :=
    ByteArray.ext List.data_toByteArray.symm
  have text : String.fromUTF8? name.utf8Encode = some (String.ofList name) :=
    dif_pos ByteArray.isValidUTF8_utf8Encode
  simp only [decodeQueryKey, decoded, Option.bind_eq_bind, Option.bind_some, bytes, text,
    Option.map_some, String.toList_ofList]

theorem not_sensitive_of_bearer (same : eqIgnoreAsciiCase key bearerWord = true) :
    isSensitiveRawQueryKey key = false := by
  have token := isTokenChar_of_eqIgnoreAsciiCase letters_bearerWord same
  have param : isSensitiveParam key = false := by
    have trimmed : trim isWhitespace key = key := by
      refine trim_eq_self_of_forall fun c member => ?_
      exact (key_spec (by simp [isAssignmentKeyChar, token c member])).2.2.2.2.1
    rw [isSensitiveParam, trimmed, eqIgnoreAsciiCase_iff.mp same]
    decide
  simp [isSensitiveRawQueryKey, decodeQueryKey_of_token token, param]

/-- A text behind a key, which does not belong to the key. -/
def Parted (text : Text) : Prop := ∃ c rest, text = c :: rest ∧ isAssignmentKeyChar c = false

theorem take_eq_of_parted {n : Nat} (parted : Parted behind)
    (chars : ∀ c ∈ (key ++ behind).take n, isAssignmentKeyChar c = true)
    (long : n ≤ (key ++ behind).length) : n ≤ key.length := by
  obtain ⟨c, rest, rfl, other⟩ := parted
  by_contra short
  obtain ⟨m, length⟩ : ∃ m, n = key.length + (m + 1) := ⟨n - key.length - 1, by omega⟩
  have := chars c (by rw [length, List.take_length_add_append]; simp)
  rw [other] at this
  cases this

theorem isAssignmentKeyChar_of_toLower (key : isAssignmentKeyChar c.toLower = true) :
    isAssignmentKeyChar c = true := by
  unfold Char.toLower at key
  split at key
  · rename_i upper
    have : c.isUpper = true := by simpa [Char.isUpper] using upper
    simp [isAssignmentKeyChar, isTokenChar, Char.isAlphanum, Char.isAlpha, this]
  · exact key

theorem bearerValueStart_key {before : Text} (known : SensitiveKey key) (parted : Parted behind)
    (noBearer : eqIgnoreAsciiCase (key.take 9) "bearer%20".toList = false) :
    bearerValueStart before (key ++ behind) = none := by
  rw [bearerValueStart]
  split
  · rfl
  rename_i here
  have word : eqIgnoreAsciiCase ((key ++ behind).take 6) bearerWord = true := by simp_all
  have length : ((key ++ behind).take 6).length = 6 := length_of_eqIgnoreAsciiCase word
  have inKey : 6 ≤ key.length := by
    refine take_eq_of_parted parted (fun c member => ?_) (by rw [List.length_take] at length; omega)
    simp [isAssignmentKeyChar, isTokenChar_of_eqIgnoreAsciiCase letters_bearerWord word c member]
  rw [List.take_append_of_le_length inKey] at word
  rw [List.drop_append_of_le_length inKey]
  obtain ⟨d, more, later⟩ : ∃ d more, key.drop 6 = d :: more := by
    refine List.exists_cons_of_ne_nil fun whole => ?_
    rw [List.take_of_length_le (List.drop_eq_nil_iff.mp whole)] at word
    have sensitive := known.sensitive
    rw [not_sensitive_of_bearer word] at sensitive
    cases sensitive
  have keyChar : isAssignmentKeyChar d = true :=
    known.chars d (List.mem_of_mem_drop (by rw [later]; exact List.mem_cons_self))
  have escape : eqIgnoreAsciiCase ((key.drop 6 ++ behind).take 3) "%20".toList = false := by
    by_contra same
    have same := eqIgnoreAsciiCase_iff.mp (Bool.of_not_eq_false same)
    have three : ((key.drop 6 ++ behind).take 3).length = 3 := by
      have := congrArg List.length same
      rwa [lowercase, List.length_map] at this
    have inside : 3 ≤ (key.drop 6).length := by
      refine take_eq_of_parted parted (fun c member => ?_)
        (by rw [List.length_take] at three; omega)
      refine isAssignmentKeyChar_of_toLower ?_
      have : c.toLower ∈ lowercase "%20".toList := same ▸ List.mem_map_of_mem member
      revert this
      generalize c.toLower = lower
      revert lower
      decide
    have nine : key.take 9 = key.take 6 ++ (key.drop 6).take 3 :=
      List.take_add (i := 6) (j := 3)
    rw [List.take_append_of_le_length inside] at same
    rw [nine] at noBearer
    refine absurd noBearer (Bool.not_eq_false _ ▸ eqIgnoreAsciiCase_iff.mpr ?_)
    rw [lowercase, List.map_append]
    change lowercase _ ++ lowercase _ = _
    rw [same, eqIgnoreAsciiCase_iff.mp word]
    decide
  have space : (key.drop 6 ++ behind).head?.any isWhitespace = false := by
    rw [later]
    exact (key_spec keyChar).2.2.2.2.1
  rw [space, escape]
  rfl

def keyDelim (key : Text) : Char → Bool :=
  if eqIgnoreAsciiCase key authorizationWord then isAuthorizationValueDelim
  else isUnquotedValueDelim

theorem secretRule_key {before middle : Text} (known : SensitiveKey key)
    (border : before.head?.any isAssignmentKeyChar = false) (parted : Parted middle)
    (noBearer : bearerValueStart before (key ++ (middle ++ value)) = none)
    (starts : valueAfterKey before (middle ++ value) = some value) (nonempty : value ≠ []) :
    secretRule before (key ++ (middle ++ value)) =
      some (redactValue (keyDelim key) (key ++ (middle ++ value)) value) := by
  have parted' : Parted (middle ++ value) := by
    obtain ⟨c, rest, rfl, other⟩ := parted
    exact ⟨c, rest ++ value, rfl, other⟩
  by_cases authorization : eqIgnoreAsciiCase key authorizationWord = true
  · have length : key.length = 13 := length_of_eqIgnoreAsciiCase authorization
    have authorized : authorizationValueStart before (key ++ (middle ++ value)) = some value := by
      rw [authorizationValueStart, ← length, List.take_left, List.drop_left, authorization, border,
        starts]
      simp [Option.filter, nonempty]
    simp only [secretRule, authorized, keyDelim, authorization, if_true]
  · have authorized : authorizationValueStart before (key ++ (middle ++ value)) = none := by
      rw [authorizationValueStart]
      split
      · rfl
      rename_i here
      have word : eqIgnoreAsciiCase ((key ++ (middle ++ value)).take 13) authorizationWord = true := by
        simp_all
      have thirteen : ((key ++ (middle ++ value)).take 13).length = 13 :=
        length_of_eqIgnoreAsciiCase word
      have inKey : 13 ≤ key.length := by
        refine take_eq_of_parted parted' (fun c member => ?_)
          (by rw [List.length_take] at thirteen; omega)
        have token := isTokenChar_of_eqIgnoreAsciiCase letters_authorizationWord word c member
        simp [isAssignmentKeyChar, token]
      rw [List.take_append_of_le_length inKey] at word
      rw [List.drop_append_of_le_length inKey]
      obtain ⟨d, more, later⟩ : ∃ d more, key.drop 13 = d :: more := by
        refine List.exists_cons_of_ne_nil fun whole => authorization ?_
        rwa [List.take_of_length_le (List.drop_eq_nil_iff.mp whole)] at word
      have keyChar : isAssignmentKeyChar d = true :=
        known.chars d (List.mem_of_mem_drop (by rw [later]; exact List.mem_cons_self))
      have keyed : Keyed (key.drop 13 ++ (middle ++ value)) :=
        ⟨d, more ++ (middle ++ value), by rw [later]; rfl, keyChar⟩
      rw [valueAfterKey_of_keyed keyed]
      rfl
    obtain ⟨c, more, same⟩ := List.exists_cons_of_ne_nil known.ne_nil
    have first : (key ++ (middle ++ value)).head?.any isAssignmentKeyChar = true := by
      rw [same]
      exact known.chars c (by rw [same]; exact List.mem_cons_self)
    have run_ : (key ++ (middle ++ value)).takeWhile isAssignmentKeyChar = key := by
      obtain ⟨d, rest, equal, other⟩ := parted'
      rw [List.takeWhile_append_of_pos known.chars, equal, List.takeWhile_cons_of_neg (by simp [other]),
        List.append_nil]
    have assigned : assignmentValueStart before (key ++ (middle ++ value)) = some value := by
      simp only [assignmentValueStart, run_, known.sensitive, if_true, List.drop_left, starts]
    simp only [secretRule, authorized, noBearer, first, border, assigned, keyDelim, authorization]
    rfl

/-! ## Values -/

/-- A value: some plain characters. -/
def PlainValue (value : Text) : Prop := value ≠ [] ∧ ∀ c ∈ value, isPlain c = true

theorem PlainValue.not_delim (plain : PlainValue value)
    (member : c ∈ value) : isUnquotedValueDelim c = false ∧ isAuthorizationValueDelim c = false ∧
      isQuote c = false ∧ isWhitespace c = false ∧ c ≠ '\\' ∧ c ≠ '%' ∧ c ≠ '<' := by
  obtain ⟨delim, escape, percent⟩ := isPlain_iff.mp (plain.2 c member)
  refine ⟨delim, unquoted_of_authorization delim, (not_quote_of_not_delim delim).1,
    (not_quote_of_not_delim delim).2, escape, percent, ?_⟩
  rintro rfl
  cases delim

theorem PlainValue.not_keyDelim (plain : PlainValue value) (key : Text)
    (member : c ∈ value) : keyDelim key c = false := by
  obtain ⟨unquoted, authorization, -⟩ := plain.not_delim member
  unfold keyDelim
  split
  · exact authorization
  · exact unquoted

/-- What separates a key from its value: a separator with spaces around it. -/
def spaced (before : Nat) (separator : Char) (after : Nat) : Text :=
  List.replicate before ' ' ++ separator :: List.replicate after ' '

theorem mem_spaced (member : c ∈ spaced before separator after) : c = ' ' ∨ c = separator := by
  simp only [spaced, List.mem_append, List.mem_cons, List.mem_replicate] at member
  tauto

theorem isSeparator_iff : isSeparator c = true ↔ c = ':' ∨ c = '=' := by
  simp [isSeparator]

theorem spaced_spec (sep : isSeparator separator = true)
    (member : c ∈ spaced before separator after) :
    isAssignmentKeyChar c = false ∧ isAuthorizationValueDelim c = false ∧ isQuote c = false ∧
      c ≠ '\\' ∧ c ≠ '%' ∧ c ≠ '<' ∧ isEncodingChar c = false := by
  have cases_ : c = ' ' ∨ c = ':' ∨ c = '=' := by
    obtain rfl | rfl := mem_spaced member
    · exact .inl rfl
    · exact .inr (isSeparator_iff.mp sep)
  obtain rfl | rfl | rfl := cases_
  · decide
  · decide
  · decide

theorem spaced_eq_cons (before : Nat) (separator : Char) (after : Nat) :
    ∃ c rest, spaced before separator after = c :: rest := by
  refine List.exists_cons_of_ne_nil ?_
  simp [spaced]

theorem spaced_parted (sep : isSeparator separator = true) :
    Parted (spaced before separator after) := by
  obtain ⟨c, rest, same⟩ := spaced_eq_cons before separator after
  exact ⟨c, rest, same, (spaced_spec sep (by rw [same]; exact List.mem_cons_self)).1⟩

theorem dropWhile_spaces (n : Nat) (rest : Text) :
    (List.replicate n ' ' ++ rest).dropWhile isWhitespace = rest.dropWhile isWhitespace := by
  refine List.dropWhile_append_of_pos fun c member => ?_
  rw [List.eq_of_mem_replicate member]
  decide

theorem valueAfterSeparator_spaced (sep : isSeparator separator = true)
    (starts : ∀ c ∈ value.head?, isWhitespace c = false) :
    valueAfterSeparator (spaced before separator after ++ value) = some value := by
  have noSpace : isWhitespace separator = false := by
    obtain rfl | rfl := isSeparator_iff.mp sep
    · decide
    · decide
  have stays : value.dropWhile isWhitespace = value := by
    cases value with
    | nil => rfl
    | cons c value => simp [starts c rfl]
  rw [valueAfterSeparator, spaced, List.append_assoc, dropWhile_spaces, List.cons_append]
  simp [noSpace, sep, dropWhile_spaces, stays]

end RustyCat.Log
