import Mathlib
import RustyCat.Log.Redact

/-!
# A secret in a window of a text

The loop of `redact_secrets` runs over a front, a window and what stands behind it.
Which rule applies at a position of the front is decided in the front: the window begins
with a character of a key, and the front ends with another one.  What remains open is
where a value ends that was begun in the front, and `Window` collects what has to be known
for it: either it ends in the front, or it runs over the whole window, whatever the window
holds.
-/

namespace RustyCat.Log

open Ascii Scan

/-! ## Classes of characters -/

variable {c quote : Char} {text x afterKey before value word left lead : Text} {escaped : Bool}
  {isDelim : Char → Bool}

theorem isAlphanum_range (alphanumeric : c.isAlphanum = true) :
    48 ≤ c.toNat ∧ c.toNat ≤ 57 ∨ 65 ≤ c.toNat ∧ c.toNat ≤ 90 ∨ 97 ≤ c.toNat ∧ c.toNat ≤ 122 := by
  simp only [Char.isAlphanum, Char.isAlpha, Char.isUpper, Char.isLower, Char.isDigit,
    Bool.or_eq_true, decide_eq_true_eq, Bool.and_eq_true, UInt32.le_iff_toNat_le] at alphanumeric
  change (65 ≤ c.toNat ∧ c.toNat ≤ 90 ∨ 97 ≤ c.toNat ∧ c.toNat ≤ 122) ∨
    48 ≤ c.toNat ∧ c.toNat ≤ 57 at alphanumeric
  omega

theorem key_range (key : isAssignmentKeyChar c = true) :
    48 ≤ c.toNat ∧ c.toNat ≤ 57 ∨ 65 ≤ c.toNat ∧ c.toNat ≤ 90 ∨ 97 ≤ c.toNat ∧ c.toNat ≤ 122 ∨
      c.toNat = 95 ∨ c.toNat = 45 ∨ c.toNat = 37 := by
  simp only [isAssignmentKeyChar, isTokenChar, Bool.or_eq_true, decide_eq_true_eq] at key
  obtain ((key | rfl) | rfl) | rfl := key
  · have := isAlphanum_range key
    omega
  · decide
  · decide
  · decide

theorem key_spec (key : isAssignmentKeyChar c = true) :
    isUnquotedValueDelim c = false ∧ isAuthorizationValueDelim c = false ∧ isQuote c = false ∧
      isSeparator c = false ∧ isWhitespace c = false ∧ c ≠ '\\' := by
  have range := key_range key
  have outside (l : List Char) (none : ∀ d ∈ l, isAssignmentKeyChar d = false) :
      l.contains c = false := by
    rw [List.contains_eq_mem, decide_eq_false_iff_not]
    intro member
    rw [none c member] at key
    cases key
  have other (d : Char) (differs : isAssignmentKeyChar d = false) : c ≠ d := by
    rintro rfl
    rw [key] at differs
    cases differs
  have space : isWhitespace c = false := by
    simp only [isWhitespace, Bool.or_eq_false_iff, Bool.and_eq_false_iff, decide_eq_false_iff_not]
    omega
  refine ⟨?_, outside _ (by decide), ?_, ?_, space, other _ (by decide)⟩
  · rw [isUnquotedValueDelim, space, Bool.false_or]
    exact outside _ (by decide)
  · simp [isQuote, other '"' (by decide), other '\'' (by decide)]
  · simp [isSeparator, other ':' (by decide), other '=' (by decide)]

theorem unquoted_of_authorization (ends : isUnquotedValueDelim c = false) :
    isAuthorizationValueDelim c = false := by
  rw [isAuthorizationValueDelim, List.contains_eq_mem, decide_eq_false_iff_not]
  intro member
  have delims : ∀ d ∈ ['\r', '\n', ';', ')', '}', ']', '<', '>', '|'],
      isUnquotedValueDelim d = true := by decide
  rw [delims c member] at ends
  cases ends

/-- A character that ends no value and escapes nothing: a letter, a digit, or one of
many signs. -/
def isPlain (c : Char) : Bool := !isUnquotedValueDelim c && c ≠ '\\' && c ≠ '%'

example : ∀ c ∈ "azAZ09+/=_-.~:".toList, isPlain c = true := by decide

theorem isPlain_iff :
    isPlain c = true ↔ isUnquotedValueDelim c = false ∧ c ≠ '\\' ∧ c ≠ '%' := by
  simp [isPlain, and_assoc]

theorem not_quote_of_not_delim (ends : isUnquotedValueDelim c = false) :
    isQuote c = false ∧ isWhitespace c = false := by
  simp only [isUnquotedValueDelim, Bool.or_eq_false_iff] at ends
  refine ⟨?_, ends.1⟩
  by_contra quote
  rw [Bool.not_eq_false, isQuote, Bool.or_eq_true, decide_eq_true_eq, decide_eq_true_eq] at quote
  obtain rfl | rfl := quote
  · exact absurd ends.2 (by decide)
  · exact absurd ends.2 (by decide)

/-! ## Where a value starts -/

def Keyed (text : Text) : Prop := ∃ c rest, text = c :: rest ∧ isAssignmentKeyChar c = true

theorem Keyed.ne_nil (keyed : Keyed text) : text ≠ [] := by
  obtain ⟨c, rest, rfl, _⟩ := keyed
  exact List.cons_ne_nil c rest

theorem Keyed.append (keyed : Keyed text) (more : Text) : Keyed (text ++ more) := by
  obtain ⟨c, rest, rfl, key⟩ := keyed
  exact ⟨c, rest ++ more, rfl, key⟩

theorem dropWhile_whitespace_append (keyed : Keyed x) :
    (text ++ x).dropWhile isWhitespace = text.dropWhile isWhitespace ++ x := by
  obtain ⟨c, rest, rfl, key⟩ := keyed
  induction text with
  | nil => simp [(key_spec key).2.2.2.2.1]
  | cons d text ih =>
    cases space : isWhitespace d with
    | true => simp [space, ih]
    | false => simp [space]

theorem passQuote_append (keyed : Keyed x) :
    passQuote before (afterKey ++ x) = passQuote before afterKey ++ x := by
  cases afterKey with
  | nil =>
    obtain ⟨c, rest, rfl, key⟩ := keyed
    simp [passQuote, (key_spec key).2.2.1]
  | cons quote rest =>
    simp only [passQuote, List.cons_append]
    split
    · rfl
    · rfl

theorem valueAfterSeparator_append (keyed : Keyed x) :
    valueAfterSeparator (text ++ x) = (valueAfterSeparator text).map (· ++ x) := by
  simp only [valueAfterSeparator, dropWhile_whitespace_append keyed]
  cases text.dropWhile isWhitespace with
  | nil =>
    obtain ⟨c, rest, rfl, key⟩ := keyed
    simp [(key_spec key).2.2.2.1]
  | cons separator value =>
    simp only [List.cons_append]
    split
    · rw [dropWhile_whitespace_append keyed]
      rfl
    · rfl

theorem valueAfterKey_append (keyed : Keyed x) :
    valueAfterKey before (afterKey ++ x) = (valueAfterKey before afterKey).map (· ++ x) := by
  rw [valueAfterKey, passQuote_append keyed, valueAfterSeparator_append keyed, valueAfterKey]

theorem valueAfterKey_of_keyed (keyed : Keyed x) :
    valueAfterKey before x = none := by
  have : valueAfterKey before ([] ++ x) = _ := valueAfterKey_append keyed
  exact this

/-- Between a key and its value: perhaps a quote, and a separator with white space
around it. -/
def Separates (middle : Text) : Prop :=
  ∃ quote left separator right, middle = quote ++ left ++ separator :: right ∧
    (∀ c ∈ quote, isQuote c = true) ∧ (∀ c ∈ left, isWhitespace c = true) ∧
    isSeparator separator = true ∧ ∀ c ∈ right, isWhitespace c = true

theorem passQuote_eq (before afterKey : Text) :
    ∃ quote, afterKey = quote ++ passQuote before afterKey ∧ ∀ c ∈ quote, isQuote c = true := by
  cases afterKey with
  | nil => exact ⟨[], rfl, by simp⟩
  | cons quote rest =>
    simp only [passQuote]
    split
    · rename_i passed
      exact ⟨[quote], rfl, by simp [passed.1]⟩
    · exact ⟨[], rfl, by simp⟩

theorem separates_of_valueAfterKey (found : valueAfterKey before afterKey = some value) :
    ∃ middle, afterKey = middle ++ value ∧ Separates middle := by
  obtain ⟨quote, same, quotes⟩ := passQuote_eq before afterKey
  have parts := List.takeWhile_append_dropWhile (p := isWhitespace) (l := passQuote before afterKey)
  simp only [valueAfterKey, valueAfterSeparator] at found
  cases dropped : (passQuote before afterKey).dropWhile isWhitespace with
  | nil => simp [dropped] at found
  | cons separator rest =>
    simp only [dropped] at found parts
    split_ifs at found with sep
    cases found
    refine ⟨quote ++ (passQuote before afterKey).takeWhile isWhitespace ++
        separator :: rest.takeWhile isWhitespace, ?_, quote, _, separator, _, rfl, quotes,
      fun c => List.mem_takeWhile_imp, sep, fun c => List.mem_takeWhile_imp⟩
    rw [List.append_assoc, List.append_assoc, List.cons_append, List.takeWhile_append_dropWhile,
      parts]
    exact same

/-! ## What starts in the front -/

theorem isTokenChar_of_toLower (lower : c.toLower.isLower = true) :
    isTokenChar c = true := by
  unfold Char.toLower at lower
  split at lower
  · rename_i upper
    have : c.isUpper = true := by simpa [Char.isUpper] using upper
    simp [isTokenChar, Char.isAlphanum, Char.isAlpha, this]
  · simp [isTokenChar, Char.isAlphanum, Char.isAlpha, lower]

theorem toLower_ne_percent (other : c ≠ '%') : c.toLower ≠ '%' := by
  unfold Char.toLower
  split
  · rename_i upper
    intro same
    have value : c.val + ('a'.val - 'A'.val) = 37 := congrArg Char.val same
    have := congrArg UInt32.toNat value
    simp [UInt32.le_iff_toNat_le] at upper this
    omega
  · exact other

theorem isTokenChar_of_eqIgnoreAsciiCase (letters : ∀ c ∈ lowercase word, c.isLower = true)
    (same : eqIgnoreAsciiCase text word = true) :
    ∀ c ∈ text, isTokenChar c = true := by
  intro c member
  have same : lowercase text = lowercase word := by simpa [eqIgnoreAsciiCase] using same
  refine isTokenChar_of_toLower (letters _ ?_)
  rw [← same]
  exact List.mem_map_of_mem member

theorem length_of_eqIgnoreAsciiCase (same : eqIgnoreAsciiCase text word = true) :
    text.length = word.length := by
  have same : lowercase text = lowercase word := by simpa [eqIgnoreAsciiCase] using same
  simpa [lowercase] using congrArg List.length same

/-- A front that ends with another character than those of keys. -/
def Bordered (left : Text) : Prop := ∃ c ∈ left.getLast?, isAssignmentKeyChar c = false

theorem Bordered.exists_mem (bordered : Bordered left) :
    ∃ c ∈ left, isAssignmentKeyChar c = false := by
  obtain ⟨c, last, other⟩ := bordered
  exact ⟨c, List.mem_of_getLast? last, other⟩

theorem take_eq_word (letters : ∀ c ∈ lowercase word, c.isLower = true) (bordered : Bordered left) :
    eqIgnoreAsciiCase ((left ++ x).take word.length) word =
        eqIgnoreAsciiCase (left.take word.length) word ∧
      (eqIgnoreAsciiCase (left.take word.length) word = true → word.length < left.length) := by
  obtain ⟨c, member, other⟩ := bordered.exists_mem
  have absent {text : Text} (same : eqIgnoreAsciiCase text word = true) : c ∉ text := by
    intro here
    have := isTokenChar_of_eqIgnoreAsciiCase letters same c here
    simp [isAssignmentKeyChar, this] at other
  obtain short | long := Nat.lt_or_ge word.length left.length
  · rw [List.take_append_of_le_length (Nat.le_of_lt short)]
    exact ⟨rfl, fun _ => short⟩
  · have whole : left.take word.length = left := List.take_of_length_le long
    have first : eqIgnoreAsciiCase ((left ++ x).take word.length) word = false := by
      by_contra same
      refine absent (Bool.of_not_eq_false same) ?_
      rw [List.take_append, whole]
      exact List.mem_append_left _ member
    have second : eqIgnoreAsciiCase left word = false := by
      by_contra same
      exact absent (Bool.of_not_eq_false same) member
    rw [whole, first, second]
    exact ⟨rfl, by simp⟩

theorem letters_authorizationWord : ∀ c ∈ lowercase authorizationWord, c.isLower = true := by
  decide

theorem letters_bearerWord : ∀ c ∈ lowercase bearerWord, c.isLower = true := by decide

/-- A part of the front that reaches up to a value: a separator or white space comes
last. -/
def Leads (lead : Text) : Prop :=
  ∃ c ∈ lead.getLast?, isSeparator c = true ∨ isWhitespace c = true

theorem Separates.leads {key middle : Text} (separates : Separates middle) :
    Leads (key ++ middle) := by
  obtain ⟨quote, left, separator, right, rfl, -, -, sep, spaces⟩ := separates
  rw [← List.append_assoc]
  cases last : right.getLast? with
  | none =>
    rw [List.getLast?_eq_none_iff] at last
    subst last
    exact ⟨separator, by simp, .inl sep⟩
  | some c =>
    refine ⟨c, ?_, .inr (spaces c (List.mem_of_getLast? last))⟩
    simp [List.getLast?_append, List.getLast?_cons, last]

theorem Leads.append (leads : Leads lead) (front : Text) : Leads (front ++ lead) := by
  obtain ⟨c, last, kind⟩ := leads
  refine ⟨c, ?_, kind⟩
  rw [List.getLast?_append, last]
  rfl

theorem authorizationValueStart_front (before : Text) (bordered : Bordered left) :
    ∃ start : Option Text,
      (∀ x, Keyed x → authorizationValueStart before (left ++ x) = start.map (· ++ x)) ∧
      (∀ value ∈ start, ∃ lead, left = lead ++ value ∧ Leads lead) ∧
      (before.head?.any isAssignmentKeyChar = false →
        eqIgnoreAsciiCase (left.take 13) authorizationWord = true →
        start = valueAfterKey before (left.drop 13)) := by
  have decided (x : Text) : eqIgnoreAsciiCase ((left ++ x).take 13) authorizationWord =
      eqIgnoreAsciiCase (left.take 13) authorizationWord :=
    (take_eq_word letters_authorizationWord bordered).1
  cases same : eqIgnoreAsciiCase (left.take 13) authorizationWord with
  | false => exact ⟨none, fun x _ => by simp [authorizationValueStart, decided, same], by simp, by simp⟩
  | true =>
    cases fresh : before.head?.any isAssignmentKeyChar with
    | true => exact ⟨none, fun x _ => by simp [authorizationValueStart, fresh], by simp, by simp⟩
    | false =>
      have long : 13 < left.length :=
        (take_eq_word (x := []) letters_authorizationWord bordered).2 same
      refine ⟨valueAfterKey before (left.drop 13), ?_, ?_, fun _ _ => rfl⟩
      · intro x keyed
        rw [authorizationValueStart, decided, same, fresh,
          List.drop_append_of_le_length (Nat.le_of_lt long), valueAfterKey_append keyed]
        cases valueAfterKey before (left.drop 13) with
        | none => rfl
        | some value => simp [Option.filter, keyed.ne_nil]
      · intro value found
        obtain ⟨middle, rest, separates⟩ := separates_of_valueAfterKey found
        refine ⟨left.take 13 ++ middle, ?_, separates.leads⟩
        rw [List.append_assoc, ← rest, List.take_append_drop]

theorem bearerValueStart_front (before : Text) (bordered : Bordered left) (unescaped : '%' ∉ left) :
    ∃ start : Option Text,
      (∀ x, Keyed x → bearerValueStart before (left ++ x) = start.map (· ++ x)) ∧
      ∀ value ∈ start, ∃ word space, left = word ++ space ++ value ∧
        eqIgnoreAsciiCase word bearerWord = true ∧ before.head?.any isTokenChar = false ∧
        space ≠ [] ∧ ∀ c ∈ space, isWhitespace c = true := by
  have decided (x : Text) : eqIgnoreAsciiCase ((left ++ x).take 6) bearerWord =
      eqIgnoreAsciiCase (left.take 6) bearerWord :=
    (take_eq_word letters_bearerWord bordered).1
  cases same : eqIgnoreAsciiCase (left.take 6) bearerWord with
  | false => exact ⟨none, fun x _ => by simp [bearerValueStart, decided, same], by simp⟩
  | true =>
    cases fresh : before.head?.any isTokenChar with
    | true => exact ⟨none, fun x _ => by simp [bearerValueStart, fresh], by simp⟩
    | false =>
      have long : 6 < left.length := (take_eq_word (x := []) letters_bearerWord bordered).2 same
      obtain ⟨c, rest, behind⟩ : ∃ c rest, left.drop 6 = c :: rest :=
        List.exists_cons_of_ne_nil (by simp; omega)
      have dropped (x : Text) : (left ++ x).drop 6 = c :: (rest ++ x) := by
        rw [List.drop_append_of_le_length (Nat.le_of_lt long), behind, List.cons_append]
      have start (x : Text) : bearerValueStart before (left ++ x) =
          if isWhitespace c then
            ((c :: (rest ++ x)).dropWhile isWhitespace |> some).filter (· ≠ [])
          else none := by
        have escaped : eqIgnoreAsciiCase ((c :: (rest ++ x)).take 3) "%20".toList = false := by
          have here : c ∈ left := List.mem_of_mem_drop (by rw [behind]; exact List.mem_cons_self)
          have : c.toLower ≠ '%' := toLower_ne_percent fun same => unescaped (same ▸ here)
          simp [eqIgnoreAsciiCase, lowercase, this]
        simp only [bearerValueStart, fresh, decided, same, dropped, escaped, List.head?_cons,
          Option.any_some]
        cases isWhitespace c with
        | false => rfl
        | true => rfl
      cases space : isWhitespace c with
      | false => exact ⟨none, fun x _ => by simp [start, space], by simp⟩
      | true =>
        refine ⟨some ((c :: rest).dropWhile isWhitespace), ?_, ?_⟩
        · intro x keyed
          rw [start, space, if_pos rfl, ← List.cons_append, dropWhile_whitespace_append keyed]
          simp [Option.filter, keyed.ne_nil]
        · rintro value ⟨⟩
          refine ⟨left.take 6, (c :: rest).takeWhile isWhitespace, ?_, same, rfl, ?_,
            fun d => List.mem_takeWhile_imp⟩
          · rw [List.append_assoc, List.takeWhile_append_dropWhile, ← behind, List.take_append_drop]
          · simp [space]

theorem takeWhile_key_front (bordered : Bordered left) :
    (left ++ x).takeWhile isAssignmentKeyChar = left.takeWhile isAssignmentKeyChar ∧
      (left.takeWhile isAssignmentKeyChar).length < left.length := by
  obtain ⟨c, member, other⟩ := bordered.exists_mem
  have short : (left.takeWhile isAssignmentKeyChar).length ≠ left.length := by
    intro whole
    have all := (List.takeWhile_sublist isAssignmentKeyChar).eq_of_length whole
    have := List.mem_takeWhile_imp (all.symm ▸ member : c ∈ left.takeWhile isAssignmentKeyChar)
    rw [other] at this
    cases this
  rw [List.takeWhile_append, if_neg short]
  exact ⟨rfl, Nat.lt_of_le_of_ne (List.takeWhile_sublist _).length_le short⟩

theorem assignmentValueStart_front (before : Text) (bordered : Bordered left) :
    ∃ start : Option Text,
      (∀ x, Keyed x → assignmentValueStart before (left ++ x) = start.map (· ++ x)) ∧
      ∀ value ∈ start, ∃ middle,
        left = left.takeWhile isAssignmentKeyChar ++ middle ++ value ∧ Separates middle ∧
        isSensitiveRawQueryKey (left.takeWhile isAssignmentKeyChar) = true ∧
        start = valueAfterKey before (left.drop (left.takeWhile isAssignmentKeyChar).length) := by
  have key (x : Text) := takeWhile_key_front (x := x) bordered
  cases sensitive : isSensitiveRawQueryKey (left.takeWhile isAssignmentKeyChar) with
  | false =>
    exact ⟨none, fun x _ => by simp [assignmentValueStart, (key x).1, sensitive], by simp⟩
  | true =>
    refine ⟨valueAfterKey before (left.drop (left.takeWhile isAssignmentKeyChar).length), ?_, ?_⟩
    · intro x keyed
      simp only [assignmentValueStart, (key x).1, sensitive, if_true]
      rw [List.drop_append_of_le_length (Nat.le_of_lt (key x).2), valueAfterKey_append keyed]
    · intro value found
      obtain ⟨middle, rest, separates⟩ := separates_of_valueAfterKey found
      refine ⟨middle, ?_, separates, rfl, rfl⟩
      rw [List.append_assoc, ← rest]
      exact (List.prefix_iff_eq_append.mp (List.takeWhile_prefix _)).symm

/-! ## Where a value ends -/

theorem skipQuotedValue_closed {n : Nat} (closed : skipQuotedValue quote escaped value = (n, true))
    (rest : Text) :
    n < value.length ∧ skipQuotedValue quote escaped (value ++ rest) = (n, true) := by
  induction value generalizing escaped n with
  | nil => cases closed
  | cons current value ih =>
    simp only [skipQuotedValue, List.cons_append] at closed ⊢
    split at closed
    · rename_i ends
      cases closed
      simp [ends]
    · rename_i goesOn
      simp only [Prod.mk.injEq] at closed
      obtain ⟨rfl, later⟩ := closed
      obtain ⟨inside, same⟩ := ih (Prod.ext rfl later)
      rw [if_neg goesOn, same]
      exact ⟨by simpa using inside, rfl⟩

theorem skipQuotedValue_open (opened : (skipQuotedValue quote escaped value).2 = false) :
    ∃ state, ∀ rest, skipQuotedValue quote escaped (value ++ rest) =
      (value.length + (skipQuotedValue quote state rest).1,
        (skipQuotedValue quote state rest).2) := by
  induction value generalizing escaped with
  | nil => exact ⟨escaped, fun rest => by simp⟩
  | cons current value ih =>
    simp only [skipQuotedValue] at opened
    split at opened
    · cases opened
    rename_i goesOn
    obtain ⟨state, later⟩ := ih opened
    refine ⟨state, fun rest => ?_⟩
    rw [List.cons_append, skipQuotedValue, if_neg goesOn, later]
    simp only [List.length_cons, Prod.mk.injEq, and_true]
    omega

theorem skipQuotedValue_plain (quotes : isQuote quote = true) {window : Text}
    (nonempty : window ≠ []) (plain : ∀ c ∈ window, isQuote c = false ∧ c ≠ '\\') (rest : Text) :
    skipQuotedValue quote escaped (window ++ rest) =
      (window.length + (skipQuotedValue quote false rest).1,
        (skipQuotedValue quote false rest).2) := by
  induction window generalizing escaped with
  | nil => exact absurd rfl nonempty
  | cons c window ih =>
    obtain ⟨noQuote, noEscape⟩ := plain c List.mem_cons_self
    have differs : ¬(c = quote ∧ ¬escaped) := by
      rintro ⟨rfl, -⟩
      rw [quotes] at noQuote
      cases noQuote
    rw [List.cons_append, skipQuotedValue, if_neg differs, if_neg noEscape]
    by_cases last : window = []
    · subst last
      simp [Nat.add_comm]
    · rw [ih last fun d member => plain d (List.mem_cons_of_mem c member)]
      simp only [List.length_cons, Prod.mk.injEq, and_true]
      omega

/-- One match for all windows: it ends in the front, or behind the window. -/
def Settles (window : Text → Prop) (left : Text) (found : Text → Hit Char) : Prop :=
  (∃ hit : Hit Char, hit.1 ≤ left.length ∧ ∀ w, window w → found w = hit) ∨
    ∃ later written, ∀ w, window w → found w = (left.length + w.length + later, written)

variable {window : Text → Prop}

theorem redactValue_unquoted (lead : Text) (unquoted : ∀ c ∈ value.head?, isQuote c = false) :
    redactValue isDelim (lead ++ value) value =
      (lead.length + (value.takeWhile (!isDelim ·)).length, lead ++ redacted) := by
  have start : (lead ++ value).length - value.length = lead.length := by simp
  cases value with
  | nil => simp [redactValue]
  | cons c value =>
    rw [redactValue, start, unquoted c rfl, if_neg (by simp), List.take_left]

theorem redactValue_quoted (lead : Text) (quotes : isQuote quote = true) (value : Text) :
    redactValue isDelim (lead ++ quote :: value) (quote :: value) =
      match skipQuotedValue quote false value with
      | (skipped, true) => (lead.length + 1 + skipped + 1, lead ++ [quote] ++ redacted ++ [quote])
      | (skipped, false) => (lead.length + 1 + skipped, lead ++ [quote] ++ redacted) := by
  have start : (lead ++ quote :: value).length - (quote :: value).length = lead.length := by
    rw [List.length_append, Nat.add_sub_cancel]
  have taken : (lead ++ quote :: value).take (lead.length + 1) = lead ++ [quote] := by
    rw [List.take_length_add_append]
    rfl
  cases result : skipQuotedValue quote false value with
  | mk skipped closed =>
    cases closed with
    | true => rw [redactValue, start, if_pos quotes, taken, result]
    | false => rw [redactValue, start, if_pos quotes, taken, result]

theorem redactToken_eq (lead value : Text) :
    redactToken (lead ++ value) value =
      (lead.length + (value.takeWhile (!isUnquotedValueDelim ·)).length, lead ++ redacted) := by
  have start : (lead ++ value).length - value.length = lead.length := by simp
  rw [redactToken, start, List.take_left]

theorem settles_unquoted (after : Text) (split : left = lead ++ value)
    (ends : (∃ c ∈ value, isDelim c = true) ∨ ∀ w, window w → ∀ c ∈ w, isDelim c = false) :
    Settles window left fun w =>
      (lead.length + ((value ++ (w ++ after)).takeWhile (!isDelim ·)).length, lead ++ redacted) := by
  by_cases stops : ∃ c ∈ value, isDelim c = true
  · left
    obtain ⟨c, member, delim⟩ := stops
    have short : (value.takeWhile (!isDelim ·)).length ≠ value.length := by
      intro whole
      have all := (List.takeWhile_sublist (!isDelim ·)).eq_of_length whole
      have := List.mem_takeWhile_imp (all.symm ▸ member : c ∈ value.takeWhile (!isDelim ·))
      simp [delim] at this
    refine ⟨(lead.length + (value.takeWhile (!isDelim ·)).length, lead ++ redacted), ?_, ?_⟩
    · have := (List.takeWhile_sublist (l := value) (!isDelim ·)).length_le
      rw [split, List.length_append]
      omega
    · intro w _
      beta_reduce
      rw [List.takeWhile_append, if_neg short]
  · right
    have clear := ends.resolve_left stops
    refine ⟨(after.takeWhile (!isDelim ·)).length, lead ++ redacted, ?_⟩
    intro w here
    have open_ : ∀ c ∈ value, (!isDelim c) = true := by
      intro c member
      by_contra delim
      exact stops ⟨c, member, by simpa using delim⟩
    beta_reduce
    rw [List.takeWhile_append_of_pos open_,
      List.takeWhile_append_of_pos fun c member => by simp [clear w here c member], split]
    simp only [List.length_append, Prod.mk.injEq, and_true]
    omega

theorem settles_quoted (after : Text) (quotes : isQuote quote = true)
    (split : left = lead ++ quote :: value) (nonempty : ∀ w, window w → w ≠ [])
    (plain : ∀ w, window w → ∀ c ∈ w, isQuote c = false ∧ c ≠ '\\') :
    Settles window left fun w =>
      match skipQuotedValue quote false (value ++ (w ++ after)) with
      | (skipped, true) => (lead.length + 1 + skipped + 1, lead ++ [quote] ++ redacted ++ [quote])
      | (skipped, false) => (lead.length + 1 + skipped, lead ++ [quote] ++ redacted) := by
  have length : left.length = lead.length + 1 + value.length := by
    simp only [split, List.length_append, List.length_cons]
    omega
  cases front : skipQuotedValue quote false value with
  | mk n closed =>
    cases closed with
    | true =>
      left
      have inside := skipQuotedValue_closed front
      refine ⟨(lead.length + 1 + n + 1, lead ++ [quote] ++ redacted ++ [quote]), ?_, ?_⟩
      · have := (inside []).1
        simp only
        omega
      · intro w _
        beta_reduce
        rw [(inside (w ++ after)).2]
    | false =>
      right
      obtain ⟨state, later⟩ := skipQuotedValue_open (congrArg Prod.snd front)
      have passed (w : Text) (here : window w) :
          skipQuotedValue quote false (value ++ (w ++ after)) =
            (value.length + (w.length + (skipQuotedValue quote false after).1),
              (skipQuotedValue quote false after).2) := by
        rw [later, skipQuotedValue_plain quotes (nonempty w here) (plain w here)]
      cases behind : skipQuotedValue quote false after with
      | mk m ended =>
        cases ended with
        | true =>
          refine ⟨m + 1, lead ++ [quote] ++ redacted ++ [quote], fun w here => ?_⟩
          beta_reduce
          rw [passed w here, behind, length]
          simp only [Prod.mk.injEq, and_true]
          omega
        | false =>
          refine ⟨m, lead ++ [quote] ++ redacted, fun w here => ?_⟩
          beta_reduce
          rw [passed w here, behind, length]
          simp only [Prod.mk.injEq, and_true]
          omega

theorem Settles.congr {found other : Text → Hit Char} (settles : Settles window left found)
    (same : ∀ w, window w → other w = found w) : Settles window left other := by
  obtain ⟨hit, inside, all⟩ | ⟨later, written, all⟩ := settles
  · exact .inl ⟨hit, inside, fun w here => (same w here).trans (all w here)⟩
  · exact .inr ⟨later, written, fun w here => (same w here).trans (all w here)⟩

theorem settles_redactValue (after : Text) (split : left = lead ++ value)
    (keyed : ∀ w, window w → Keyed w)
    (ends : (∃ c ∈ value, isDelim c = true) ∨ ∀ w, window w → ∀ c ∈ w, isDelim c = false)
    (quotes : (∀ w, window w → ∀ c ∈ w, isQuote c = false ∧ c ≠ '\\') ∨
      ∀ c ∈ value.head?, isQuote c = false) :
    Settles window left fun w =>
      redactValue isDelim (left ++ (w ++ after)) (value ++ (w ++ after)) := by
  subst split
  simp only [List.append_assoc]
  have nonempty (w : Text) (here : window w) : w ≠ [] := (keyed w here).ne_nil
  by_cases quoted : ∃ c ∈ value.head?, isQuote c = true
  · obtain ⟨quote, first, isQuoted⟩ := quoted
    obtain ⟨rest, rfl⟩ : ∃ rest, value = quote :: rest := List.head?_eq_some_iff.mp first
    have plain := quotes.resolve_right fun none => by simp [none quote rfl] at isQuoted
    refine (settles_quoted after isQuoted rfl nonempty plain).congr fun w _ => ?_
    exact redactValue_quoted lead isQuoted (rest ++ (w ++ after))
  · refine (settles_unquoted after rfl ends).congr fun w here => ?_
    refine redactValue_unquoted lead fun c first => ?_
    cases value with
    | nil =>
      obtain ⟨d, rest, rfl, key⟩ := keyed w here
      cases first
      exact (key_spec key).2.2.1
    | cons d rest =>
      cases first
      by_contra isQuoted
      exact quoted ⟨c, rfl, Bool.of_not_eq_false isQuoted⟩

/-! ## The loop goes on -/

theorem length_valueAfterKey
    (found : valueAfterKey before afterKey = some value) : value.length < afterKey.length := by
  obtain ⟨middle, rfl, quote, spaces, separator, more, rfl, -⟩ := separates_of_valueAfterKey found
  simp only [List.length_append, List.length_cons]
  omega

theorem length_bearerValueStart {rest : Text}
    (found : bearerValueStart before rest = some value) : value.length < rest.length := by
  simp only [bearerValueStart] at found
  split at found
  · cases found
  rename_i here
  have word : eqIgnoreAsciiCase (rest.take 6) bearerWord = true := by simp_all
  have long := length_of_eqIgnoreAsciiCase word
  rw [List.length_take, show bearerWord.length = 6 by decide] at long
  obtain ⟨start, -⟩ := Option.filter_eq_some_iff.mp found
  split_ifs at start
  · cases start
    have := (List.dropWhile_sublist (l := rest.drop 6) isWhitespace).length_le
    rw [List.length_drop] at this
    omega
  · cases start
    rw [List.length_drop]
    omega

theorem redactValue_advances {rest : Text}
    (short : value.length < rest.length) : 0 < (redactValue isDelim rest value).1 := by
  have start : 0 < rest.length - value.length := by omega
  unfold redactValue
  split
  · exact start
  split
  · split
    · simp only
      omega
    · simp only
      omega
  · simp only
    omega

theorem secretRule_advances : secretRule.Advances := by
  intro before rest hit found
  simp only [secretRule] at found
  split at found
  · rename_i value authorized
    cases found
    simp only [authorizationValueStart] at authorized
    split_ifs at authorized
    obtain ⟨start, -⟩ := Option.filter_eq_some_iff.mp authorized
    refine redactValue_advances (Nat.lt_of_lt_of_le (length_valueAfterKey start) ?_)
    rw [List.length_drop]
    omega
  · split at found
    · rename_i value carried
      cases found
      have := length_bearerValueStart carried
      simp only [redactToken]
      omega
    · split_ifs at found with begins
      split at found
      · rename_i value assigned
        cases found
        simp only [assignmentValueStart] at assigned
        split_ifs at assigned
        refine redactValue_advances (Nat.lt_of_lt_of_le (length_valueAfterKey assigned) ?_)
        rw [List.length_drop]
        omega
      · cases found
        cases rest with
        | nil => simp at begins
        | cons c rest =>
          simp only [List.head?_cons, Option.any_some, Bool.and_eq_true] at begins
          simp [begins.1]

/-! ## Windows -/

/-- A value is open behind this text: it begins with a sensitive key other than
`authorization` and a separator, or it is a bearer token. -/
def Opens (text : Text) : Prop :=
  (∃ front key middle, text = front ++ key ++ middle ∧
    (∀ c ∈ front.getLast?, isAssignmentKeyChar c = false) ∧
    key ≠ [] ∧ (∀ c ∈ key, isAssignmentKeyChar c = true) ∧ isSensitiveRawQueryKey key = true ∧
    lowercase key ≠ authorizationWord ∧ Separates middle) ∨
  ∃ front word space, text = front ++ word ++ space ∧
    (∀ c ∈ front.getLast?, isTokenChar c = false) ∧ lowercase word = bearerWord ∧
    space ≠ [] ∧ ∀ c ∈ space, isWhitespace c = true

theorem Opens.leads (opens : Opens text) : Leads text := by
  obtain ⟨front, key, middle, rfl, -, -, -, -, -, separates⟩ |
    ⟨front, word, space, rfl, -, -, nonempty, spaces⟩ := opens
  · exact separates.leads
  · have last := List.getLast?_eq_some_getLast nonempty
    refine ⟨space.getLast nonempty, ?_, .inr (spaces _ (List.getLast_mem nonempty))⟩
    rw [List.getLast?_append, last]
    rfl

/-- The windows behind a front over which the loop runs in one way. -/
structure Window (window : Text → Prop) (front : Text) : Prop where
  keyed : ∀ w, window w → Keyed w
  /-- Nothing in a window ends an authorization value. -/
  clear : ∀ w, window w → ∀ c ∈ w, isAuthorizationValueDelim c = false
  border : ∀ c ∈ front.getLast?, isAssignmentKeyChar c = false
  unescaped : '%' ∉ front
  /-- Other values do not end in a window, or they have ended before. -/
  unquoted : (∀ w, window w → ∀ c ∈ w, isUnquotedValueDelim c = false) ∨
    ∀ lead value, front = lead ++ value → Opens lead → ∃ c ∈ value, isUnquotedValueDelim c = true
  /-- Quoted values do not end in a window, or the front has none. -/
  quoted : (∀ w, window w → ∀ c ∈ w, isQuote c = false ∧ c ≠ '\\') ∨
    ∀ lead c value, front = lead ++ c :: value → isQuote c = true → ¬Leads lead

namespace Window

variable {front : Text}

variable {a after : Text}

theorem bordered (over_ : Window window front) (split : front = a ++ left)
    (nonempty : left ≠ []) : Bordered left := by
  have last := List.getLast?_eq_some_getLast nonempty
  refine ⟨left.getLast nonempty, last, over_.border _ ?_⟩
  rw [split, List.getLast?_append, last]
  rfl

theorem settles_value (over_ : Window window front) (after : Text) {isDelim : Char → Bool}
    {lead value : Text} (split : front = a ++ left) (parts : left = lead ++ value)
    (leads : Leads lead)
    (ends : (∃ c ∈ value, isDelim c = true) ∨ ∀ w, window w → ∀ c ∈ w, isDelim c = false) :
    Settles window left fun w =>
      redactValue isDelim (left ++ (w ++ after)) (value ++ (w ++ after)) := by
  refine settles_redactValue after parts over_.keyed ends ?_
  refine over_.quoted.imp_right fun none c first => ?_
  obtain ⟨rest, rfl⟩ : ∃ rest, value = c :: rest := List.head?_eq_some_iff.mp first
  by_contra isQuoted
  refine none (a ++ lead) c rest ?_ (Bool.of_not_eq_false isQuoted) (leads.append a)
  rw [split, parts, List.append_assoc]

theorem ends_of_opens (over_ : Window window front) {lead value : Text} (split : front = a ++ left)
    (parts : left = lead ++ value) (opens : Opens (a ++ lead)) :
    (∃ c ∈ value, isUnquotedValueDelim c = true) ∨
      ∀ w, window w → ∀ c ∈ w, isUnquotedValueDelim c = false := by
  obtain clear | closed := over_.unquoted
  · exact .inr clear
  · exact .inl (closed (a ++ lead) value (by rw [split, parts, List.append_assoc]) opens)

theorem uniform_of_settles {rule : Rule Char} {before : Text} {found : Text → Hit Char}
    (settles : Settles window left found) (nonempty : left ≠ [])
    (same : ∀ w, window w → rule before (left ++ (w ++ after)) = some (found w)) :
    Uniform rule window before left after := by
  obtain ⟨hit, inside, all⟩ | ⟨later, written, all⟩ := settles
  · exact .within hit inside nonempty fun w here => by rw [same w here, all w here]
  · exact .across later written fun w here => by rw [same w here, all w here]

theorem head?_reverse_any {kind : Char → Bool} :
    a.reverse.head?.any kind = false ↔ ∀ c ∈ a.getLast?, kind c = false := by
  rw [List.head?_reverse]
  cases a.getLast? with
  | none => simp
  | some c => simp

/-- At every position of the front, one rule applies for all windows. -/
theorem uniform_front (over_ : Window window front) (after : Text) (split : front = a ++ left)
    (nonempty : left ≠ []) : Uniform secretRule window a.reverse left after := by
  have bordered := over_.bordered split nonempty
  have unescaped : '%' ∉ left := fun here => over_.unescaped (split ▸ List.mem_append_right a here)
  have keyed (w : Text) (here : window w) : Keyed (w ++ after) := (over_.keyed w here).append after
  obtain ⟨authorized, startsAt, leads, chosen⟩ :=
    authorizationValueStart_front a.reverse bordered
  obtain ⟨carried, carriedAt, carries⟩ :=
    bearerValueStart_front a.reverse bordered unescaped
  obtain ⟨assigned, assignedAt, assigns⟩ :=
    assignmentValueStart_front a.reverse bordered
  cases authorized with
  | some value =>
    obtain ⟨lead, parts, leads⟩ := leads value rfl
    refine uniform_of_settles (over_.settles_value after split parts leads (.inr over_.clear))
      nonempty ?_
    intro w here
    simp only [secretRule, startsAt _ (keyed w here), Option.map_some]
  | none =>
    cases carried with
    | some value =>
      obtain ⟨word, space, parts, same, fresh, some, spaces⟩ := carries value rfl
      have opens : Opens (a ++ (word ++ space)) := by
        refine .inr ⟨a, word, space, by rw [List.append_assoc], head?_reverse_any.mp fresh, ?_, some,
          spaces⟩
        have same : lowercase word = lowercase bearerWord := by simpa [eqIgnoreAsciiCase] using same
        exact same.trans (by decide)
      refine uniform_of_settles (settles_unquoted after parts (over_.ends_of_opens split parts opens))
        nonempty ?_
      intro w here
      simp only [secretRule, startsAt _ (keyed w here), carriedAt _ (keyed w here), Option.map_none,
        Option.map_some]
      rw [parts, List.append_assoc, redactToken_eq]
    | none =>
      obtain ⟨c, rest, rfl⟩ := List.exists_cons_of_ne_nil nonempty
      have first (x : Text) : ((c :: rest) ++ x).head?.any isAssignmentKeyChar = isAssignmentKeyChar c :=
        rfl
      cases begins : isAssignmentKeyChar c && !a.reverse.head?.any isAssignmentKeyChar with
      | false =>
        refine .copies nonempty fun w here => ?_
        simp only [secretRule, startsAt _ (keyed w here), carriedAt _ (keyed w here),
          Option.map_none, first, begins, Bool.false_eq_true, if_false]
      | true =>
        rw [Bool.and_eq_true, Bool.not_eq_true'] at begins
        have key (x : Text) := takeWhile_key_front (x := x) bordered
        have rule (w : Text) (here : window w) (hit : Hit Char)
            (found : assigned.elim (((c :: rest).takeWhile isAssignmentKeyChar).length,
                (c :: rest).takeWhile isAssignmentKeyChar) (fun value =>
              redactValue isUnquotedValueDelim (c :: rest ++ (w ++ after)) (value ++ (w ++ after))) =
              hit) :
            secretRule a.reverse (c :: rest ++ (w ++ after)) = some hit := by
          simp only [secretRule, startsAt _ (keyed w here), carriedAt _ (keyed w here),
            Option.map_none, first, begins, assignedAt _ (keyed w here), (key _).1]
          cases assigned <;> exact congrArg some found
        cases assigned with
        | some value =>
          obtain ⟨middle, parts, separates, sensitive, same⟩ := assigns value rfl
          have opens : Opens (a ++ ((c :: rest).takeWhile isAssignmentKeyChar ++ middle)) := by
            refine .inl ⟨a, _, middle, by rw [List.append_assoc], head?_reverse_any.mp begins.2,
              by simp [begins.1], fun d => List.mem_takeWhile_imp, sensitive, ?_, separates⟩
            -- for that key the authorization rule would have matched
            intro authorization
            have length : ((c :: rest).takeWhile isAssignmentKeyChar).length = 13 := by
              have := congrArg List.length authorization
              rw [lowercase, List.length_map] at this
              exact this.trans (by decide)
            have taken : (c :: rest).take 13 = (c :: rest).takeWhile isAssignmentKeyChar := by
              rw [← length]
              exact (List.prefix_iff_eq_take.mp (List.takeWhile_prefix _)).symm
            have := chosen begins.2 (by
              rw [taken, eqIgnoreAsciiCase, authorization]
              decide)
            rw [← length, ← same] at this
            cases this
          refine uniform_of_settles (over_.settles_value after split parts separates.leads
            (over_.ends_of_opens split parts opens)) nonempty fun w here => rule w here _ rfl
        | none =>
          exact .within _ (Nat.le_of_lt (key []).2) nonempty fun w here => rule w here _ rfl

theorem secretRule_eq_none (before rest : Text) {c : Char} (other : isAssignmentKeyChar c = false) :
    secretRule before (c :: rest) = none := by
  have noWord {n : Nat} {word : Text} (positive : 0 < n)
      (letters : ∀ c ∈ lowercase word, c.isLower = true) :
      eqIgnoreAsciiCase ((c :: rest).take n) word = false := by
    obtain ⟨n, rfl⟩ : ∃ m, n = m + 1 := ⟨n - 1, by omega⟩
    by_contra same
    have := isTokenChar_of_eqIgnoreAsciiCase letters (Bool.of_not_eq_false same) c (by simp)
    simp [isAssignmentKeyChar, this] at other
  have authorization : authorizationValueStart before (c :: rest) = none := by
    rw [authorizationValueStart, noWord (by decide) letters_authorizationWord]
    simp
  have bearer : bearerValueStart before (c :: rest) = none := by
    rw [bearerValueStart, noWord (by decide) letters_bearerWord]
    simp
  simp [secretRule, authorization, bearer, other]

theorem secretRule_forgets (fresh : ∀ c ∈ after.head?, isAssignmentKeyChar c = false) (later : Nat)
    (past past' : Text) :
    run secretRule ((after.take later).reverse ++ past) (after.drop later) =
      run secretRule ((after.take later).reverse ++ past') (after.drop later) := by
  -- A rule looks at the last character that was read, and only at that.
  have near {one other : Text} (same : one.head? = other.head?) (rest : Text) :
      run secretRule one rest = run secretRule other rest := by
    refine run_congr (fun one other => one.head? = other.head?) (fun _ _ _ _ => rfl) ?_ same rest
    intro one other rest same
    simp only [secretRule, authorizationValueStart, bearerValueStart, assignmentValueStart,
      valueAfterKey, passQuote, same]
  cases after with
  | nil => simp
  | cons c after =>
    cases later with
    | zero =>
      have none (past : Text) := secretRule_eq_none past after (fresh c rfl)
      rw [List.take_zero, List.drop_zero, List.reverse_nil, List.nil_append, List.nil_append,
        run_none (none past), run_none (none past')]
      exact congrArg _ (near (by rfl) after)
    | succ later =>
      refine near ?_ _
      simp

theorem run_secretRule (over_ : Window window front)
    (fresh : ∀ c ∈ after.head?, isAssignmentKeyChar c = false)
    (final : ∃ later written, ∀ w, window w →
      secretRule front.reverse (w ++ after) = some (w.length + later, written)) {w w' : Text}
    (one : window w) (other : window w') :
    run secretRule [] (front ++ (w ++ after)) = run secretRule [] (front ++ (w' ++ after)) := by
  refine run_window secretRule_advances (fun w here => (over_.keyed w here).ne_nil) ?_
    (secretRule_forgets fresh) one other
  intro a left split
  by_cases nonempty : left = []
  · subst nonempty
    rw [List.append_nil] at split
    subst split
    obtain ⟨later, written, found⟩ := final
    refine .across later written fun w here => ?_
    rw [List.nil_append, found w here, List.length_nil, Nat.zero_add]
  · exact over_.uniform_front after split nonempty

end Window

end RustyCat.Log
