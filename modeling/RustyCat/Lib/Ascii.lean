import Mathlib.Data.List.DropRight

/-!
# Texts as lists of characters

Trimming, cutting at a separator, and decimal numbers that are written and read
back.
-/

namespace Ascii

universe u

variable {α : Type u}

-- a bounded quantifier over characters is decided along the bound
instance (priority := high) decidableBAll {p : Char → Prop} [DecidablePred p] (l : List Char) :
    Decidable (∀ c, c ∈ l → p c) := List.decidableBAll p l

instance (priority := high) decidableOption {p : Char → Prop} [DecidablePred p] (o : Option Char) :
    Decidable (∀ c, c ∈ o → p c) := Option.decidableForallMem o

/-- Drops what satisfies `p` at both ends. -/
def trim (p : α → Bool) (l : List α) : List α :=
  (l.dropWhile p).rdropWhile p

variable {l before : List α} {sep : α} {n : Nat}

theorem trim_eq_self {p : α → Bool} (first : ∀ a ∈ l.head?, p a = false)
    (last : ∀ a ∈ l.getLast?, p a = false) : trim p l = l := by
  have front : l.dropWhile p = l := by
    cases l with
    | nil => rfl
    | cons a l => simp [first a rfl]
  rw [trim, front, List.rdropWhile_eq_self_iff]
  intro nonempty
  simp [last _ (List.getLast?_eq_getLast_of_ne_nil nonempty)]

theorem trim_eq_self_of_forall {p : α → Bool} (none : ∀ a ∈ l, p a = false) :
    trim p l = l :=
  trim_eq_self (fun a head => none a (List.mem_of_mem_head? head))
    fun a last => none a (List.mem_of_getLast? last)

/-- Both ends stay. -/
def Solid (p : α → Bool) (l : List α) : Prop :=
  (∃ a ∈ l.head?, p a = false) ∧ ∃ a ∈ l.getLast?, p a = false

theorem Solid.between {p : α → Bool} {last : List α} (first : Solid p l) (second : Solid p last)
    (middle : List α) : Solid p (l ++ middle ++ last) := by
  obtain ⟨a, head, stays⟩ := first.1
  obtain ⟨b, final, stays'⟩ := second.2
  refine ⟨⟨a, ?_, stays⟩, b, ?_, stays'⟩
  · rw [List.append_assoc]
    exact List.mem_head?_append_of_mem_head? head
  · exact List.mem_getLast?_append_of_mem_getLast? final

theorem trim_append {p : α → Bool} {front back : List α} (solid : Solid p l)
    (leading : ∀ a ∈ front, p a = true) (trailing : ∀ a ∈ back, p a = true) :
    trim p (front ++ l ++ back) = l := by
  obtain ⟨⟨a, head, stays⟩, b, final, stays'⟩ := solid
  obtain ⟨rest, rfl⟩ := List.head?_eq_some_iff.mp head
  have start : (front ++ a :: rest ++ back).dropWhile p = a :: rest ++ back := by
    rw [List.append_assoc, List.dropWhile_append_of_pos leading, List.cons_append,
      List.dropWhile_cons_of_neg (by simp [stays])]
  rw [trim, start, List.rdropWhile, List.reverse_append,
    List.dropWhile_append_of_pos fun a member => trailing a (List.mem_reverse.mp member)]
  obtain ⟨rest', same⟩ := List.getLast?_eq_some_iff.mp final
  rw [same, List.reverse_append, List.reverse_singleton, List.singleton_append,
    List.dropWhile_cons_of_neg (by simp [stays'])]
  simp

theorem exists_trim (p : α → Bool) (l : List α) : ∃ front back, l = front ++ trim p l ++ back ∧
    (∀ a ∈ front, p a = true) ∧ ∀ a ∈ back, p a = true := by
  have front := List.takeWhile_append_dropWhile (p := p) (l := l)
  have back := congrArg List.reverse
    (List.takeWhile_append_dropWhile (p := p) (l := (l.dropWhile p).reverse))
  rw [List.reverse_append, List.reverse_reverse] at back
  refine ⟨l.takeWhile p, ((l.dropWhile p).reverse.takeWhile p).reverse, ?_,
    fun a => List.mem_takeWhile_imp, fun a member => ?_⟩
  · rw [List.append_assoc, trim, List.rdropWhile, back, front]
  · exact List.mem_takeWhile_imp (List.mem_reverse.mp member)

/-- What comes before and after the first separator. -/
def splitOnce [DecidableEq α] (sep : α) : List α → Option (List α × List α)
  | [] => none
  | a :: l => if a = sep then some ([], l) else (splitOnce sep l).map fun cut => (a :: cut.1, cut.2)

theorem splitOnce_append_left [DecidableEq α] {front : List α} (absent : sep ∉ front) (l : List α) :
    splitOnce sep (front ++ l) = (splitOnce sep l).map fun cut => (front ++ cut.1, cut.2) := by
  induction front with
  | nil => simp
  | cons a front ih =>
    rw [List.mem_cons, not_or] at absent
    simp [splitOnce, Ne.symm absent.1, ih absent.2, Function.comp_def]

theorem splitOnce_append [DecidableEq α] (none : sep ∉ before)
    (after : List α) : splitOnce sep (before ++ sep :: after) = some (before, after) := by
  simp [splitOnce_append_left none, splitOnce]

theorem splitOnce_append_right [DecidableEq α] {after : List α}
    (cut : splitOnce sep l = some (before, after)) (rest : List α) :
    splitOnce sep (l ++ rest) = some (before, after ++ rest) := by
  induction l generalizing before with
  | nil => cases cut
  | cons a l ih =>
    simp only [splitOnce, List.cons_append] at cut ⊢
    split_ifs at cut ⊢
    · cases cut
      rfl
    · obtain ⟨⟨start, stop⟩, later, same⟩ := Option.map_eq_some_iff.mp cut
      cases same
      rw [ih later]
      rfl

theorem splitOnce_of_mem [DecidableEq α] (member : sep ∈ l) :
    ∃ after, splitOnce sep l = some (l.takeWhile (· ≠ sep), after) := by
  induction l with
  | nil => cases member
  | cons a l ih =>
    by_cases same : a = sep
    · exact ⟨l, by simp [splitOnce, same]⟩
    · obtain ⟨after, later⟩ := ih ((List.mem_cons.mp member).resolve_left (Ne.symm same))
      exact ⟨after, by simp [splitOnce, same, later]⟩

theorem splitOnce_of_not_mem [DecidableEq α] (absent : sep ∉ l) :
    splitOnce sep l = none := by
  simpa [splitOnce] using splitOnce_append_left absent []

theorem append_of_splitOnce [DecidableEq α] {after : List α}
    (cut : splitOnce sep l = some (before, after)) : l = before ++ sep :: after := by
  induction l generalizing before with
  | nil => cases cut
  | cons a l ih =>
    simp only [splitOnce] at cut
    split_ifs at cut with same
    · cases cut
      simp [same]
    · obtain ⟨⟨start, stop⟩, later, same⟩ := Option.map_eq_some_iff.mp cut
      cases same
      simp [ih later]

/-- The characters with the property `White_Space`. -/
def isWhitespace (c : Char) : Bool :=
  let n := c.toNat
  (9 ≤ n && n ≤ 13) || n = 0x20 || n = 0x85 || n = 0xA0 || n = 0x1680 ||
    (0x2000 ≤ n && n ≤ 0x200A) || n = 0x2028 || n = 0x2029 || n = 0x202F || n = 0x205F ||
    n = 0x3000

theorem isDigit_iff {c : Char} : c.isDigit = true ↔ 48 ≤ c.toNat ∧ c.toNat ≤ 57 := by
  simp only [Char.isDigit, ge_iff_le, Bool.and_eq_true, decide_eq_true_eq, UInt32.le_iff_toNat_le]
  rfl

def decimal (n : Nat) : List Char := Nat.toDigits 10 n

theorem isDigit_of_mem_decimal {c : Char} (member : c ∈ decimal n) : c.isDigit = true :=
  Nat.isDigit_of_mem_toDigits (by decide) (by decide) member

theorem decimal_ne_nil (n : Nat) : decimal n ≠ [] :=
  Nat.toDigits_ne_nil

/-- Reads an unsigned number of at most `bound`; a plus sign may precede the digits. -/
def parseUnsigned (bound : Nat) (text : List Char) : Option Nat :=
  let digits := match text with
    | '+' :: rest => rest
    | _ => text
  if digits ≠ [] ∧ digits.all Char.isDigit then
    let n := Nat.ofDigitChars 10 digits 0
    if n ≤ bound then some n else none
  else none

/-- A digit string that denotes the number. -/
def Numeral (n : Nat) (text : List Char) : Prop :=
  text ≠ [] ∧ (∀ c ∈ text, c.isDigit = true) ∧ Nat.ofDigitChars 10 text 0 = n

theorem numeral_decimal (n : Nat) : Numeral n (decimal n) :=
  ⟨decimal_ne_nil n, fun _ => isDigit_of_mem_decimal,
    Nat.ofDigitChars_toDigits (by decide) (by decide)⟩

theorem parseUnsigned_eq_some {bound : Nat} {text : List Char} :
    parseUnsigned bound text = some n ↔
      n ≤ bound ∧ ∃ digits, Numeral n digits ∧ (text = digits ∨ text = '+' :: digits) := by
  have number (digits : List Char) :
      (if digits ≠ [] ∧ digits.all Char.isDigit = true then
        if Nat.ofDigitChars 10 digits 0 ≤ bound then some (Nat.ofDigitChars 10 digits 0) else none
      else none) = some n ↔ n ≤ bound ∧ Numeral n digits := by
    simp only [Option.ite_none_right_eq_some, Option.some.injEq, List.all_eq_true, Numeral]
    constructor
    · rintro ⟨⟨some, digits⟩, fits, rfl⟩
      exact ⟨fits, some, digits, rfl⟩
    · rintro ⟨fits, some, digits, rfl⟩
      exact ⟨⟨some, digits⟩, fits, rfl⟩
  simp only [parseUnsigned]
  split
  · rename_i rest
    rw [number]
    refine and_congr_right fun _ => ⟨fun numeral => ⟨rest, numeral, .inr rfl⟩, ?_⟩
    rintro ⟨digits, numeral, rfl | same⟩
    · exact absurd (numeral.2.1 '+' List.mem_cons_self) (by decide)
    · cases same
      exact numeral
  · rename_i unsigned
    rw [number]
    refine and_congr_right fun _ => ⟨fun numeral => ⟨text, numeral, .inl rfl⟩, ?_⟩
    rintro ⟨digits, numeral, rfl | same⟩
    · exact numeral
    · exact absurd same (unsigned digits)

end Ascii
