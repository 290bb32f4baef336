import Mathlib.Data.List.Basic
import Mathlib.Algebra.Order.Group.Nat

/-!
# Fixed-width fields

Little-endian numbers and reads of an exact length, as a binary header uses them.
-/

namespace Codec

/-- The number in `width` bytes, the lowest first. -/
def toLE : Nat → Nat → List UInt8
  | 0, _ => []
  | width + 1, n => UInt8.ofNat n :: toLE width (n / 256)

def fromLE : List UInt8 → Nat
  | [] => 0
  | byte :: rest => byte.toNat + 256 * fromLE rest

@[simp] theorem length_toLE (width n : Nat) : (toLE width n).length = width := by
  induction width generalizing n with
  | zero => rfl
  | succ width ih => simp [toLE, ih]

theorem fromLE_toLE {width n : Nat} (fits : n < 256 ^ width) : fromLE (toLE width n) = n := by
  induction width generalizing n with
  | zero =>
    rw [Nat.pow_zero] at fits
    simp [toLE, fromLE]
    omega
  | succ width ih =>
    have rest : n / 256 < 256 ^ width := by
      rw [Nat.pow_succ] at fits
      omega
    rw [toLE, fromLE, ih rest, UInt8.toNat_ofNat']
    omega

theorem toLE_fromLE (bytes : List UInt8) :
    fromLE bytes < 256 ^ bytes.length ∧ toLE bytes.length (fromLE bytes) = bytes := by
  induction bytes with
  | nil => exact ⟨Nat.one_pos, rfl⟩
  | cons byte bytes ih =>
    have small := byte.toNat_lt
    obtain ⟨bound, same⟩ := ih
    constructor
    · rw [fromLE, List.length_cons, Nat.pow_succ]
      omega
    · have low : UInt8.ofNat (byte.toNat + 256 * fromLE bytes) = byte := by
        rw [← UInt8.toNat_inj, UInt8.toNat_ofNat']
        omega
      have high : (byte.toNat + 256 * fromLE bytes) / 256 = fromLE bytes := by omega
      rw [List.length_cons, fromLE, toLE, low, high, same]

/-- The first `len` bytes and the rest, when there are as many. -/
def readExact (len : Nat) (bytes : List UInt8) : Option (List UInt8 × List UInt8) :=
  if len ≤ bytes.length then some (bytes.take len, bytes.drop len) else none

theorem readExact_append {len : Nat} {field : List UInt8} (sized : field.length = len)
    (rest : List UInt8) : readExact len (field ++ rest) = some (field, rest) := by
  subst sized
  simp [readExact]

theorem readExact_eq_some {len : Nat} {bytes field rest : List UInt8} :
    readExact len bytes = some (field, rest) ↔ bytes = field ++ rest ∧ field.length = len := by
  constructor
  · intro read
    unfold readExact at read
    split_ifs at read with enough
    cases read
    exact ⟨(List.take_append_drop len bytes).symm, by simpa using enough⟩
  · rintro ⟨rfl, sized⟩
    exact readExact_append sized rest

/-- The rest after a field that must hold the number `value`. -/
def readNumber (width value : Nat) (bytes : List UInt8) : Option (List UInt8) := do
  let (field, rest) ← readExact width bytes
  if fromLE field ≠ value then none else some rest

/-- The rest after a field that must be `expected`. -/
def readBytes (expected bytes : List UInt8) : Option (List UInt8) := do
  let (field, rest) ← readExact expected.length bytes
  if field ≠ expected then none else some rest

theorem readNumber_eq_some {width value : Nat} {bytes rest : List UInt8} :
    readNumber width value bytes = some rest ↔
      value < 256 ^ width ∧ bytes = toLE width value ++ rest := by
  simp only [readNumber, Option.bind_eq_bind, Option.bind_eq_some_iff, Prod.exists,
    readExact_eq_some, ite_not, Option.ite_none_right_eq_some, Option.some.injEq]
  constructor
  · rintro ⟨field, _, ⟨rfl, sized⟩, rfl, rfl⟩
    rw [← sized]
    exact ⟨(toLE_fromLE field).1, by rw [(toLE_fromLE field).2]⟩
  · rintro ⟨fits, rfl⟩
    exact ⟨_, rest, ⟨rfl, length_toLE width value⟩, fromLE_toLE fits, rfl⟩

theorem readBytes_eq_some {expected bytes rest : List UInt8} :
    readBytes expected bytes = some rest ↔ bytes = expected ++ rest := by
  simp only [readBytes, Option.bind_eq_bind, Option.bind_eq_some_iff, Prod.exists,
    readExact_eq_some, ite_not, Option.ite_none_right_eq_some, Option.some.injEq]
  constructor
  · rintro ⟨_, _, ⟨rfl, -⟩, rfl, rfl⟩
    rfl
  · rintro rfl
    exact ⟨expected, rest, ⟨rfl, rfl⟩, rfl, rfl⟩

theorem toLE_append_inj {width n m : Nat} {first second : List UInt8}
    (fits : n < 256 ^ width) (fits' : m < 256 ^ width)
    (same : toLE width n ++ first = toLE width m ++ second) : n = m ∧ first = second := by
  obtain ⟨field, rest⟩ := List.append_inj same (by simp)
  refine ⟨?_, rest⟩
  rw [← fromLE_toLE fits, field, fromLE_toLE fits']

/-! ## Self-delimiting codes -/

section

variable {α : Type} {P : α → Prop} {code : α → List UInt8} {l m : List α}

/-- Where the code of an element with `P` ends can be told from the code alone. -/
def SelfDelimiting (P : α → Prop) (code : α → List UInt8) : Prop :=
  ∀ ⦃a b x y⦄, P a → P b → code a ++ x = code b ++ y → a = b ∧ x = y

namespace SelfDelimiting

theorem flatMap (delimited : SelfDelimiting P code) {x y : List UInt8}
    (sized : l.length = m.length) (left : ∀ a ∈ l, P a) (right : ∀ a ∈ m, P a)
    (same : l.flatMap code ++ x = m.flatMap code ++ y) : l = m ∧ x = y := by
  induction l generalizing m with
  | nil =>
    obtain rfl := List.length_eq_zero_iff.mp sized.symm
    exact ⟨rfl, same⟩
  | cons a l ih =>
    cases m with
    | nil => cases sized
    | cons b m =>
      rw [List.forall_mem_cons] at left right
      simp only [List.flatMap_cons, List.append_assoc] at same
      obtain ⟨rfl, tails⟩ := delimited left.1 right.1 same
      obtain ⟨rfl, rest⟩ := ih (Nat.succ.inj sized) left.2 right.2 tails
      exact ⟨rfl, rest⟩

theorem flatMap_inj (delimited : SelfDelimiting P code) (nonempty : ∀ a, code a ≠ [])
    (left : ∀ a ∈ l, P a) (right : ∀ a ∈ m, P a) (same : l.flatMap code = m.flatMap code) :
    l = m := by
  induction l generalizing m with
  | nil =>
    cases m with
    | nil => rfl
    | cons b m => exact absurd (List.append_eq_nil_iff.mp same.symm).1 (nonempty b)
  | cons a l ih =>
    cases m with
    | nil => exact absurd (List.append_eq_nil_iff.mp same).1 (nonempty a)
    | cons b m =>
      rw [List.forall_mem_cons] at left right
      obtain ⟨rfl, rest⟩ := delimited left.1 right.1 same
      rw [ih left.2 right.2 rest]

end SelfDelimiting

end

/-- The number in `width` bytes, the highest first. -/
def toBE (width n : Nat) : List UInt8 := (toLE width n).reverse

theorem selfDelimiting_toBE (width : Nat) : SelfDelimiting (· < 256 ^ width) (toBE width) := by
  intro n m x y fits fits' same
  obtain ⟨number, rest⟩ := List.append_inj same (by simp [toBE])
  refine ⟨?_, rest⟩
  rw [← fromLE_toLE fits, List.reverse_injective number, fromLE_toLE fits']

/-- Bytes behind their number. -/
def field (width : Nat) (bytes : List UInt8) : List UInt8 := toBE width bytes.length ++ bytes

theorem selfDelimiting_field (width : Nat) :
    SelfDelimiting (·.length < 256 ^ width) (field width) := by
  intro a b x y fits fits' same
  simp only [field, List.append_assoc] at same
  obtain ⟨sized, same⟩ := selfDelimiting_toBE width fits fits' same
  exact List.append_inj same sized

end Codec
