import Mathlib.Data.List.Basic
import Mathlib.Tactic.IntervalCases

/-!
# Bitmaps packed into bytes

Bit `i` is bit `i % 8` of byte `i / 8`.  A bit outside the bytes reads as unset, and
writing it changes nothing.
-/

namespace Bitmap

/-- The byte whose only bit is that of index `i`. -/
def mask (i : Nat) : UInt8 := 1 <<< (i % 8).toUInt8

def test (bits : List UInt8) (i : Nat) : Bool :=
  match bits[i / 8]? with
  | some byte => byte &&& mask i != 0
  | none => false

def set (bits : List UInt8) (i : Nat) : List UInt8 :=
  bits.modify (i / 8) (· ||| mask i)

def clear (bits : List UInt8) (i : Nat) : List UInt8 :=
  bits.modify (i / 8) (· &&& ~~~ mask i)

def width (count : Nat) : Nat := (count + 7) / 8

def zeros (count : Nat) : List UInt8 := List.replicate (width count) 0

theorem mask_toBitVec (i : Nat) : (mask i).toBitVec = BitVec.twoPow 8 (i % 8) := by
  have small : i % 8 < 8 := Nat.mod_lt i (by decide)
  unfold mask
  generalize i % 8 = k at small
  interval_cases k <;> rfl

theorem and_mask (byte : UInt8) (i : Nat) :
    (byte &&& mask i != 0) = byte.toBitVec.getLsbD (i % 8) := by
  have small : i % 8 < 8 := Nat.mod_lt i (by decide)
  have meet : (byte &&& mask i).toBitVec =
      if byte.toBitVec.getLsbD (i % 8) then BitVec.twoPow 8 (i % 8) else 0#8 := by
    rw [UInt8.toBitVec_and, mask_toBitVec, BitVec.and_twoPow]
  have zero : (byte &&& mask i != 0) = true ↔ (byte &&& mask i).toBitVec ≠ 0#8 := by
    rw [bne_iff_ne, ne_eq, ← UInt8.toBitVec_inj]
    rfl
  rw [Bool.eq_iff_iff, zero, meet]
  split
  · rename_i isSet
    have here : (BitVec.twoPow 8 (i % 8)).getLsbD (i % 8) = true := by
      simp [small]
    refine ⟨fun _ => isSet, fun _ none => ?_⟩
    rw [none] at here
    simp at here
  · rename_i unset
    simp [unset]

theorem mod_ne_of_ne {i j : Nat} (different : i ≠ j) (same : i / 8 = j / 8) : j % 8 ≠ i % 8 := by
  omega

@[simp] theorem length_set (bits : List UInt8) (i : Nat) : (set bits i).length = bits.length :=
  List.length_modify _ _ _

@[simp] theorem length_clear (bits : List UInt8) (i : Nat) : (clear bits i).length = bits.length :=
  List.length_modify _ _ _

theorem test_modify (f : UInt8 → UInt8) (bits : List UInt8) (i j : Nat) :
    test (bits.modify (i / 8) f) j =
      if i / 8 = j / 8 then (bits[j / 8]?.map f).any (· &&& mask j != 0) else test bits j := by
  simp only [test, List.getElem?_modify]
  by_cases same : i / 8 = j / 8
  · cases bits[j / 8]? <;> simp [same]
  · cases bits[j / 8]? <;> simp [same]

theorem test_eq (bits : List UInt8) (i : Nat) :
    test bits i = bits[i / 8]?.any (fun byte => byte.toBitVec.getLsbD (i % 8)) := by
  simp only [test]
  cases bits[i / 8]? with
  | none => rfl
  | some byte => exact and_mask byte i

theorem test_set {bits : List UInt8} {i : Nat} (inside : i / 8 < bits.length) (j : Nat) :
    test (set bits i) j = (decide (i = j) || test bits j) := by
  rw [set, test_modify]
  split
  · rename_i same
    rw [test_eq, ← same, List.getElem?_eq_getElem inside]
    by_cases here : i = j
    · subst here
      simp [and_mask, mask_toBitVec, Nat.mod_lt]
    · simp [and_mask, mask_toBitVec, here, mod_ne_of_ne here same, Nat.mod_lt]
  · rename_i elsewhere
    have different : i ≠ j := fun same => elsewhere (congrArg (· / 8) same)
    simp [different]

theorem test_clear (bits : List UInt8) (i j : Nat) :
    test (clear bits i) j = (decide (i ≠ j) && test bits j) := by
  rw [clear, test_modify]
  split
  · rename_i same
    rw [test_eq]
    by_cases here : i = j
    · subst here
      cases bits[i / 8]? <;> simp [and_mask, mask_toBitVec, Nat.mod_lt]
    · cases bits[j / 8]? with
      | none => simp
      | some byte => simp [and_mask, mask_toBitVec, here, mod_ne_of_ne here same, Nat.mod_lt]
  · rename_i elsewhere
    have different : i ≠ j := fun same => elsewhere (congrArg (· / 8) same)
    simp [different]

@[simp] theorem length_zeros (count : Nat) : (zeros count).length = width count :=
  List.length_replicate

@[simp] theorem test_zeros (count i : Nat) : test (zeros count) i = false := by
  simp only [test, zeros, List.getElem?_replicate]
  split
  · rename_i byte found
    split_ifs at found
    cases found
    simp
  · rfl

theorem div_lt_width {count i : Nat} (inside : i < count) : i / 8 < width count := by
  unfold width
  omega

end Bitmap
