import Mathlib.Algebra.Order.Group.Nat

/-!
# Unsigned machine words as bounded naturals

Checked and saturating operations on naturals below `2 ^ w`.
-/

namespace Word

def maxVal (w : Nat) : Nat := 2 ^ w - 1

def saturatingAdd (w a b : Nat) : Nat := min (a + b) (maxVal w)

def checkedAdd (w a b : Nat) : Option Nat :=
  if a + b ≤ maxVal w then some (a + b) else none

def checkedMul (w a b : Nat) : Option Nat :=
  if a * b ≤ maxVal w then some (a * b) else none

def checkedSub (a b : Nat) : Option Nat :=
  if b ≤ a then some (a - b) else none

theorem min_saturatingAdd {w bound : Nat} (representable : bound ≤ maxVal w) (a b : Nat) :
    min (saturatingAdd w a b) bound = min (a + b) bound := by
  unfold saturatingAdd
  omega

theorem checkedAdd_eq_some {w a b c : Nat} :
    checkedAdd w a b = some c ↔ a + b ≤ maxVal w ∧ c = a + b := by
  unfold checkedAdd
  split
  · rename_i fits
    simp [fits, eq_comm]
  · rename_i overflow
    simp [overflow]

theorem checkedMul_eq_some {w a b c : Nat} :
    checkedMul w a b = some c ↔ a * b ≤ maxVal w ∧ c = a * b := by
  unfold checkedMul
  split
  · rename_i fits
    simp [fits, eq_comm]
  · rename_i overflow
    simp [overflow]

end Word
