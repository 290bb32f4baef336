import Mathlib.Algebra.BigOperators.Group.Finset.Basic
import Mathlib.Algebra.Order.BigOperators.Group.Finset
import Mathlib.Data.Nat.Basic
import Mathlib.Tactic.Ring

/-!
# Grids of consecutive cells

The cells of `[start, bound)` of a fixed width; the last one may be shorter.  A
cell is named by its first element, and `next` is where it ends.  A prefix grows
one cell at a time, so a property of all cells below a point is kept when the
point moves to the next one.
-/

namespace Grid

variable {start width bound : Nat}

/-- The end of the cell that begins at `x`. -/
def next (width bound x : Nat) : Nat := min (x + width) bound

/-- `p` is the first element of a cell. -/
def Point (start width bound p : Nat) : Prop :=
  p < bound ∧ ∃ k, p = start + k * width

/-- `x` is the first element of a cell or the end of the last one. -/
def Edge (start width bound x : Nat) : Prop :=
  x = bound ∨ Point start width bound x

/-- Every cell below `x` has the property. -/
def Below (start width bound : Nat) (P : Nat → Prop) (x : Nat) : Prop :=
  ∀ p, Point start width bound p → p < x → P p

variable {p x : Nat}

theorem Point.start_le (point : Point start width bound p) : start ≤ p := by
  obtain ⟨_, k, rfl⟩ := point
  omega

theorem point_start (room : start < bound) : Point start width bound start :=
  ⟨room, 0, by omega⟩

theorem edge_start (room : start ≤ bound) : Edge start width bound start := by
  rcases Nat.lt_or_eq_of_le room with below | same
  · exact Or.inr (point_start below)
  · exact Or.inl same

theorem Edge.le (edge : Edge start width bound x) : x ≤ bound := by
  rcases edge with rfl | point
  · exact Nat.le_refl _
  · exact Nat.le_of_lt point.1

theorem Edge.point (edge : Edge start width bound x) (room : x < bound) :
    Point start width bound x := by
  rcases edge with rfl | point
  · omega
  · exact point

theorem next_le (x : Nat) : next width bound x ≤ bound := Nat.min_le_right _ _

theorem lt_next (positive : 0 < width) (room : x < bound) :
    x < next width bound x := by
  simp only [next]
  omega

theorem edge_next (point : Point start width bound p) :
    Edge start width bound (next width bound p) := by
  obtain ⟨_, k, rfl⟩ := point
  simp only [next]
  rcases Nat.lt_or_ge (start + k * width + width) bound with inside | outside
  · right
    rw [Nat.min_eq_left (Nat.le_of_lt inside)]
    exact ⟨inside, k + 1, by ring⟩
  · left
    exact Nat.min_eq_right outside

theorem le_of_lt_next {q : Nat} (first : Point start width bound p)
    (second : Point start width bound q) (before : p < next width bound q) : p ≤ q := by
  obtain ⟨_, k, rfl⟩ := first
  obtain ⟨_, m, rfl⟩ := second
  have close : start + k * width < start + m * width + width :=
    Nat.lt_of_lt_of_le before (Nat.min_le_left _ _)
  have fewer : k * width < (m + 1) * width := by
    rw [Nat.add_mul]
    omega
  have ordered : k ≤ m := Nat.le_of_lt_succ (Nat.lt_of_mul_lt_mul_right fewer)
  have scaled := Nat.mul_le_mul_right width ordered
  omega

theorem below_start (P : Nat → Prop) : Below start width bound P start := by
  intro p point before
  exact absurd point.start_le (by omega)

theorem Below.mono {P Q : Nat → Prop} (covered : Below start width bound P x)
    (implies : ∀ p, P p → Q p) : Below start width bound Q x :=
  fun p point before => implies p (covered p point before)

theorem Below.next {P : Nat → Prop} (covered : Below start width bound P x)
    (point : Point start width bound x) (holds : P x) :
    Below start width bound P (next width bound x) := by
  intro p other before
  rcases Nat.lt_or_eq_of_le (le_of_lt_next other point before) with below | same
  · exact covered p other below
  · rw [same]
    exact holds

theorem next_le_of_lt {q : Nat} (first : Point start width bound p)
    (second : Point start width bound q) (before : p < q) : next width bound p ≤ q := by
  by_contra inside
  exact absurd (le_of_lt_next second first (Nat.lt_of_not_le inside)) (by omega)

/-- What holds at the start and passes from a cell to its end holds at every edge. -/
theorem Edge.induction {Q : Nat → Prop} (positive : 0 < width) (edge : Edge start width bound x)
    (above : start ≤ x) (base : Q start)
    (step : ∀ p, Point start width bound p → p < x → Q p → Q (next width bound p)) : Q x := by
  have points : ∀ k, start + k * width < bound → start + k * width ≤ x →
      Q (start + k * width) := by
    intro k
    induction k with
    | zero =>
      intro _ _
      rw [Nat.zero_mul, Nat.add_zero]
      exact base
    | succ k ih =>
      intro inside reached
      rw [Nat.add_mul, Nat.one_mul, ← Nat.add_assoc] at inside reached ⊢
      have here : Point start width bound (start + k * width) := ⟨by omega, k, rfl⟩
      have moved := step _ here (by omega) (ih (by omega) (by omega))
      rw [next, Nat.min_eq_left (by omega)] at moved
      exact moved
  rcases edge with rfl | ⟨inside, k, rfl⟩
  · -- the last cell is the one that reaches the bound
    rcases Nat.lt_or_eq_of_le above with room | rfl
    · have split := Nat.div_add_mod (x - 1 - start) width
      have small := Nat.mod_lt (x - 1 - start) positive
      rw [Nat.mul_comm] at split
      have last : Point start width x (start + (x - 1 - start) / width * width) :=
        ⟨by omega, _, rfl⟩
      have moved := step _ last (by omega) (points _ (by omega) (by omega))
      rw [next, Nat.min_eq_right (by omega)] at moved
      exact moved
    · exact base
  · exact points k inside (Nat.le_refl _)

theorem exists_point (positive : 0 < width) (low : start ≤ x) (high : x < bound) :
    ∃ p, Point start width bound p ∧ p ≤ x ∧ x < next width bound p := by
  have split := Nat.div_add_mod (x - start) width
  have rest := Nat.mod_lt (x - start) positive
  rw [Nat.mul_comm] at split
  refine ⟨start + (x - start) / width * width, ⟨by omega, _, rfl⟩, by omega, ?_⟩
  exact Nat.lt_min.mpr ⟨by omega, high⟩

/-- The cells of a grid fill its range, the last one as far as it goes. -/
theorem sum_cells (width range n : Nat) :
    ∑ k ∈ Finset.range n, min (range - k * width) width = min (n * width) range := by
  induction n with
  | zero => simp
  | succ n ih =>
    rw [Finset.sum_range_succ, ih, Nat.succ_mul]
    omega

theorem sum_cells_le (width range : Nat) (cells : Finset Nat) :
    ∑ k ∈ cells, min (range - k * width) width ≤ min (cells.card * width) range := by
  refine Nat.le_min.mpr ⟨?_, ?_⟩
  · rw [← Nat.nsmul_eq_mul]
    exact Finset.sum_le_card_nsmul cells _ width fun k _ => Nat.min_le_right _ _
  · obtain ⟨n, bound⟩ := cells.exists_nat_subset_range
    calc ∑ k ∈ cells, min (range - k * width) width
        ≤ ∑ k ∈ Finset.range n, min (range - k * width) width :=
          Finset.sum_le_sum_of_subset bound
      _ = min (n * width) range := sum_cells width range n
      _ ≤ range := Nat.min_le_right _ _

theorem point_iff :
    Point start width bound p ↔ p < bound ∧ start ≤ p ∧ width ∣ p - start := by
  constructor
  · rintro ⟨inside, k, rfl⟩
    exact ⟨inside, by omega, k, by rw [Nat.add_sub_cancel_left, Nat.mul_comm]⟩
  · rintro ⟨inside, above, k, steps⟩
    exact ⟨inside, k, by rw [Nat.mul_comm, ← steps]; omega⟩

instance : DecidablePred (Point start width bound) := fun _ => decidable_of_iff _ point_iff.symm

instance : DecidablePred (Edge start width bound) := fun _ => inferInstanceAs (Decidable (_ ∨ _))

instance {P : Nat → Prop} [DecidablePred P] : DecidablePred (Below start width bound P) := fun x =>
  decidable_of_iff (∀ p < x, Point start width bound p → P p)
    ⟨fun holds p point before => holds p before point, fun covered p before point =>
      covered p point before⟩

end Grid
