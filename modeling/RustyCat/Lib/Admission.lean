import Mathlib.Data.List.Basic
import Mathlib.Data.List.Perm.Basic
import Mathlib.Logic.Function.Basic

/-!
# First come, first served, class by class

A queue of elements of several classes and a number of free places for each
class.  An element is admitted if its class has a free place when its turn comes;
the others stay in line.
-/

namespace Admission

open Function

variable {α γ : Type} [DecidableEq γ] (cls : α → γ)

def admission : (γ → Nat) → List α → List α × List α
  | _, [] => ([], [])
  | free, a :: rest =>
    if 0 < free (cls a) then
      let (taken, left) := admission (update free (cls a) (free (cls a) - 1)) rest
      (a :: taken, left)
    else
      let (taken, left) := admission free rest
      (taken, a :: left)

variable {cls} {free : γ → Nat} {a : α} {rest l : List α}

theorem admission_free (room : 0 < free (cls a)) :
    admission cls free (a :: rest) =
      (a :: (admission cls (update free (cls a) (free (cls a) - 1)) rest).1,
        (admission cls (update free (cls a) (free (cls a) - 1)) rest).2) := by
  rw [admission, if_pos room]

theorem admission_blocked (full : free (cls a) = 0) :
    admission cls free (a :: rest) = ((admission cls free rest).1, a :: (admission cls free rest).2) := by
  rw [admission, if_neg (by omega)]

/-- Of each class the earliest elements are admitted, as many as have a place. -/
theorem filter_admission (c : γ) (free : γ → Nat) (l : List α) :
    (admission cls free l).1.filter (cls · = c) = (l.filter (cls · = c)).take (free c) ∧
      (admission cls free l).2.filter (cls · = c) = (l.filter (cls · = c)).drop (free c) := by
  induction l generalizing free with
  | nil => simp [admission]
  | cons a rest ih =>
    by_cases same : cls a = c
    · subst same
      obtain full | room := Nat.eq_zero_or_pos (free (cls a))
      · have later := ih free
        rw [full] at later
        simp only [admission_blocked full, List.filter_cons, decide_true, if_true, full, later]
        simp
      · have later := ih (update free (cls a) (free (cls a) - 1))
        obtain ⟨n, places⟩ : ∃ n, free (cls a) = n + 1 := ⟨free (cls a) - 1, by omega⟩
        simp only [update_self] at later
        simp only [admission_free room, List.filter_cons, decide_true, if_true, later]
        simp [places]
    · obtain full | room := Nat.eq_zero_or_pos (free (cls a))
      · simp only [admission_blocked full, List.filter_cons, same, decide_false, Bool.false_eq_true,
          if_false]
        exact ih free
      · have later := ih (update free (cls a) (free (cls a) - 1))
        rw [update_of_ne (Ne.symm same)] at later
        simp only [admission_free room, List.filter_cons, same, decide_false, Bool.false_eq_true,
          if_false]
        exact later

theorem admission_perm (free : γ → Nat) (l : List α) :
    ((admission cls free l).1 ++ (admission cls free l).2).Perm l := by
  induction l generalizing free with
  | nil => exact .refl _
  | cons a rest ih =>
    obtain full | room := Nat.eq_zero_or_pos (free (cls a))
    · rw [admission_blocked full]
      exact List.perm_middle.trans (.cons a (ih free))
    · rw [admission_free room]
      exact .cons a (ih _)

theorem left_sublist (free : γ → Nat) (l : List α) : (admission cls free l).2.Sublist l := by
  induction l generalizing free with
  | nil => exact .slnil
  | cons a rest ih =>
    obtain full | room := Nat.eq_zero_or_pos (free (cls a))
    · rw [admission_blocked full]
      exact (ih free).cons_cons a
    · rw [admission_free room]
      exact (ih _).cons a

theorem admission_full (full : ∀ a ∈ l, free (cls a) = 0) : admission cls free l = ([], l) := by
  induction l with
  | nil => rfl
  | cons a rest ih =>
    rw [admission_blocked (full a List.mem_cons_self),
      ih fun b member => full b (List.mem_cons_of_mem a member)]

/-- A class with someone left in line has used all its places. -/
theorem length_taken (left : a ∈ (admission cls free l).2) :
    ((admission cls free l).1.filter (cls · = cls a)).length = free (cls a) := by
  have waiting : a ∈ (admission cls free l).2.filter (cls · = cls a) :=
    List.mem_filter.mpr ⟨left, by simp⟩
  obtain ⟨taken, dropped⟩ := @filter_admission α γ _ cls (cls a) free l
  rw [dropped] at waiting
  have more := List.length_pos_of_mem waiting
  rw [List.length_drop] at more
  rw [taken, List.length_take]
  omega

end Admission
