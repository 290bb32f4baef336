import Mathlib.Algebra.BigOperators.Group.List.Basic
import Mathlib.Algebra.Ring.Nat
import Mathlib.Data.List.Perm.Basic

/-!
# Counting and adding up in a list with one entry changed
-/

namespace ListCount

universe u

variable {α : Type u} {p : α → Bool} {l : List α} {index : Nat} {old : α}

variable (here : l[index]? = some old)
include here

theorem perm_eraseIdx : l.Perm (old :: l.eraseIdx index) := by
  obtain ⟨bound, rfl⟩ := List.getElem?_eq_some_iff.mp here
  exact (List.getElem_cons_eraseIdx_perm bound).symm

theorem set_perm (new : α) :
    (l.set index new).Perm (new :: l.eraseIdx index) := by
  obtain ⟨bound, rfl⟩ := List.getElem?_eq_some_iff.mp here
  exact List.set_perm_cons_eraseIdx bound new

theorem countP_eraseIdx :
    l.countP p = (l.eraseIdx index).countP p + if p old then 1 else 0 := by
  rw [(perm_eraseIdx here).countP_eq, List.countP_cons]

theorem countP_set (new : α) :
    (l.set index new).countP p + (if p old then 1 else 0) =
      l.countP p + if p new then 1 else 0 := by
  rw [(set_perm here new).countP_eq, List.countP_cons, countP_eraseIdx here]
  omega

theorem sum_map_eraseIdx {f : α → Nat} :
    (l.map f).sum = f old + ((l.eraseIdx index).map f).sum := by
  rw [((perm_eraseIdx here).map f).sum_eq, List.map_cons, List.sum_cons]

theorem sum_map_set {f : α → Nat} (new : α) :
    ((l.set index new).map f).sum + f old = (l.map f).sum + f new := by
  rw [((set_perm here new).map f).sum_eq, List.map_cons, List.sum_cons, sum_map_eraseIdx here]
  omega

end ListCount
