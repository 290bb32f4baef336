import Mathlib.Data.Finmap
import Mathlib.Data.Finset.Card

/-!
# Finite maps with constant value type

`HashMap κ α` is Mathlib's `Finmap` at a constant family, which is the
order-free content of a hash map.  The lemmas say what an insertion or an
erasure does to a lookup and to the number of keys that satisfy a predicate.
-/

universe u v

abbrev HashMap (κ : Type u) (α : Type v) := Finmap fun _ : κ => α

namespace HashMap

variable {κ : Type u} {α : Type v} [DecidableEq κ]

theorem lookup_insert_ite (m : HashMap κ α) (a b : κ) (x : α) :
    (m.insert a x).lookup b = if b = a then some x else m.lookup b := by
  by_cases same : b = a
  · subst same
    simp
  · rw [Finmap.lookup_insert_of_ne _ same, if_neg same]

theorem lookup_erase_ite (m : HashMap κ α) (a b : κ) :
    (m.erase a).lookup b = if b = a then none else m.lookup b := by
  by_cases same : b = a
  · subst same
    simp
  · rw [Finmap.lookup_erase_ne same, if_neg same]

theorem keys_insert (m : HashMap κ α) (a : κ) (x : α) :
    (m.insert a x).keys = Insert.insert a m.keys := by
  ext b
  simp [Finmap.mem_keys]

def countKeys (m : HashMap κ α) (p : κ → Prop) [DecidablePred p] : Nat :=
  (m.keys.filter p).card

omit [DecidableEq κ] in
@[simp] theorem countKeys_empty (p : κ → Prop) [DecidablePred p] :
    countKeys (∅ : HashMap κ α) p = 0 := by
  simp [countKeys]

theorem countKeys_insert_new (m : HashMap κ α) {a : κ} (x : α) (p : κ → Prop) [DecidablePred p]
    (new : m.lookup a = none) :
    countKeys (m.insert a x) p = countKeys m p + if p a then 1 else 0 := by
  have absent : a ∉ m.keys := by
    rw [Finmap.mem_keys]
    exact Finmap.lookup_eq_none.mp new
  unfold countKeys
  rw [keys_insert, Finset.filter_insert]
  by_cases member : p a
  · rw [if_pos member, if_pos member, Finset.card_insert_of_notMem]
    simp [absent]
  · rw [if_neg member, if_neg member, Nat.add_zero]

theorem countKeys_erase_present (m : HashMap κ α) {a : κ} (p : κ → Prop) [DecidablePred p]
    (present : a ∈ m) :
    countKeys (m.erase a) p + (if p a then 1 else 0) = countKeys m p := by
  unfold countKeys
  rw [Finmap.keys_erase, Finset.filter_erase]
  by_cases member : p a
  · rw [if_pos member, Finset.card_erase_add_one]
    simp [Finmap.mem_keys, present, member]
  · rw [if_neg member, Nat.add_zero, Finset.erase_eq_of_notMem]
    simp [member]

theorem erase_insert_self (m : HashMap κ α) (a : κ) (x : α) : (m.insert a x).erase a = m.erase a := by
  apply Finmap.ext_lookup
  intro b
  rw [lookup_erase_ite, lookup_erase_ite, lookup_insert_ite]
  split <;> rfl

theorem erase_absent (m : HashMap κ α) {a : κ} (absent : a ∉ m) : m.erase a = m := by
  apply Finmap.ext_lookup
  intro b
  rw [lookup_erase_ite]
  by_cases same : b = a
  · subst same
    rw [if_pos rfl, Finmap.lookup_eq_none.mpr absent]
  · rw [if_neg same]

end HashMap
