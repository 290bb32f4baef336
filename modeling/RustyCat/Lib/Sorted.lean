import Mathlib.Data.List.Basic

/-!
# Lists in the order of a key

Lists whose keys grow strictly: insertion, where an entry with the same key is
replaced, and binary search.
-/

namespace Sorted

universe u

variable {α : Type u} {key : α → Nat} {l : List α}

/-- The keys grow strictly. -/
def Ascending (key : α → Nat) (l : List α) : Prop := l.Pairwise fun a b => key a < key b

/-- Inserts an entry, which replaces the one with the same key. -/
def insert (key : α → Nat) (a : α) : List α → List α
  | [] => [a]
  | first :: rest =>
    if key a < key first then a :: first :: rest
    else if key a = key first then a :: rest
    else first :: insert key a rest

theorem mem_insert (ascending : Ascending key l) {a b : α} :
    b ∈ insert key a l ↔ b = a ∨ b ∈ l ∧ key b ≠ key a := by
  induction l with
  | nil => simp [insert]
  | cons first rest ih =>
    obtain ⟨before, restAscending⟩ := List.pairwise_cons.mp ascending
    simp only [insert]
    split
    · rename_i below
      have other : ∀ c ∈ first :: rest, key c ≠ key a := by
        rintro c (_ | ⟨_, member⟩)
        · omega
        · have := before c member
          omega
      simp only [List.mem_cons]
      exact or_congr_right ⟨fun member => ⟨member, other b (List.mem_cons.mpr member)⟩, And.left⟩
    · split
      · rename_i same
        have other : ∀ c ∈ rest, key c ≠ key a := by
          intro c member
          have := before c member
          omega
        simp only [List.mem_cons]
        refine or_congr_right ⟨fun member => ⟨Or.inr member, other b member⟩, ?_⟩
        rintro ⟨rfl | member, different⟩
        · exact absurd same.symm different
        · exact member
      · rename_i different
        simp only [List.mem_cons, ih restAscending]
        constructor
        · rintro (rfl | rfl | ⟨member, away⟩)
          · exact Or.inr ⟨Or.inl rfl, fun same => different same.symm⟩
          · exact Or.inl rfl
          · exact Or.inr ⟨Or.inr member, away⟩
        · rintro (rfl | ⟨rfl | member, away⟩)
          · exact Or.inr (Or.inl rfl)
          · exact Or.inl rfl
          · exact Or.inr (Or.inr ⟨member, away⟩)

theorem ascending_insert (ascending : Ascending key l) (a : α) :
    Ascending key (insert key a l) := by
  induction l with
  | nil => simp [Ascending, insert]
  | cons first rest ih =>
    obtain ⟨before, restAscending⟩ := List.pairwise_cons.mp ascending
    simp only [insert]
    split
    · rename_i below
      refine List.pairwise_cons.mpr ⟨?_, ascending⟩
      rintro b (_ | ⟨_, member⟩)
      · exact below
      · exact Nat.lt_trans below (before b member)
    · split
      · rename_i same
        refine List.pairwise_cons.mpr ⟨fun b member => ?_, restAscending⟩
        rw [same]
        exact before b member
      · refine List.pairwise_cons.mpr ⟨fun b member => ?_, ih restAscending⟩
        rcases (mem_insert restAscending).mp member with rfl | ⟨old, _⟩
        · omega
        · exact before b old

/-- Lists in the order of a key are the same if they have the same entries. -/
theorem Ascending.ext {l' : List α} (first : Ascending key l) (second : Ascending key l')
    (same : ∀ a, a ∈ l ↔ a ∈ l') : l = l' := by
  induction l generalizing l' with
  | nil =>
    rw [List.eq_nil_iff_forall_not_mem.mpr fun a member => List.not_mem_nil ((same a).mpr member)]
  | cons a rest ih =>
    cases l' with
    | nil => exact absurd ((same a).mp (List.mem_cons_self ..)) (by simp)
    | cons b rest' =>
      obtain ⟨below, ascending⟩ := List.pairwise_cons.mp first
      obtain ⟨below', ascending'⟩ := List.pairwise_cons.mp second
      have heads : a = b := by
        rcases List.mem_cons.mp ((same a).mp (List.mem_cons_self ..)) with here | later
        · exact here
        · rcases List.mem_cons.mp ((same b).mpr (List.mem_cons_self ..)) with here | other
          · exact here.symm
          · have := below' a later
            have := below b other
            omega
      subst heads
      congr 1
      refine ih ascending ascending' fun c => ⟨fun member => ?_, fun member => ?_⟩
      · rcases List.mem_cons.mp ((same c).mp (List.mem_cons_of_mem _ member)) with rfl | there
        · exact absurd (below c member) (by omega)
        · exact there
      · rcases List.mem_cons.mp ((same c).mpr (List.mem_cons_of_mem _ member)) with rfl | there
        · exact absurd (below' c member) (by omega)
        · exact there

/-- The loop of a binary search: the entry looked for, if there is one, is among the
`size` entries from `base` on. -/
def searchLoop (key : α → Nat) (l : List α) (target : Nat) : Nat → Nat → Nat → Nat
  | 0, _, base => base
  | fuel + 1, size, base =>
    if size ≤ 1 then base
    else
      let half := size / 2
      let mid := base + half
      searchLoop key l target fuel (size - half)
        (if (l[mid]?).any (key · > target) then base else mid)

/-- The index of an entry with the key; right only on a list in the order of the key. -/
def binarySearch (key : α → Nat) (l : List α) (target : Nat) : Option Nat :=
  let base := searchLoop key l target l.length l.length 0
  if (l[base]?).any (key · = target) then some base else none

theorem searchLoop_spec (ascending : Ascending key l) {target index : Nat} {a : α}
    (there : l[index]? = some a) (found : key a = target) {fuel size base : Nat}
    (enough : size ≤ fuel + 1) (low : base ≤ index) (high : index < base + size)
    (inside : base + size ≤ l.length) : searchLoop key l target fuel size base = index := by
  induction fuel generalizing size base with
  | zero =>
    simp only [searchLoop]
    omega
  | succ fuel ih =>
    simp only [searchLoop]
    split
    · omega
    have middle : base + size / 2 < l.length := by omega
    obtain ⟨mine, rfl⟩ := List.getElem?_eq_some_iff.mp there
    rw [List.getElem?_eq_getElem middle]
    simp only [Option.any_some, decide_eq_true_eq]
    split
    · -- the entry is before the middle
      rename_i beyond
      have before : index < base + size / 2 := by
        by_contra after
        rcases Nat.lt_or_eq_of_le (Nat.le_of_not_lt after) with less | same
        · have := List.pairwise_iff_getElem.mp ascending _ _ middle mine less
          omega
        · subst same
          omega
      exact ih (by omega) low (by omega) (by omega)
    · rename_i notBeyond
      have after : base + size / 2 ≤ index := by
        by_contra before
        have := List.pairwise_iff_getElem.mp ascending _ _ mine middle (by omega)
        omega
      exact ih (by omega) after (by omega) (by omega)

theorem binarySearch_isSome_iff (ascending : Ascending key l) {target : Nat} :
    (binarySearch key l target).isSome = true ↔ ∃ a ∈ l, key a = target := by
  simp only [binarySearch]
  constructor
  · intro found
    split at found
    · rename_i here
      obtain ⟨a, there, same⟩ := Option.any_eq_true .. |>.mp here
      exact ⟨a, List.mem_of_getElem? there, by simpa using same⟩
    · cases found
  · rintro ⟨a, member, same⟩
    obtain ⟨index, there⟩ := List.getElem?_of_mem member
    have mine := (List.getElem?_eq_some_iff.mp there).1
    rw [searchLoop_spec ascending there same (by omega) (Nat.zero_le _) (by omega) (by omega), there]
    simp [same]

end Sorted
