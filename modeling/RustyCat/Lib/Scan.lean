import Mathlib.Data.List.TakeWhile

/-!
# Rewriting a text from left to right

At each position a rule sees what has been read, the nearest first, and what is
left.  It either copies one element, or it consumes some elements and writes others in
their place.  Besides the equations of such a scan there are three rules for whole
scans: a scan that changes nothing, a scan that forgets what it has read, and a scan
over a window whose content it hides.
-/

namespace Scan

universe u

variable {α : Type u}

/-- How many elements are consumed, and what is written instead. -/
abbrev Hit (α : Type u) := Nat × List α

abbrev Rule (α : Type u) := List α → List α → Option (Hit α)

/-- A rule that never stays where it is. -/
def Rule.Advances (rule : Rule α) : Prop :=
  ∀ before rest hit, rule before rest = some hit → 0 < hit.1

/-- The scan, with the number of elements that the last match still consumes. -/
def go (rule : Rule α) : Nat → List α → List α → List α
  | _, _, [] => []
  | skip + 1, before, a :: rest => go rule skip (a :: before) rest
  | 0, before, a :: rest =>
    match rule before (a :: rest) with
    | some (taken, written) => written ++ go rule (taken - 1) (a :: before) rest
    | none => a :: go rule 0 (a :: before) rest

def run (rule : Rule α) (before rest : List α) : List α := go rule 0 before rest

variable {rule : Rule α} {before rest : List α}

@[simp] theorem run_nil (rule : Rule α) (before : List α) : run rule before [] = [] := rfl

theorem go_eq_run (skip : Nat) (before rest : List α) :
    go rule skip before rest = run rule ((rest.take skip).reverse ++ before) (rest.drop skip) := by
  induction skip generalizing before rest with
  | zero => rfl
  | succ skip ih =>
    cases rest with
    | nil => rfl
    | cons a rest => simp [go, ih]

theorem run_none {a : α} (copies : rule before (a :: rest) = none) :
    run rule before (a :: rest) = a :: run rule (a :: before) rest := by
  simp only [run, go, copies]

theorem run_some {hit : Hit α} (advances : rule.Advances) (nonempty : rest ≠ [])
    (found : rule before rest = some hit) :
    run rule before rest =
      hit.2 ++ run rule ((rest.take hit.1).reverse ++ before) (rest.drop hit.1) := by
  have positive := advances _ _ _ found
  obtain ⟨taken, written⟩ := hit
  obtain ⟨skip, rfl⟩ : ∃ skip, taken = skip + 1 := ⟨taken - 1, by simp only at positive; omega⟩
  obtain ⟨a, rest, rfl⟩ := List.exists_cons_of_ne_nil nonempty
  have step : run rule before (a :: rest) = written ++ go rule skip (a :: before) rest := by
    simp only [run, go, found, Nat.add_sub_cancel]
  rw [step, go_eq_run]
  simp

/-! ## A scan that changes nothing -/

theorem run_append_of_none {front : List α}
    (copies : ∀ a q, front = a ++ q → q ≠ [] → rule (a.reverse ++ before) (q ++ rest) = none) :
    run rule before (front ++ rest) = front ++ run rule (front.reverse ++ before) rest := by
  induction front generalizing before with
  | nil => rfl
  | cons c front ih =>
    have first : rule before (c :: (front ++ rest)) = none :=
      copies [] (c :: front) rfl (List.cons_ne_nil _ _)
    rw [List.cons_append, run_none first, List.cons_append, ih]
    · simp
    · intro a q same nonempty
      have := copies (c :: a) q (by rw [same, List.cons_append]) nonempty
      simpa using this

theorem run_eq_self (advances : rule.Advances)
    (keeps : ∀ a q hit, rest = a ++ q → rule (a.reverse ++ before) q = some hit →
      hit.2 = q.take hit.1) :
    run rule before rest = rest := by
  induction length : rest.length using Nat.strong_induction_on generalizing before rest with
  | _ n ih =>
    cases rest with
    | nil => rfl
    | cons c rest =>
      -- The rest of the text is shorter, and its positions are positions of the text.
      have later (k : Nat) (positive : 0 < k) :
          run rule (((c :: rest).take k).reverse ++ before) ((c :: rest).drop k) =
            (c :: rest).drop k := by
        refine ih _ ?_ ?_ rfl
        · rw [← length, List.length_drop, List.length_cons]
          omega
        · intro a q hit same found
          refine keeps ((c :: rest).take k ++ a) q hit ?_ ?_
          · rw [List.append_assoc, ← same, List.take_append_drop]
          · rwa [List.reverse_append, List.append_assoc]
      cases found : rule before (c :: rest) with
      | none =>
        rw [run_none found]
        exact congrArg _ (later 1 Nat.one_pos)
      | some hit =>
        have written : hit.2 = (c :: rest).take hit.1 := keeps [] (c :: rest) hit rfl found
        rw [run_some advances (List.cons_ne_nil _ _) found, later _ (advances _ _ _ found), written,
          List.take_append_drop]

/-! ## A scan that forgets what it has read -/

/-- Two pasts that the rule does not tell apart, now and later, give one scan. -/
theorem run_congr (alike : List α → List α → Prop)
    (push : ∀ past past' a, alike past past' → alike (a :: past) (a :: past'))
    (same : ∀ past past' rest, alike past past' → rule past rest = rule past' rest)
    {past past' : List α} (start : alike past past') (rest : List α) :
    run rule past rest = run rule past' rest := by
  suffices skipped : ∀ skip past past', alike past past' →
      go rule skip past rest = go rule skip past' rest from skipped 0 past past' start
  induction rest with
  | nil => intro skip past past' _; cases skip <;> rfl
  | cons a rest ih =>
    intro skip past past' start
    have pushed := push past past' a start
    cases skip with
    | zero => simp only [go, same past past' (a :: rest) start, ih _ _ _ pushed]
    | succ skip => exact ih skip _ _ pushed

/-! ## A scan over a window -/

/-- What a rule does at one position of a text in front of a window, with `left` before
the window and `after` behind it: the same for every content of the window. -/
inductive Uniform (rule : Rule α) (window : List α → Prop) (past left after : List α) : Prop
  /-- One element is copied. -/
  | copies (nonempty : left ≠ [])
      (found : ∀ w, window w → rule past (left ++ (w ++ after)) = none)
  /-- The match ends before the window. -/
  | within (hit : Hit α) (inside : hit.1 ≤ left.length) (nonempty : left ≠ [])
      (found : ∀ w, window w → rule past (left ++ (w ++ after)) = some hit)
  /-- The match ends behind the window. -/
  | across (later : Nat) (written : List α)
      (found : ∀ w, window w →
        rule past (left ++ (w ++ after)) = some (left.length + w.length + later, written))

/-- A scan that is uniform at every position up to a window, and that forgets what it
read when it goes on behind it, does not depend on the content of the window. -/
theorem run_window {window : List α → Prop} {front after : List α} (advances : rule.Advances)
    (some : ∀ w, window w → w ≠ [])
    (uniform : ∀ a left, front = a ++ left → Uniform rule window a.reverse left after)
    (forgets : ∀ later past past',
      run rule ((after.take later).reverse ++ past) (after.drop later) =
        run rule ((after.take later).reverse ++ past') (after.drop later))
    {w w' : List α} (one : window w) (other : window w') :
    run rule [] (front ++ (w ++ after)) = run rule [] (front ++ (w' ++ after)) := by
  suffices from_here : ∀ left a, front = a ++ left →
      run rule a.reverse (left ++ (w ++ after)) = run rule a.reverse (left ++ (w' ++ after)) from
    from_here front [] rfl
  intro left
  induction length : left.length using Nat.strong_induction_on generalizing left with
  | _ n ih =>
    intro a split
    cases uniform a left split with
    | copies nonempty found =>
      obtain ⟨c, left, rfl⟩ := List.exists_cons_of_ne_nil nonempty
      simp only [List.cons_append] at found ⊢
      rw [run_none (found w one), run_none (found w' other)]
      have step := ih left.length (by rw [← length]; simp) left rfl (a ++ [c]) (by simp [split])
      rw [List.reverse_append] at step
      exact congrArg _ step
    | within hit inside nonempty found =>
      have positive := advances _ _ _ (found w one)
      have step := ih (left.drop hit.1).length (by
        have := List.length_pos_iff.mpr nonempty
        rw [← length, List.length_drop]; omega) (left.drop hit.1) rfl (a ++ left.take hit.1)
        (by rw [List.append_assoc, List.take_append_drop, split])
      rw [List.reverse_append] at step
      have moved (x : List α) :
          (left ++ x).take hit.1 = left.take hit.1 ∧ (left ++ x).drop hit.1 = left.drop hit.1 ++ x :=
        ⟨List.take_append_of_le_length inside, List.drop_append_of_le_length inside⟩
      rw [run_some advances (by simp [nonempty]) (found w one),
        run_some advances (by simp [nonempty]) (found w' other), (moved _).1, (moved _).2,
        (moved _).1, (moved _).2, step]
    | across later written found =>
      have beyond (x : List α) :
          (left ++ (x ++ after)).take (left.length + x.length + later) =
            left ++ x ++ after.take later ∧
          (left ++ (x ++ after)).drop (left.length + x.length + later) = after.drop later := by
        rw [← List.append_assoc, ← List.length_append, List.take_length_add_append,
          List.drop_length_add_append]
        exact ⟨rfl, rfl⟩
      have step (x : List α) (here : window x) : run rule a.reverse (left ++ (x ++ after)) =
          written ++ run rule ((after.take later).reverse ++ ((left ++ x).reverse ++ a.reverse))
            (after.drop later) := by
        rw [run_some advances (by simp [some x here]) (found x here), (beyond x).1, (beyond x).2,
          List.reverse_append, List.append_assoc]
      rw [step w one, step w' other, forgets]

end Scan
