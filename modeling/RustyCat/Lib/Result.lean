import Mathlib.Logic.Basic

/-!
# Results

How a chain of fallible computations came to succeed.
-/

namespace Result

universe u v w

variable {ε : Type u} {α β : Type v} {γ : Type w}

theorem bind_eq_ok {x : Except ε α} {f : α → Except ε β} {b : β} :
    (x >>= f) = .ok b ↔ ∃ a, x = .ok a ∧ f a = .ok b := by
  cases x with
  | error e => exact ⟨nofun, nofun⟩
  | ok a => exact ⟨fun h => ⟨a, rfl, h⟩, by rintro ⟨_, ⟨⟩, h⟩; exact h⟩

theorem pure_eq_ok {a b : α} : (pure a : Except ε α) = .ok b ↔ a = b :=
  ⟨fun h => by cases h; rfl, fun h => by rw [h]; rfl⟩

theorem guard_eq_ok {p : Prop} [Decidable p] {e : ε} {x : Except ε α} {a : α} :
    (if p then .error e else x) = .ok a ↔ ¬ p ∧ x = .ok a := by
  split <;> simp_all

theorem mapM_cons_eq_ok {f : γ → Except ε α} {c : γ} {rest : List γ} {out : List α} :
    (c :: rest).mapM f = .ok out ↔
      ∃ a, f c = .ok a ∧ ∃ as, rest.mapM f = .ok as ∧ a :: as = out := by
  simp only [List.mapM_cons, bind_eq_ok, pure_eq_ok]

theorem forM_eq_ok {f : γ → Except ε PUnit} {l : List γ} :
    l.forM f = .ok ⟨⟩ ↔ ∀ c ∈ l, f c = .ok ⟨⟩ := by
  induction l with
  | nil => exact ⟨fun _ => nofun, fun _ => rfl⟩
  | cons first rest ih =>
    change (f first >>= fun _ => rest.forM f) = _ ↔ _
    simp only [bind_eq_ok, List.forall_mem_cons]
    constructor
    · rintro ⟨_, head, tail⟩
      exact ⟨head, ih.mp tail⟩
    · rintro ⟨head, tail⟩
      exact ⟨⟨⟩, head, ih.mpr tail⟩

end Result
