import Mathlib.Data.List.Induction

/-!
# Properties of finite traces

A trace is the list of events so far, oldest first.  `Always p` says that every
event stands in the relation `p` to the events before it; a trace property of
this form is checked once, when the event is appended.
-/

namespace Trace

universe u

variable {α : Type u}

/-- Every event satisfies `p` relative to the events before it. -/
def Always (p : List α → α → Prop) (trace : List α) : Prop :=
  ∀ before event after, trace = before ++ event :: after → p before event

theorem always_nil (p : List α → α → Prop) : Always p [] := by
  intro before event after split
  exact absurd split (by simp)

variable {p : List α → α → Prop} {trace : List α}

/-- A trace property of this form is checked when an event is appended. -/
theorem always_append_singleton {event : α} :
    Always p (trace ++ [event]) ↔ Always p trace ∧ p trace event := by
  constructor
  · intro holds
    refine ⟨?_, holds trace event [] rfl⟩
    intro before e after split
    exact holds before e (after ++ [event]) (by rw [split]; simp)
  · rintro ⟨old, new⟩ before e after split
    rcases List.eq_nil_or_concat after with rfl | ⟨front, last, rfl⟩
    · obtain ⟨rfl, same⟩ := List.append_inj' split rfl
      cases same
      exact new
    · have shape : trace ++ [event] = (before ++ e :: front) ++ [last] := by
        rw [split]
        simp
      obtain ⟨rfl, _⟩ := List.append_inj' shape rfl
      exact old before e front rfl

/-- What holds of the empty trace and is kept by every event that satisfies `p`
holds of the trace. -/
theorem Always.induction {I : List α → Prop} (holds : Always p trace) (nil : I [])
    (snoc : ∀ before event, Always p before → I before → p before event → I (before ++ [event])) :
    I trace := by
  induction trace using List.reverseRecOn with
  | nil => exact nil
  | append_singleton before event ih =>
    obtain ⟨old, new⟩ := always_append_singleton.mp holds
    exact snoc before event old (ih old) new

theorem Always.append {more : List α} (holds : Always p trace)
    (new : ∀ before, ∀ event ∈ more, p before event) : Always p (trace ++ more) := by
  induction more generalizing trace with
  | nil =>
    rw [List.append_nil]
    exact holds
  | cons event rest ih =>
    have first : Always p (trace ++ [event]) :=
      always_append_singleton.mpr ⟨holds, new trace event (List.mem_cons_self ..)⟩
    have others := ih first fun before e member => new before e (List.mem_cons_of_mem _ member)
    rw [List.append_assoc, List.singleton_append] at others
    exact others

end Trace
