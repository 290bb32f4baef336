import Mathlib.Logic.Relation

/-!
# Runs of a partial labelled step function

A machine is a function `step : σ → α → Option σ`: a label is enabled in a
state exactly when the function answers `some`.  `Run` collects the states that
are reached by steps which all satisfy a side condition on the state before the
step and on the label; the side condition is how an assumption about the
environment enters a statement.

Nothing here is specific to one program.
-/

namespace Machine

universe u v w

variable {σ : Type u} {α : Type v} {τ : Type w}

/-- States reached from `origin` by enabled steps that all satisfy `allowed`. -/
inductive Run (step : σ → α → Option σ) (allowed : σ → α → Prop) (origin : σ) : σ → Prop where
  | start : Run step allowed origin origin
  | next {s t : σ} {label : α} :
      Run step allowed origin s → allowed s label → step s label = some t →
      Run step allowed origin t

def anyLabel (_ : σ) (_ : α) : Prop := True

/-- States reached from `origin` by enabled steps. -/
abbrev Reachable (step : σ → α → Option σ) (origin : σ) : σ → Prop :=
  Run step anyLabel origin

section Run

variable {step : σ → α → Option σ} {allowed : σ → α → Prop} {origin s : σ}

/-- An invariant that holds at the start and is kept by every allowed step
holds in every state of every run. -/
theorem Run.invariant (run : Run step allowed origin s) (I : σ → Prop) (initial : I origin)
    (preserved : ∀ s label t, I s → allowed s label → step s label = some t → I t) : I s := by
  induction run with
  | start => exact initial
  | next _ permitted taken ih => exact preserved _ _ _ ih permitted taken

theorem Run.weaken {weaker : σ → α → Prop} (run : Run step allowed origin s)
    (implies : ∀ s label, allowed s label → weaker s label) : Run step weaker origin s := by
  induction run with
  | start => exact .start
  | next _ permitted taken ih => exact .next ih (implies _ _ permitted) taken

theorem Run.reachable (run : Run step allowed origin s) : Reachable step origin s :=
  run.weaken fun _ _ _ => trivial

theorem Run.trans {t : σ} (first : Run step allowed origin s) (second : Run step allowed s t) :
    Run step allowed origin t := by
  induction second with
  | start => exact first
  | next _ permitted taken ih => exact .next ih permitted taken

/-- A projection of the state that every step moves by a sequence of abstract
steps follows the abstract relation along every run. -/
theorem Run.simulates {abstract : τ → τ → Prop} (run : Run step allowed origin s)
    (I : σ → Prop) (view : σ → τ) (initial : I origin)
    (preserved : ∀ s label t, I s → allowed s label → step s label = some t → I t)
    (moves : ∀ s label t, I s → allowed s label → step s label = some t →
      Relation.ReflTransGen abstract (view s) (view t)) :
    Relation.ReflTransGen abstract (view origin) (view s) := by
  induction run with
  | start => exact .refl
  | @next s t label before permitted taken ih =>
    have holds : I s := before.invariant I initial preserved
    exact ih.trans (moves _ _ _ holds permitted taken)

end Run

/-- Executes a list of labels; `none` as soon as one of them is not enabled. -/
def exec (step : σ → α → Option σ) : σ → List α → Option σ
  | s, [] => some s
  | s, label :: rest => (step s label).bind fun t => exec step t rest

@[simp] theorem exec_cons (step : σ → α → Option σ) (s : σ) (label : α) (rest : List α) :
    exec step s (label :: rest) = (step s label).bind fun t => exec step t rest := rfl

/-- Every label of an executed list is allowed in the state it is taken in. -/
def ExecAllowed (step : σ → α → Option σ) (allowed : σ → α → Prop) : σ → List α → Prop
  | _, [] => True
  | s, label :: rest =>
    allowed s label ∧ ∀ t, step s label = some t → ExecAllowed step allowed t rest

instance decidableExecAllowed {step : σ → α → Option σ} {allowed : σ → α → Prop}
    [∀ s label, Decidable (allowed s label)] :
    ∀ s labels, Decidable (ExecAllowed step allowed s labels)
  | _, [] => isTrue trivial
  | s, label :: rest =>
    match taken : step s label with
    | none => decidable_of_iff (allowed s label) (by simp [ExecAllowed, taken])
    | some t =>
      have : Decidable (ExecAllowed step allowed t rest) := decidableExecAllowed t rest
      decidable_of_iff (allowed s label ∧ ExecAllowed step allowed t rest)
        (by simp [ExecAllowed, taken])

variable {labels : List α} {s : σ} {step : σ → α → Option σ}

theorem run_of_exec {allowed : σ → α → Prop} {t : σ} (executed : exec step s labels = some t)
    (permitted : ExecAllowed step allowed s labels) : Run step allowed s t := by
  induction labels generalizing s with
  | nil =>
    cases executed
    exact .start
  | cons label rest ih =>
    rw [exec_cons, Option.bind_eq_some_iff] at executed
    obtain ⟨middle, taken, executed⟩ := executed
    have first : Run step allowed s middle := .next .start permitted.1 taken
    exact first.trans (ih executed (permitted.2 middle taken))

theorem execAllowed_of_forall {allowed : σ → α → Prop}
    (each : ∀ label ∈ labels, ∀ s, allowed s label) :
    ExecAllowed step allowed s labels := by
  induction labels generalizing s with
  | nil => trivial
  | cons label rest ih =>
    exact ⟨each label (List.mem_cons_self ..) s, fun _ _ =>
      ih fun other member => each other (List.mem_cons_of_mem _ member)⟩

theorem reachable_of_exec {t : σ} (executed : exec step s labels = some t) : Reachable step s t :=
  run_of_exec executed (execAllowed_of_forall fun _ _ _ => trivial)

end Machine
