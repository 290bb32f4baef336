import RustyCat.Lib.Hoare
import Mathlib.Logic.Relation

/-!
# Programs among others

A program runs while others act on the same state.  `rely` is what the others may do
before each of its calls, `guar` is what it promises about each of its own calls.  Programs
that promise each other what they rely on can run side by side: a step of one keeps all of
them safe.
-/

namespace Interaction

open Program Relation

variable {σ : Type} {Op : Type} {Answer : Op → Type} {α β ε : Type}

/-- Whatever the others do, every call of the program keeps the promise, and `ends` holds
when it returns. -/
def Safe (effect : σ → Event Op Answer → σ → Prop) (rely : σ → σ → Prop)
    (guar : σ → Event Op Answer → σ → Prop) (ends : α → σ → Prop) :
    Program Op Answer α → σ → Prop
  | .done value, s => ends value s
  | .call op next, s => ∀ t, ReflTransGen rely s t → ∀ answer u, effect t ⟨op, answer⟩ u →
      guar t ⟨op, answer⟩ u ∧ Safe effect rely guar ends (next answer) u

/-- The others keep the property. -/
def Stable (rely : σ → σ → Prop) (P : σ → Prop) : Prop := ∀ s t, P s → rely s t → P t

variable {effect guar : σ → Event Op Answer → σ → Prop} {rely : σ → σ → Prop} {s t : σ}

theorem Stable.star {P : σ → Prop} (stable : Stable rely P) (holds : P s)
    (others : ReflTransGen rely s t) : P t := by
  induction others with
  | refl => exact holds
  | tail _ one ih => exact stable _ _ ih one

namespace Safe

variable {ends last : α → σ → Prop} {p : Program Op Answer α}

theorem others (closed : ∀ value, Stable rely (ends value))
    (safe : Safe effect rely guar ends p s) (acted : rely s t) :
    Safe effect rely guar ends p t := by
  cases p with
  | done value => exact closed value _ _ safe acted
  | call op next => exact fun u later => safe u (.head acted later)

theorem step {op : Op} {next : Answer op → Program Op Answer α} {answer : Answer op}
    (safe : Safe effect rely guar ends (.call op next) s) (acted : effect s ⟨op, answer⟩ t) :
    guar s ⟨op, answer⟩ t ∧ Safe effect rely guar ends (next answer) t :=
  safe s .refl answer t acted

theorem weaken (safe : Safe effect rely guar ends p s)
    (weaker : ∀ value t, ends value t → last value t) : Safe effect rely guar last p s := by
  induction p generalizing s with
  | done value => exact weaker value s safe
  | call op next ih =>
    intro t later answer u acted
    obtain ⟨kept, after⟩ := safe t later answer u acted
    exact ⟨kept, ih answer after⟩

theorem bind {f : α → Program Op Answer β} {last : β → σ → Prop}
    (safe : Safe effect rely guar ends p s)
    (later : ∀ value t, ends value t → Safe effect rely guar last (f value) t) :
    Safe effect rely guar last (p >>= f) s := by
  induction p generalizing s with
  | done value => exact later value s safe
  | call op next ih =>
    intro t others answer u acted
    obtain ⟨kept, after⟩ := safe t others answer u acted
    exact ⟨kept, ih answer after⟩

theorem perform {op : Op} {before : σ → Prop} (ends : Answer op → σ → Prop)
    (stable : Stable rely before) (holds : before s)
    (acts : ∀ s answer t, before s → effect s ⟨op, answer⟩ t →
      guar s ⟨op, answer⟩ t ∧ ends answer t) :
    Safe effect rely guar ends (Program.perform op) s :=
  fun t others answer u acted => acts t answer u (stable.star holds others) acted

/-- A state that records the calls of the program knows the run that it has made. -/
theorem traced (trace : σ → List (Event Op Answer))
    (records : ∀ s event t, effect s event t → trace t = trace s ++ [event])
    (kept : ∀ s t, rely s t → trace t = trace s) (safe : Safe effect rely guar ends p s) :
    Safe effect rely guar (fun value t => ends value t ∧
      ∃ events, trace t = trace s ++ events ∧ Returns p events value) p s := by
  induction p generalizing s with
  | done value => exact ⟨safe, [], (List.append_nil _).symm, .start _⟩
  | call op next ih =>
    intro t later answer u acted
    obtain ⟨promised, after⟩ := safe t later answer u acted
    refine ⟨promised, (ih answer after).weaken ?_⟩
    rintro value v ⟨ended, events, recorded, returned⟩
    have same : trace t = trace s :=
      Stable.star (P := fun t => trace t = trace s) (fun _ _ eq one => (kept _ _ one).trans eq) rfl
        later
    refine ⟨ended, ⟨op, answer⟩ :: events, ?_, .next returned⟩
    rw [recorded, records _ _ _ acted, same, List.append_assoc, List.singleton_append]

end Safe

namespace Attempt

/-- One condition for success, one for failure. -/
def Both (ends : α → σ → Prop) (failed : σ → Prop) : Except ε α → σ → Prop
  | .ok value, s => ends value s
  | .error _, s => failed s

/-- From a state with `before` the program is safe, and ends with `ends` or fails with
`failed`. -/
def RSpec (effect : σ → Event Op Answer → σ → Prop) (rely : σ → σ → Prop)
    (guar : σ → Event Op Answer → σ → Prop) (before : σ → Prop) (x : Attempt Op Answer ε α)
    (ends : α → σ → Prop) (failed : σ → Prop) : Prop :=
  ∀ s, before s → Safe effect rely guar (Both ends failed) x.run s

variable {x : Attempt Op Answer ε α} {f : α → Attempt Op Answer ε β} {before failed : σ → Prop}
  {ends : α → σ → Prop} {last : β → σ → Prop}

theorem rspec_pure {value : α} (returned : ∀ s, before s → ends value s) :
    RSpec effect rely guar before (pure value : Attempt Op Answer ε α) ends failed :=
  returned

theorem rspec_throw {error : ε} (thrown : ∀ s, before s → failed s) :
    RSpec effect rely guar before (throw error : Attempt Op Answer ε α) ends failed :=
  thrown

theorem rspec_result {result : Except ε α}
    (known : ∀ value s, result = .ok value → before s → ends value s)
    (thrown : ∀ s, before s → failed s) :
    RSpec effect rely guar before (ExceptT.mk (pure result) : Attempt Op Answer ε α) ends
      failed := by
  intro s holds
  cases result with
  | error error => exact thrown s holds
  | ok value => exact known value s rfl holds

theorem rspec_bind (ends : α → σ → Prop)
    (first : RSpec effect rely guar before x ends failed)
    (later : ∀ value, RSpec effect rely guar (ends value) (f value) last failed) :
    RSpec effect rely guar before (x >>= f) last failed := by
  intro s holds
  refine Safe.bind (first s holds) fun value t ended => ?_
  cases value with
  | error error => exact ended
  | ok value => exact later value t ended

theorem rspec_ask {op : Op} {fails : Answer op → Except ε α} (stable : Stable rely before)
    (acts : ∀ s answer t, before s → effect s ⟨op, answer⟩ t →
      guar s ⟨op, answer⟩ t ∧ Both ends failed (fails answer) t) :
    RSpec effect rely guar before (ask op fails) ends failed :=
  fun _ holds => Safe.bind (Safe.perform _ stable holds acts) fun _ _ ended => ended

theorem rspec_lift {p : Program Op Answer α}
    (safe : ∀ s, before s → Safe effect rely guar ends p s) :
    RSpec effect rely guar before (ExceptT.lift p : Attempt Op Answer ε α) ends failed :=
  fun s holds => Safe.bind (safe s holds) fun _ _ ended => ended

theorem rspec_weaken {before' failed' : σ → Prop} {ends' : α → σ → Prop}
    (spec : RSpec effect rely guar before x ends failed) (stronger : ∀ s, before' s → before s)
    (weaker : ∀ value s, ends value s → ends' value s) (thrown : ∀ s, failed s → failed' s) :
    RSpec effect rely guar before' x ends' failed' := by
  intro s holds
  refine (spec s (stronger s holds)).weaken fun value t ended => ?_
  cases value with
  | error error => exact thrown t ended
  | ok value => exact weaker value t ended

end Attempt

/-! ## What a program can do alone -/

/-- With suitable answers, and nobody else acting, the program ends with `ends`. -/
def May (effect : σ → Event Op Answer → σ → Prop) (ends : α → σ → Prop) :
    Program Op Answer α → σ → Prop
  | .done value, s => ends value s
  | .call op next, s => ∃ answer t, effect s ⟨op, answer⟩ t ∧ May effect ends (next answer) t

variable {perform : (op : Op) → σ → Option (Answer op × σ)}

/-- Runs the program while `perform` answers its calls. -/
def runAlone (perform : (op : Op) → σ → Option (Answer op × σ)) :
    Program Op Answer α → σ → Option (α × σ)
  | .done value, s => some (value, s)
  | .call op next, s =>
    (perform op s).bind fun answered => runAlone perform (next answered.1) answered.2

theorem runAlone_pure (value : α) :
    runAlone perform (pure value : Program Op Answer α) s = some (value, s) := rfl

theorem runAlone_perform (op : Op) : runAlone perform (Program.perform op) s = perform op s :=
  Option.bind_fun_some _

theorem runAlone_bind (p : Program Op Answer α) (f : α → Program Op Answer β) :
    runAlone perform (p >>= f) s =
      (runAlone perform p s).bind fun ran => runAlone perform (f ran.1) ran.2 := by
  induction p generalizing s with
  | done value => rfl
  | call op next ih =>
    change (perform op s).bind _ = ((perform op s).bind _).bind _
    cases perform op s with
    | none => rfl
    | some answered => exact ih answered.1

/-- A program that can run alone with answers that the environment can give. -/
theorem may_of_runAlone {p : Program Op Answer α} {value : α}
    (possible : ∀ op s answered, perform op s = some answered →
      effect s ⟨op, answered.1⟩ answered.2)
    (ran : runAlone perform p s = some (value, t)) :
    May effect (fun given u => given = value ∧ u = t) p s := by
  induction p generalizing s with
  | done value =>
    cases ran
    exact ⟨rfl, rfl⟩
  | call op next ih =>
    obtain ⟨answered, performed, later⟩ := Option.bind_eq_some_iff.mp ran
    exact ⟨answered.1, answered.2, possible op s answered performed, ih answered.1 later⟩

namespace Attempt

theorem runAlone_ok (value : α) :
    runAlone perform (pure value : Attempt Op Answer ε α).run s = some (.ok value, s) := rfl

theorem runAlone_mk (p : Program Op Answer (Except ε α)) :
    runAlone perform (ExceptT.mk p).run s = runAlone perform p s := rfl

theorem runAlone_then (x : Attempt Op Answer ε α) (f : α → Attempt Op Answer ε β) :
    runAlone perform (x >>= f).run s = (runAlone perform x.run s).bind fun ran =>
      match ran.1 with
      | .ok value => runAlone perform (f value).run ran.2
      | .error e => some (.error e, ran.2) := by
  change runAlone perform (x.run >>= ExceptT.bindCont f) s = _
  rw [runAlone_bind]
  congr 1
  funext ran
  cases ran.1 <;> rfl

theorem runAlone_ask (op : Op) (fails : Answer op → Except ε α) :
    runAlone perform (ask op fails).run s = (perform op s).map fun ran => (fails ran.1, ran.2) := by
  change runAlone perform (Program.perform op >>= fun answer => pure (fails answer)) s = _
  rw [runAlone_bind, runAlone_perform]
  cases perform op s <;> rfl

theorem runAlone_lift (p : Program Op Answer α) :
    runAlone perform (ExceptT.lift p : Attempt Op Answer ε α).run s =
      (runAlone perform p s).map fun ran => (.ok ran.1, ran.2) := by
  change runAlone perform (p >>= fun a => pure (Except.ok a)) s = _
  rw [runAlone_bind]
  cases runAlone perform p s <;> rfl

end Attempt

end Interaction
