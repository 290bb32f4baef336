import RustyCat.Lib.Interaction

/-!
# Pre- and postconditions of programs

The calls of a program act on the state of its environment.  A triple says what a
program keeps at every moment of its run, so also when it is dropped half way, and
what holds when it returns.
-/

namespace Interaction

variable {σ : Type} {Op : Type} {Answer : Op → Type} {α β ε : Type}

/-- What the answered calls do to the state, one after the other. -/
inductive Effects (effect : σ → Event Op Answer → σ → Prop) :
    σ → List (Event Op Answer) → σ → Prop where
  | nil (s : σ) : Effects effect s [] s
  | cons {s t u : σ} {event : Event Op Answer} {rest : List (Event Op Answer)}
      (first : effect s event t) (later : Effects effect t rest u) :
      Effects effect s (event :: rest) u

variable {effect : σ → Event Op Answer → σ → Prop} {s t : σ}

theorem Effects.of_append {first rest : List (Event Op Answer)}
    (acted : Effects effect s (first ++ rest) t) :
    ∃ middle, Effects effect s first middle ∧ Effects effect middle rest t := by
  induction first generalizing s with
  | nil => exact ⟨s, .nil s, acted⟩
  | cons event first ih =>
    cases acted with
    | cons one later =>
      obtain ⟨middle, before, after⟩ := ih later
      exact ⟨middle, .cons one before, after⟩

open Program

/-- A bound program is still in its first part, or that part has returned. -/
theorem Program.Run.of_bind {p : Program Op Answer α} {f : α → Program Op Answer β}
    {events : List (Event Op Answer)} {q : Program Op Answer β} (run : Run (p >>= f) events q) :
    (∃ p', Run p events p' ∧ q = p' >>= f) ∨
      ∃ first value rest, events = first ++ rest ∧ Returns p first value ∧
        Run (f value) rest q := by
  induction p generalizing events with
  | done value => exact .inr ⟨[], value, events, rfl, .start _, run⟩
  | call op next ih =>
    change Run (call op fun answer => next answer >>= f) events q at run
    cases run with
    | start => exact .inl ⟨call op next, .start _, rfl⟩
    | next later =>
      obtain ⟨p', within, same⟩ | ⟨first, value, rest, rfl, returned, after⟩ := ih _ later
      · exact .inl ⟨p', .next within, same⟩
      · exact .inr ⟨_ :: first, value, rest, rfl, .next returned, after⟩

/-- From a state with `always` and `before`, the program keeps `always` at every moment,
and the value and the state at its return satisfy `after`. -/
structure Triple (effect : σ → Event Op Answer → σ → Prop) (always before : σ → Prop)
    (p : Program Op Answer α) (after : α → σ → Prop) : Prop where
  keeps {s t : σ} {events : List (Event Op Answer)} {q : Program Op Answer α} :
    always s → before s → Run p events q → Effects effect s events t → always t
  returns {s t : σ} {events : List (Event Op Answer)} {value : α} :
    always s → before s → Returns p events value → Effects effect s events t → after value t

variable {always before before' : σ → Prop} {p : Program Op Answer α} {after after' : α → σ → Prop}

namespace Triple

theorem done {value : α} (ends : ∀ s, always s → before s → after value s) :
    Triple effect always before (Program.done value) after where
  keeps kept _ run acted := by
    cases run
    cases acted
    exact kept
  returns kept holds run acted := by
    cases run
    cases acted
    exact ends _ kept holds

theorem weaken (triple : Triple effect always before p after)
    (stronger : ∀ s, always s → before' s → before s)
    (weaker : ∀ value s, always s → after value s → after' value s) :
    Triple effect always before' p after' where
  keeps kept holds := triple.keeps kept (stronger _ kept holds)
  returns kept holds run acted :=
    weaker _ _ (triple.keeps kept (stronger _ kept holds) run acted)
      (triple.returns kept (stronger _ kept holds) run acted)

/-- A program may keep more than is asked, when it begins with more. -/
theorem within {stronger : σ → Prop} (triple : Triple effect stronger before p after)
    (begins : ∀ s, always s → before s → stronger s) (implies : ∀ s, stronger s → always s) :
    Triple effect always before p fun value s => stronger s ∧ after value s where
  keeps kept holds run acted := implies _ (triple.keeps (begins _ kept holds) holds run acted)
  returns kept holds run acted :=
    ⟨triple.keeps (begins _ kept holds) holds run acted,
      triple.returns (begins _ kept holds) holds run acted⟩

theorem of_only {P : Op → Prop} (only : Only P p)
    (acts : ∀ s op answer t, P op → always s → effect s ⟨op, answer⟩ t → always t) :
    Triple effect always before p fun _ _ => True where
  keeps kept holds run acted := by
    have all := only.of_run run
    clear run holds
    induction acted with
    | nil => exact kept
    | cons first later ih =>
      refine ih (acts _ _ _ _ (all _ List.mem_cons_self) kept first) fun event member => ?_
      exact all event (List.mem_cons_of_mem _ member)
  returns _ _ _ _ := trivial

theorem bind {f : α → Program Op Answer β} {last : β → σ → Prop} (after : α → σ → Prop)
    (first : Triple effect always before p after)
    (later : ∀ value, Triple effect always (after value) (f value) last) :
    Triple effect always before (p >>= f) last where
  keeps kept holds run acted := by
    obtain ⟨_, within, _⟩ | ⟨one, value, rest, rfl, returned, run⟩ := run.of_bind
    · exact first.keeps kept holds within acted
    · obtain ⟨middle, acted, rest⟩ := acted.of_append
      exact (later value).keeps (first.keeps kept holds returned acted)
        (first.returns kept holds returned acted) run rest
  returns kept holds run acted := by
    obtain ⟨one, value, rest, rfl, returned, run⟩ := returns_bind.mp run
    obtain ⟨middle, acted, rest⟩ := acted.of_append
    exact (later value).returns (first.keeps kept holds returned acted)
      (first.returns kept holds returned acted) run rest

theorem perform {op : Op} {after : Answer op → σ → Prop}
    (acts : ∀ s answer t, always s → before s → effect s ⟨op, answer⟩ t →
      always t ∧ after answer t) :
    Triple effect always before (Program.perform op) after where
  keeps kept holds run acted := by
    cases run with
    | start =>
      cases acted
      exact kept
    | next later =>
      cases later
      cases acted with
      | cons one rest =>
        cases rest
        exact (acts _ _ _ kept holds one).1
  returns kept holds run acted := by
    obtain rfl := returns_perform.mp run
    cases acted with
    | cons one rest =>
      cases rest
      exact (acts _ _ _ kept holds one).2

end Triple

namespace Attempt

variable {x : Attempt Op Answer ε α} {f : α → Attempt Op Answer ε β}
  {ends : α → σ → Prop} {last : β → σ → Prop}

/-- The condition holds unless the program failed. -/
def OnOk (ends : α → σ → Prop) : Except ε α → σ → Prop
  | .ok value, s => ends value s
  | .error _, _ => True

/-- From a state with `always` and `before`, the program keeps `always`, and `ends` holds
when it succeeds. -/
abbrev Spec (effect : σ → Event Op Answer → σ → Prop) (always before : σ → Prop)
    (x : Attempt Op Answer ε α) (ends : α → σ → Prop) : Prop :=
  Triple effect always before x.run (OnOk ends)

theorem spec_pure {value : α} (returned : ∀ s, always s → before s → ends value s) :
    Spec effect always before (pure value : Attempt Op Answer ε α) ends :=
  Triple.done returned

theorem spec_throw {error : ε} :
    Spec effect always before (throw error : Attempt Op Answer ε α) ends :=
  Triple.done fun _ _ _ => trivial

theorem spec_result {result : Except ε α}
    (known : ∀ value s, result = .ok value → always s → before s → ends value s) :
    Spec effect always before (ExceptT.mk (pure result) : Attempt Op Answer ε α) ends := by
  refine Triple.done fun s kept holds => ?_
  cases result with
  | error error => trivial
  | ok value => exact known value s rfl kept holds

theorem spec_bind (ends : α → σ → Prop) (first : Spec effect always before x ends)
    (later : ∀ value, Spec effect always (ends value) (f value) last) :
    Spec effect always before (x >>= f) last := by
  refine Triple.bind _ first fun value => ?_
  cases value with
  | error error => exact Triple.done fun _ _ _ => trivial
  | ok value => exact later value

theorem spec_ask {op : Op} {fails : Answer op → Except ε α}
    (acts : ∀ s answer t, always s → before s → effect s ⟨op, answer⟩ t →
      always t ∧ ∀ value, fails answer = .ok value → ends value t) :
    Spec effect always before (ask op fails) ends := by
  have first : Triple effect always before (Program.perform op)
      fun answer t => ∀ value, fails answer = .ok value → ends value t := Triple.perform acts
  refine Triple.bind _ first fun answer => Triple.done fun s _ holds => ?_
  cases same : fails answer with
  | error error => trivial
  | ok value => exact holds value same

theorem spec_within {stronger : σ → Prop} (spec : Spec effect stronger before x ends)
    (begins : ∀ s, always s → before s → stronger s) (implies : ∀ s, stronger s → always s) :
    Spec effect always before x fun value s => stronger s ∧ ends value s := by
  refine (Triple.within spec begins implies).weaken (fun _ _ holds => holds)
    fun value s _ holds => ?_
  cases value with
  | error error => trivial
  | ok value => exact holds

theorem spec_of_only {P : Op → Prop} (only : Only P x.run)
    (acts : ∀ s op answer t, P op → always s → effect s ⟨op, answer⟩ t → always t) :
    Spec effect always before x fun _ _ => True :=
  (Triple.of_only only acts).weaken (fun _ _ holds => holds)
    fun value _ _ _ => by cases value <;> trivial

/-- Facts that do not depend on the state can be taken out of the precondition. -/
theorem spec_of_pure {fact : Prop} {rest : σ → Prop}
    (spec : fact → Spec effect always rest x ends) :
    Spec effect always (fun s => fact ∧ rest s) x ends where
  keeps kept holds := (spec holds.1).keeps kept holds.2
  returns kept holds := (spec holds.1).returns kept holds.2

/-- A call that the first part cannot make is made after that part has returned. -/
theorem run_after {P : Op → Prop} {events : List (Event Op Answer)} {event : Event Op Answer}
    {q : Program Op Answer (Except ε β)} (only : Only P x.run) (run : Run (x >>= f).run events q)
    (member : event ∈ events) (later : ¬ P event.op) :
    ∃ first value rest, events = first ++ rest ∧ Returns x.run first (.ok value) ∧
      Run (f value).run rest q ∧ event ∈ rest := by
  change Run (x.run >>= ExceptT.bindCont f) events q at run
  obtain ⟨_, within, _⟩ | ⟨first, value, rest, rfl, returned, run⟩ := run.of_bind
  · exact absurd (only.of_run within event member) later
  · have behind : event ∈ rest := (List.mem_append.mp member).resolve_left fun early =>
      later (only.of_run returned event early)
    cases value with
    | error error =>
      cases run
      cases behind
    | ok value => exact ⟨first, value, rest, rfl, returned, run, behind⟩

end Attempt

end Interaction
