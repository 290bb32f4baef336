import Mathlib.Data.List.Basic

/-!
# Programs that ask their environment

A program is a tree of calls: it makes a call and goes on with whatever answer it
gets.  Every answer of the right type is possible, so a fact about all runs of a
program is a fact about every environment, also one that other programs change in
between.
-/

namespace Interaction

/-- A program with calls `Op`, whose answers have the type `Answer op`. -/
inductive Program (Op : Type) (Answer : Op → Type) (α : Type) where
  | done (value : α)
  | call (op : Op) (next : Answer op → Program Op Answer α)

structure Event (Op : Type) (Answer : Op → Type) where
  op : Op
  answer : Answer op

variable {Op : Type} {Answer : Op → Type} {α β ε ε' : Type}

namespace Program

protected def bind : Program Op Answer α → (α → Program Op Answer β) → Program Op Answer β
  | done value, f => f value
  | call op next, f => call op fun answer => (next answer).bind f

instance : Monad (Program Op Answer) where
  pure := done
  bind := Program.bind

/-- One call, for its answer. -/
def perform (op : Op) : Program Op Answer (Answer op) :=
  call op done

/-- The program after it made the calls of the list and got these answers. -/
inductive Run : Program Op Answer α → List (Event Op Answer) → Program Op Answer α → Prop where
  | start (p : Program Op Answer α) : Run p [] p
  | next {op : Op} {next : Answer op → Program Op Answer α} {answer : Answer op}
      {events : List (Event Op Answer)} {q : Program Op Answer α} (later : Run (next answer) events q) :
      Run (call op next) (⟨op, answer⟩ :: events) q

/-- The program returns the value after these calls. -/
def Returns (p : Program Op Answer α) (events : List (Event Op Answer)) (value : α) : Prop :=
  Run p events (done value)

/-- The program makes the call after these calls. -/
def Calls (p : Program Op Answer α) (events : List (Event Op Answer)) (op : Op) : Prop :=
  ∃ next, Run p events (call op next)

variable {p q : Program Op Answer α} {events : List (Event Op Answer)} {op : Op}

theorem Run.snoc {next : Answer op → Program Op Answer α} (run : Run p events (call op next))
    (answer : Answer op) : Run p (events ++ [⟨op, answer⟩]) (next answer) := by
  generalize target : call op next = q at run
  induction run with
  | start p =>
    subst target
    exact .next (.start _)
  | next _ ih => exact .next (ih target)

variable {result value : α} {f : α → Program Op Answer β}

@[simp] theorem returns_done :
    Returns (done value : Program Op Answer α) events result ↔ events = [] ∧ value = result := by
  constructor
  · intro run
    cases run
    exact ⟨rfl, rfl⟩
  · rintro ⟨rfl, rfl⟩
    exact .start _

@[simp] theorem returns_call {next : Answer op → Program Op Answer α} :
    Returns (call op next) events result ↔
      ∃ answer rest, events = ⟨op, answer⟩ :: rest ∧ Returns (next answer) rest result := by
  constructor
  · intro run
    cases run with
    | next later => exact ⟨_, _, rfl, later⟩
  · rintro ⟨answer, rest, rfl, later⟩
    exact .next later

/-- The calls and answers decide the result, also when more calls follow. -/
theorem Returns.unique {first second more others : List (Event Op Answer)}
    (one : Returns p first value) (two : Returns p second result)
    (same : first ++ more = second ++ others) : first = second ∧ value = result := by
  induction p generalizing first second with
  | done last =>
    obtain ⟨rfl, rfl⟩ := returns_done.mp one
    obtain ⟨rfl, rfl⟩ := returns_done.mp two
    exact ⟨rfl, rfl⟩
  | call op next ih =>
    obtain ⟨answer, rest, rfl, later⟩ := returns_call.mp one
    obtain ⟨_, _, rfl, other⟩ := returns_call.mp two
    obtain ⟨head, tail⟩ := List.cons.inj same
    cases head
    obtain ⟨rfl, rfl⟩ := ih _ later other tail
    exact ⟨rfl, rfl⟩

@[simp] theorem not_calls_done :
    ¬ Calls (done value : Program Op Answer α) events op := by
  rintro ⟨next, run⟩
  cases run

theorem calls_call {first : Op} {next : Answer first → Program Op Answer α} :
    Calls (call first next) events op ↔ (events = [] ∧ op = first) ∨
      ∃ answer rest, events = ⟨first, answer⟩ :: rest ∧ Calls (next answer) rest op := by
  constructor
  · rintro ⟨after, run⟩
    cases run with
    | start => exact .inl ⟨rfl, rfl⟩
    | next later => exact .inr ⟨_, _, rfl, after, later⟩
  · rintro (⟨rfl, rfl⟩ | ⟨answer, rest, rfl, after, later⟩)
    · exact ⟨next, .start _⟩
    · exact ⟨after, .next later⟩

theorem returns_bind {result : β} :
    Returns (p >>= f) events result ↔ ∃ first value rest, events = first ++ rest ∧
      Returns p first value ∧ Returns (f value) rest result := by
  induction p generalizing events with
  | done value =>
    change Returns (f value) events result ↔ _
    simp
  | call op next ih =>
    change Returns (call op fun answer => next answer >>= f) events result ↔ _
    simp only [returns_call, ih]
    constructor
    · rintro ⟨answer, _, rfl, first, value, rest, rfl, one, two⟩
      exact ⟨⟨op, answer⟩ :: first, value, rest, rfl, ⟨answer, first, rfl, one⟩, two⟩
    · rintro ⟨_, value, rest, rfl, ⟨answer, first, rfl, one⟩, two⟩
      exact ⟨answer, first ++ rest, rfl, first, value, rest, rfl, one, two⟩

theorem calls_bind :
    Calls (p >>= f) events op ↔ Calls p events op ∨ ∃ first value rest,
      events = first ++ rest ∧ Returns p first value ∧ Calls (f value) rest op := by
  induction p generalizing events with
  | done value =>
    change Calls (f value) events op ↔ _
    simp
  | call first next ih =>
    change Calls (call first fun answer => next answer >>= f) events op ↔ _
    simp only [returns_call, calls_call, ih]
    constructor
    · rintro (now | ⟨answer, rest, rfl, later | ⟨one, value, two, rfl, returned, called⟩⟩)
      · exact .inl (.inl now)
      · exact .inl (.inr ⟨answer, rest, rfl, later⟩)
      · exact .inr ⟨⟨first, answer⟩ :: one, value, two, rfl, ⟨answer, one, rfl, returned⟩, called⟩
    · rintro ((now | ⟨answer, rest, rfl, later⟩) |
        ⟨_, value, two, rfl, ⟨answer, one, rfl, returned⟩, called⟩)
      · exact .inl now
      · exact .inr ⟨answer, rest, rfl, .inl later⟩
      · exact .inr ⟨answer, one ++ two, rfl, .inr ⟨one, value, two, rfl, returned, called⟩⟩

theorem returns_perform {answer : Answer op} :
    Returns (perform op) events answer ↔ events = [⟨op, answer⟩] := by
  simp [perform]

theorem calls_perform {first : Op} :
    Calls (perform first : Program Op Answer _) events op ↔ events = [] ∧ op = first := by
  simp [perform, calls_call]

/-- The calls of a program in an environment with fixed answers. -/
def drive (answer : (op : Op) → Answer op) :
    Nat → Program Op Answer α → List (Event Op Answer) × Program Op Answer α
  | 0, p => ([], p)
  | _ + 1, done value => ([], done value)
  | steps + 1, call op next =>
    let (events, last) := drive answer steps (next (answer op))
    (⟨op, answer op⟩ :: events, last)

theorem run_drive (answer : (op : Op) → Answer op) (steps : Nat) (p : Program Op Answer α) :
    Run p (drive answer steps p).1 (drive answer steps p).2 := by
  induction steps generalizing p with
  | zero => exact .start p
  | succ steps ih =>
    cases p with
    | done value => exact .start _
    | call op next => exact .next (ih _)

/-! ## Programs that stay within some calls -/

/-- Every call the program can make satisfies `P`. -/
structure Only (P : Op → Prop) (p : Program Op Answer α) : Prop where
  calls : ∀ events op, Calls p events op → P op

variable {P : Op → Prop}

theorem Only.done (value : α) : Only P (done value : Program Op Answer α) :=
  ⟨fun _ _ called => absurd called not_calls_done⟩

theorem Only.perform (within : P op) : Only P (perform op : Program Op Answer _) := by
  refine ⟨fun events other called => ?_⟩
  obtain ⟨_, rfl⟩ := calls_perform.mp called
  exact within

theorem Only.bind (first : Only P p) (later : ∀ value, Only P (f value)) : Only P (p >>= f) := by
  refine ⟨fun events op called => ?_⟩
  obtain now | ⟨_, value, rest, _, _, called⟩ := calls_bind.mp called
  · exact first.calls events op now
  · exact (later value).calls rest op called

theorem Only.of_run (only : Only P p) (run : Run p events q) : ∀ event ∈ events, P event.op := by
  induction run with
  | start => exact nofun
  | @next op next answer events q later ih =>
    have rest : Only P (next answer) := ⟨fun earlier other called =>
      only.calls _ other (calls_call.mpr (.inr ⟨answer, earlier, rfl, called⟩))⟩
    intro event member
    obtain rfl | member := List.mem_cons.mp member
    · exact only.calls [] op (calls_call.mpr (.inl ⟨rfl, rfl⟩))
    · exact ih rest event member

end Program

/-! ## Programs that can fail -/

/-- A program that returns a value or an error; the first error ends it. -/
abbrev Attempt (Op : Type) (Answer : Op → Type) (ε : Type) : Type → Type :=
  ExceptT ε (Program Op Answer)

namespace Attempt

open Program

variable {x : Attempt Op Answer ε α} {f : α → Attempt Op Answer ε β}
  {events : List (Event Op Answer)} {op : Op}

/-- A call whose answer may be an error. -/
def ask (op : Op) (fails : Answer op → Except ε α) : Attempt Op Answer ε α :=
  ExceptT.mk (fails <$> perform op)

/-- The same program with another error. -/
def mapError (change : ε → ε') (x : Attempt Op Answer ε α) : Attempt Op Answer ε' α :=
  ExceptT.mk (Except.mapError change <$> x.run)

variable {value : α} {p : Program Op Answer α}

theorem returns_pure {result : α} :
    Returns (pure value : Attempt Op Answer ε α).run events (.ok result) ↔
      events = [] ∧ value = result := by
  change Returns (done (Except.ok value)) events (Except.ok result) ↔ _
  simp

theorem not_returns_throw {error : ε} {result : α} :
    ¬ Returns (throw error : Attempt Op Answer ε α).run events (.ok result) := by
  change ¬ Returns (done (Except.error error)) events (Except.ok result)
  simp

theorem returns_bind_ok {result : β} :
    Returns (x >>= f).run events (.ok result) ↔ ∃ first value rest, events = first ++ rest ∧
      Returns x.run first (.ok value) ∧ Returns (f value).run rest (.ok result) := by
  change Returns (x.run >>= ExceptT.bindCont f) events (.ok result) ↔ _
  rw [Program.returns_bind]
  constructor
  · rintro ⟨first, value, rest, rfl, one, two⟩
    cases value with
    | error error =>
      obtain ⟨_, failed⟩ := returns_done.mp two
      cases failed
    | ok value => exact ⟨first, value, rest, rfl, one, two⟩
  · rintro ⟨first, value, rest, rfl, one, two⟩
    exact ⟨first, .ok value, rest, rfl, one, two⟩

theorem calls_bind_ok :
    Calls (x >>= f).run events op ↔ Calls x.run events op ∨ ∃ first value rest,
      events = first ++ rest ∧ Returns x.run first (.ok value) ∧ Calls (f value).run rest op := by
  change Calls (x.run >>= ExceptT.bindCont f) events op ↔ _
  rw [Program.calls_bind]
  constructor
  · rintro (now | ⟨first, value, rest, rfl, one, two⟩)
    · exact .inl now
    · cases value with
      | error error => exact absurd two not_calls_done
      | ok value => exact .inr ⟨first, value, rest, rfl, one, two⟩
  · rintro (now | ⟨first, value, rest, rfl, one, two⟩)
    · exact .inl now
    · exact .inr ⟨first, .ok value, rest, rfl, one, two⟩

theorem returns_ask {fails : Answer op → Except ε α} {result : Except ε α} :
    Returns (ask op fails).run events result ↔
      ∃ answer, events = [⟨op, answer⟩] ∧ fails answer = result := by
  change Returns (perform op >>= fun answer => done (fails answer)) events result ↔ _
  simp [Program.returns_bind, returns_perform]

theorem calls_ask {first : Op} {fails : Answer first → Except ε α} :
    Calls (ask first fails).run events op ↔ events = [] ∧ op = first := by
  change Calls (perform first >>= fun answer => done (fails answer)) events op ↔ _
  simp only [Program.calls_bind, calls_perform, not_calls_done, and_false, exists_false, or_false]

theorem returns_bind_pure {g : α → β} {result : β} :
    Returns (x >>= fun value => pure (g value)).run events (.ok result) ↔
      ∃ value, g value = result ∧ Returns x.run events (.ok value) := by
  rw [returns_bind_ok]
  constructor
  · rintro ⟨first, value, rest, rfl, one, two⟩
    obtain ⟨rfl, same⟩ := returns_pure.mp two
    exact ⟨value, same, by rwa [List.append_nil]⟩
  · rintro ⟨value, same, one⟩
    exact ⟨events, value, [], (List.append_nil _).symm, one, returns_pure.mpr ⟨rfl, same⟩⟩

theorem calls_bind_pure {g : α → β} :
    Calls (x >>= fun value => pure (g value)).run events op ↔ Calls x.run events op := by
  rw [calls_bind_ok]
  refine ⟨?_, .inl⟩
  rintro (called | ⟨_, _, _, _, _, called⟩)
  · exact called
  · exact absurd called not_calls_done

theorem returns_result {result : Except ε α} :
    Returns (ExceptT.mk (pure result) : Attempt Op Answer ε α).run events (.ok value) ↔
      events = [] ∧ result = .ok value :=
  returns_done

theorem returns_lift :
    Returns (ExceptT.lift p : Attempt Op Answer ε α).run events (.ok value) ↔
      Returns p events value := by
  change Returns (p >>= fun result => done (Except.ok result)) events (.ok value) ↔ _
  rw [Program.returns_bind]
  constructor
  · rintro ⟨first, result, rest, rfl, one, two⟩
    obtain ⟨rfl, same⟩ := returns_done.mp two
    cases same
    rwa [List.append_nil]
  · intro returned
    exact ⟨events, value, [], (List.append_nil _).symm, returned, .start _⟩

theorem calls_lift :
    Calls (ExceptT.lift p : Attempt Op Answer ε α).run events op ↔ Calls p events op := by
  change Calls (p >>= fun result => done (Except.ok result)) events op ↔ _
  rw [Program.calls_bind]
  simp only [not_calls_done, and_false, exists_false, or_false]

theorem returns_mapError {change : ε → ε'} :
    Returns (mapError change x).run events (.ok value) ↔ Returns x.run events (.ok value) := by
  change Returns (x.run >>= fun result => done (Except.mapError change result)) events
    (.ok value) ↔ _
  rw [Program.returns_bind]
  constructor
  · rintro ⟨first, result, rest, rfl, one, two⟩
    obtain ⟨rfl, same⟩ := returns_done.mp two
    cases result with
    | error error => cases same
    | ok result =>
      cases same
      rwa [List.append_nil]
  · intro returned
    exact ⟨events, .ok value, [], (List.append_nil _).symm, returned, .start _⟩

variable {P : Op → Prop}

theorem only_pure (value : α) : Only P (pure value : Attempt Op Answer ε α).run :=
  Only.done (Except.ok value)

theorem only_throw (error : ε) : Only P (throw error : Attempt Op Answer ε α).run :=
  Only.done (Except.error error)

theorem only_result (result : Except ε α) :
    Only P (ExceptT.mk (pure result) : Attempt Op Answer ε α).run :=
  Only.done result

theorem only_bind (first : Only P x.run) (later : ∀ value, Only P (f value).run) :
    Only P (x >>= f).run := by
  refine ⟨fun events op called => ?_⟩
  obtain now | ⟨_, value, rest, _, _, called⟩ := calls_bind_ok.mp called
  · exact first.calls events op now
  · exact (later value).calls rest op called

theorem only_ask {fails : Answer op → Except ε α} (within : P op) : Only P (ask op fails).run :=
  Only.bind (.perform within) fun answer => Only.done (fails answer)

theorem only_lift (only : Only P p) :
    Only P (ExceptT.lift p : Attempt Op Answer ε α).run :=
  ⟨fun events op called => only.calls events op (calls_lift.mp called)⟩

theorem only_mapError {change : ε → ε'} (only : Only P x.run) :
    Only P (mapError change x).run :=
  Only.bind only fun result => Only.done (Except.mapError change result)

/-! ## Calls before a failure -/

/-- A run that fails has made only calls that satisfy `P`. -/
def FailsWithin (P : Op → Prop) (x : Attempt Op Answer ε α) : Prop :=
  ∀ events error, Returns x.run events (.error error) → ∀ event ∈ events, P event.op

theorem failsWithin_of_only (only : Only P x.run) : FailsWithin P x :=
  fun _ _ returned => only.of_run returned

theorem failsWithin_of_never (never : ∀ events error, ¬ Returns x.run events (.error error)) :
    FailsWithin P x :=
  fun events error returned => absurd returned (never events error)

theorem returns_bind_error {error : ε} :
    Returns (x >>= f).run events (.error error) ↔ Returns x.run events (.error error) ∨
      ∃ first value rest, events = first ++ rest ∧ Returns x.run first (.ok value) ∧
        Returns (f value).run rest (.error error) := by
  change Returns (x.run >>= ExceptT.bindCont f) events (.error error) ↔ _
  rw [Program.returns_bind]
  constructor
  · rintro ⟨first, value, rest, rfl, one, two⟩
    cases value with
    | error other =>
      obtain ⟨rfl, same⟩ := returns_done.mp two
      cases same
      exact .inl (by rwa [List.append_nil])
    | ok value => exact .inr ⟨first, value, rest, rfl, one, two⟩
  · rintro (failed | ⟨first, value, rest, rfl, one, two⟩)
    · exact ⟨events, .error error, [], (List.append_nil _).symm, failed, .start _⟩
    · exact ⟨first, .ok value, rest, rfl, one, two⟩

theorem failsWithin_bind (first : Only P x.run) (later : ∀ value, FailsWithin P (f value)) :
    FailsWithin P (x >>= f) := by
  intro events error returned
  obtain failed | ⟨before, value, rest, rfl, one, two⟩ := returns_bind_error.mp returned
  · exact first.of_run failed
  · intro event member
    obtain member | member := List.mem_append.mp member
    · exact first.of_run one event member
    · exact later value rest error two event member

theorem failsWithin_then {leave : Op} (body : FailsWithin P x) (after : P leave) :
    FailsWithin P (ExceptT.mk (do
      let result ← x.run
      let _ ← perform leave
      pure result) : Attempt Op Answer ε α) := by
  intro events error returned
  obtain ⟨inner, result, _, rfl, ran, rest⟩ := Program.returns_bind.mp returned
  obtain ⟨_, _, _, rfl, left, rest⟩ := Program.returns_bind.mp rest
  obtain ⟨rfl, rfl⟩ := returns_done.mp rest
  rw [returns_perform] at left
  subst left
  intro event member
  simp only [List.append_nil, List.mem_append, List.mem_singleton] at member
  obtain member | rfl := member
  · exact body inner error ran event member
  · exact after

theorem failsWithin_after {enter : Op} (body : FailsWithin P x) (before : P enter) :
    FailsWithin P (ExceptT.mk (do
      let _ ← perform enter
      x.run) : Attempt Op Answer ε α) := by
  intro events error returned
  obtain ⟨_, _, inner, rfl, entered, rest⟩ := Program.returns_bind.mp returned
  rw [returns_perform] at entered
  subst entered
  intro event member
  obtain rfl | member := List.mem_cons.mp member
  · exact before
  · exact body inner error rest event member

end Attempt

end Interaction
