import RustyCat.Presigned.RangeRefresh

/-!
# Hooks and builders of a presigned range download

The hooks over the freshness check, and the builders over the hooks: a request that a call
builds comes from the plan of the call's own freshness check.
-/

namespace RustyCat.Presigned

open Interaction Interaction.Attempt Program Function

open Download (Text HeaderMap HeaderValue)

open RangeDownload

variable {n : Nat} {lane : Lane n} {task : Nat} {s t : Shared n}

theorem perform_trace {op : RangeOp} {env : Env} {answer : RangeAnswer op} {i : Fin n}
    {u : Shared n} (performed : s.perform i env op = some (answer, u)) : u.trace = s.trace := by
  cases op with
  | lockGate =>
    simp only [Shared.perform] at performed
    split at performed
    · cases performed
      rfl
    · split at performed
      · cases performed
        rfl
      · cases performed
  | _ =>
    cases performed
    rfl

/-! ## The slots of a thread -/

def RangeOp.slot : RangeOp → Bool
  | .rememberHead _ | .takeHead | .rememberRange _ | .takeRange => true
  | _ => false

theorem slot_acts {event : RangeEvent} (slot : event.op.slot = true) (ready : Ready lane s)
    (acted : s.Acts lane event t) :
    Keeps lane task s event t ∧ Ready lane t ∧ t.history = s.history ∧
      t.trace lane = s.trace lane ++ [event] := by
  obtain ⟨env, u, performed, rfl⟩ := acted
  obtain ⟨op, answer⟩ := event
  have inner : lane.nested = true → s.active lane.thread = true := fun nested =>
    ready.active.trans nested
  cases op with
  | rememberHead | takeHead =>
    cases performed
    refine ⟨keeps_of_local ?_ nofun nofun nofun, ⟨ready.published, ready.active, ready.gate⟩, rfl,
      update_self ..⟩
    exact {
      plan := rfl, history := rfl, gate := rfl, relocked := rfl, resolved := rfl
      threads := fun i ne => ⟨rfl, update_of_ne ne _ _, rfl⟩
      nested := fun nested => ⟨rfl, inner nested⟩
      trace := fun _ ne => update_of_ne ne _ _ }
  | rememberRange | takeRange =>
    cases performed
    refine ⟨keeps_of_local ?_ nofun nofun nofun, ⟨ready.published, ready.active, ready.gate⟩, rfl,
      update_self ..⟩
    exact {
      plan := rfl, history := rfl, gate := rfl, relocked := rfl, resolved := rfl
      threads := fun i ne => ⟨rfl, rfl, update_of_ne ne _ _⟩
      nested := fun nested => ⟨rfl, inner nested⟩
      trace := fun _ ne => update_of_ne ne _ _ }
  | _ => cases slot

theorem stable_headSlot {held : Option HeadSnapshot} (outer : lane.nested = false) :
    Stable (Others lane task) fun s => Ready lane s ∧ s.headSlot lane.thread = held :=
  fun _ _ holds acted => ⟨holds.1.others acted,
    (acted.slots (holds.1.active.trans outer)).1.trans holds.2⟩

theorem stable_rangeSlot {held : Option String} (outer : lane.nested = false) :
    Stable (Others lane task) fun s => Ready lane s ∧ s.rangeSlot lane.thread = held :=
  fun _ _ holds acted => ⟨holds.1.others acted,
    (acted.slots (holds.1.active.trans outer)).2.trans holds.2⟩

/-! ## The result of the freshness check -/

/-- The call began with a freshness check of this result; a plan that it returned has been
published. -/
structure Fresh (refresher : Bool) (task : TaskView) (result : HeadSnapshot) (lane : Lane n)
    (s : Shared n) : Prop where
  returned : ∃ checked rest, s.trace lane = checked ++ rest ∧
    Returns (ensureFreshSnapshot refresher task).run checked result
  published : ∀ plan, result = .ok plan → plan ∈ s.history

variable {refresher : Bool} {result : HeadSnapshot}

variable {view : TaskView} {base : HeaderMap} {rangeValue : Text}

theorem Fresh.later (fresh : Fresh refresher view result lane s) {more : List RangeEvent}
    (trace : t.trace lane = s.trace lane ++ more)
    (history : s.history ⊆ t.history) : Fresh refresher view result lane t := by
  obtain ⟨checked, rest, split, returned⟩ := fresh.returned
  refine ⟨⟨checked, rest ++ more, ?_, returned⟩, fun plan ok => history (fresh.published plan ok)⟩
  rw [trace, split, List.append_assoc]

theorem lasting_fresh : Lasting lane task (Fresh refresher view result lane) where
  stable _ _ fresh acted :=
    fresh.later (acted.trace.trans (List.append_nil _).symm) acted.history
  recorded _ _ fresh := fresh.later (update_self ..) (List.Subset.refl _)

def Started (lane : Lane n) (s : Shared n) : Prop := Ready lane s ∧ s.trace lane = []

theorem fresh_safe (started : Started lane s) :
    Safe (Shared.Acts lane) (Others lane view.id) (Keeps lane view.id)
      (fun result t => Ready lane t ∧ Fresh refresher view result lane t)
      (ensureFreshSnapshot refresher view).run s := by
  have records : ∀ s event t, Shared.Acts lane s event t →
      t.trace lane = s.trace lane ++ [event] := by
    rintro s event _ ⟨env, u, performed, rfl⟩
    have same : u.trace = s.trace := perform_trace performed
    simp [Shared.record, same]
  refine ((ensureFreshSnapshot_spec refresher view s started.1).traced (fun s => s.trace lane)
    records fun _ _ acted => acted.trace).weaken ?_
  rintro result t ⟨ended, events, recorded, returned⟩
  have split : t.trace lane = events ++ [] := by
    rw [recorded, started.2, List.nil_append, List.append_nil]
  cases result with
  | error e => exact ⟨ended, ⟨events, [], split, returned⟩, by simp⟩
  | ok plan =>
    refine ⟨ended.1, ⟨events, [], split, returned⟩, fun other same => ?_⟩
    cases same
    exact ended.2

/-! ## The hooks -/

def urlOf (task : TaskView) : HeadSnapshot → String
  | .ok plan => headUrlOf plan
  | .error _ => task.url

theorem headUrl_spec :
    HookSpec lane view.id (Started lane) (headUrl refresher view)
      (fun url s => ∃ result, Fresh refresher view result lane s ∧ url = urlOf view result ∧
        Ready lane s ∧ (lane.nested = false → s.headSlot lane.thread = some result))
      (Ready lane) := by
  refine rspec_bind _ (rspec_lift fun s started => fresh_safe started) fun result => ?_
  refine rspec_bind (fun _ s => Fresh refresher view result lane s ∧ Ready lane s ∧
    s.headSlot lane.thread = some result) ?_ fun _ => rspec_pure ?_
  · refine rspec_ask (lasting_at.and lasting_fresh).stable fun s answer t holds acted => ?_
    obtain ⟨kept, ready, history, trace⟩ := slot_acts rfl holds.1 acted
    refine ⟨kept, holds.2.later trace (history ▸ List.Subset.refl _), ready, ?_⟩
    obtain ⟨env, u, performed, rfl⟩ := acted
    cases performed
    exact update_self ..
  · rintro s ⟨fresh, ready, held⟩
    refine ⟨result, fresh, ?_, ready, fun _ => held⟩
    cases result with
    | error e => rfl
    | ok plan => rfl

theorem headHeaders_spec {plan : RangePlan} {P : Shared n → Prop} (lasting : Lasting lane view.id P)
    (ready : ∀ s, P s → Ready lane s) :
    HookSpec lane view.id P
      (do ensureTaskActive view; pure (mergeHeaders base plan.headHeaders))
      (fun headers s => P s ∧ headers = mergeHeaders base plan.headHeaders) (Ready lane) :=
  rspec_bind _ (active_spec lasting ready) fun _ => rspec_pure fun _ holds => ⟨holds, rfl⟩

theorem mergeHeadHeaders_spec :
    HookSpec lane view.id (Ready lane) (mergeHeadHeaders refresher view base)
      (fun _ => Ready lane) (Ready lane) := by
  refine rspec_bind (fun _ => Ready lane) ?_ fun remembered => ?_
  · refine rspec_ask lasting_at.stable fun s answer t ready acted => ?_
    obtain ⟨kept, after, _⟩ := slot_acts rfl ready acted
    exact ⟨kept, after⟩
  have rest : ∀ plan : RangePlan, HookSpec lane view.id (Ready lane)
      (do ensureTaskActive view; pure (mergeHeaders base plan.headHeaders))
      (fun _ => Ready lane) (Ready lane) := fun plan =>
    rspec_weaken (headHeaders_spec lasting_at fun _ ready => ready) (fun _ ready => ready)
      (fun _ _ holds => holds.1) fun _ ready => ready
  cases remembered with
  | some snapshot =>
    exact rspec_bind _ (rspec_result (fun _ _ _ ready => ready) fun _ ready => ready) rest
  | none =>
    refine rspec_bind _ (ensureFreshSnapshot_spec refresher view) fun plan => ?_
    exact rspec_weaken (rest plan) (fun _ got => got.1) (fun _ _ ready => ready)
      fun _ ready => ready

theorem mergeHeadHeaders_paired (outer : lane.nested = false) :
    HookSpec lane view.id
      (fun s => (Ready lane s ∧ s.headSlot lane.thread = some result) ∧
        Fresh refresher view result lane s)
      (mergeHeadHeaders refresher view base)
      (fun headers s => Ready lane s ∧ ∃ plan, result = .ok plan ∧
        Fresh refresher view (.ok plan) lane s ∧ headers = mergeHeaders base plan.headHeaders)
      (Ready lane) := by
  refine rspec_bind (fun remembered s => remembered = some result ∧ Ready lane s ∧
    Fresh refresher view result lane s) ?_ fun remembered => ?_
  · refine rspec_ask ?_ fun s answer t holds acted => ?_
    · exact fun s t holds acted => ⟨stable_headSlot outer s t holds.1 acted,
        lasting_fresh.stable s t holds.2 acted⟩
    obtain ⟨kept, ready, history, trace⟩ := slot_acts rfl holds.1.1 acted
    refine ⟨kept, ?_, ready, holds.2.later trace (history ▸ List.Subset.refl _)⟩
    obtain ⟨env, u, performed, rfl⟩ := acted
    cases performed
    exact holds.1.2
  rintro s ⟨rfl, ready, fresh⟩
  cases result with
  | error e => exact ready
  | ok plan =>
    refine (headHeaders_spec (lasting_at.and lasting_fresh) (fun _ holds => holds.1) s
      ⟨ready, fresh⟩).weaken fun headers t ended => ?_
    cases headers with
    | error e => exact ended
    | ok headers => exact ⟨ended.1.1, plan, rfl, ended.1.2, ended.2⟩

theorem requestFromFreshSnapshot_spec :
    HookSpec lane view.id (Started lane)
      (requestFromFreshSnapshot refresher view rangeValue base)
      (fun request s => Ready lane s ∧ ∃ plan range, Fresh refresher view (.ok plan) lane s ∧
        Download.fromStr rangeValue = some range ∧
        request = (plan.rangeUrl, rangeHeadersOf plan range base)) (Ready lane) := by
  refine rspec_bind (fun plan s => Ready lane s ∧ Fresh refresher view (.ok plan) lane s) ?_
    fun plan => ?_
  · intro s started
    refine (fresh_safe started).weaken fun result t ended => ?_
    cases result with
    | error e => exact ended.1
    | ok plan => exact ended
  split
  case h_1 _ => exact rspec_throw fun _ holds => holds.1
  case h_2 range parsed =>
    refine rspec_bind _ (active_spec (lasting_at.and lasting_fresh) fun _ holds => holds.1)
      fun _ => rspec_pure fun s holds => ?_
    exact ⟨holds.1, plan, range, holds.2, parsed, rfl⟩

theorem mergeRangeGetHeaders_spec :
    HookSpec lane view.id (Started lane) (mergeRangeGetHeaders refresher view rangeValue base)
      (fun headers s => Ready lane s ∧ ∃ plan range, Fresh refresher view (.ok plan) lane s ∧
        Download.fromStr rangeValue = some range ∧ headers = rangeHeadersOf plan range base ∧
        s.rangeSlot lane.thread = some plan.rangeUrl) (Ready lane) := by
  refine rspec_bind _ requestFromFreshSnapshot_spec fun request => ?_
  rintro s ⟨ready, plan, range, fresh, parsed, rfl⟩
  refine rspec_bind (fun _ s => Ready lane s ∧ Fresh refresher view (.ok plan) lane s ∧
    s.rangeSlot lane.thread = some plan.rangeUrl) (rspec_ask (lasting_at.and lasting_fresh).stable
    fun s answer t holds acted => ?_) (fun _ => rspec_pure ?_) s ⟨ready, fresh⟩
  · obtain ⟨kept, after, history, trace⟩ := slot_acts rfl holds.1 acted
    refine ⟨kept, after, holds.2.later trace (history ▸ List.Subset.refl _), ?_⟩
    obtain ⟨env, u, performed, rfl⟩ := acted
    cases performed
    exact update_self ..
  · rintro t ⟨after, same, held⟩
    exact ⟨after, plan, range, same, parsed, rfl, held⟩

theorem rangeUrl_spec : HookSpec lane task (Ready lane) rangeUrl (fun _ => Ready lane)
    (Ready lane) := by
  refine rspec_bind (fun _ => Ready lane) ?_ fun remembered => ?_
  · refine rspec_ask lasting_at.stable fun s answer t ready acted => ?_
    obtain ⟨kept, after, _⟩ := slot_acts rfl ready acted
    exact ⟨kept, after⟩
  cases remembered with
  | some url => exact rspec_pure fun _ ready => ready
  | none =>
    refine rspec_bind _ (readPlan_spec lasting_at fun _ ready => ready.published) fun plan => ?_
    exact rspec_pure fun _ holds => holds.1

theorem rangeUrl_paired {plan : RangePlan} (outer : lane.nested = false) :
    HookSpec lane view.id
      (fun s => (Ready lane s ∧ s.rangeSlot lane.thread = some plan.rangeUrl) ∧
        Fresh refresher view (.ok plan) lane s) rangeUrl
      (fun url s => Ready lane s ∧ Fresh refresher view (.ok plan) lane s ∧
        url = plan.rangeUrl) (Ready lane) := by
  refine rspec_bind (fun remembered s => remembered = some plan.rangeUrl ∧ Ready lane s ∧
    Fresh refresher view (.ok plan) lane s) ?_ fun remembered => ?_
  · refine rspec_ask ?_ fun s answer t holds acted => ?_
    · exact fun s t holds acted => ⟨stable_rangeSlot outer s t holds.1 acted,
        lasting_fresh.stable s t holds.2 acted⟩
    obtain ⟨kept, ready, history, trace⟩ := slot_acts rfl holds.1.1 acted
    refine ⟨kept, ?_, ready, holds.2.later trace (history ▸ List.Subset.refl _)⟩
    obtain ⟨env, u, performed, rfl⟩ := acted
    cases performed
    exact holds.1.2
  · rintro s ⟨rfl, ready, fresh⟩
    exact ⟨ready, fresh, rfl⟩

/-! ## The builders -/

/-- The URL and the headers of the plan make up the request of the call. -/
def Call.From (call : Call) (plan : RangePlan) (request : Request) : Prop :=
  match call.job with
  | .head =>
    request = (headUrlOf plan, mergeHeaders call.task.headers plan.headHeaders)
  | .range expectedIfMatch rangeValue =>
    ∃ range, Download.fromStr rangeValue = some range ∧
      request = (plan.rangeUrl, rangeHeadersOf plan range
        (Download.rangeRequestBase call.task.headers expectedIfMatch))
  | _ => False

/-- The call is over, and a request that it has built comes from the plan of its own
freshness check. -/
def Ended (lane : Lane n) (call : Call) (built : Option Request) (s : Shared n) : Prop :=
  Ready lane s ∧ ∀ request, built = some request → ∃ plan,
    Fresh call.refresher call.task (.ok plan) lane s ∧ call.From plan request

theorem buildHead_spec (outer : lane.nested = false) :
    HookSpec lane view.id (Started lane) (buildHead refresher view)
      (fun request s => Ready lane s ∧ ∃ plan, Fresh refresher view (.ok plan) lane s ∧
        request = (headUrlOf plan, mergeHeaders view.headers plan.headHeaders)) (Ready lane) := by
  refine rspec_bind _ headUrl_spec fun url => ?_
  rintro s ⟨result, fresh, rfl, ready, held⟩
  refine rspec_bind _ (mergeHeadHeaders_paired outer) (fun headers => rspec_pure ?_) s
    ⟨⟨ready, held outer⟩, fresh⟩
  rintro t ⟨after, plan, rfl, same, rfl⟩
  exact ⟨after, plan, same, rfl⟩

theorem buildRange_spec {expectedIfMatch : Option HeaderValue} (outer : lane.nested = false) :
    HookSpec lane view.id (Started lane) (buildRange refresher view expectedIfMatch rangeValue)
      (fun request s => Ready lane s ∧ ∃ plan range, Fresh refresher view (.ok plan) lane s ∧
        Download.fromStr rangeValue = some range ∧
        request = (plan.rangeUrl, rangeHeadersOf plan range
          (Download.rangeRequestBase view.headers expectedIfMatch))) (Ready lane) := by
  refine rspec_bind _ mergeRangeGetHeaders_spec fun headers => ?_
  rintro s ⟨ready, plan, range, fresh, parsed, rfl, held⟩
  refine rspec_bind _ (rangeUrl_paired outer) (fun url => ?_) s ⟨⟨ready, held⟩, fresh⟩
  refine rspec_bind _ (rspec_result (fun _ _ _ holds => holds) fun _ holds => holds.1)
    fun _ => rspec_pure ?_
  rintro t ⟨after, same, rfl⟩
  exact ⟨after, plan, range, same, parsed, rfl⟩

theorem program_spec (call : Call) (hook : lane.nested = true → call.job.isHook = true) :
    HookSpec lane call.task.id (Started lane) call.program (Ended lane call) (Ready lane) := by
  obtain ⟨refresher, view, job⟩ := call
  have outer : job.isHook = false → lane.nested = false := fun builder => by
    cases inner : lane.nested with
    | false => rfl
    | true => exact absurd (hook inner) (by rw [builder]; exact nofun)
  have none_ended : ∀ {α : Type} (_ : α), HookSpec lane view.id (Ready lane)
      (pure none : Hook (Option Request)) (Ended lane ⟨refresher, view, job⟩) (Ready lane) :=
    fun _ => rspec_pure fun _ ready => ⟨ready, nofun⟩
  cases job with
  | head =>
    refine rspec_bind _ (buildHead_spec (outer rfl)) fun request => rspec_pure ?_
    rintro s ⟨ready, plan, fresh, from_plan⟩
    refine ⟨ready, fun other same => ⟨plan, fresh, ?_⟩⟩
    cases same
    exact from_plan
  | range expectedIfMatch rangeValue =>
    refine rspec_bind _ (buildRange_spec (outer rfl)) fun request => rspec_pure ?_
    rintro s ⟨ready, plan, range, fresh, parsed, from_plan⟩
    refine ⟨ready, fun other same => ⟨plan, fresh, range, parsed, ?_⟩⟩
    cases same
    exact from_plan
  | headUrl =>
    refine rspec_bind _ headUrl_spec fun url => rspec_pure ?_
    rintro s ⟨_, _, _, ready, _⟩
    exact ⟨ready, nofun⟩
  | mergeHeadHeaders base =>
    exact rspec_bind _ (rspec_weaken mergeHeadHeaders_spec (fun _ started => started.1)
      (fun _ _ ready => ready) fun _ ready => ready) none_ended
  | mergeRangeGetHeaders rangeValue base =>
    exact rspec_bind _ (rspec_weaken mergeRangeGetHeaders_spec (fun _ started => started)
      (fun _ _ holds => holds.1) fun _ ready => ready) none_ended
  | rangeUrl =>
    exact rspec_bind _ (rspec_weaken rangeUrl_spec (fun _ started => started.1)
      (fun _ _ ready => ready) fun _ ready => ready) none_ended

end RustyCat.Presigned
