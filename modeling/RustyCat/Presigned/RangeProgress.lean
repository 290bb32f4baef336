import RustyCat.Presigned.RangeLaw

/-!
# Failed and later refreshes

A freshness check that fails publishes nothing, and whatever happened before, every call
can come to its end, and a stale plan can be refreshed afterwards.
-/

namespace RustyCat.Presigned

open Interaction Interaction.Attempt Program Function

open RangeDownload

variable {n : Nat}

/-! ## A failed check publishes nothing -/

def RangeOp.silent : RangeOp → Prop
  | .publish _ => False
  | _ => True

theorem only_active (task : TaskView) : Only RangeOp.silent (ensureTaskActive task).run :=
  only_ask trivial

theorem only_readPlan : Only RangeOp.silent (tell .readPlan).run := only_ask trivial

theorem only_clock (test : Nat → Bool) :
    Only RangeOp.silent
      (do let now ← ask .now id; pure (test now) : Hook Bool).run :=
  only_bind (only_ask trivial) fun _ => only_pure _

theorem only_shouldRefresh (plan : RangePlan) :
    Only RangeOp.silent (shouldRefreshPlan plan).run := by
  unfold shouldRefreshPlan
  split
  · exact only_pure _
  · exact only_clock _

theorem only_expired (plan : RangePlan) : Only RangeOp.silent (isPlanExpired plan).run := by
  unfold isPlanExpired
  split
  · exact only_pure _
  · exact only_clock _

theorem only_taskTotal (task : TaskView) (plan : RangePlan) :
    Only RangeOp.silent (ensureTaskTotalMatchesSnapshot task plan).run :=
  only_bind (only_ask trivial) fun _ => only_result _

theorem failsWithin_adopt (task : TaskView) (plan refreshed : RangePlan) :
    FailsWithin RangeOp.silent (adoptRefreshed task plan refreshed) := by
  refine failsWithin_bind (only_active task) fun _ => ?_
  refine failsWithin_bind (only_expired refreshed) fun expired => ?_
  cases expired with
  | true => exact failsWithin_of_only (only_throw _)
  | false =>
    refine failsWithin_bind (only_ask trivial) fun resolved => ?_
    refine failsWithin_bind (only_result _) fun _ => ?_
    refine failsWithin_bind (only_active task) fun _ => ?_
    -- once the plan is published the check succeeds
    refine failsWithin_of_never fun events error returned => ?_
    obtain failed | ⟨_, _, _, _, _, failed⟩ := returns_bind_error.mp returned
    · obtain ⟨_, _, same⟩ := returns_ask.mp failed
      cases same
    · obtain ⟨_, same⟩ := returns_done.mp failed
      cases same

theorem failsWithin_refresher (task : TaskView) (plan : RangePlan) :
    FailsWithin RangeOp.silent (callRefresher task plan) := by
  refine failsWithin_bind (only_ask trivial) fun _ => ?_
  refine failsWithin_bind (only_ask trivial) fun outcome => ?_
  match outcome with
  | none | some (.error _) => exact failsWithin_of_only (only_throw _)
  | some (.ok refreshed) => exact failsWithin_adopt task plan refreshed

theorem failsWithin_underGate (task : TaskView) :
    FailsWithin RangeOp.silent (refreshUnderGate task) := by
  refine failsWithin_bind (only_active task) fun _ => ?_
  refine failsWithin_bind only_readPlan fun plan => ?_
  refine failsWithin_bind (only_taskTotal task plan) fun _ => ?_
  refine failsWithin_bind (only_shouldRefresh plan) fun stale => ?_
  cases stale with
  | false => exact failsWithin_of_only (only_bind (only_active task) fun _ => only_pure _)
  | true =>
    refine failsWithin_bind (only_ask trivial) fun entered => ?_
    cases entered with
    | false => exact failsWithin_of_only (only_throw _)
    | true => exact failsWithin_then (failsWithin_refresher task plan) trivial

theorem failsWithin_ensureFresh (refresher : Bool) (task : TaskView) :
    FailsWithin RangeOp.silent (ensureFreshSnapshot refresher task) := by
  refine failsWithin_bind (only_active task) fun _ => ?_
  refine failsWithin_bind only_readPlan fun plan => ?_
  refine failsWithin_bind (only_taskTotal task plan) fun _ => ?_
  refine failsWithin_bind (only_shouldRefresh plan) fun stale => ?_
  have active : Only RangeOp.silent (do ensureTaskActive task; pure plan : Hook RangePlan).run :=
    only_bind (only_active task) fun _ => only_pure _
  cases stale with
  | false => exact failsWithin_of_only active
  | true =>
    cases refresher with
    | false =>
      refine failsWithin_of_only (only_bind (only_expired plan) fun expired => ?_)
      cases expired with
      | true => exact only_throw _
      | false => exact active
    | true =>
      refine failsWithin_bind (only_ask trivial) fun inside => ?_
      cases inside with
      | true => exact failsWithin_of_only (only_throw _)
      | false =>
        exact failsWithin_after (failsWithin_then (failsWithin_underGate task) trivial) trivial

/-! ## Every call can end -/

variable {lane : Lane n}

/-- The thread of the lane can take the gate, or has it. -/
def Shared.Open (lane : Lane n) (s : Shared n) : Prop :=
  s.gate = none ∨ s.gate = some lane.thread

theorem acts_enabled {s : Shared n} (gate : s.Open lane) (op : RangeOp) :
    ∃ answer t, s.Acts lane ⟨op, answer⟩ t ∧ t.Open lane := by
  have enabled : ∀ {answer u}, s.perform lane.thread ⟨false, .ok 0, none⟩ op = some (answer, u) →
      u.Open lane → ∃ answer t, s.Acts lane ⟨op, answer⟩ t ∧ t.Open lane :=
    fun performed gate => ⟨_, _, ⟨_, _, performed, rfl⟩, gate⟩
  cases op with
  | lockGate =>
    obtain free | held := gate
    · have taken : s.perform lane.thread ⟨false, .ok 0, none⟩ .lockGate =
          some ((), { s with gate := some lane.thread }) := by
        simp only [Shared.perform, free]
      exact enabled taken (.inr rfl)
    · have taken : s.perform lane.thread ⟨false, .ok 0, none⟩ .lockGate =
          some ((), { s with relocked := true }) := by
        simp only [Shared.perform, held, if_true]
      exact enabled taken (.inr held)
  | unlockGate => exact enabled rfl (.inl rfl)
  | _ => exact enabled rfl gate

theorem may_end {α : Type} (p : Program RangeOp RangeAnswer α) {s : Shared n}
    (gate : s.Open lane) : May (Shared.Acts lane) (fun _ t => t.Open lane) p s := by
  induction p generalizing s with
  | done value => exact gate
  | call op next ih =>
    obtain ⟨answer, t, acted, after⟩ := acts_enabled gate op
    exact ⟨answer, t, acted, ih answer after⟩

namespace RangeSystem

variable {s : RangeSystem n} {call : Call}

theorem reaches_of_may {ends : Except MeowError (Option Request) → Shared n → Prop}
    {rest : Program RangeOp RangeAnswer (Except MeowError (Option Request))}
    (running : s.frames lane = some ⟨call, rest⟩)
    (alone : lane.nested = false → s.frames ⟨lane.thread, true⟩ = none)
    (may : May (Shared.Acts lane) ends rest s.shared) :
    ∃ t value, Machine.Reachable step s t ∧ ends value t.shared ∧ t.built = s.built ∧
      t.frames = update s.frames lane (some ⟨call, .done value⟩) := by
  induction rest generalizing s with
  | done value => exact ⟨s, value, .start, may, rfl, by rw [← running, update_eq_self]⟩
  | call op next ih =>
    obtain ⟨answer, u, ⟨env, v, performed, rfl⟩, later⟩ := may
    let after : RangeSystem n := { s with
      shared := v.record lane ⟨op, answer⟩
      frames := update s.frames lane (some ⟨call, next answer⟩) }
    have stepped : s.step (.act lane env) = some after := by
      have free : ¬ (lane.nested = false ∧ (s.frames ⟨lane.thread, true⟩).isSome) := by
        rintro ⟨outer, some⟩
        rw [alone outer] at some
        cases some
      simp only [step, running, if_neg free, performed, after]
    have still : lane.nested = false → after.frames ⟨lane.thread, true⟩ = none := fun outer => by
      refine frames_update.mpr (.inr ⟨fun same => ?_, alone outer⟩)
      rw [← same] at outer
      cases outer
    obtain ⟨t, value, run, ended, built, frames⟩ :=
      ih answer (s := after) (update_self ..) still later
    refine ⟨t, value, .trans (.next .start trivial stepped) run, ended, built, ?_⟩
    rw [frames, update_idem]

theorem reaches_end (running : (s.frames lane).isSome)
    (alone : lane.nested = false → s.frames ⟨lane.thread, true⟩ = none)
    (gate : s.shared.Open lane) :
    ∃ t, Machine.Reachable step s t ∧ t.shared.Open lane ∧
      t.frames = update s.frames lane none := by
  obtain ⟨⟨call, rest⟩, running⟩ := Option.isSome_iff_exists.mp running
  obtain ⟨t, value, run, gate, _, frames⟩ := reaches_of_may running alone (may_end rest gate)
  have ended : t.frames lane = some ⟨call, .done value⟩ := by rw [frames, update_self]
  have stepped : ∃ u, t.step (.finish lane) = some u ∧ u.shared = t.shared ∧
      u.frames = update t.frames lane none := by
    simp only [step, ended]
    exact ⟨_, rfl, rfl, rfl⟩
  obtain ⟨u, stepped, shared, after⟩ := stepped
  refine ⟨u, run.trans (.next .start trivial stepped), shared ▸ gate, ?_⟩
  rw [after, frames, update_idem]

def Idle (thread : Fin n) (s : RangeSystem n) : Prop :=
  ∀ nested, s.frames ⟨thread, nested⟩ = none

theorem Sound.run {t : RangeSystem n} (sound : Sound s) (run : Machine.Reachable RangeSystem.step s t) :
    Sound t :=
  run.invariant Sound sound fun _ _ _ sound _ stepped => sound.step stepped

theorem reaches_none (lane : Lane n) (alone : lane.nested = false → s.frames ⟨lane.thread, true⟩ = none)
    (gate : s.shared.Open lane) :
    ∃ t, Machine.Reachable step s t ∧ t.shared.Open lane ∧
      t.frames = update s.frames lane none := by
  cases running : s.frames lane with
  | none => exact ⟨s, .start, gate, by rw [← running, update_eq_self]⟩
  | some frame => exact reaches_end (Option.isSome_of_mem running) alone gate

theorem Sound.thread_ends (sound : Sound s) (thread : Fin n)
    (gate : s.shared.gate = none ∨ s.shared.gate = some thread) :
    ∃ t, Machine.Reachable RangeSystem.step s t ∧ t.Idle thread ∧ t.shared.gate = none := by
  -- first the nested call, for the call of the thread waits for it
  obtain ⟨t, first, openGate, inner⟩ := reaches_none ⟨thread, true⟩ nofun gate
  have still : t.frames ⟨thread, true⟩ = none := by rw [inner, update_self]
  obtain ⟨u, second, openGate, outer⟩ :=
    reaches_none (s := t) ⟨thread, false⟩ (fun _ => still) openGate
  have idle : u.Idle thread := fun nested => by
    rw [outer]
    cases nested with
    | false => exact update_self ..
    | true => exact frames_update.mpr (.inr ⟨by simp, still⟩)
  refine ⟨u, first.trans second, idle, ?_⟩
  have free := ((sound.run (first.trans second)).idle thread (idle false)).1
  exact openGate.resolve_right free

theorem Sound.ends (sound : Sound s) (thread : Fin n) :
    ∃ t, Machine.Reachable RangeSystem.step s t ∧ t.Idle thread ∧ t.shared.gate = none := by
  cases gate : s.shared.gate with
  | none => exact sound.thread_ends thread (.inl gate)
  | some owner =>
    obtain ⟨t, first, _, free⟩ := sound.thread_ends owner (.inr gate)
    obtain ⟨u, second, idle, free⟩ := (sound.run first).thread_ends thread (.inl free)
    exact ⟨u, first.trans second, idle, free⟩

end RangeSystem

/-! ## A later refresh -/

def filled (plan refreshed : RangePlan) : RangePlan :=
  { refreshed with totalSize := refreshed.totalSize.or plan.totalSize }

/-- A call of a lane whose environment stays the same. -/
def Shared.performAlone (lane : Lane n) (env : Env) (op : RangeOp) (s : Shared n) :
    Option (RangeAnswer op × Shared n) :=
  (s.perform lane.thread env op).map fun done => (done.1, done.2.record lane ⟨op, done.1⟩)

theorem acts_of_performAlone {env : Env} (op : RangeOp) (s : Shared n)
    (done : RangeAnswer op × Shared n) (performed : s.performAlone lane env op = some done) :
    s.Acts lane ⟨op, done.1⟩ done.2 := by
  obtain ⟨⟨answer, t⟩, done, rfl⟩ := Option.map_eq_some_iff.mp performed
  exact ⟨env, t, done, rfl⟩

section Refresh

variable {view : TaskView} {refreshed : RangePlan} {now : Nat} {s : Shared n}

theorem isPlanExpired_alone (lane : Lane n) (fresh : expiredAt refreshed now = false) :
    ∃ traces : Shared n → Lane n → List RangeEvent, ∀ s : Shared n,
      runAlone (Shared.performAlone lane ⟨false, .ok now, some (.ok refreshed)⟩)
        (isPlanExpired refreshed).run s = some (.ok false, { s with trace := traces s }) := by
  unfold isPlanExpired
  cases expires : refreshed.rangeExpiresAtUnixSecs with
  | none => exact ⟨_, fun _ => rfl⟩
  | some expiresAt =>
    have unexpired : decide (now ≥ expiresAt) = false := by simpa [expiredAt, expires] using fresh
    simp only [runAlone_then, runAlone_ask, runAlone_ok, Shared.performAlone, Shared.perform,
      Option.map_some, Option.bind_some, id, unexpired]
    exact ⟨_, fun _ => rfl⟩

theorem buildHead_alone (lane : Lane n) {expiresAt : Nat} (free : s.gate = none)
    (idle : s.active lane.thread = false) (expires : s.plan.rangeExpiresAtUnixSecs = some expiresAt)
    (stale : Word.saturatingAdd 64 now s.plan.refreshBeforeSecs ≥ expiresAt)
    (fresh : expiredAt refreshed now = false)
    (total : ∀ known total, s.resolved view.id = some known →
      s.plan.totalSize = some total → known = total)
    (agree : ∀ known total, (s.resolved view.id).or s.plan.totalSize = some known →
      refreshed.totalSize = some total → known = total) :
    ∃ t, runAlone (Shared.performAlone lane ⟨false, .ok now, some (.ok refreshed)⟩)
        (buildHead true view).run s =
          some (.ok (headUrlOf (filled s.plan refreshed),
            mergeHeaders view.headers (filled s.plan refreshed).headHeaders), t) ∧
      t.plan = filled s.plan refreshed := by
  have first : checkTotals "presigned range" (s.resolved view.id) s.plan.totalSize = .ok () :=
    checkTotals_eq_ok.mpr total
  have second : checkTotals "refreshed range" ((s.resolved view.id).or s.plan.totalSize)
      refreshed.totalSize = .ok () := checkTotals_eq_ok.mpr agree
  obtain ⟨traces, unexpired⟩ := isPlanExpired_alone lane fresh
  simp only [buildHead, headUrl, mergeHeadHeaders, ensureFreshSnapshot, ensureTaskActive,
    RangeDownload.tell,
    ensureTaskTotalMatchesSnapshot, shouldRefreshPlan, withGate, refreshUnderGate, withActive,
    callRefresher, adoptRefreshed, known, RangeDownload.call, runAlone_then, runAlone_ask,
    runAlone_ok, runAlone_lift, runAlone_mk, runAlone_bind, runAlone_perform, runAlone_pure,
    Shared.performAlone, Shared.perform, Shared.record, unexpired, first, second, free, idle,
    expires, decide_eq_true stale, Option.bind_some, Option.map_some, id, Bool.not_true,
    Bool.not_false, Bool.false_eq_true, if_true, if_false, update_self]
  exact ⟨_, rfl, rfl⟩

end Refresh

namespace RangeSystem

variable {s : RangeSystem n}

theorem Sound.refreshes {thread : Fin n} {view : TaskView} {refreshed : RangePlan}
    {now expiresAt : Nat} (sound : Sound s) (idle : s.Idle thread)
    (free : s.shared.gate = none) (expires : s.shared.plan.rangeExpiresAtUnixSecs = some expiresAt)
    (stale : Word.saturatingAdd 64 now s.shared.plan.refreshBeforeSecs ≥ expiresAt)
    (fresh : expiredAt refreshed now = false)
    (total : ∀ known total, s.shared.resolved view.id = some known →
      s.shared.plan.totalSize = some total → known = total)
    (agree : ∀ known total, (s.shared.resolved view.id).or s.shared.plan.totalSize = some known →
      refreshed.totalSize = some total → known = total) :
    ∃ t, Machine.Reachable RangeSystem.step s t ∧ t.shared.plan = filled s.shared.plan refreshed ∧
      ∃ built ∈ t.built, built.call = ⟨true, view, .head⟩ ∧
        built.request = (headUrlOf (filled s.shared.plan refreshed),
          mergeHeaders view.headers (filled s.shared.plan refreshed).headHeaders) := by
  let lane : Lane n := ⟨thread, false⟩
  let call : Call := ⟨true, view, .head⟩
  let request : Request := (headUrlOf (filled s.shared.plan refreshed),
    mergeHeaders view.headers (filled s.shared.plan refreshed).headHeaders)
  let begun : RangeSystem n := { s with
    shared := { s.shared with trace := update s.shared.trace lane [] }
    frames := update s.frames lane (some ⟨call, call.program.run⟩) }
  have started : s.step (.start lane call) = some begun :=
    if_pos (mayStart_eq_true.mpr ⟨idle false, nofun⟩)
  have alone : lane.nested = false → begun.frames ⟨lane.thread, true⟩ = none := fun _ =>
    frames_update.mpr (.inr ⟨by simp [lane], idle true⟩)
  obtain ⟨last, ran, same⟩ := buildHead_alone lane (s := begun.shared) free
    (sound.idle thread (idle false)).2 expires stale fresh total agree
  have returned : runAlone (Shared.performAlone lane ⟨false, .ok now, some (.ok refreshed)⟩)
      call.program.run begun.shared = some (.ok (some request), last) := by
    change runAlone _ (buildHead true view >>= fun request => pure (some request)).run _ = _
    rw [runAlone_then, ran]
    rfl
  obtain ⟨t, _, run, ⟨rfl, rfl⟩, _, frames⟩ :=
    reaches_of_may (update_self ..) alone (may_of_runAlone acts_of_performAlone returned)
  have done : t.frames lane = some ⟨call, .done (.ok (some request))⟩ := by
    rw [frames, update_self]
  have finished : ∃ u, t.step (.finish lane) = some u ∧ u.shared = t.shared ∧
      u.built = ⟨call, request, t.shared.trace lane⟩ :: t.built := by
    simp only [RangeSystem.step, done]
    exact ⟨_, rfl, rfl, rfl⟩
  obtain ⟨u, stepped, shared, built⟩ := finished
  refine ⟨u, ((Machine.Run.start.next trivial started).trans run).next trivial stepped,
    shared ▸ same, ⟨call, request, t.shared.trace lane⟩, ?_, rfl, rfl⟩
  rw [built]
  exact List.mem_cons_self

/-! ## The law -/

/-- What holds in every state that the threads can reach. -/
structure Lawful (s : RangeSystem n) : Prop where
  /-- The URL and the headers of a request come from one plan. -/
  requests : ∀ built ∈ s.built, built.Sound s.shared.history
  /-- A request is not built when its freshness check has failed. -/
  checked : ∀ built ∈ s.built, ∀ checked rest e, built.events = checked ++ rest →
    ¬ Returns (ensureFreshSnapshot built.call.refresher built.call.task).run checked (.error e)
  /-- The plan changes only to an adopted answer of the refresher. -/
  published : ∀ label t, s.step label = some t → t.shared.plan ≠ s.shared.plan →
    ∃ lane env call next, label = .act lane env ∧
      s.frames lane = some ⟨call, .call (.publish t.shared.plan) next⟩ ∧
      Adopted lane call.task.id s.shared t.shared.plan
  totals : ∀ label t known, s.step label = some t → s.shared.plan.totalSize = some known →
    t.shared.plan.totalSize = some known
  /-- The refresher is called for the published plan. -/
  asked : ∀ lane call plan next,
    s.frames lane = some ⟨call, .call (.refreshBegin plan) next⟩ → plan = s.shared.plan
  /-- The events of a call in progress are a run of its program. -/
  runs : ∀ lane frame, s.frames lane = some frame →
    Program.Run frame.call.program.run (s.shared.trace lane) frame.rest
  /-- A freshness check that fails has published nothing. -/
  failed : ∀ refresher task events e,
    Returns (ensureFreshSnapshot refresher task).run events (.error e) →
    ∀ event ∈ events, ∀ plan, event.op ≠ .publish plan
  /-- No thread locks the gate twice; one that is in no call holds nothing. -/
  relocked : s.shared.relocked = false
  released : ∀ thread, s.frames ⟨thread, false⟩ = none →
    s.shared.gate ≠ some thread ∧ s.shared.active thread = false
  ends : ∀ thread, ∃ t, Machine.Reachable RangeSystem.step s t ∧ t.Idle thread ∧
    t.shared.gate = none
  /-- An idle thread can refresh a stale plan. -/
  refreshes : ∀ thread view refreshed now expiresAt, s.Idle thread → s.shared.gate = none →
    s.shared.plan.rangeExpiresAtUnixSecs = some expiresAt →
    Word.saturatingAdd 64 now s.shared.plan.refreshBeforeSecs ≥ expiresAt →
    expiredAt refreshed now = false →
    (∀ known total, s.shared.resolved view.id = some known →
      s.shared.plan.totalSize = some total → known = total) →
    (∀ known total, (s.shared.resolved view.id).or s.shared.plan.totalSize = some known →
      refreshed.totalSize = some total → known = total) →
    ∃ t, Machine.Reachable RangeSystem.step s t ∧
      t.shared.plan = filled s.shared.plan refreshed ∧
      ∃ built ∈ t.built, built.call = ⟨true, view, .head⟩ ∧
        built.request = (headUrlOf (filled s.shared.plan refreshed),
          mergeHeaders view.headers (filled s.shared.plan refreshed).headHeaders)

theorem plan_of_step {t : RangeSystem n} {label : Label n} (stepped : s.step label = some t)
    (quiet : ∀ lane env, label ≠ .act lane env) : t.shared.plan = s.shared.plan := by
  cases label with
  | act lane env => exact absurd rfl (quiet lane env)
  | finish | start | freeze | foreign =>
    simp only [step] at stepped
    split at stepped
    · cases stepped
      rfl
    · cases stepped

theorem Sound.published_step {t : RangeSystem n} {label : Label n} (sound : Sound s)
    (stepped : s.step label = some t) (changed : t.shared.plan ≠ s.shared.plan) :
    ∃ lane env call next, label = .act lane env ∧
      s.frames lane = some ⟨call, .call (.publish t.shared.plan) next⟩ ∧
      Adopted lane call.task.id s.shared t.shared.plan := by
  by_cases acts : ∃ lane env, label = .act lane env
  · obtain ⟨lane, env, rfl⟩ := acts
    obtain ⟨call, op, next, answer, running, stepped⟩ := act_inv stepped
    have kept := sound.keeps running stepped.acted
    by_cases publishes : ∃ plan, op = .publish plan
    · obtain ⟨plan, rfl⟩ := publishes
      obtain ⟨same, adopted⟩ := kept.adopts plan rfl
      rw [same]
      exact ⟨lane, env, call, next, rfl, running, adopted⟩
    · exact absurd (kept.plan fun plan same => publishes ⟨plan, same⟩) changed
  · exact absurd (plan_of_step stepped fun lane env same => acts ⟨lane, env, same⟩) changed

theorem Sound.lawful (sound : Sound s) : Lawful s where
  requests := sound.built
  checked built member checked rest e split failed := by
    obtain ⟨_, plan, _, _, before, after, same, returned⟩ := sound.built built member
    obtain ⟨_, same⟩ := failed.unique returned (split.symm.trans same)
    cases same
  published _ _ := sound.published_step
  totals label t known stepped total := by
    by_cases same : t.shared.plan = s.shared.plan
    · rw [same, total]
    · obtain ⟨lane, env, call, next, _, _, refreshed, since, _, _, made, kept⟩ :=
        sound.published_step stepped same
      rw [made, total]
      cases answered : refreshed.totalSize with
      | none => rfl
      | some given => rw [(kept given answered).1 known total]; rfl
  asked lane call plan next running := by
    have acted : s.shared.Acts lane ⟨.refreshBegin plan, ()⟩
        (s.shared.record lane ⟨.refreshBegin plan, ()⟩) :=
      ⟨⟨false, .ok 0, none⟩, s.shared, rfl, rfl⟩
    exact ((sound.safe lane _ running).step acted).1.refreshes plan rfl
  runs := sound.runs
  failed refresher task events e returned event member plan same := by
    have silent := failsWithin_ensureFresh refresher task events e returned event member
    rw [same] at silent
    exact silent
  relocked := sound.relocked
  released := sound.idle
  ends := sound.ends
  refreshes thread view refreshed now expiresAt idle free expires stale fresh total agree :=
    sound.refreshes idle free expires stale fresh total agree

/-- However many threads build requests, whatever the clock shows and whatever the
refresher does, every state they reach is lawful. -/
theorem range_refresh_lawful (plan : RangePlan)
    (run : Machine.Reachable RangeSystem.step (initial plan) s) : Lawful s :=
  (sound_of_reachable run).lawful

/-- One thread builds a HEAD request from a stale plan; its refresher calls `head_url`
again before it answers. -/
def sampleLabels (outer nested : Lane 1) (refreshed : RangePlan) : List (Label 1) :=
  let task : TaskView := ⟨0, "task", []⟩
  let env : Env := ⟨false, .ok 95, some (.ok refreshed)⟩
  [.start outer ⟨true, task, .head⟩] ++ List.replicate 12 (.act outer env) ++
    [.start nested ⟨true, task, .headUrl⟩] ++ List.replicate 6 (.act nested env) ++
    [.finish nested] ++ List.replicate 11 (.act outer env) ++ [.finish outer]

def samplePlan : RangePlan := ⟨some 7, none, "old", some 100, 10, [], []⟩

def sampleRefreshed : RangePlan := ⟨none, some "head", "new", some 1000, 10, [], []⟩

theorem range_refresh_sample :
    ∃ s : RangeSystem 1, s.shared.plan = { sampleRefreshed with totalSize := some 7 } ∧
      s.built.map (fun built => built.request) = [("head", [])] ∧ Lawful s := by
  refine ⟨_, ?_, ?_, range_refresh_lawful samplePlan (Machine.reachable_of_exec
    (show Machine.exec RangeSystem.step (initial samplePlan)
      (sampleLabels ⟨0, false⟩ ⟨0, true⟩ sampleRefreshed) = some _ from rfl))⟩
  · rfl
  · rfl

end RangeSystem

end RustyCat.Presigned
