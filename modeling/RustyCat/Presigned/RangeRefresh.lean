import RustyCat.Presigned.RangeThreads

/-!
# Refreshing a presigned range download

What every lane relies on and promises, the specifications of the hooks from it, and the
law of the whole system: a request has its URL and its headers from one plan, the plan
changes only to a checked answer of the refresher, and a failed refresh leaves everything
as it was.
-/

namespace RustyCat.Presigned

open Interaction Interaction.Attempt Program Function

open Download (Text HeaderMap HeaderValue)

open RangeDownload

variable {n : Nat}

/-! ## What lanes rely on and promise -/

/-- What the other lanes may do to the state, as seen by a lane in a call of the task. -/
structure Others (lane : Lane n) (task : Nat) (s t : Shared n) : Prop where
  history : s.history ⊆ t.history
  published : s.plan ∈ s.history → t.plan ∈ t.history
  gate : t.gate = some lane.thread ↔ s.gate = some lane.thread
  plan : s.gate = some lane.thread → t.plan = s.plan
  active : t.active lane.thread = s.active lane.thread
  /-- Only nested calls use the slots of the thread. -/
  slots : s.active lane.thread = false → t.headSlot lane.thread = s.headSlot lane.thread ∧
    t.rangeSlot lane.thread = s.rangeSlot lane.thread
  resolved : t.resolved task = s.resolved task
  trace : t.trace lane = s.trace lane

/-- A reading of the clock among the events at which the plan was not expired; a plan
without expiry needs none. -/
def Unexpired (plan : RangePlan) (events : List RangeEvent) : Prop :=
  ∃ now, expiredAt plan now = false ∧
    (plan.rangeExpiresAtUnixSecs.isSome → (⟨.now, .ok now⟩ : RangeEvent) ∈ events)

/-- The refresher was called for the plan and answered with `refreshed`; these are the
events since. -/
def Answered (plan refreshed : RangePlan) (since events : List RangeEvent) : Prop :=
  ∃ earlier, events =
    earlier ++ ⟨.refreshBegin plan, ()⟩ :: ⟨.refreshEnd, some (.ok refreshed)⟩ :: since

/-- The plan is what the refresher answered for the published one, it was not expired when
checked, and its total is the one known before. -/
def Adopted (lane : Lane n) (task : Nat) (s : Shared n) (plan : RangePlan) : Prop :=
  ∃ refreshed since, Answered s.plan refreshed since (s.trace lane) ∧
    Unexpired refreshed since ∧
    plan = { refreshed with totalSize := refreshed.totalSize.or s.plan.totalSize } ∧
    ∀ total, refreshed.totalSize = some total →
      (∀ known, s.plan.totalSize = some known → total = known) ∧
      ∀ known, s.resolved task = some known → total = known

/-- What a call of a lane promises. -/
structure Keeps (lane : Lane n) (task : Nat) (s : Shared n) (event : RangeEvent)
    (t : Shared n) : Prop where
  others : ∀ other task, other ≠ lane → (lane.nested = false → other.thread ≠ lane.thread) →
    Others other task s t
  history : s.history ⊆ t.history
  published : s.plan ∈ s.history → t.plan ∈ t.history
  relocked : t.relocked = s.relocked
  resolved : t.resolved = s.resolved
  plan : (∀ plan, event.op ≠ .publish plan) → t.plan = s.plan
  adopts : ∀ plan, event.op = .publish plan → t.plan = plan ∧ Adopted lane task s plan
  refreshes : ∀ plan, event.op = .refreshBegin plan → plan = s.plan
  inside : event.op = .refreshEnd → s.active lane.thread = true

abbrev HookSpec {α : Type} (lane : Lane n) (task : Nat) (before : Shared n → Prop) (x : Hook α)
    (ends : α → Shared n → Prop) (failed : Shared n → Prop) : Prop :=
  RSpec (Shared.Acts lane) (Others lane task) (Keeps lane task) before x ends failed

variable {lane : Lane n} {task : Nat} {s t : Shared n}

/-! ## Calls that only read -/

/-- The call changes nothing but the record of the lane's events. -/
def RangeOp.reads : RangeOp → Bool
  | .stopRequested _ | .resolvedTotal _ | .readPlan | .now | .activeContains
  | .refreshBegin _ | .refreshEnd => true
  | _ => false

theorem perform_of_reads {op : RangeOp} {env : Env} {answer : RangeAnswer op} {i : Fin n}
    {u : Shared n} (reads : op.reads = true) (performed : s.perform i env op = some (answer, u)) :
    u = s := by
  cases op with
  | stopRequested | resolvedTotal | readPlan | now | activeContains | refreshBegin | refreshEnd =>
    exact (congrArg Prod.snd (Option.some.inj performed)).symm
  | _ => cases reads

variable {event : RangeEvent} {P failed : Shared n → Prop} {active held : Bool}
  {plan refreshed : RangePlan} {answer : Unit}

theorem others_record {other : Lane n} (ne : other ≠ lane) :
    Others other task s (s.record lane event) where
  history := List.Subset.refl _
  published := id
  gate := .rfl
  plan _ := rfl
  active := rfl
  slots _ := ⟨rfl, rfl⟩
  resolved := rfl
  trace := update_of_ne ne _ _

theorem keeps_of_reads (reads : event.op.reads = true) (acted : s.Acts lane event t)
    (refreshes : ∀ plan, event.op = .refreshBegin plan → plan = s.plan)
    (inside : event.op = .refreshEnd → s.active lane.thread = true) :
    Keeps lane task s event t := by
  obtain ⟨env, u, performed, rfl⟩ := acted
  obtain rfl := perform_of_reads reads performed
  exact {
    others := fun _ _ ne _ => others_record ne
    history := List.Subset.refl _
    published := id
    relocked := rfl
    resolved := rfl
    plan := fun _ => rfl
    adopts := fun plan publishes => by
      rw [publishes] at reads
      cases reads
    refreshes := refreshes
    inside := inside }

/-- A property that neither the others nor the record of an own event disturb. -/
structure Lasting (lane : Lane n) (task : Nat) (P : Shared n → Prop) : Prop where
  stable : Stable (Others lane task) P
  recorded : ∀ s event, P s → P (s.record lane event)

theorem Lasting.and {Q : Shared n → Prop} (first : Lasting lane task P)
    (second : Lasting lane task Q) : Lasting lane task fun s => P s ∧ Q s where
  stable s t holds acted := ⟨first.stable s t holds.1 acted, second.stable s t holds.2 acted⟩
  recorded s event holds := ⟨first.recorded s event holds.1, second.recorded s event holds.2⟩

theorem spec_of_reads {α : Type} {op : RangeOp} {fails : RangeAnswer op → Except MeowError α}
    {before : Shared n → Prop} {ends : α → Shared n → Prop}
    (stable : Stable (Others lane task) before) (reads : op.reads = true)
    (refreshes : ∀ plan s, before s → op = .refreshBegin plan → plan = s.plan)
    (inside : ∀ s, before s → op = .refreshEnd → s.active lane.thread = true)
    (result : ∀ s env answer, before s → s.perform lane.thread env op = some (answer, s) →
      Both ends failed (fails answer) (s.record lane ⟨op, answer⟩)) :
    HookSpec lane task before (ask op fails) ends failed := by
  refine rspec_ask stable fun s answer t holds acted => ?_
  refine ⟨keeps_of_reads reads acted (fun plan => refreshes plan s holds) (inside s holds), ?_⟩
  obtain ⟨env, u, performed, rfl⟩ := acted
  obtain rfl := perform_of_reads reads performed
  exact result u env answer holds performed

theorem active_spec {task : TaskView} (lasting : Lasting lane task.id P)
    (fails : ∀ s, P s → failed s) :
    HookSpec lane task.id P (ensureTaskActive task) (fun _ => P) failed := by
  refine spec_of_reads lasting.stable rfl nofun nofun fun s env answer holds _ => ?_
  split
  · exact fails _ (lasting.recorded _ _ holds)
  · exact lasting.recorded _ _ holds

section

variable (lasting : Lasting lane task P) (fails : ∀ s, P s → failed s)
include lasting fails

theorem clock_spec (test : Nat → Bool) :
    HookSpec lane task P (do let now ← ask .now id; pure (test now)) (fun _ => P) failed := by
  refine rspec_bind (fun _ => P) ?_ fun now => rspec_pure fun _ holds => holds
  refine spec_of_reads lasting.stable rfl nofun nofun fun s env answer holds _ => ?_
  cases answer with
  | error e => exact fails _ (lasting.recorded _ _ holds)
  | ok now => exact lasting.recorded _ _ holds

theorem shouldRefresh_spec (plan : RangePlan) :
    HookSpec lane task P (shouldRefreshPlan plan) (fun _ => P) failed := by
  unfold shouldRefreshPlan
  split
  · exact rspec_pure fun _ holds => holds
  · exact clock_spec lasting fails _

theorem expired_spec (plan : RangePlan) :
    HookSpec lane task P (isPlanExpired plan) (fun _ => P) failed := by
  unfold isPlanExpired
  split
  · exact rspec_pure fun _ holds => holds
  · exact clock_spec lasting fails _

/-! ## Where a call is -/

/-- Whether the thread of the lane is marked as refreshing, and for the calls of the thread
itself whether it holds the gate. -/
structure At (lane : Lane n) (active held : Bool) (s : Shared n) : Prop where
  published : s.plan ∈ s.history
  active : s.active lane.thread = active
  gate : lane.nested = false → (s.gate = some lane.thread ↔ held = true)

/-- Between the accesses to the gate: an ordinary call of a thread is not refreshing, a
nested call stays inside the refresher. -/
abbrev Ready (lane : Lane n) : Shared n → Prop := At lane lane.nested false

end

theorem At.others (position : At lane active held s)
    (acted : Others lane task s t) : At lane active held t where
  published := acted.published position.published
  active := acted.active.trans position.active
  gate outer := acted.gate.trans (position.gate outer)

theorem At.recorded (position : At lane active held s) :
    At lane active held (s.record lane event) :=
  ⟨position.published, position.active, position.gate⟩

theorem lasting_at : Lasting lane task (At lane active held) where
  stable _ _ holds acted := holds.others acted
  recorded _ _ holds := holds.recorded

theorem lasting_history : Lasting lane task fun s => plan ∈ s.history where
  stable _ _ holds acted := acted.history holds
  recorded _ _ holds := holds

/-- Under the gate: the plan that was read is the published one, and its total agrees with
the total of the task. -/
structure Checked (lane : Lane n) (task : Nat) (plan : RangePlan) (active : Bool)
    (s : Shared n) : Prop where
  position : At lane active true s
  current : s.plan = plan
  totals : ∀ known total, s.resolved task = some known → plan.totalSize = some total →
    known = total

theorem lasting_checked (outer : lane.nested = false) :
    Lasting lane task (Checked lane task plan active) where
  stable s t holds acted :=
    { position := holds.position.others acted
      current := (acted.plan ((holds.position.gate outer).mpr rfl)).trans holds.current
      totals := by
        rw [acted.resolved]
        exact holds.totals }
  recorded _ _ holds := ⟨holds.position.recorded, holds.current, holds.totals⟩

theorem lasting_plan (outer : lane.nested = false) :
    Lasting lane task fun s => At lane active true s ∧ s.plan = plan where
  stable _ _ holds acted :=
    ⟨holds.1.others acted, (acted.plan ((holds.1.gate outer).mpr rfl)).trans holds.2⟩
  recorded _ _ holds := ⟨holds.1.recorded, holds.2⟩

structure Tried (lane : Lane n) (plan refreshed : RangePlan) (unexpired : Bool)
    (s : Shared n) : Prop where
  answered : ∃ since, Answered plan refreshed since (s.trace lane) ∧
    (unexpired = true → Unexpired refreshed since)

theorem Tried.recorded {unexpired : Bool} (tried : Tried lane plan refreshed unexpired s) :
    Tried lane plan refreshed unexpired (s.record lane event) := by
  obtain ⟨since, ⟨earlier, split⟩, checked⟩ := tried.answered
  refine ⟨since ++ [event], ⟨earlier, ?_⟩, fun known => ?_⟩
  · simp [Shared.record, split]
  · obtain ⟨now, fresh, read⟩ := checked known
    exact ⟨now, fresh, fun expires => List.mem_append_left _ (read expires)⟩

theorem lasting_tried {unexpired : Bool} :
    Lasting lane task (Tried lane plan refreshed unexpired) where
  stable s t holds acted := by
    obtain ⟨since, answered, checked⟩ := holds.answered
    exact ⟨since, acted.trace ▸ answered, checked⟩
  recorded _ _ holds := holds.recorded

/-! ## The freshness check -/

theorem readPlan_spec (lasting : Lasting lane task P) (published : ∀ s, P s → s.plan ∈ s.history) :
    HookSpec lane task P (tell .readPlan) (fun plan s => P s ∧ plan ∈ s.history) P := by
  refine spec_of_reads lasting.stable rfl nofun nofun fun s env answer holds performed => ?_
  have same : s.plan = answer := congrArg Prod.fst (Option.some.inj performed)
  exact ⟨lasting.recorded _ _ holds, same ▸ published s holds⟩

theorem readPlan_held :
    HookSpec lane task (At lane active true) (tell .readPlan)
      (fun plan s => At lane active true s ∧ s.plan = plan) (At lane active true) := by
  refine spec_of_reads lasting_at.stable rfl nofun nofun fun s env answer holds performed => ?_
  exact ⟨holds.recorded, congrArg Prod.fst (Option.some.inj performed)⟩

theorem checkTotals_eq_ok {what : String} {expected observed : Option Nat} :
    checkTotals what expected observed = .ok () ↔
      ∀ known total, expected = some known → observed = some total → known = total := by
  unfold checkTotals
  cases expected with
  | none => simp
  | some known =>
    cases observed with
    | none => simp
    | some total =>
      by_cases same : known = total
      · simp [same]
      · simp [same]

theorem taskTotal_spec {task : TaskView} (lasting : Lasting lane task.id P)
    (fails : ∀ s, P s → failed s) (plan : RangePlan) :
    HookSpec lane task.id P (ensureTaskTotalMatchesSnapshot task plan)
      (fun _ s => P s ∧ ∀ known total, s.resolved task.id = some known →
        plan.totalSize = some total → known = total) failed := by
  refine rspec_bind (fun expected s => P s ∧ s.resolved task.id = expected) ?_ fun expected => ?_
  · refine spec_of_reads lasting.stable rfl nofun nofun fun s env answer holds performed => ?_
    exact ⟨lasting.recorded _ _ holds, congrArg Prod.fst (Option.some.inj performed)⟩
  · refine rspec_result (fun _ s ok holds => ⟨holds.1, ?_⟩) fun s holds => fails s holds.1
    rw [holds.2]
    exact checkTotals_eq_ok.mp ok

/-! ## The gate -/

theorem lock_acts (outer : lane.nested = false) (position : At lane false false s)
    (acted : s.Acts lane ⟨.lockGate, answer⟩ t) :
    Keeps lane task s ⟨.lockGate, answer⟩ t ∧ At lane false true t := by
  obtain ⟨env, u, performed, rfl⟩ := acted
  have mine : s.gate ≠ some lane.thread := fun held => by
    cases (position.gate outer).mp held
  simp only [Shared.perform] at performed
  split at performed
  case h_2 owner held =>
    -- the gate of another thread: the call waits
    rw [if_neg fun same : owner = lane.thread => mine (same ▸ held)] at performed
    cases performed
  case h_1 free =>
    cases performed
    refine ⟨?_, position.published, position.active, fun _ => iff_of_true rfl rfl⟩
    exact {
      others := fun other _ ne thread =>
        { history := List.Subset.refl _
          published := id
          gate := by
            refine iff_of_false (fun same => thread outer ?_) (by rw [free]; exact nofun)
            exact (Option.some.inj same).symm
          plan := fun _ => rfl
          active := rfl
          slots := fun _ => ⟨rfl, rfl⟩
          resolved := rfl
          trace := update_of_ne ne _ _ }
      history := List.Subset.refl _
      published := id
      relocked := rfl
      resolved := rfl
      plan := fun _ => rfl
      adopts := nofun
      refreshes := nofun
      inside := nofun }

theorem unlock_acts (outer : lane.nested = false) (position : At lane active true s)
    (acted : s.Acts lane ⟨.unlockGate, answer⟩ t) :
    Keeps lane task s ⟨.unlockGate, answer⟩ t ∧ At lane active false t ∧
      t.history = s.history := by
  obtain ⟨env, u, performed, rfl⟩ := acted
  cases performed
  refine ⟨?_, ⟨position.published, position.active, fun _ => iff_of_false nofun nofun⟩, rfl⟩
  have mine : s.gate = some lane.thread := (position.gate outer).mpr rfl
  exact {
    others := fun other _ ne thread =>
      { history := List.Subset.refl _
        published := id
        gate := by
          refine iff_of_false nofun fun same => thread outer ?_
          exact Option.some.inj (same.symm.trans mine)
        plan := fun _ => rfl
        active := rfl
        slots := fun _ => ⟨rfl, rfl⟩
        resolved := rfl
        trace := update_of_ne ne _ _ }
    history := List.Subset.refl _
    published := id
    relocked := rfl
    resolved := rfl
    plan := fun _ => rfl
    adopts := nofun
    refreshes := nofun
    inside := nofun }

def Got (lane : Lane n) (active held : Bool) (plan : RangePlan) (s : Shared n) : Prop :=
  At lane active held s ∧ plan ∈ s.history

theorem lasting_got :
    Lasting lane task (Got lane active held plan) :=
  lasting_at.and lasting_history

theorem withGate_spec {body : Hook RangePlan} (outer : lane.nested = false)
    (spec : HookSpec lane task (At lane false true) body (Got lane false true)
      (At lane false true)) :
    HookSpec lane task (At lane false false) (withGate body) (Got lane false false)
      (At lane false false) := by
  intro s holds
  refine Safe.bind (Safe.perform _ lasting_at.stable holds fun s answer t => lock_acts outer)
    fun _ t locked => ?_
  refine Safe.bind (spec t locked) fun result u ended => ?_
  cases result with
  | error e =>
    refine Safe.bind (Safe.perform _ lasting_at.stable ended fun s answer t position acted =>
      (unlock_acts outer position acted).imp_right And.left) fun _ v unlocked => ?_
    exact unlocked
  | ok plan =>
    refine Safe.bind (Safe.perform (fun _ => Got lane false false plan)
      lasting_got.stable ended fun s answer t got acted => ?_) fun _ v unlocked => unlocked
    obtain ⟨kept, position, same⟩ := unlock_acts outer got.1 acted
    exact ⟨kept, position, same ▸ got.2⟩

/-! ## The data of the thread -/

/-- Nothing changes but the data of the lane's thread; a nested call may only touch the
slots. -/
structure Local (lane : Lane n) (s t : Shared n) : Prop where
  plan : t.plan = s.plan
  history : t.history = s.history
  gate : t.gate = s.gate
  relocked : t.relocked = s.relocked
  resolved : t.resolved = s.resolved
  threads : ∀ i, i ≠ lane.thread → t.active i = s.active i ∧ t.headSlot i = s.headSlot i ∧
    t.rangeSlot i = s.rangeSlot i
  nested : lane.nested = true → t.active = s.active ∧ s.active lane.thread = true
  trace : ∀ other, other ≠ lane → t.trace other = s.trace other

theorem keeps_of_local (changed : Local lane s t) (publishes : ∀ plan, event.op ≠ .publish plan)
    (refreshes : ∀ plan, event.op ≠ .refreshBegin plan) (inside : event.op ≠ .refreshEnd) :
    Keeps lane task s event t where
  others other _ ne thread :=
    { history := changed.history ▸ List.Subset.refl _
      published := by rw [changed.plan, changed.history]; exact id
      gate := by rw [changed.gate]
      plan := fun _ => changed.plan
      active := by
        cases inner : lane.nested with
        | true => rw [(changed.nested inner).1]
        | false => exact (changed.threads _ (thread inner)).1
      slots := by
        intro idle
        by_cases same : other.thread = lane.thread
        · -- the calls of the thread itself rely on the slots only outside the refresher
          cases inner : lane.nested with
          | false => exact absurd same (thread inner)
          | true =>
            rw [same, (changed.nested inner).2] at idle
            cases idle
        · exact (changed.threads _ same).2
      resolved := by rw [changed.resolved]
      trace := changed.trace other ne }
  history := changed.history ▸ List.Subset.refl _
  published := by rw [changed.plan, changed.history]; exact id
  relocked := changed.relocked
  resolved := changed.resolved
  plan _ := changed.plan
  adopts plan eq := absurd eq (publishes plan)
  refreshes plan eq := absurd eq (refreshes plan)
  inside eq := absurd eq inside

section

variable (outer : lane.nested = false)
include outer

theorem enter_acts {answer : Bool} (checked : Checked lane task plan false s)
    (acted : s.Acts lane ⟨.enterActive, answer⟩ t) :
    Keeps lane task s ⟨.enterActive, answer⟩ t ∧ answer = true ∧
      Checked lane task plan true t := by
  obtain ⟨env, u, performed, rfl⟩ := acted
  cases performed
  have entered : (!s.active lane.thread) = true := by
    rw [checked.position.active]
    rfl
  refine ⟨keeps_of_local ?_ nofun nofun nofun, entered, ?_⟩
  · exact {
      plan := rfl, history := rfl, gate := rfl, relocked := rfl, resolved := rfl
      threads := fun i ne => ⟨update_of_ne ne _ _, rfl, rfl⟩
      nested := fun inner => by
        rw [outer] at inner
        cases inner
      trace := fun _ ne => update_of_ne ne _ _ }
  · exact ⟨⟨checked.position.published, update_self .., checked.position.gate⟩,
      checked.current, checked.totals⟩

theorem leave_acts (position : At lane true true s) (acted : s.Acts lane ⟨.leaveActive, answer⟩ t) :
    Keeps lane task s ⟨.leaveActive, answer⟩ t ∧ At lane false true t ∧
      t.history = s.history := by
  obtain ⟨env, u, performed, rfl⟩ := acted
  cases performed
  refine ⟨keeps_of_local ?_ nofun nofun nofun,
    ⟨position.published, update_self .., position.gate⟩, rfl⟩
  exact {
    plan := rfl, history := rfl, gate := rfl, relocked := rfl, resolved := rfl
    threads := fun i ne => ⟨update_of_ne ne _ _, rfl, rfl⟩
    nested := fun inner => by
      rw [outer] at inner
      cases inner
    trace := fun _ ne => update_of_ne ne _ _ }

theorem withActive_spec {body : Hook RangePlan}
    (spec : HookSpec lane task (Checked lane task plan true) body (Got lane true true)
      (At lane true true)) :
    HookSpec lane task (Checked lane task plan false) (withActive body) (Got lane false true)
      (At lane false true) := by
  refine rspec_bind (fun entered s => entered = true ∧ Checked lane task plan true s) ?_
    fun entered => ?_
  · exact rspec_ask (lasting_checked outer).stable fun s answer t => enter_acts outer
  · rintro s ⟨rfl, checked⟩
    refine Safe.bind (spec s checked) fun result u ended => ?_
    cases result with
    | error e =>
      refine Safe.bind (Safe.perform _ lasting_at.stable ended fun s answer t position acted =>
        (leave_acts outer position acted).imp_right And.left) fun _ v left => left
    | ok plan =>
      refine Safe.bind (Safe.perform (fun _ => Got lane false true plan)
        lasting_got.stable ended fun s answer t got acted => ?_) fun _ v left => left
      obtain ⟨kept, position, same⟩ := leave_acts outer got.1 acted
      exact ⟨kept, position, same ▸ got.2⟩

/-! ## The refresher -/

theorem isPlanExpired_spec :
    HookSpec lane task
      (fun s => Checked lane task plan true s ∧ Tried lane plan refreshed false s)
      (isPlanExpired refreshed)
      (fun expired s => Checked lane task plan true s ∧ Tried lane plan refreshed (!expired) s)
      (At lane true true) := by
  unfold isPlanExpired
  split
  case h_1 never =>
    refine rspec_pure fun s holds => ⟨holds.1, ?_⟩
    obtain ⟨since, answered, _⟩ := holds.2.answered
    refine ⟨since, answered, fun _ => ⟨0, ?_, fun expires => ?_⟩⟩
    · simp [expiredAt, never]
    · simp [never] at expires
  case h_2 expiresAt known =>
    -- the reading is made after the answer
    refine rspec_bind (fun now s => Checked lane task plan true s ∧
      ∃ since, Answered plan refreshed since (s.trace lane) ∧
        (⟨.now, .ok now⟩ : RangeEvent) ∈ since) ?_ fun now => ?_
    · refine spec_of_reads ((lasting_checked outer).and lasting_tried).stable rfl nofun nofun
        fun s env answer holds _ => ?_
      have checked := (lasting_checked outer).recorded _ ⟨.now, answer⟩ holds.1
      cases answer with
      | error e => exact checked.position
      | ok now =>
        obtain ⟨since, ⟨earlier, split⟩, _⟩ := holds.2.answered
        refine ⟨checked, since ++ [⟨.now, .ok now⟩], ⟨earlier, ?_⟩, by simp⟩
        simp [Shared.record, split]
    · refine rspec_pure fun s holds => ⟨holds.1, ?_⟩
      obtain ⟨since, answered, read⟩ := holds.2
      refine ⟨since, answered, fun fresh => ⟨now, ?_, fun _ => read⟩⟩
      simpa [expiredAt, known] using fresh

structure Approved (lane : Lane n) (task : Nat) (plan refreshed : RangePlan)
    (s : Shared n) : Prop where
  checked : Checked lane task plan true s
  tried : Tried lane plan refreshed true s
  totals : ∀ known total, (s.resolved task).or plan.totalSize = some known →
    refreshed.totalSize = some total → known = total

theorem lasting_approved :
    Lasting lane task (Approved lane task plan refreshed) where
  stable s t holds acted :=
    { checked := (lasting_checked outer).stable s t holds.checked acted
      tried := lasting_tried.stable s t holds.tried acted
      totals := by
        rw [acted.resolved]
        exact holds.totals }
  recorded s event holds :=
    { checked := (lasting_checked outer).recorded s event holds.checked
      tried := holds.tried.recorded
      totals := holds.totals }

theorem publish_acts {filled : RangePlan} (approved : Approved lane task plan refreshed s)
    (filledFrom : filled = { refreshed with totalSize := refreshed.totalSize.or plan.totalSize })
    (acted : s.Acts lane ⟨.publish filled, answer⟩ t) :
    Keeps lane task s ⟨.publish filled, answer⟩ t ∧ Got lane true true filled t := by
  obtain ⟨env, u, performed, rfl⟩ := acted
  cases performed
  obtain ⟨checked, tried, totals⟩ := approved
  have mine : s.gate = some lane.thread := (checked.position.gate outer).mpr rfl
  have adopted : Adopted lane task s filled := by
    obtain ⟨since, answered, unexpired⟩ := tried.answered
    rw [Adopted, checked.current]
    refine ⟨refreshed, since, answered, unexpired rfl, filledFrom, fun total known => ⟨?_, ?_⟩⟩
    · intro before had
      cases resolved : s.resolved task with
      | none => exact (totals before total (by rw [resolved, had]; rfl) known).symm
      | some frozen =>
        have same := totals frozen total (by rw [resolved]; rfl) known
        exact same.symm.trans (checked.totals frozen before resolved had)
    · intro frozen resolved
      exact (totals frozen total (by rw [resolved]; rfl) known).symm
  refine ⟨?_, ⟨List.mem_cons_self, checked.position.active, checked.position.gate⟩,
    List.mem_cons_self⟩
  exact {
    others := fun other _ ne thread =>
      { history := List.subset_cons_self _ _
        published := fun _ => List.mem_cons_self
        gate := .rfl
        plan := fun held => absurd (Option.some.inj (held.symm.trans mine)) (thread outer)
        active := rfl
        slots := fun _ => ⟨rfl, rfl⟩
        resolved := rfl
        trace := update_of_ne ne _ _ }
    history := List.subset_cons_self _ _
    published := fun _ => List.mem_cons_self
    relocked := rfl
    resolved := rfl
    plan := fun other => absurd rfl (other filled)
    adopts := fun plan publishes => by
      cases publishes
      exact ⟨rfl, adopted⟩
    refreshes := nofun
    inside := nofun }

theorem adoptRefreshed_spec {task : TaskView} :
    HookSpec lane task.id
      (fun s => Checked lane task.id plan true s ∧ Tried lane plan refreshed false s)
      (adoptRefreshed task plan refreshed) (Got lane true true) (At lane true true) := by
  have lasting : ∀ unexpired, Lasting (n := n) lane task.id fun s =>
      Checked lane task.id plan true s ∧ Tried lane plan refreshed unexpired s :=
    fun _ => (lasting_checked outer).and lasting_tried
  refine rspec_bind _ (active_spec (lasting false) fun _ holds => holds.1.position) fun _ => ?_
  refine rspec_bind _ (isPlanExpired_spec outer) fun expired => ?_
  cases expired with
  | true => exact rspec_throw fun _ holds => holds.1.position
  | false =>
    refine rspec_bind (fun resolved s => (Checked lane task.id plan true s ∧
      Tried lane plan refreshed true s) ∧ s.resolved task.id = resolved) ?_ fun resolved => ?_
    · exact spec_of_reads (lasting true).stable rfl nofun nofun fun s env answer holds performed =>
        ⟨(lasting true).recorded _ _ holds, congrArg Prod.fst (Option.some.inj performed)⟩
    refine rspec_bind (fun _ => Approved lane task.id plan refreshed) ?_ fun _ => ?_
    · refine rspec_result (fun _ s ok holds => ⟨holds.1.1, holds.1.2, ?_⟩)
        fun _ holds => holds.1.1.position
      rw [holds.2]
      exact checkTotals_eq_ok.mp ok
    refine rspec_bind _ (active_spec (lasting_approved outer)
      fun _ holds => holds.checked.position) fun _ => ?_
    refine rspec_bind (fun _ => Got lane true true _) ?_ fun _ => rspec_pure fun _ got => got
    exact rspec_ask (lasting_approved outer).stable fun s answer t approved =>
      publish_acts outer approved rfl

theorem callRefresher_spec {task : TaskView} :
    HookSpec lane task.id (Checked lane task.id plan true) (callRefresher task plan)
      (Got lane true true) (At lane true true) := by
  have lasting : Lasting lane task.id (Checked lane task.id plan true) := lasting_checked outer
  -- the call of the refresher is the newest event
  refine rspec_bind (fun _ s => Checked lane task.id plan true s ∧
    ∃ earlier, s.trace lane = earlier ++ [⟨.refreshBegin plan, ()⟩]) ?_ fun _ => ?_
  · refine spec_of_reads lasting.stable rfl ?_ nofun fun s env answer holds _ =>
      ⟨lasting.recorded _ _ holds, s.trace lane, update_self ..⟩
    intro called s holds same
    cases same
    exact holds.current.symm
  refine rspec_bind (fun outcome s => Checked lane task.id plan true s ∧
    ∀ refreshed, outcome = some (.ok refreshed) → Tried lane plan refreshed false s) ?_
    fun outcome => ?_
  · refine spec_of_reads ?_ rfl nofun (fun s holds _ => holds.1.position.active)
      fun s env answer holds _ => ⟨lasting.recorded _ _ holds.1, fun refreshed ok => ?_⟩
    · rintro s t ⟨checked, earlier, called⟩ acted
      exact ⟨lasting.stable s t checked acted, earlier, acted.trace.trans called⟩
    · obtain ⟨earlier, called⟩ := holds.2
      refine ⟨[], ⟨earlier, ?_⟩, nofun⟩
      cases ok
      simp [Shared.record, called]
  match outcome with
  | none | some (.error _) => exact rspec_throw fun _ holds => holds.1.position
  | some (.ok refreshed) =>
    exact rspec_weaken (adoptRefreshed_spec outer) (fun s holds => ⟨holds.1, holds.2 _ rfl⟩)
      (fun _ _ holds => holds) fun _ holds => holds

end

theorem Checked.got (checked : Checked lane task plan active s) : Got lane active true plan s := by
  refine ⟨checked.position, ?_⟩
  rw [← checked.current]
  exact checked.position.published

theorem refreshUnderGate_spec {task : TaskView} (outer : lane.nested = false) :
    HookSpec lane task.id (At lane false true) (refreshUnderGate task) (Got lane false true)
      (At lane false true) := by
  refine rspec_bind _ (active_spec lasting_at fun _ holds => holds) fun _ => ?_
  refine rspec_bind _ readPlan_held fun plan => ?_
  refine rspec_bind (fun _ => Checked lane task.id plan false) ?_ fun _ => ?_
  · refine rspec_weaken (taskTotal_spec (lasting_plan outer) (fun _ holds => holds.1) plan)
      (fun _ holds => holds) ?_ fun _ holds => holds
    rintro _ s ⟨⟨position, current⟩, totals⟩
    exact ⟨position, current, totals⟩
  refine rspec_bind _ (shouldRefresh_spec (lasting_checked outer) (fun _ holds => holds.position)
    plan) fun stale => ?_
  cases stale with
  | true => exact withActive_spec outer (callRefresher_spec outer)
  | false =>
    refine rspec_bind _ (active_spec (lasting_checked outer) fun _ holds => holds.position)
      fun _ => ?_
    exact rspec_pure fun _ holds => holds.got

theorem ensureFreshSnapshot_spec (refresher : Bool) (task : TaskView) :
    HookSpec lane task.id (Ready lane) (ensureFreshSnapshot refresher task)
      (Got lane lane.nested false) (Ready lane) := by
  have position : ∀ plan s, Got lane lane.nested false plan s → Ready lane s :=
    fun _ _ got => got.1
  refine rspec_bind _ (active_spec lasting_at fun _ holds => holds) fun _ => ?_
  refine rspec_bind _ (readPlan_spec lasting_at fun _ holds => holds.published) fun plan => ?_
  refine rspec_bind (fun _ => Got lane lane.nested false plan) ?_ fun _ => ?_
  · exact rspec_weaken (taskTotal_spec lasting_got (position plan) plan) (fun _ holds => holds)
      (fun _ _ holds => holds.1) fun _ holds => holds
  refine rspec_bind _ (shouldRefresh_spec lasting_got (position plan) plan) fun stale => ?_
  have active : HookSpec lane task.id (Got lane lane.nested false plan)
      (do ensureTaskActive task; pure plan) (Got lane lane.nested false) (Ready lane) :=
    rspec_bind _ (active_spec lasting_got (position plan)) fun _ => rspec_pure fun _ got => got
  cases stale with
  | false => exact active
  | true =>
    cases refresher with
    | false =>
      refine rspec_bind _ (expired_spec lasting_got (position plan) plan) fun expired => ?_
      cases expired with
      | true => exact rspec_throw (position plan)
      | false => exact active
    | true =>
      refine rspec_bind (fun inside s => inside = lane.nested ∧ Ready lane s) ?_ fun inside => ?_
      · refine spec_of_reads lasting_got.stable rfl nofun nofun fun s env answer got performed => ?_
        have same : s.active lane.thread = answer := congrArg Prod.fst (Option.some.inj performed)
        exact ⟨same.symm.trans got.1.active, got.1.recorded⟩
      cases inside with
      | true => exact rspec_throw fun _ holds => holds.2
      | false =>
        -- a nested call has been turned away, so this is a call of the thread itself
        rintro s ⟨outer, ready⟩
        rw [Ready, ← outer] at ready ⊢
        exact withGate_spec outer.symm (refreshUnderGate_spec outer.symm) s ready

end RustyCat.Presigned
