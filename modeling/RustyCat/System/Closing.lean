import RustyCat.System.Drain

/-!
# The states of a close

`Loop.Draining` relates the world in which a close was taken to the loop in any
later state, for the worker events handled in between.  It holds when the close
begins and every step keeps it.
-/

namespace RustyCat

def terminals (key : UniqueId) (events : List WorkerEvent) : List WorkerEvent :=
  events.filter fun event => event.key = key ∧ event.mayChangeSchedulerReadiness

theorem terminals_append (key : UniqueId) (events more : List WorkerEvent) :
    terminals key (events ++ more) = terminals key events ++ terminals key more :=
  List.filter_append ..

theorem terminals_other {key : UniqueId} {event : WorkerEvent} (other : key ≠ event.key) :
    terminals key [event] = [] := by
  simp [terminals, Ne.symm other]

theorem terminals_here (event : WorkerEvent) :
    terminals event.key [event] = if event.mayChangeSchedulerReadiness then [event] else [] := by
  cases terminal : event.mayChangeSchedulerReadiness <;> simp [terminals, terminal]

theorem lastMilestone_terminal (canceling : Bool) {event : WorkerEvent}
    (terminal : event.mayChangeSchedulerReadiness = true) :
    ∃ status, World.lastMilestone canceling event = [status] := by
  cases event with
  | progress key nextOffset totalSize => cases terminal
  | completed key totalSize payload => exact ⟨_, rfl⟩
  | failed key error totalSize => exact ⟨_, rfl⟩
  | canceled key totalSize => exact ⟨_, rfl⟩

theorem lastMilestone_progress (canceling : Bool) {event : WorkerEvent}
    (progress : event.mayChangeSchedulerReadiness = false) :
    World.lastMilestone canceling event = [] := by
  cases event with
  | progress key nextOffset totalSize => rfl
  | completed key totalSize payload => cases progress
  | failed key error totalSize => cases progress
  | canceled key totalSize => cases progress

namespace SchedulerState

/-- Nothing is left in the maps, the sets and the queue. -/
structure Cleared (s : SchedulerState) : Prop where
  groups : s.groups = ∅
  ids : s.taskIdToDedupe = ∅
  queue : s.queued = [] ∧ s.queuedSet = ∅
  active : s.active = ∅ ∧ s.activeUploads = 0 ∧ s.activeDownloads = 0
  paused : s.pausedSet = ∅
  canceling : s.cancelingSet = ∅
  offsets : s.offsets = ∅
  totals : s.knownTotals = ∅

/-- What the last record of a group says, for the worker events handled since the
close was taken in this state. -/
def Verdict (s : SchedulerState) (key : UniqueId) (events : List WorkerEvent)
    (status : TransferStatus) : Prop :=
  if key ∈ s.active then
    ∃ event, terminals key events = [event] ∧
      World.lastMilestone (key ∈ s.cancelingSet) event = [status]
  else terminals key events = [] ∧ status = .paused

end SchedulerState

namespace Loop

variable {s : World} {l m : Loop} {input : Input} {events : List WorkerEvent}
  {issued : Finset TaskId} {limit : Direction → Nat}

/-- The events an input hands to the loop. -/
def Input.handled : Input → List WorkerEvent
  | .event arrived => [arrived]
  | .cmd _ | .finishClose | .listeners _ | .worker _ _ => []

structure Waiting (s v : World) (key : UniqueId) (group : GroupState)
    (events : List WorkerEvent) : Prop where
  found : v.state.groups.lookup key = some group
  canceling : key ∈ v.state.cancelingSet ↔ key ∈ s.state.cancelingSet
  stopping : key ∉ v.state.cancelingSet → key ∈ v.state.pausedSet
  silent : (v.heap group.leaderInner.taskId).milestones =
    (s.heap group.leaderInner.taskId).milestones
  running : terminals key events = []

def Settled (s v : World) (key : UniqueId) (group : GroupState)
    (events : List WorkerEvent) : Prop :=
  ∃ status, (v.heap group.leaderInner.taskId).milestones =
    (s.heap group.leaderInner.taskId).milestones ++ [status] ∧ s.state.Verdict key events status

/-- The loop after a close was taken in the world `s`. -/
structure Draining (s : World) (l : Loop) (events : List WorkerEvent) : Prop where
  phase : l.phase ≠ .running
  held : l.phase = .draining → l.world.state.cbSubmit = true
  cleared : l.phase = .closed → l.world.state.Cleared
  active : ∀ key ∈ l.world.state.active, key ∈ s.state.active
  starts : ∀ id, (l.world.heap id).starts = (s.heap id).starts
  groups : ∀ key group, s.state.groups.lookup key = some group →
    if key ∈ l.world.state.active then Waiting s l.world key group events
    else Settled s l.world key group events

section Frame

variable {v u : World} {key : UniqueId} {group : GroupState} {later : List WorkerEvent}
  (heard : terminals key later = terminals key events)
  (quiet : (u.heap group.leaderInner.taskId).milestones =
    (v.heap group.leaderInner.taskId).milestones)

include heard quiet

theorem Waiting.of_same (waiting : Waiting s v key group events)
    (same : u.state.keyState key = v.state.keyState key) : Waiting s u key group later := by
  have canceling : key ∈ u.state.cancelingSet ↔ key ∈ v.state.cancelingSet :=
    decide_eq_decide.mp (congrArg KeyState.canceling same)
  have paused : key ∈ u.state.pausedSet ↔ key ∈ v.state.pausedSet :=
    decide_eq_decide.mp (congrArg KeyState.paused same)
  exact
    { found := (congrArg KeyState.group same).trans waiting.found
      canceling := canceling.trans waiting.canceling
      stopping := fun calm => paused.mpr (waiting.stopping (calm ∘ canceling.mpr))
      silent := quiet.trans waiting.silent
      running := heard.trans waiting.running }

theorem Settled.of_same (settled : Settled s v key group events) :
    Settled s u key group later := by
  obtain ⟨status, last, verdict⟩ := settled
  refine ⟨status, quiet.trans last, ?_⟩
  rw [SchedulerState.Verdict, heard]
  exact verdict

end Frame

theorem active_iff_of_keyState {v u : SchedulerState} {key : UniqueId}
    (same : u.keyState key = v.keyState key) : key ∈ u.active ↔ key ∈ v.active := by
  have lookup : u.active.lookup key = v.active.lookup key := congrArg KeyState.active same
  rw [← Finmap.lookup_isSome, lookup, Finmap.lookup_isSome]

theorem draining_begin {activeKeys inactiveKeys : List UniqueId}
    (inv : l.world.state.Inv issued limit) (held : l.world.state.cbSubmit = true)
    (taken : l.step (.cmd (.close activeKeys inactiveKeys)) = some m) :
    Draining l.world m [] := by
  simp only [step, Option.ite_none_right_eq_some, Option.some.injEq] at taken
  obtain ⟨⟨_, _, listed⟩, rfl⟩ := taken
  simp only [enumerates, decide_eq_true_eq] at listed
  obtain ⟨_, actives, unique, inactives⟩ := listed
  have running : ∀ key, key ∈ activeKeys ↔ key ∈ l.world.state.active := by
    intro key
    rw [← List.mem_toFinset, actives, Finmap.mem_keys]
  have idle : ∀ key, key ∈ inactiveKeys ↔
      key ∈ l.world.state.groups ∧ key ∉ l.world.state.active := by
    intro key
    rw [← List.mem_toFinset, inactives, Finset.mem_filter, Finmap.mem_keys]
  have marks := World.foldl_closeActive_marks (w := l.world) activeKeys fun key member =>
    (inv.keys key).active_grouped ((running key).mp member)
  have kept := World.closeBegin_cbSubmit l.world activeKeys []
  have stopped : (l.world.closeBegin activeKeys []).state.Inv issued limit :=
    World.closeBegin_inv inv fun key member => (running key).mp member
  have grouped : ∀ key ∈ inactiveKeys,
      key ∈ (l.world.closeBegin activeKeys []).state.groups := by
    intro key member
    exact marks.groups ▸ ((idle key).mp member).1
  obtain ⟨state, starts, milestones⟩ :=
    World.foldl_closeInactive_adds unique stopped.ids (kept.trans held) grouped
  have active : ∀ key, key ∈ (l.world.closeBegin activeKeys inactiveKeys).state.active ↔
      key ∈ l.world.state.active := by
    intro key
    rw [World.closeBegin]
    exact state ▸ marks.active key
  refine ⟨by simp [phaseAfter], fun _ => ?_, by simp [phaseAfter], fun key => (active key).mp, fun id => ?_, ?_⟩
  · exact (World.closeBegin_cbSubmit ..).trans held
  · exact (starts id).trans (marks.quiet id).2
  intro key group found
  have there := milestones key group (by exact marks.groups ▸ found)
  have before := (marks.quiet group.leaderInner.taskId).1
  simp only [World.handleCmd, active]
  split
  · rename_i busy
    have unlisted : key ∉ inactiveKeys := fun member => ((idle key).mp member).2 busy
    rw [if_neg unlisted, List.append_nil] at there
    have waits : Waiting l.world (l.world.closeBegin activeKeys []) key group [] :=
      { found := marks.groups ▸ found
        canceling := iff_of_eq (congrArg (key ∈ ·) marks.canceling)
        stopping := fun calm => marks.marked key ((running key).mpr busy)
          (marks.canceling ▸ calm)
        silent := before
        running := rfl }
    exact waits.of_same rfl there (congrArg (·.keyState key) state)
  · rename_i free
    have listed : key ∈ inactiveKeys := (idle key).mpr ⟨Finmap.mem_of_lookup_eq_some found, free⟩
    rw [if_pos listed] at there
    refine ⟨.paused, there.trans (congrArg (· ++ _) before), ?_⟩
    rw [SchedulerState.Verdict, if_neg free]
    exact ⟨rfl, rfl⟩

section Step

variable (origin : s.state.Inv issued limit) (draining : Draining s l events)

include draining

theorem Draining.of_same {v : World} (same : ∀ key, v.state.keyState key =
      l.world.state.keyState key) (sender : v.state.cbSubmit = l.world.state.cbSubmit)
    (cleared : l.world.state.Cleared → v.state.Cleared)
    (quiet : ∀ id, TaskCell.Plain (l.world.heap id) (v.heap id)) :
    Draining s { l with world := v } events := by
  refine ⟨draining.phase, fun open_ => sender.trans (draining.held open_),
    fun closed => cleared (draining.cleared closed),
    fun key running => draining.active key ((active_iff_of_keyState (same key)).mp running),
    fun id => (quiet id).2.trans (draining.starts id), fun key group found => ?_⟩
  have before := draining.groups key group found
  simp only [active_iff_of_keyState (same key)]
  split
  · rename_i running
    rw [if_pos running] at before
    exact before.of_same rfl (quiet _).1 (same key)
  · rename_i ended
    rw [if_neg ended] at before
    exact before.of_same rfl (quiet _).1

theorem Draining.clear (empty : l.world.state.active.keys = ∅) :
    Draining s { l with world := l.world.closeClear, phase := .closed } events := by
  refine ⟨nofun, nofun, fun _ => ?_, nofun, draining.starts, fun key group found => ?_⟩
  · exact ⟨rfl, rfl, ⟨rfl, rfl⟩, ⟨rfl, rfl, rfl⟩, rfl, rfl, rfl, rfl⟩
  · have before := draining.groups key group found
    have ended : key ∉ l.world.state.active := by
      rw [← Finmap.mem_keys, empty]
      exact Finset.notMem_empty key
    rw [if_neg ended] at before
    exact before

include origin

theorem Draining.event {event : WorkerEvent} (inv : l.world.state.Inv l.issued limit)
    (phase : l.phase = .draining) (running : event.key ∈ l.world.state.active) :
    Draining s { l with world := l.world.handleQuiescentWorkerEvent event }
      (events ++ [event]) := by
  have busy := draining.active _ running
  obtain ⟨leader, there⟩ := Finmap.mem_iff.mp ((origin.keys event.key).active_grouped busy)
  have waiting := draining.groups _ _ there
  rw [if_pos running] at waiting
  have held := draining.held phase
  have adds := World.handleQuiescentWorkerEvent_adds held waiting.found waiting.stopping
  have others := fun k => @World.event_keyState_other l.world leader l.issued limit event inv
    running waiting.found k
  have here := World.event_keyState_here inv running waiting.found
  have sender := World.event_cbSubmit inv running waiting.found
  have active : ∀ k, k ≠ event.key → (k ∈ (l.world.handleQuiescentWorkerEvent event).state.active ↔
      k ∈ l.world.state.active) := fun k other => active_iff_of_keyState (others k other)
  refine ⟨draining.phase, fun _ => sender.trans held, fun closed => ?_, fun k member => ?_,
    fun id => (adds.starts id).trans (draining.starts id), fun k group found => ?_⟩
  · cases phase.symm.trans closed
  · by_cases same : k = event.key
    · rw [same]
      exact busy
    · exact draining.active k ((active k same).mp member)
  by_cases same : k = event.key
  · subst same
    cases found.symm.trans there
    have heard := terminals_append event.key events [event]
    rw [waiting.running, List.nil_append, terminals_here] at heard
    have last := adds.here
    cases terminal : event.mayChangeSchedulerReadiness with
    | false =>
      rw [lastMilestone_progress _ terminal, List.append_nil] at last
      simp only [terminal, Bool.false_eq_true, if_false] at here heard
      rw [if_pos ((active_iff_of_keyState here).mpr running)]
      exact waiting.of_same (heard.trans waiting.running.symm) last here
    | true =>
      simp only [terminal, if_true] at here heard
      obtain ⟨status, final⟩ := lastMilestone_terminal (event.key ∈ l.world.state.cancelingSet)
        terminal
      rw [if_neg here]
      refine ⟨status, ?_, ?_⟩
      · rw [last, waiting.silent, final]
      · rw [SchedulerState.Verdict, if_pos busy]
        refine ⟨event, heard, ?_⟩
        simpa only [waiting.canceling] using final
  · have heard : terminals k (events ++ [event]) = terminals k events := by
      rw [terminals_append, terminals_other same, List.append_nil]
    have apart : group.leaderInner.taskId ≠ leader.leaderInner.taskId :=
      fun equal => same (origin.ids.leader_unique _ _ _ _ found there equal)
    have before := draining.groups k group found
    simp only [active k same]
    split
    · rename_i busy
      rw [if_pos busy] at before
      exact before.of_same heard (adds.others _ apart) (others k same)
    · rename_i ended
      rw [if_neg ended] at before
      exact before.of_same heard (adds.others _ apart)

theorem Draining.step (inv : l.world.state.Inv l.issued limit)
    (taken : l.step input = some m) : Draining s m (events ++ input.handled) := by
  cases input with
  | cmd cmd =>
    simp only [Loop.step, Option.ite_none_right_eq_some] at taken
    exact absurd taken.1.1 draining.phase
  | event event =>
    simp only [Loop.step, Option.ite_none_right_eq_some, Option.some.injEq] at taken
    obtain ⟨⟨_, running⟩, rfl⟩ := taken
    cases phase : l.phase with
    | running => exact absurd phase draining.phase
    | closed =>
      have none := (draining.cleared phase).active.1
      rw [none] at running
      exact absurd running (Finmap.notMem_empty)
    | draining =>
      simp only [eventWorld, phase]
      have handled := draining.event origin inv phase running
      rw [phase] at handled
      exact handled
  | finishClose =>
    simp only [Loop.step, Option.ite_none_right_eq_some, Option.some.injEq] at taken
    obtain ⟨⟨_, empty⟩, rfl⟩ := taken
    rw [Input.handled, List.append_nil]
    exact draining.clear empty
  | listeners ids =>
    obtain rfl := Option.some.inj taken
    rw [Input.handled, List.append_nil]
    refine draining.of_same (fun _ => rfl) rfl (fun cleared => ?_) fun _ => .of_history rfl
    exact ⟨cleared.groups, cleared.ids, cleared.queue, cleared.active, cleared.paused,
      cleared.canceling, cleared.offsets, cleared.totals⟩
  | worker id life =>
    obtain rfl := Option.some.inj taken
    rw [Input.handled, List.append_nil]
    have moved : World.Adds l.world (l.world.onCell id fun cell => { cell with life := life })
      id [] := .plain fun cell => .of_history rfl
    exact draining.of_same (fun _ => rfl) rfl (fun cleared => cleared) moved.quiet

end Step

/-! ## The sender is held until the close ends -/

theorem step_held (inv : l.world.state.Inv l.issued limit)
    (held : l.phase ≠ .closed → l.world.state.cbSubmit = true) (taken : l.step input = some m) :
    m.phase ≠ .closed → m.world.state.cbSubmit = true := by
  cases input with
  | cmd cmd =>
    simp only [step, Option.ite_none_right_eq_some, Option.some.injEq] at taken
    obtain ⟨⟨running, _⟩, rfl⟩ := taken
    intro _
    exact (World.handleCmd_cbSubmit ..).trans (held (by simp [running]))
  | event event =>
    simp only [step, Option.ite_none_right_eq_some, Option.some.injEq] at taken
    obtain ⟨⟨_, running⟩, rfl⟩ := taken
    obtain ⟨group, found⟩ := Finmap.mem_iff.mp ((inv.keys event.key).active_grouped running)
    have handled := World.event_cbSubmit inv running found
    intro unclosed
    refine Eq.trans ?_ (held unclosed)
    simp only [eventWorld]
    split
    · simp only [World.handleEvent]
      split
      · exact (World.tryStartNext_cbSubmit _).trans handled
      · exact handled
    · exact handled
    · exact handled
  | finishClose =>
    simp only [step, Option.ite_none_right_eq_some, Option.some.injEq] at taken
    obtain ⟨_, rfl⟩ := taken
    exact fun unclosed => absurd rfl unclosed
  | listeners | worker =>
    obtain rfl := Option.some.inj taken
    exact held

theorem reachable_held {maxUpload maxDownload : Nat} {listeners : List Nat}
    (reached : Machine.Reachable step (init maxUpload maxDownload listeners) l) :
    l.phase ≠ .closed → l.world.state.cbSubmit = true := by
  induction reached with
  | start => exact fun _ => rfl
  | next earlier _ taken ih => exact step_held (reachable_inv earlier) ih taken

end Loop

end RustyCat
