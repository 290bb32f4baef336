import RustyCat.System.Control
import RustyCat.Worker.Effects

/-!
# Runs of the system, task by task

Commands, worker events and worker steps move each task by steps of the task
machine.  With the pieces of the stops this gives the theorem at the end: a run
of the system is, for each task, a run of the task machine.
-/

namespace RustyCat.System

variable {ok : InnerTask → Run → Choice → Prop} {limit : Direction → Nat} {s t : System}
  {key : UniqueId} {group : GroupState}

section Commands

variable {inner : InnerTask} {callbacks : TaskCallbacks} {w : World} {cell : TaskCell}
  {paused : Bool}

theorem Ok.keyState_absent (good : s.Ok limit) (free : key ∉ s.world.state.groups) :
    s.world.state.keyState key = .absent := by
  have inactive : key ∉ s.world.state.active :=
    fun active => free ((good.inv.keys key).active_grouped active)
  have unpaused : key ∉ s.world.state.pausedSet :=
    fun paused => free ((good.inv.keys key).paused_grouped paused)
  have calm : key ∉ s.world.state.cancelingSet :=
    fun canceling => inactive ((good.inv.keys key).canceling_active canceling)
  exact KeyState.ext (Finmap.lookup_eq_none.mpr free) (Finmap.lookup_eq_none.mpr inactive)
    (decide_eq_false unpaused) (decide_eq_false calm)

theorem lookup_submitted (s : System) (inner : InnerTask) (id : TaskId) :
    (s.tasks.insert inner.taskId inner).lookup id =
      if id = inner.taskId then some inner else s.tasks.lookup id :=
  HashMap.lookup_insert_ite ..

theorem Ok.register (good : s.Ok limit) (fresh : s.tasks.lookup inner.taskId = none)
    (absent : s.world.state.keyState inner.dedupeKey = .absent)
    (touched : s.world.Touches w inner.dedupeKey inner.taskId
      (World.registered inner callbacks paused) cell)
    (inv : w.state.Inv (insert inner.taskId s.tasks.keys) limit)
    (schedOk : SchedOk { s with world := w, tasks := s.tasks.insert inner.taskId inner })
    (emitted : TaskSteps ok (.idle inner (s.world.heap inner.taskId)) (.idle inner cell)) :
    Keeps ok limit s { s with world := w, tasks := s.tasks.insert inner.taskId inner } := by
  have inactive : s.world.state.active.lookup inner.dedupeKey = none :=
    congrArg KeyState.active absent
  have nobody : s.workers inner.dedupeKey = none :=
    good.unstaffed (Finmap.lookup_eq_none.mp inactive)
  refine ⟨⟨?_, fun k g there => ?_, fun id unknown => ?_, fun k => ?_, good.addressed, schedOk⟩,
    fun id => ?_⟩
  · rw [HashMap.keys_insert]
    exact inv
  · change (w.state.keyState k).group = some g at there
    simp only [lookup_submitted]
    by_cases here : k = inner.dedupeKey
    · subst here
      rw [touched.here] at there
      cases there
      simp [GroupState.new]
    · rw [touched.others k here] at there
      obtain ⟨submitted, filed⟩ := good.led k g there
      rw [if_neg]
      · exact ⟨submitted, filed⟩
      · intro same
        rw [same, fresh] at submitted
        cases submitted
  · simp only [lookup_submitted] at unknown
    split at unknown
    · cases unknown
    · rename_i other
      exact (touched.cells id other).trans (good.fresh id unknown)
  · have active : w.state.active.lookup k = s.world.state.active.lookup k := by
      by_cases here : k = inner.dedupeKey
      · subst here
        exact (congrArg KeyState.active touched.here).trans inactive.symm
      · exact congrArg KeyState.active (touched.others k here)
    rw [good.staffed k, Finmap.mem_iff, Finmap.mem_iff, active]
  · by_cases new : id = inner.taskId
    · subst new
      have before : s.view inner.taskId = .gone .new := by
        simp only [view, fresh, good.fresh _ fresh]
      have after : ({ s with
          world := w, tasks := s.tasks.insert inner.taskId inner } : System).view inner.taskId =
          .idle inner cell := by
        have there : (World.registered inner callbacks paused).group =
            some (GroupState.new inner callbacks) := rfl
        simp only [view, lookup_submitted, if_true, touched.here, touched.cell, nobody]
        exact KeyState.view_idle there rfl
      rw [before, after]
      rw [good.fresh _ fresh] at emitted
      exact Relation.ReflTransGen.head (.register inner) emitted
    · have same : ({ s with
          world := w, tasks := s.tasks.insert inner.taskId inner } : System).view id =
          s.view id := by
        simp only [view, lookup_submitted, new, if_false, touched.cells id new]
        cases s.tasks.lookup id with
        | none => rfl
        | some other =>
          by_cases here : other.dedupeKey = inner.dedupeKey
          · simp only [here, touched.here, absent, nobody]
            simp [KeyState.view, World.registered, KeyState.absent, GroupState.new, Ne.symm new]
          · simp only [touched.others _ here]
      rw [same]

theorem Ok.submit_duplicate (good : s.Ok limit) (fresh : s.tasks.lookup inner.taskId = none)
    (found : s.world.state.groups.lookup inner.dedupeKey = some group) :
    Keeps ok limit s { s with tasks := s.tasks.insert inner.taskId inner } := by
  have known : ∀ k g, s.world.state.groups.lookup k = some g →
      g.leaderInner.taskId ≠ inner.taskId := by
    intro k g there same
    have submitted := (good.led k g there).1
    rw [same, fresh] at submitted
    cases submitted
  refine ⟨⟨?_, fun k g there => ?_, fun id unknown => ?_, good.staffed, good.addressed, good.sched⟩,
    fun id => ?_⟩
  · rw [HashMap.keys_insert]
    exact good.inv.mono (Finset.subset_insert _ _)
  · simp only [lookup_submitted, known k g there, if_false]
    exact good.led k g there
  · simp only [lookup_submitted] at unknown
    split at unknown
    · cases unknown
    · exact good.fresh id unknown
  · have same : ({ s with tasks := s.tasks.insert inner.taskId inner } : System).view id =
        s.view id := by
      by_cases new : id = inner.taskId
      · subst new
        have there : (s.world.state.keyState inner.dedupeKey).group = some group := found
        simp only [view, lookup_submitted, if_true, fresh, KeyState.view, there,
          known _ _ found, if_false]
      · simp only [view, lookup_submitted, new, if_false]
    rw [same]

theorem Ok.emit {event : Option TaskEvent} (good : s.Ok limit)
    (found : s.world.state.groups.lookup key = some group)
    (plain : ∀ e ∈ event, e.IsRecord group.leaderInner fun status =>
      status ≠ .complete ∧ status ≠ .canceled)
    (touched : s.world.Touches w key group.leaderInner.taskId (s.world.state.keyState key)
      ((s.world.heap group.leaderInner.taskId).logSome event))
    (inv : w.state.Inv s.tasks.keys limit) (schedOk : SchedOk { s with world := w }) :
    Keeps ok limit s { s with world := w } := by
  by_cases active : key ∈ s.world.state.active
  · obtain ⟨_, token, worker, there, running, staffed⟩ := good.running active
    cases found.symm.trans there
    exact good.running_moves found running staffed touched found running (fun _ _ => rfl) inv
      schedOk (TaskSteps.emitLive plain fun _ => id)
  · exact good.idle_moves found active touched found (keyState_idle active) inv schedOk
      (TaskSteps.emitIdle plain fun _ => id)

theorem schedOk_of_idle (idle : s.sched = .idle) : s.SchedOk := by
  simp only [SchedOk, idle]

theorem Ok.vacancy (good : s.Ok limit) (fresh : s.tasks.lookup inner.taskId = none)
    (vacant : s.world.state.groups.lookup inner.dedupeKey = none) :
    inner.taskId ∉ s.tasks.keys ∧ inner.dedupeKey ∉ s.world.state.groups ∧
      s.world.state.keyState inner.dedupeKey = .absent := by
  have free : inner.dedupeKey ∉ s.world.state.groups := Finmap.lookup_eq_none.mp vacant
  refine ⟨?_, free, good.keyState_absent free⟩
  rw [Finmap.mem_keys]
  exact Finmap.lookup_eq_none.mp fresh

theorem enqueue_ok (callbacks : TaskCallbacks) (good : s.Ok limit) (idle : s.sched = .idle)
    (fresh : s.tasks.lookup inner.taskId = none)
    (vacant : s.world.state.groups.lookup inner.dedupeKey = none) :
    Keeps ok limit s { s with
      world := s.world.enqueueNew inner callbacks
      tasks := s.tasks.insert inner.taskId inner } := by
  obtain ⟨unused, free, absent⟩ := good.vacancy fresh vacant
  obtain ⟨event, pending, touched⟩ := World.enqueueNew_touches callbacks absent
    (Finmap.lookup_eq_none.mp (congrArg KeyState.active absent))
  exact good.register fresh absent touched (World.enqueueNew_inv callbacks good.inv unused free)
    (schedOk_of_idle idle) (TaskSteps.emitIdle pending (by simp))

theorem enqueuePaused_ok (good : s.Ok limit) (idle : s.sched = .idle)
    (fresh : s.tasks.lookup inner.taskId = none)
    (vacant : s.world.state.groups.lookup inner.dedupeKey = none) :
    Keeps ok limit s { s with
      world := s.world.enqueuePausedNew inner callbacks
      tasks := s.tasks.insert inner.taskId inner } := by
  obtain ⟨unused, free, absent⟩ := good.vacancy fresh vacant
  obtain ⟨event, paused, touched⟩ := World.enqueuePausedNew_touches callbacks absent
  exact good.register fresh absent touched
    (World.enqueuePausedNew_inv callbacks good.inv unused free) (schedOk_of_idle idle)
    (TaskSteps.emitIdle paused (by simp))

theorem duplicate_ok (good : s.Ok limit) (idle : s.sched = .idle)
    (fresh : s.tasks.lookup inner.taskId = none)
    (found : s.world.state.groups.lookup inner.dedupeKey = some group) :
    Keeps ok limit s { s with
      world := s.world.rejectDuplicate group callbacks
      tasks := s.tasks.insert inner.taskId inner } := by
  have submitted : Keeps ok limit s _ := good.submit_duplicate fresh found
  obtain ⟨event, plain, touched⟩ :=
    World.rejectDuplicate_touches (w := s.world) inner.dedupeKey group callbacks
  refine submitted.trans (submitted.agrees.emit found plain touched ?_ (schedOk_of_idle idle))
  simp only [World.rejectDuplicate, World.submit_state]
  exact submitted.agrees.inv

section

variable (good : s.Ok limit) (idle : s.sched = .idle)
  (found : s.world.state.groups.lookup key = some group)
include good idle found

theorem pauseIdle_ok (inactive : key ∉ s.world.state.active)
    (calm : key ∉ s.world.state.cancelingSet) :
    Keeps ok limit s { s with world := s.world.pauseMark key false } := by
  obtain ⟨event, paused, touched⟩ := World.pauseIdle_touches found
  exact good.idle_moves found inactive touched found (keyState_idle inactive)
    (World.pauseMark_inv false good.inv (Finmap.mem_of_lookup_eq_some found) calm)
    (schedOk_of_idle idle)
    (Relation.ReflTransGen.head (.pauseIdle .pause (by simp))
      (TaskSteps.emitIdle paused (by simp)))

theorem resume_ok :
    Keeps ok limit s { s with world := (s.world.resumeGroup key).1 } := by
  obtain ⟨event, paused, pending, touched, kept⟩ := World.resumeGroup_touches found
  have inv : (s.world.resumeGroup key).1.state.Inv s.tasks.keys limit :=
    World.resumeGroup_inv good.inv
  by_cases active : key ∈ s.world.state.active
  · rw [kept active] at touched
    refine good.emit found (fun e member => ?_) touched inv (schedOk_of_idle idle)
    obtain ⟨r, sinks, same, direction, status⟩ := pending e member
    exact ⟨r, sinks, same, direction, by simp [status]⟩
  · exact good.idle_moves found active touched found (keyState_idle active) inv
      (schedOk_of_idle idle) (TaskSteps.emitIdle pending (by simp))

theorem cancelIdle_ok (inactive : key ∉ s.world.state.active) :
    Keeps ok limit s { s with world := s.world.cancelInactive key } := by
  obtain ⟨event, canceled, touched⟩ := World.cancelInactive_touches found inactive
  exact good.idle_goes found inactive touched (Or.inl rfl) rfl
    (World.cancelInactive_inv good.inv inactive (Finmap.mem_of_lookup_eq_some found))
    (schedOk_of_idle idle) (.single (.cancelIdle event canceled))

end

theorem Ok.controlled {id : TaskId} (good : s.Ok limit)
    (named : s.world.state.taskIdToDedupe.lookup id = some key) :
    ∃ group, s.world.state.groups.lookup key = some group ∧ key ∉ s.world.state.cancelingSet := by
  obtain ⟨group, found, -, calm⟩ := (good.inv.ids.map_iff id key).mp named
  exact ⟨group, found, calm⟩

variable {cmd : TransferCmd}

theorem stops_some {kind : StopKind} (stopping : s.stops cmd = some (key, kind)) :
    ∃ id, s.world.state.taskIdToDedupe.lookup id = some key ∧ key ∈ s.world.state.active ∧
      kind ≠ .close := by
  cases cmd with
  | pause id | cancel id =>
    simp only [stops, Option.bind_eq_some_iff, Option.ite_none_right_eq_some,
      Option.some.injEq, Prod.mk.injEq] at stopping
    obtain ⟨_, named, active, rfl, rfl⟩ := stopping
    exact ⟨id, named, active, by simp⟩
  | _ => simp only [stops, reduceCtorEq] at stopping

theorem control_ok (good : s.Ok limit) (idle : s.sched = .idle) (id : TaskId)
    (act : World → UniqueId → World × Except MeowError Unit)
    (acts : ∀ key group, s.world.state.taskIdToDedupe.lookup id = some key →
      s.world.state.groups.lookup key = some group → key ∉ s.world.state.cancelingSet →
      Keeps ok limit s { s with world := (act s.world key).1 }) :
    Keeps ok limit s (s.settle (s.world.control id act).1.tryStartNext) := by
  have handled : Keeps ok limit s { s with world := (s.world.control id act).1 } := by
    cases named : s.world.state.taskIdToDedupe.lookup id with
    | none =>
      simp only [World.control, named]
      exact .refl good
    | some key =>
      obtain ⟨group, found, calm⟩ := good.controlled named
      simp only [World.control, named]
      exact acts key group named found calm
  exact handled.trans (tryStartNext_ok handled.agrees idle)

theorem handleCmd_ok (good : s.Ok limit) (idle : s.sched = .idle)
    (fresh : Disjoint (Loop.used cmd) s.tasks.keys) (nobody : s.stops cmd = none)
    (opened : ∀ activeKeys inactiveKeys, cmd ≠ .close activeKeys inactiveKeys) :
    Keeps ok limit s
      ((s.submit cmd).settle ((s.world.handleCmd cmd).1, (s.world.handleCmd cmd).2.1)) := by
  have unknown : ∀ inner : InnerTask, inner.taskId ∉ s.tasks.keys →
      s.tasks.lookup inner.taskId = none := by
    intro inner unused
    rw [Finmap.mem_keys] at unused
    exact Finmap.lookup_eq_none.mpr unused
  cases cmd with
  | enqueue inner callbacks =>
    have fresh := unknown inner (Finset.disjoint_singleton_left.mp fresh)
    cases found : s.world.state.groups.lookup inner.dedupeKey with
    | some group =>
      simp only [World.handleCmd, found]
      exact duplicate_ok good idle fresh found
    | none =>
      simp only [World.handleCmd, found]
      have registered : Keeps ok limit s _ := enqueue_ok callbacks good idle fresh found
      exact registered.trans (tryStartNext_ok registered.agrees idle)
  | enqueuePaused inner callbacks =>
    have fresh := unknown inner (Finset.disjoint_singleton_left.mp fresh)
    cases found : s.world.state.groups.lookup inner.dedupeKey with
    | some group =>
      simp only [World.handleCmd, found]
      exact duplicate_ok good idle fresh found
    | none =>
      simp only [World.handleCmd, found]
      exact enqueuePaused_ok good idle fresh found
  | pause id =>
    refine control_ok good idle id (fun w key => (w.pauseGroup key, .ok ()))
      fun key group named found calm => ?_
    have inactive : key ∉ s.world.state.active := by simpa [stops, named] using nobody
    simp only [World.pauseGroup, inactive, if_false]
    exact pauseIdle_ok good idle found inactive calm
  | resume id => exact control_ok good idle id _ fun _ _ _ found _ => resume_ok good idle found
  | cancel id =>
    refine control_ok good idle id (fun w key => (w.cancelGroup key, .ok ()))
      fun key group named found _ => ?_
    have inactive : key ∉ s.world.state.active := by simpa [stops, named] using nobody
    simp only [World.cancelGroup, inactive, if_false]
    exact cancelIdle_ok good idle found inactive
  | snapshot => exact .refl good
  | close activeKeys inactiveKeys => exact absurd rfl (opened activeKeys inactiveKeys)

theorem handle_ok (good : s.Ok limit) (idle : s.sched = .idle)
    (fresh : Disjoint (Loop.used cmd) s.tasks.keys)
    (listed : Loop.enumerates s.world.state cmd = true) : Keeps ok limit s (s.handle cmd) := by
  cases stopping : s.stops cmd with
  | some stop =>
    obtain ⟨key, kind⟩ := stop
    obtain ⟨id, named, active, notClose⟩ := stops_some stopping
    obtain ⟨group, found, calm⟩ := good.controlled named
    simp only [handle, stopping]
    exact claimStop_ok good idle active calm notClose
  | none =>
    cases cmd with
    | close activeKeys inactiveKeys =>
      simp only [Loop.enumerates, decide_eq_true_eq] at listed
      simp only [handle, stopping]
      refine good.quiet rfl rfl (fun _ => rfl) rfl (fun _ => ?_) good.inv ?_
      · rw [idle]
        rfl
      · refine ⟨fun k member => ?_, fun k member => ?_⟩
        · rw [← Finmap.mem_keys, ← listed.2.1]
          exact List.mem_toFinset.mpr member
        · have there := List.mem_toFinset.mpr member
          rw [listed.2.2.2, Finset.mem_filter] at there
          exact there.2
    | _ =>
      simp only [handle, stopping]
      exact handleCmd_ok good idle fresh stopping (by simp)

end Commands

section Events

variable {worker : Worker} {rest : List WorkerEvent} {w : World} {state : KeyState}
  {cell : TaskCell}

theorem Ok.sender (good : s.Ok limit) (staffed : s.workers key = some worker) :
    ∃ group token, key ∈ s.world.state.active ∧ s.world.state.groups.lookup key = some group ∧
      (s.world.state.keyState key).active = some token ∧ group.leaderInner.dedupeKey = key := by
  have active : key ∈ s.world.state.active := (good.staffed key).mp (by rw [staffed]; rfl)
  obtain ⟨group, token, _, found, running, -⟩ := good.running active
  exact ⟨group, token, active, found, running, (good.lead found).2⟩

theorem Ok.run_ends {token : ActiveState} (good : s.Ok limit) (idle : s.sched = .idle)
    (found : s.world.state.groups.lookup key = some group)
    (running : (s.world.state.keyState key).active = some token)
    (staffed : s.workers key = some worker)
    (touched : s.world.Touches w key group.leaderInner.taskId state cell)
    (owner : state.group = none ∨ state.group = some group) (ended : state.active = none)
    (inv : w.state.Inv s.tasks.keys limit)
    (moved : TaskSteps ok
      (.live group.leaderInner
        { pc := worker.pc
          outbox := worker.outbox
          token := token.cancelled
          cell := s.world.heap group.leaderInner.taskId }
        (s.world.state.keyState key).paused (s.world.state.keyState key).canceling .none)
      (state.view none .none group.leaderInner.taskId cell)) :
    Keeps ok limit s { s.setWorker key none with world := w } := by
  refine good.moves found touched owner (fun _ _ => rfl) inv ?_ ?_ rfl (schedOk_of_idle idle) ?_
  · rw [ended]
    rfl
  · rintro _ ⟨⟩
  · rw [staffed, KeyState.view_live found running, idle]
    exact moved

variable {totalSize : Nat}

theorem progress_ok {nextOffset : Nat} (good : s.Ok limit) (idle : s.sched = .idle)
    (staffed : s.workers key = some worker)
    (head : worker.outbox = .progress key nextOffset totalSize :: rest) :
    Keeps ok limit s { s.setWorker key (some { worker with outbox := rest }) with
      world := s.world.handleQuiescentWorkerEvent (.progress key nextOffset totalSize) } := by
  obtain ⟨group, token, active, found, running, rfl⟩ := good.sender staffed
  obtain ⟨event, transmission, touched⟩ :=
    World.handleProgress_touches found nextOffset totalSize
  refine good.moves found touched (Or.inr found) (fun _ _ => rfl)
    (World.handleProgress_inv good.inv nextOffset totalSize) ?_ ?_ rfl (schedOk_of_idle idle) ?_
  · rw [running]
    rfl
  · rintro _ ⟨⟩ e member
    refine good.addressed _ worker staffed e ?_
    rw [head]
    exact List.mem_cons_of_mem _ member
  · rw [staffed, KeyState.view_live found running, KeyState.view_live found running, idle]
    exact Relation.ReflTransGen.head (.progress head) (TaskSteps.emitLive transmission (by simp))

theorem completed_ok {payload : Option String} (good : s.Ok limit) (idle : s.sched = .idle)
    (staffed : s.workers key = some worker)
    (head : worker.outbox = .completed key totalSize payload :: rest) :
    Keeps ok limit s { s.setWorker key none with
      world := s.world.handleQuiescentWorkerEvent (.completed key totalSize payload) } := by
  obtain ⟨group, token, active, found, running, rfl⟩ := good.sender staffed
  obtain ⟨event, callback, complete, calls, touched⟩ :=
    World.handleCompleted_touches good.inv active found totalSize payload
  exact good.run_ends idle found running staffed touched (Or.inl rfl) rfl
    (World.handleQuiescentWorkerEvent_inv good.inv active)
    (.single (.completed head event callback complete calls))

theorem settled_touches (good : s.Ok limit)
    (found : s.world.state.groups.lookup key = some group) :
    s.world.Touches (s.world.quiescentAbort key) key group.leaderInner.taskId
      (s.world.state.keyState key)
      (if (s.world.state.keyState key).canceling then
        (s.world.heap group.leaderInner.taskId).executorCancel group.leaderInner.direction
      else s.world.heap group.leaderInner.taskId) := by
  have touched := World.quiescentAbort_touches found (good.lead found).2
  simp only [SchedulerState.keyState, decide_eq_true_eq]
  exact touched

variable (good : s.Ok limit) (idle : s.sched = .idle) (staffed : s.workers key = some worker)
include good idle staffed

theorem failed_ok {error : MeowError} (head : worker.outbox = .failed key error totalSize :: rest) :
    Keeps ok limit s { s.setWorker key none with
      world := s.world.handleQuiescentWorkerEvent (.failed key error totalSize) } := by
  obtain ⟨group, token, active, found, running, rfl⟩ := good.sender staffed
  have settled := settled_touches good found
  have state := World.quiescentAbort_state s.world group.leaderInner.dedupeKey
  obtain ⟨event, failed, touched⟩ := World.handleFailed_touches (state ▸ good.inv)
    (state ▸ active) (state ▸ found) error totalSize
  rw [settled.cell] at touched
  exact good.run_ends idle found running staffed (settled.trans touched) (Or.inl rfl) rfl
    (World.handleQuiescentWorkerEvent_inv good.inv active) (.single (.failed head event failed))

theorem canceled_ok (head : worker.outbox = .canceled key totalSize :: rest) :
    Keeps ok limit s { s.setWorker key none with
      world := s.world.handleQuiescentWorkerEvent (.canceled key totalSize) } := by
  obtain ⟨group, token, active, found, running, rfl⟩ := good.sender staffed
  have settled := settled_touches good found
  have state := World.quiescentAbort_state s.world group.leaderInner.dedupeKey
  have inv : (s.world.handleQuiescentWorkerEvent (.canceled _ totalSize)).state.Inv _ limit :=
    World.handleQuiescentWorkerEvent_inv good.inv active
  by_cases paused : group.leaderInner.dedupeKey ∈ s.world.state.pausedSet
  · have calm : (s.world.state.keyState group.leaderInner.dedupeKey).canceling = false :=
      keyState_calm fun canceling => (good.inv.keys _).canceling_unpaused canceling paused
    have marked : (s.world.state.keyState group.leaderInner.dedupeKey).paused = true :=
      decide_eq_true paused
    obtain ⟨event, records, touched⟩ := World.handleCanceled_paused_touches (state ▸ good.inv)
      (state ▸ found) totalSize (state ▸ paused)
    rw [settled.cell, state, calm] at touched
    refine good.run_ends idle found running staffed (settled.trans touched) (Or.inr found) rfl inv ?_
    rw [KeyState.view_idle found rfl, marked, calm]
    exact Relation.ReflTransGen.head (.stopped head) (TaskSteps.emitIdle records (by simp))
  · obtain ⟨event, canceled, touched⟩ := World.handleCanceled_ended_touches (state ▸ good.inv)
      (state ▸ active) (state ▸ found) totalSize (state ▸ paused)
    rw [settled.cell] at touched
    exact good.run_ends idle found running staffed (settled.trans touched) (Or.inl rfl) rfl inv
      (.single (.canceled head (Or.inl (decide_eq_false paused)) event canceled))

theorem handleEvent_ok {event : WorkerEvent} (head : worker.outbox = event :: rest) :
    Keeps ok limit s (s.handleEvent key event rest worker) := by
  have own : event.key = key := good.addressed key worker staffed event (head ▸ List.mem_cons_self)
  have next (w : World) (u : System) (kept : Keeps ok limit s { u with world := w })
      (free : u.sched = .idle) : Keeps ok limit s (u.settle w.tryStartNext) :=
    kept.trans (tryStartNext_ok kept.agrees free)
  cases event with
  | progress _ nextOffset totalSize =>
    cases own
    have kept : Keeps ok limit s _ := progress_ok good idle staffed head
    simp only [handleEvent, WorkerEvent.mayChangeSchedulerReadiness, World.handleEvent]
    cases s.phase <;> exact kept
  | completed _ totalSize payload =>
    cases own
    have kept : Keeps ok limit s _ := completed_ok good idle staffed head
    simp only [handleEvent, WorkerEvent.mayChangeSchedulerReadiness, World.handleEvent, if_true]
    cases s.phase with
    | running => exact next _ _ kept idle
    | _ => exact kept
  | failed _ error totalSize =>
    cases own
    have kept : Keeps ok limit s _ := failed_ok good idle staffed head
    simp only [handleEvent, WorkerEvent.mayChangeSchedulerReadiness, World.handleEvent, if_true]
    cases s.phase with
    | running => exact next _ _ kept idle
    | _ => exact kept
  | canceled _ totalSize =>
    cases own
    have kept : Keeps ok limit s _ := canceled_ok good idle staffed head
    simp only [handleEvent, WorkerEvent.mayChangeSchedulerReadiness, World.handleEvent, if_true]
    cases s.phase with
    | running => exact next _ _ kept idle
    | _ => exact kept

end Events

section Work

variable {inner : InnerTask}

theorem token_acts {a b : Stance} (acts : Acts inner a b)
    (cancelled : a.token = true) : b.token = true := by
  induction acts with
  | refl => exact cancelled
  | tail _ act ih =>
    cases act with
    | panic => rfl
    | _ => exact ih

theorem outbox_acts {a b : Stance} (acts : Acts inner a b)
    (own : ∀ e ∈ a.outbox, e.key = inner.dedupeKey) :
    ∀ e ∈ b.outbox, e.key = inner.dedupeKey := by
  induction acts with
  | refl => exact own
  | tail _ act ih =>
    cases act with
    | progress | sendCompleted | sendFailed | sendCanceled =>
      intro e member
      simp only [Stance.send, List.mem_append, List.mem_singleton] at member
      rcases member with old | rfl
      · exact ih e old
      · rfl
    | _ => exact ih

theorem setRun_touches {next : Run} {token : ActiveState} (id : TaskId)
    (running : (s.world.state.keyState key).active = some token)
    (grows : token.cancelled = true → next.token = true) :
    s.world.Touches (s.setRun key id next).world key id
      { s.world.state.keyState key with active := some ⟨next.token⟩ } next.cell := by
  have written := (World.Touches.refl s.world key id).onCell fun _ => next.cell
  cases cancelled : next.token with
  | true =>
    simp only [setRun, cancelled, if_true]
    refine written.onState _ ?_ fun k other => ?_
    · have there : s.world.state.active.lookup key = some token := running
      simp [there]
    · simp [other]
  | false =>
    have same : (s.world.state.keyState key).active = some ⟨false⟩ := by
      rw [running]
      cases token with
      | mk flag =>
        cases flag with
        | false => rfl
        | true => exact absurd ((grows rfl).symm.trans cancelled) (by simp)
    simp only [setRun, cancelled, Bool.false_eq_true, if_false]
    rw [← same]
    exact written

theorem schedOk_congr (sched : s.SchedOk) (same : t.sched = s.sched)
    (active : ∀ k, k ∈ t.world.state.active ↔ k ∈ s.world.state.active)
    (canceling : t.world.state.cancelingSet = s.world.state.cancelingSet) : t.SchedOk := by
  simp only [SchedOk, CloseOk, same, active, canceling] at sched ⊢
  exact sched

theorem work_ok {choice : Choice} {run next : Run} (good : s.Ok limit)
    (there : s.runAt key = some (inner, run)) (allowed : ok inner run choice)
    (taken : run.step inner choice = some next) :
    Keeps ok limit s (s.setRun key inner.taskId next) := by
  have acts := Run.step_acts (Run.step_cases taken)
  simp only [runAt] at there
  split at there
  · rename_i worker token group staffed running found
    cases there
    have filed := (good.lead found).2
    have touched := setRun_touches (s := s) group.leaderInner.taskId running (token_acts acts)
    refine good.moves found touched (Or.inr found) (fun _ _ => rfl) ?_ rfl ?_ rfl ?_ ?_
    · simp only [setRun]
      split
      · exact good.inv.interrupt key
      · exact good.inv
    · rintro _ ⟨⟩
      rw [← filed]
      refine outbox_acts acts ?_
      rw [filed]
      exact good.addressed key worker staffed
    · refine schedOk_congr good.sched rfl (fun k => ?_) ?_
      · simp only [setRun]
        split
        · exact iff_of_eq (congrArg KeyStatus.active (s.world.state.status_interrupt key k))
        · rfl
      · simp only [setRun]
        split <;> rfl
    · rw [staffed, KeyState.view_live found running, KeyState.view_live found rfl]
      exact .single (.work choice allowed taken)
  · cases there

end Work

theorem closeClear_ok (good : s.Ok limit) (idle : s.sched = .idle)
    (drained : s.world.state.active.keys = ∅) :
    Keeps ok limit s { s with world := s.world.closeClear, phase := .closed } := by
  have inactive : ∀ k, k ∉ s.world.state.active := by
    intro k
    rw [← Finmap.mem_keys, drained]
    exact Finset.notMem_empty k
  refine ⟨⟨World.closeClear_inv good.inv, fun k g there => ?_, good.fresh, fun k => ?_,
    good.addressed, schedOk_of_idle idle⟩, fun id => ?_⟩
  · simp [World.closeClear] at there
  · rw [good.staffed k]
    exact iff_of_false (inactive k) Finmap.notMem_empty
  · have after : ({ s with world := s.world.closeClear, phase := .closed } : System).view id =
        .gone (s.world.heap id) := by
      simp only [view]
      split <;> rfl
    rw [after]
    simp only [view]
    split
    · exact .refl
    rename_i inner _
    simp only [KeyState.view, keyState_idle (inactive inner.dedupeKey)]
    split
    · exact .refl
    split
    · exact .single .clear
    · exact .refl

/-- A side condition on the steps of the workers. -/
def Allows (ok : InnerTask → Run → Choice → Prop) (s : System) : Label → Prop
  | .work key choice => ∀ inner run, s.runAt key = some (inner, run) → ok inner run choice
  | .cmd _ | .sched | .deliver _ | .finishClose | .listeners _ => True

instance [∀ inner run choice, Decidable (ok inner run choice)] (s : System) :
    DecidablePred (s.Allows ok)
  | .work key choice =>
    match there : s.runAt key with
    | none => isTrue fun _ _ found => nomatch there.symm.trans found
    | some (inner, run) => decidable_of_iff (ok inner run choice) (by simp [Allows, there])
  | .cmd _ | .sched | .deliver _ | .finishClose | .listeners _ => isTrue trivial

theorem step_ok {label : Label} (good : s.Ok limit) (allowed : s.Allows ok label)
    (taken : s.step label = some t) : Keeps ok limit s t := by
  cases label with
  | cmd cmd =>
    simp only [step, Option.ite_none_right_eq_some, Option.some.injEq] at taken
    obtain ⟨⟨idle, -, fresh, listed⟩, rfl⟩ := taken
    exact handle_ok good idle fresh listed
  | sched => exact stepSched_ok good taken
  | deliver key =>
    simp only [step, Option.ite_none_right_eq_some] at taken
    obtain ⟨idle, taken⟩ := taken
    split at taken
    · rename_i worker staffed
      split at taken
      · rename_i event rest head
        cases taken
        exact handleEvent_ok good idle staffed head
      · cases taken
    · cases taken
  | work key choice =>
    simp only [step, Option.bind_eq_some_iff, Option.map_eq_some_iff] at taken
    obtain ⟨⟨inner, run⟩, there, next, taken, rfl⟩ := taken
    exact work_ok good there (allowed inner run there) taken
  | finishClose =>
    simp only [step, Option.ite_none_right_eq_some, Option.some.injEq] at taken
    obtain ⟨⟨idle, -, drained⟩, rfl⟩ := taken
    exact closeClear_ok good idle drained
  | listeners ids =>
    simp only [step, Option.some.injEq] at taken
    subst taken
    refine good.quiet rfl rfl (fun _ => rfl) rfl (fun _ => rfl) ?_ good.sched
    exact ⟨good.inv.keys, ⟨good.inv.queue.nodup, good.inv.queue.mem_iff⟩,
      ⟨good.inv.count.configured, good.inv.count.counts, good.inv.count.limits⟩,
      good.inv.ids.congr rfl rfl rfl⟩

variable {maxUpload maxDownload : Nat} {listeners : List Nat}

theorem init_ok : (init maxUpload maxDownload listeners).Ok (Loop.limits maxUpload maxDownload) := by
  refine ⟨SchedulerState.new_inv maxUpload maxDownload listeners, ?_, fun _ _ => rfl, ?_, ?_,
    trivial⟩
  · intro key group there
    simp [init, SchedulerState.new] at there
  · intro key
    exact iff_of_false (by simp [init]) Finmap.notMem_empty
  · intro key worker there
    cases there

theorem run_agrees (run : Machine.Run step (Allows ok) (init maxUpload maxDownload listeners) s) :
    s.Ok (Loop.limits maxUpload maxDownload) :=
  run.invariant _ init_ok fun _ _ _ good allowed taken => (step_ok good allowed taken).agrees

/-- In every run of the system each task runs by the task machine. -/
theorem run_taskSteps
    (run : Machine.Run step (Allows ok) (init maxUpload maxDownload listeners) s) (id : TaskId) :
    TaskSteps ok (.gone .new) (s.view id) :=
  run.simulates (Ok (Loop.limits maxUpload maxDownload)) (view · id) init_ok
    (fun _ _ _ good allowed taken => (step_ok good allowed taken).agrees)
    fun _ _ _ good allowed taken => (step_ok good allowed taken).follows id

end RustyCat.System
