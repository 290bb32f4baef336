import RustyCat.Scheduler.Loop

/-!
# The scheduler invariant along every run

Each handler keeps `SchedulerState.Inv`; so does a pass of `try_start_next` and
every intermediate state of a draining close.  The theorem at the end reads the
invariant off in terms of the scheduler's own fields.
-/

namespace RustyCat

namespace World

variable {issued : Finset TaskId} {limit : Direction → Nat} {w : World} {key : UniqueId} {group : GroupState}

/-- Under the invariant the head of the queue is runnable: it starts if its
direction has a free slot and goes to the back of the queue otherwise. -/
theorem startHead_cons {rest : List UniqueId} (inv : w.state.Inv issued limit)
    (queue : w.state.queued = key :: rest) :
    ∃ group, w.state.groups.lookup key = some group ∧
      w.startHead = if w.state.canStartDirection key.1 then
        (((w.onState (·.popQueued key rest)).startGroup key group).1,
          some ((w.onState (·.popQueued key rest)).startGroup key group).2)
      else ((w.onState (·.popQueued key rest)).onState (·.pushQueued key), none) := by
  have member : key ∈ w.state.queuedSet :=
    (inv.queue.mem_iff key).mp (queue ▸ List.mem_cons_self)
  have ok := inv.keys key
  have unpaused : key ∉ (w.state.popQueued key rest).pausedSet := ok.queued_unpaused member
  have idle : key ∉ (w.state.popQueued key rest).active := ok.queued_inactive member
  obtain ⟨group, found⟩ := Finmap.mem_iff.mp (ok.queued_grouped member)
  have kept : (w.state.popQueued key rest).groups.lookup key = some group := found
  refine ⟨group, found, ?_⟩
  simp only [startHead, queue, onState_state, unpaused, idle, kept, if_false]
  rfl

theorem startHead_inv (inv : w.state.Inv issued limit) : w.startHead.1.state.Inv issued limit := by
  cases queue : w.state.queued with
  | nil =>
    simp only [startHead, queue]
    exact inv
  | cons key rest =>
    obtain ⟨group, _, head⟩ := startHead_cons inv queue
    rw [head]
    by_cases free : w.state.canStartDirection key.1 = true
    · rw [if_pos free, startGroup_state]
      exact inv.start queue free _
    · rw [if_neg free]
      exact inv.rotate queue

theorem startRound_inv (n : Nat) (inv : w.state.Inv issued limit) :
    (startRound n w).1.state.Inv issued limit := by
  induction n generalizing w with
  | zero => exact inv
  | succ n ih => exact ih (startHead_inv inv)

theorem startLoop_inv (fuel : Nat) (inv : w.state.Inv issued limit) :
    (startLoop fuel w).1.state.Inv issued limit := by
  induction fuel generalizing w with
  | zero => exact inv
  | succ fuel ih =>
    have round := startRound_inv w.state.queued.length inv
    simp only [startLoop]
    split
    · exact inv
    split
    · exact round
    · exact ih round

theorem tryStartNext_inv (inv : w.state.Inv issued limit) : w.tryStartNext.1.state.Inv issued limit :=
  startLoop_inv _ inv

theorem pushIfIdle_state (idle : key ∉ w.state.active) (notQueued : key ∉ w.state.queuedSet) :
    (w.pushIfIdle key).state = w.state.pushQueued key := by
  simp [pushIfIdle, idle, notQueued]

@[simp] theorem registerPending_state (w : World) (inner : InnerTask)
    (callbacks : TaskCallbacks) :
    (w.registerPending inner callbacks).state = w.state.register inner callbacks := by
  simp only [registerPending]
  split <;> simp

theorem enqueueNew_inv {inner : InnerTask} (callbacks : TaskCallbacks) (inv : w.state.Inv issued limit)
    (fresh : inner.taskId ∉ issued) (free : inner.dedupeKey ∉ w.state.groups) :
    (w.enqueueNew inner callbacks).state.Inv (insert inner.taskId issued) limit := by
  have nowhere := inv.status_of_free free
  have idle : inner.dedupeKey ∉ w.state.active := by
    intro member
    have active : (w.state.status inner.dedupeKey).active := member
    rw [nowhere] at active
    exact active
  have notQueued : inner.dedupeKey ∉ w.state.queuedSet := by
    intro member
    have queued : (w.state.status inner.dedupeKey).queued := member
    rw [nowhere] at queued
    exact queued
  have registered := registerPending_state w inner callbacks
  rw [enqueueNew, pushIfIdle_state (by rw [registered]; exact idle)
    (by rw [registered]; exact notQueued), registered]
  exact inv.enqueue callbacks fresh free

theorem enqueuePausedNew_inv {inner : InnerTask} (callbacks : TaskCallbacks)
    (inv : w.state.Inv issued limit) (fresh : inner.taskId ∉ issued)
    (free : inner.dedupeKey ∉ w.state.groups) :
    (w.enqueuePausedNew inner callbacks).state.Inv (insert inner.taskId issued) limit := by
  simp only [enqueuePausedNew, emitCurrent_state, onState_state]
  exact inv.enqueuePaused callbacks fresh free

@[simp] theorem claimStop_state (w : World) (key : UniqueId) (kind : StopKind) :
    (w.claimStop key kind).1.state = w.state := by
  simp only [claimStop]
  split <;> rfl

section

variable (disposition : StopRequestDisposition)

theorem interruptIf_inv (inv : w.state.Inv issued limit) :
    (w.interruptIf disposition key).state.Inv issued limit := by
  simp only [interruptIf]
  split
  · exact inv.interrupt key
  · exact inv

@[simp] theorem interruptIf_groups :
    (w.interruptIf disposition key).state.groups = w.state.groups := by
  simp only [interruptIf]
  split <;> rfl

@[simp] theorem interruptIf_cancelingSet :
    (w.interruptIf disposition key).state.cancelingSet = w.state.cancelingSet := by
  simp only [interruptIf]
  split <;> rfl

@[simp] theorem mem_interruptIf_active (k : UniqueId) :
    k ∈ (w.interruptIf disposition key).state.active ↔ k ∈ w.state.active := by
  have same := w.state.status_interrupt key k
  simp only [interruptIf]
  split
  · exact iff_of_eq (congrArg KeyStatus.active same)
  · rfl

end

@[simp] theorem pauseMark_state (w : World) (key : UniqueId) (wasActive : Bool) :
    (w.pauseMark key wasActive).state = (w.state.dropQueued key).pause key := by
  simp only [pauseMark]
  split
  · rfl
  split
  · rfl
  · simp

theorem pauseMark_inv (wasActive : Bool) (inv : w.state.Inv issued limit) (grouped : key ∈ w.state.groups)
    (calm : key ∉ w.state.cancelingSet) : (w.pauseMark key wasActive).state.Inv issued limit := by
  rw [pauseMark_state]
  exact inv.pauseMark grouped calm

theorem pauseGroup_inv (inv : w.state.Inv issued limit) (grouped : key ∈ w.state.groups)
    (calm : key ∉ w.state.cancelingSet) : (w.pauseGroup key).state.Inv issued limit := by
  simp only [pauseGroup]
  split
  · apply pauseMark_inv
    · exact interruptIf_inv _ (by simpa using inv)
    · simpa using grouped
    · simpa using calm
  · exact pauseMark_inv false inv grouped calm

theorem resumeGroup_inv (inv : w.state.Inv issued limit) : (w.resumeGroup key).1.state.Inv issued limit := by
  simp only [resumeGroup]
  split
  · exact inv
  rename_i paused
  have paused : key ∈ w.state.pausedSet := not_not.mp paused
  split
  · exact inv
  rename_i idle
  have ok := inv.keys key
  obtain ⟨group, found⟩ := Finmap.mem_iff.mp (ok.paused_grouped paused)
  have notQueued : key ∉ w.state.queuedSet := fun queued => ok.queued_unpaused queued paused
  simp only [onState_state, found]
  rw [pushIfIdle_state (by simpa using idle) (by simpa using notQueued), emitCurrent_state]
  exact inv.resume paused idle

@[simp] theorem cancelMark_state (w : World) (found : w.state.groups.lookup key = some group) :
    (w.cancelMark key).state = { w.state.dropQueued key with
      pausedSet := w.state.pausedSet.erase key
      cancelingSet := insert key w.state.cancelingSet
      taskIdToDedupe := w.state.taskIdToDedupe.erase group.leaderInner.taskId } := by
  have kept : (w.state.dropQueued key).groups.lookup key = some group := found
  simp only [cancelMark, onState_state, kept]
  rfl

theorem cancelMark_inv (inv : w.state.Inv issued limit) (running : key ∈ w.state.active) :
    (w.cancelMark key).state.Inv issued limit := by
  obtain ⟨group, found⟩ := Finmap.mem_iff.mp ((inv.keys key).active_grouped running)
  rw [cancelMark_state w found]
  exact inv.cancelMark running found

theorem dropQueued_of_notMem {s : SchedulerState} (inv : s.Inv issued limit)
    (absent : key ∉ s.queuedSet) : s.dropQueued key = s := by
  have notQueued : key ∉ s.queued := fun member => absent ((inv.queue.mem_iff key).mp member)
  have kept : s.queued.filter (· ≠ key) = s.queued := by
    rw [List.filter_eq_self]
    intro k member
    simp only [decide_eq_true_eq]
    rintro rfl
    exact notQueued member
  simp only [SchedulerState.dropQueued, kept, Finset.erase_eq_of_notMem absent]

theorem removeActive_of_notMem {s : SchedulerState} (absent : key ∉ s.active) :
    s.removeActive key = s := by
  simp [SchedulerState.removeActive, absent, HashMap.erase_absent _ absent]

theorem cancelInactive_state (idle : key ∉ w.state.active)
    (found : w.state.groups.lookup key = some group) :
    (w.cancelInactive key).state = w.state.finish key group := by
  have kept : (w.state.dropQueued key).groups.lookup key = some group := found
  have absent : key ∉ (w.state.dropQueued key).active := idle
  simp only [cancelInactive, onState_state, kept, emitCurrent_state, onCell_state,
    SchedulerState.finish, removeActive_of_notMem absent]
  rfl

theorem cancelInactive_inv (inv : w.state.Inv issued limit) (idle : key ∉ w.state.active)
    (grouped : key ∈ w.state.groups) : (w.cancelInactive key).state.Inv issued limit := by
  obtain ⟨group, found⟩ := Finmap.mem_iff.mp grouped
  rw [cancelInactive_state idle found]
  exact inv.finish found

theorem cancelGroup_inv (inv : w.state.Inv issued limit) (grouped : key ∈ w.state.groups) :
    (w.cancelGroup key).state.Inv issued limit := by
  simp only [cancelGroup]
  split
  · rename_i running
    apply cancelMark_inv
    · exact interruptIf_inv _ (by simpa using inv)
    · simpa using running
  · rename_i idle
    exact cancelInactive_inv inv idle grouped

theorem closeActive_inv (inv : w.state.Inv issued limit) (running : key ∈ w.state.active) :
    (w.closeActive key).state.Inv issued limit := by
  simp only [closeActive]
  split
  · split
    · exact inv.interrupt key
    · exact inv.interrupt key
  · rename_i calm
    apply interruptIf_inv
    simp only [onState_state, claimStop_state]
    exact inv.closePause running calm

@[simp] theorem mem_closeActive_active (w : World) (key k : UniqueId) :
    k ∈ (w.closeActive key).state.active ↔ k ∈ w.state.active := by
  have same := w.state.status_interrupt key k
  simp only [closeActive]
  split
  · split <;> exact iff_of_eq (congrArg KeyStatus.active same)
  · rw [mem_interruptIf_active, onState_state, claimStop_state]
    rfl

@[simp] theorem closeInactive_state (w : World) (key : UniqueId) :
    (w.closeInactive key).state = w.state := by
  simp only [closeInactive]
  split
  · rfl
  · simp

theorem closeBegin_inv {activeKeys inactiveKeys : List UniqueId} (inv : w.state.Inv issued limit)
    (running : ∀ key ∈ activeKeys, key ∈ w.state.active) :
    (w.closeBegin activeKeys inactiveKeys).state.Inv issued limit := by
  have stopped : (activeKeys.foldl closeActive w).state.Inv issued limit := by
    induction activeKeys generalizing w with
    | nil => exact inv
    | cons key rest ih =>
      apply ih (closeActive_inv inv (running key List.mem_cons_self))
      intro k member
      rw [mem_closeActive_active]
      exact running k (List.mem_cons_of_mem _ member)
  have quiet : ∀ (keys : List UniqueId) (w : World), (keys.foldl closeInactive w).state = w.state := by
    intro keys
    induction keys with
    | nil =>
      intro w
      rfl
    | cons key rest ih =>
      intro w
      exact (ih _).trans (closeInactive_state w key)
  rw [closeBegin, quiet]
  exact stopped

theorem closeClear_inv (inv : w.state.Inv issued limit) :
    w.closeClear.state.Inv issued limit := by
  constructor
  · intro k
    constructor <;> simp [SchedulerState.status, closeClear, Finmap.notMem_empty]
  · constructor <;> simp [closeClear]
  · constructor
    · exact inv.count.configured
    · intro d
      cases d <;> simp [closeClear, SchedulerState.activeDirectionCount]
    · intro d
      cases d <;> simp [closeClear, SchedulerState.activeDirectionCount]
  · constructor <;> simp [closeClear]

theorem endGroup_state (last : World → GroupState → World)
    (silent : ∀ w group, (last w group).state = w.state)
    (found : w.state.groups.lookup key = some group) :
    (w.endGroup key last).state = (w.state.unregister key group).forgetProgress key := by
  simp only [endGroup, found, onState_state, silent]

theorem released_finish (inv : w.state.Inv issued limit)
    (running : key ∈ w.state.active) (group : GroupState) :
    ((((w.releaseWorker key).unpause key).state.unregister key group).forgetProgress key) =
      w.state.finish key group := by
  have absent : key ∉ w.state.queuedSet := fun queued => (inv.keys key).queued_inactive queued running
  simp only [SchedulerState.finish, dropQueued_of_notMem inv absent]
  rfl

section

variable (inv : w.state.Inv issued limit) (running : key ∈ w.state.active)
  (found : w.state.groups.lookup key = some group)
include inv running found

theorem handleFailed_state (error : MeowError) (totalSize : Nat) :
    (w.handleFailed key error totalSize).state = w.state.finish key group := by
  have there : ((w.releaseWorker key).unpause key).state.groups.lookup key = some group := found
  rw [handleFailed, endGroup_state _ _ there, released_finish inv running]
  intro w group
  simp [emitLast]

theorem handleCompleted_state (totalSize : Nat) (payload : Option String) :
    (w.handleCompleted key totalSize payload).state = w.state.finish key group := by
  have there : (((w.releaseWorker key).unpause key).onState fun s =>
      { s with offsets := s.offsets.insert key totalSize }).state.groups.lookup key =
      some group := found
  rw [handleCompleted, endGroup_state _ _ there, ← released_finish inv running group]
  · simp only [SchedulerState.forgetProgress, SchedulerState.unregister, onState_state,
      HashMap.erase_insert_self]
  · intro w group
    simp only [emitComplete]
    split
    · simp
    · simp

theorem handleCanceled_state (totalSize : Nat) :
    (w.handleCanceled key totalSize).state =
      if key ∈ w.state.pausedSet then (w.releaseWorker key).state
      else w.state.finish key group := by
  have kept : (w.releaseWorker key).state.pausedSet = w.state.pausedSet := rfl
  have there : (w.releaseWorker key).state.groups.lookup key = some group := found
  by_cases paused : key ∈ w.state.pausedSet
  · have calm : key ∉ w.state.cancelingSet :=
      fun canceling => (inv.keys key).canceling_unpaused canceling paused
    simp only [handleCanceled, kept, paused, calm, not_false_eq_true, and_self, if_true, there]
    simp [emitLast]
  · have there : ((w.releaseWorker key).unpause key).state.groups.lookup key = some group := found
    simp only [handleCanceled, kept, paused, false_and, if_false]
    rw [endGroup_state _ _ there, released_finish inv running]
    intro w group
    simp [emitLast]

end

@[simp] theorem quiescentAbort_state (w : World) (key : UniqueId) :
    (w.quiescentAbort key).state = w.state := by
  simp only [quiescentAbort]
  split
  · split <;> rfl
  · rfl

theorem handleProgress_inv (inv : w.state.Inv issued limit) (nextOffset totalSize : Nat) :
    (w.handleProgress key nextOffset totalSize).state.Inv issued limit := by
  simp only [handleProgress]
  split
  · exact inv
  rename_i group found
  have recorded := inv.progress (Finmap.mem_of_lookup_eq_some found) nextOffset totalSize
  split
  · exact recorded
  · rw [emitStatus_state]
    exact recorded

theorem handleQuiescentWorkerEvent_inv {event : WorkerEvent} (inv : w.state.Inv issued limit)
    (running : event.key ∈ w.state.active) :
    (w.handleQuiescentWorkerEvent event).state.Inv issued limit := by
  obtain ⟨group, found⟩ := Finmap.mem_iff.mp ((inv.keys event.key).active_grouped running)
  cases event with
  | progress key nextOffset totalSize => exact handleProgress_inv inv nextOffset totalSize
  | completed key totalSize payload =>
    simp only [WorkerEvent.key] at running found
    simp only [handleQuiescentWorkerEvent, handleWorkerEvent]
    rw [handleCompleted_state inv running found]
    exact inv.finish found
  | failed key error totalSize =>
    have settled : (w.quiescentAbort key).state = w.state := quiescentAbort_state w key
    simp only [handleQuiescentWorkerEvent, handleWorkerEvent]
    rw [handleFailed_state (by rw [settled]; exact inv) (by rw [settled]; exact running)
      (by rw [settled]; exact found), settled]
    exact inv.finish found
  | canceled key totalSize =>
    have settled : (w.quiescentAbort key).state = w.state := quiescentAbort_state w key
    simp only [handleQuiescentWorkerEvent, handleWorkerEvent]
    rw [handleCanceled_state (by rw [settled]; exact inv) (by rw [settled]; exact running)
      (by rw [settled]; exact found)]
    simp only [releaseWorker, onState_state, settled]
    split
    · rename_i paused
      have calm : key ∉ w.state.cancelingSet :=
        fun canceling => (inv.keys key).canceling_unpaused canceling paused
      exact inv.stopPaused paused calm
    · exact inv.finish found

theorem handleEvent_inv {event : WorkerEvent} (inv : w.state.Inv issued limit)
    (running : event.key ∈ w.state.active) : (w.handleEvent event).1.state.Inv issued limit := by
  have handled := handleQuiescentWorkerEvent_inv inv running
  simp only [handleEvent]
  split
  · exact tryStartNext_inv handled
  · exact handled

end World

namespace Loop

variable {limit : Direction → Nat} {l m : Loop} {input : Input}

theorem handleCmd_inv {cmd : TransferCmd} (inv : l.world.state.Inv l.issued limit)
    (fresh : Disjoint (used cmd) l.issued) (listed : enumerates l.world.state cmd = true) :
    (l.world.handleCmd cmd).1.state.Inv (used cmd ∪ l.issued) limit := by
  have known : ∀ id key, l.world.state.taskIdToDedupe.lookup id = some key →
      key ∈ l.world.state.groups ∧ key ∉ l.world.state.cancelingSet := by
    intro id key found
    obtain ⟨group, there, _, calm⟩ := (inv.ids.map_iff id key).mp found
    exact ⟨Finmap.mem_of_lookup_eq_some there, calm⟩
  cases cmd with
  | enqueue inner callbacks =>
    have unused : inner.taskId ∉ l.issued := Finset.disjoint_singleton_left.mp fresh
    simp only [World.handleCmd, used, Finset.singleton_union]
    split
    · simp only [World.rejectDuplicate, World.submit_state]
      exact inv.mono (Finset.subset_insert _ _)
    · rename_i absent
      exact World.tryStartNext_inv
        (World.enqueueNew_inv callbacks inv unused (Finmap.lookup_eq_none.mp absent))
  | enqueuePaused inner callbacks =>
    have unused : inner.taskId ∉ l.issued := Finset.disjoint_singleton_left.mp fresh
    simp only [World.handleCmd, used, Finset.singleton_union]
    split
    · simp only [World.rejectDuplicate, World.submit_state]
      exact inv.mono (Finset.subset_insert _ _)
    · rename_i absent
      exact World.enqueuePausedNew_inv callbacks inv unused (Finmap.lookup_eq_none.mp absent)
  | pause id =>
    simp only [World.handleCmd, used, Finset.empty_union]
    apply World.tryStartNext_inv
    simp only [World.control]
    split
    · rename_i key found
      exact World.pauseGroup_inv inv (known id key found).1 (known id key found).2
    · exact inv
  | resume id =>
    simp only [World.handleCmd, used, Finset.empty_union]
    apply World.tryStartNext_inv
    simp only [World.control]
    split
    · exact World.resumeGroup_inv inv
    · exact inv
  | cancel id =>
    simp only [World.handleCmd, used, Finset.empty_union]
    apply World.tryStartNext_inv
    simp only [World.control]
    split
    · rename_i key found
      exact World.cancelGroup_inv inv (known id key found).1
    · exact inv
  | snapshot =>
    simp only [World.handleCmd, used, Finset.empty_union]
    exact inv
  | close activeKeys inactiveKeys =>
    simp only [enumerates, decide_eq_true_eq] at listed
    simp only [World.handleCmd, used, Finset.empty_union]
    apply World.closeBegin_inv inv
    intro key member
    rw [← Finmap.mem_keys, ← listed.2.1]
    exact List.mem_toFinset.mpr member

theorem step_inv (inv : l.world.state.Inv l.issued limit) (taken : l.step input = some m) :
    m.world.state.Inv m.issued limit := by
  cases input with
  | cmd cmd =>
    simp only [step, Option.ite_none_right_eq_some, Option.some.injEq] at taken
    obtain ⟨⟨_, fresh, listed⟩, rfl⟩ := taken
    exact handleCmd_inv inv fresh listed
  | event event =>
    simp only [step, Option.ite_none_right_eq_some, Option.some.injEq] at taken
    obtain ⟨⟨_, running⟩, rfl⟩ := taken
    simp only [eventWorld]
    split
    · exact World.handleEvent_inv inv running
    · exact World.handleQuiescentWorkerEvent_inv inv running
    · exact World.handleQuiescentWorkerEvent_inv inv running
  | finishClose =>
    simp only [step, Option.ite_none_right_eq_some, Option.some.injEq] at taken
    obtain ⟨_, rfl⟩ := taken
    exact World.closeClear_inv inv
  | listeners ids =>
    simp only [step, Option.some.injEq] at taken
    subst taken
    exact ⟨inv.keys, ⟨inv.queue.nodup, inv.queue.mem_iff⟩, ⟨inv.count.configured, inv.count.counts, inv.count.limits⟩,
      inv.ids.congr rfl rfl rfl⟩
  | worker id life =>
    simp only [step, Option.some.injEq] at taken
    subst taken
    exact inv

def limits (maxUpload maxDownload : Nat) : Direction → Nat
  | .upload => maxUpload
  | .download => maxDownload

theorem reachable_inv {maxUpload maxDownload : Nat} {listeners : List Nat}
    (reached : Machine.Reachable step (init maxUpload maxDownload listeners) l) :
    l.world.state.Inv l.issued (limits maxUpload maxDownload) := by
  refine reached.invariant (fun l => l.world.state.Inv l.issued (limits maxUpload maxDownload))
    (SchedulerState.new_inv maxUpload maxDownload listeners) ?_
  intro l input m inv _ taken
  exact step_inv inv taken

end Loop

/-- What the scheduler's maps, sets and counters say about each other. -/
structure SchedulerState.Consistent (limit : Direction → Nat) (s : SchedulerState) : Prop where
  queue_nodup : s.queued.Nodup
  queue_set : s.queued.toFinset = s.queuedSet
  queued_grouped : s.queuedSet ⊆ s.groups.keys
  active_grouped : s.active.keys ⊆ s.groups.keys
  paused_grouped : s.pausedSet ⊆ s.groups.keys
  canceling_grouped : s.cancelingSet ⊆ s.groups.keys
  queued_inactive : Disjoint s.queuedSet s.active.keys
  queued_unpaused : Disjoint s.queuedSet s.pausedSet
  canceling_active : s.cancelingSet ⊆ s.active.keys
  canceling_unpaused : Disjoint s.cancelingSet s.pausedSet
  covered : s.groups.keys ⊆ s.queuedSet ∪ s.active.keys ∪ s.pausedSet
  offsets_grouped : s.offsets.keys ⊆ s.groups.keys
  totals_grouped : s.knownTotals.keys ⊆ s.groups.keys
  counters : ∀ d, s.activeDirectionCount d = (s.active.keys.filter fun k => k.1 = d).card
  limits : ∀ d, s.activeDirectionCount d ≤ limit d
  /-- Ids and groups that are not canceling correspond one to one. -/
  ids : Set.BijOn (fun id => s.taskIdToDedupe.lookup id) {id | id ∈ s.taskIdToDedupe}
    (some '' {k | k ∈ s.groups ∧ k ∉ s.cancelingSet})

theorem SchedulerState.Inv.ids_bijOn {issued : Finset TaskId} {limit : Direction → Nat}
    {s : SchedulerState} (inv : s.Inv issued limit) :
    Set.BijOn (fun id => s.taskIdToDedupe.lookup id) {id | id ∈ s.taskIdToDedupe}
      (some '' {k | k ∈ s.groups ∧ k ∉ s.cancelingSet}) := by
  refine ⟨?_, ?_, ?_⟩
  · intro id member
    obtain ⟨k, found⟩ := Finmap.mem_iff.mp member
    obtain ⟨g, grouped, _, calm⟩ := (inv.ids.map_iff id k).mp found
    exact ⟨k, ⟨Finmap.mem_of_lookup_eq_some grouped, calm⟩, found.symm⟩
  · intro id member id' _ same
    obtain ⟨k, found⟩ := Finmap.mem_iff.mp member
    have found' : s.taskIdToDedupe.lookup id' = some k := same.symm.trans found
    obtain ⟨g, grouped, named, _⟩ := (inv.ids.map_iff id k).mp found
    obtain ⟨g', grouped', named', _⟩ := (inv.ids.map_iff id' k).mp found'
    rw [grouped] at grouped'
    cases grouped'
    exact named.symm.trans named'
  · rintro _ ⟨k, ⟨grouped, calm⟩, rfl⟩
    obtain ⟨g, found⟩ := Finmap.mem_iff.mp grouped
    have mapped := (inv.ids.map_iff g.leaderInner.taskId k).mpr ⟨g, found, rfl, calm⟩
    exact ⟨g.leaderInner.taskId, Finmap.mem_of_lookup_eq_some mapped, mapped⟩

theorem SchedulerState.Inv.consistent {issued : Finset TaskId} {limit : Direction → Nat}
    {s : SchedulerState} (inv : s.Inv issued limit) : s.Consistent limit where
  queue_nodup := inv.queue.nodup
  queue_set := by
    ext k
    rw [List.mem_toFinset]
    exact inv.queue.mem_iff k
  queued_grouped := fun k queued => Finmap.mem_keys.mpr ((inv.keys k).queued_grouped queued)
  active_grouped := fun k active =>
    Finmap.mem_keys.mpr ((inv.keys k).active_grouped (Finmap.mem_keys.mp active))
  paused_grouped := fun k paused => Finmap.mem_keys.mpr ((inv.keys k).paused_grouped paused)
  canceling_grouped := fun k canceling =>
    Finmap.mem_keys.mpr ((inv.keys k).active_grouped ((inv.keys k).canceling_active canceling))
  queued_inactive := Finset.disjoint_left.mpr fun k queued active =>
    (inv.keys k).queued_inactive queued (Finmap.mem_keys.mp active)
  queued_unpaused := Finset.disjoint_left.mpr fun k queued paused =>
    (inv.keys k).queued_unpaused queued paused
  canceling_active := fun k canceling =>
    Finmap.mem_keys.mpr ((inv.keys k).canceling_active canceling)
  canceling_unpaused := Finset.disjoint_left.mpr fun k canceling paused =>
    (inv.keys k).canceling_unpaused canceling paused
  covered := by
    intro k grouped
    rw [Finset.mem_union, Finset.mem_union, Finmap.mem_keys, or_assoc]
    exact (inv.keys k).covered (Finmap.mem_keys.mp grouped)
  offsets_grouped := fun k recorded =>
    Finmap.mem_keys.mpr ((inv.keys k).offset_grouped (Finmap.mem_keys.mp recorded))
  totals_grouped := fun k recorded =>
    Finmap.mem_keys.mpr ((inv.keys k).total_grouped (Finmap.mem_keys.mp recorded))
  counters := inv.count.counts
  limits := inv.count.limits
  ids := inv.ids_bijOn

namespace Loop

/-- In every state the loop reaches, through any commands and worker events, the
scheduler's bookkeeping is consistent. -/
theorem reachable_consistent {maxUpload maxDownload : Nat} {listeners : List Nat} {l : Loop}
    (reached : Machine.Reachable step (init maxUpload maxDownload listeners) l) :
    l.world.state.Consistent (limits maxUpload maxDownload) :=
  (reachable_inv reached).consistent

def sampleTask (id : TaskId) (sign : String) : InnerTask where
  taskId := id
  fileSign := sign
  fileName := "f"
  uploadFileSnapshot := none
  direction := .upload
  totalSize := 4
  chunkSize := 4
  url := "u"
  maxChunkRetries := 0
  maxUploadPrepareRetries := 0
  maxPartsInFlight := 1
  supportsParallelParts := false
  totalSize_le := sample_size
  chunkSize_pos := sample_chunk

/-- One upload runs and is being canceled, a second one waits for its slot, a
third one is imported paused. -/
def sampleRun : List Input :=
  [.cmd (.enqueue (sampleTask 1 "a") ⟨none, none⟩),
    .cmd (.enqueue (sampleTask 2 "b") ⟨none, none⟩),
    .cmd (.enqueuePaused (sampleTask 3 "c") ⟨none, none⟩),
    .event (.progress (.upload, "a") 2 4),
    .cmd (.cancel 1)]

theorem sampleRun_ends :
    ((Machine.exec step (init 1 1 []) sampleRun).map fun l =>
      (l.world.state.cancelingSet, l.world.state.queued, l.world.state.pausedSet)) =
      some ({(.upload, "a")}, [(.upload, "b")], {(.upload, "c")}) := by
  decide

theorem reachable_consistent_sample :
    ∃ l, Machine.exec step (init 1 1 []) sampleRun = some l ∧
      l.world.state.cancelingSet = {(.upload, "a")} ∧ l.world.state.queued = [(.upload, "b")] ∧
      l.world.state.pausedSet = {(.upload, "c")} ∧
      l.world.state.Consistent (limits 1 1) := by
  obtain ⟨l, executed, ends⟩ := Option.map_eq_some_iff.mp sampleRun_ends
  simp only [Prod.mk.injEq] at ends
  exact ⟨l, executed, ends.1, ends.2.1, ends.2.2,
    reachable_consistent (Machine.reachable_of_exec executed)⟩

end Loop

end RustyCat
