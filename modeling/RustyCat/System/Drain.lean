import RustyCat.System.Milestones

/-!
# Draining a close

What `Close` does to every group that is registered when it is taken: a group
without a worker reports `Paused` at once, the others wait for the terminal event
of their worker.  `Draining` relates the state in which the close was taken to
every later state of the loop.
-/

namespace RustyCat.World

variable {w v : World} {key : UniqueId} {group : GroupState} {issued : Finset TaskId}
  {limit : Direction → Nat}

/-! ## The callback sender

Only the end of a close gives it up. -/

theorem startHead_cbSubmit (w : World) : w.startHead.1.state.cbSubmit = w.state.cbSubmit := by
  cases queue : w.state.queued with
  | nil => simp only [startHead, queue]
  | cons key rest =>
    simp only [startHead, queue]
    split
    · rfl
    split
    · rfl
    split
    · rfl
    split
    · rw [startGroup_state]
      rfl
    · rfl

theorem startRound_cbSubmit (n : Nat) (w : World) :
    (startRound n w).1.state.cbSubmit = w.state.cbSubmit := by
  induction n generalizing w with
  | zero => rfl
  | succ n ih => exact (ih w.startHead.1).trans (startHead_cbSubmit w)

theorem startLoop_cbSubmit (fuel : Nat) (w : World) :
    (startLoop fuel w).1.state.cbSubmit = w.state.cbSubmit := by
  induction fuel generalizing w with
  | zero => rfl
  | succ fuel ih =>
    have round := startRound_cbSubmit w.state.queued.length w
    rw [startLoop_succ]
    split
    · rfl
    split
    · exact round
    · exact (ih _).trans round

section

variable (w : World)

theorem tryStartNext_cbSubmit :
    w.tryStartNext.1.state.cbSubmit = w.state.cbSubmit :=
  startLoop_cbSubmit _ w

theorem interruptIf_cbSubmit (disposition : StopRequestDisposition)
    (key : UniqueId) : (w.interruptIf disposition key).state.cbSubmit = w.state.cbSubmit := by
  simp only [interruptIf]
  split <;> rfl

theorem pushIfIdle_cbSubmit (key : UniqueId) :
    (w.pushIfIdle key).state.cbSubmit = w.state.cbSubmit := by
  simp only [pushIfIdle]
  split <;> rfl

theorem rejectDuplicate_cbSubmit (existing : GroupState) (callbacks : TaskCallbacks) :
    (w.rejectDuplicate existing callbacks).state.cbSubmit = w.state.cbSubmit := by
  rw [rejectDuplicate, submit_state]

theorem enqueueNew_cbSubmit (inner : InnerTask) (callbacks : TaskCallbacks) :
    (w.enqueueNew inner callbacks).state.cbSubmit = w.state.cbSubmit := by
  rw [enqueueNew, pushIfIdle_cbSubmit, registerPending_state]
  rfl

theorem enqueuePausedNew_cbSubmit (inner : InnerTask) (callbacks : TaskCallbacks) :
    (w.enqueuePausedNew inner callbacks).state.cbSubmit = w.state.cbSubmit := by
  rw [enqueuePausedNew, emitCurrent_state]
  rfl

theorem pauseGroup_cbSubmit (key : UniqueId) :
    (w.pauseGroup key).state.cbSubmit = w.state.cbSubmit := by
  simp only [pauseGroup]
  split
  · rw [pauseMark_state]
    exact (interruptIf_cbSubmit ..).trans (by rw [claimStop_state])
  · rw [pauseMark_state]
    rfl

theorem resumeGroup_cbSubmit (key : UniqueId) :
    (w.resumeGroup key).1.state.cbSubmit = w.state.cbSubmit := by
  simp only [resumeGroup]
  split
  · rfl
  split
  · rfl
  split
  · rfl
  · rw [pushIfIdle_cbSubmit, emitCurrent_state]
    rfl

theorem cancelMark_cbSubmit (key : UniqueId) :
    (w.cancelMark key).state.cbSubmit = w.state.cbSubmit := by
  simp only [cancelMark]
  split <;> rfl

theorem cancelInactive_cbSubmit (key : UniqueId) :
    (w.cancelInactive key).state.cbSubmit = w.state.cbSubmit := by
  simp only [cancelInactive]
  split
  · rfl
  · simp only [onState_state, SchedulerState.forgetProgress, emitCurrent_state]
    rfl

theorem cancelGroup_cbSubmit (key : UniqueId) :
    (w.cancelGroup key).state.cbSubmit = w.state.cbSubmit := by
  simp only [cancelGroup]
  split
  · rw [cancelMark_cbSubmit, interruptIf_cbSubmit, claimStop_state]
  · exact cancelInactive_cbSubmit w key

theorem control_cbSubmit (id : TaskId) (act : World → UniqueId → World × Except MeowError Unit)
    (silent : ∀ w key, (act w key).1.state.cbSubmit = w.state.cbSubmit) :
    (w.control id act).1.state.cbSubmit = w.state.cbSubmit := by
  simp only [control]
  split
  · exact silent w _
  · rfl

theorem closeActive_cbSubmit (key : UniqueId) :
    (w.closeActive key).state.cbSubmit = w.state.cbSubmit := by
  simp only [closeActive]
  split
  · split <;> rfl
  · simp only [interruptIf_cbSubmit, onState_state, claimStop_state]
    rfl

theorem closeBegin_cbSubmit (activeKeys inactiveKeys : List UniqueId) :
    (w.closeBegin activeKeys inactiveKeys).state.cbSubmit = w.state.cbSubmit := by
  have stopped : (activeKeys.foldl closeActive w).state.cbSubmit = w.state.cbSubmit := by
    induction activeKeys generalizing w with
    | nil => rfl
    | cons key rest ih => exact (ih (w.closeActive key)).trans (closeActive_cbSubmit w key)
  rw [closeBegin, ← stopped]
  generalize activeKeys.foldl closeActive w = v
  induction inactiveKeys generalizing v with
  | nil => rfl
  | cons key rest ih =>
    exact (ih (v.closeInactive key)).trans
      (congrArg SchedulerState.cbSubmit (closeInactive_state v key))

theorem handleCmd_cbSubmit (cmd : TransferCmd) :
    (w.handleCmd cmd).1.state.cbSubmit = w.state.cbSubmit := by
  cases cmd with
  | enqueue inner callbacks =>
    simp only [handleCmd]
    split
    · exact rejectDuplicate_cbSubmit ..
    · exact (tryStartNext_cbSubmit _).trans (enqueueNew_cbSubmit ..)
  | enqueuePaused inner callbacks =>
    simp only [handleCmd]
    split
    · exact rejectDuplicate_cbSubmit ..
    · exact enqueuePausedNew_cbSubmit ..
  | pause id =>
    simp only [handleCmd, tryStartNext_cbSubmit]
    exact control_cbSubmit w id _ fun w key => pauseGroup_cbSubmit w key
  | resume id =>
    simp only [handleCmd, tryStartNext_cbSubmit]
    exact control_cbSubmit w id _ fun w key => resumeGroup_cbSubmit w key
  | cancel id =>
    simp only [handleCmd, tryStartNext_cbSubmit]
    exact control_cbSubmit w id _ fun w key => cancelGroup_cbSubmit w key
  | snapshot => rfl
  | close activeKeys inactiveKeys => exact closeBegin_cbSubmit ..

/-! ## Worker events -/

end

theorem handleProgress_state (found : w.state.groups.lookup key = some group)
    (nextOffset totalSize : Nat) :
    (w.handleProgress key nextOffset totalSize).state =
      w.state.recordProgress key nextOffset totalSize := by
  simp only [handleProgress, found]
  split
  · rfl
  · rw [emitStatus_state]
    rfl

section Events

variable {event : WorkerEvent} (inv : w.state.Inv issued limit)
  (running : event.key ∈ w.state.active)
  (found : w.state.groups.lookup event.key = some group)

include inv running found

theorem terminal_state (terminal : event.mayChangeSchedulerReadiness = true) :
    (w.handleQuiescentWorkerEvent event).state = w.state.finish event.key group ∨
      (w.handleQuiescentWorkerEvent event).state = (w.releaseWorker event.key).state := by
  cases event with
  | progress key nextOffset totalSize => cases terminal
  | completed key totalSize payload => exact .inl (handleCompleted_state inv running found _ _)
  | failed key error totalSize =>
    have aborted := quiescentAbort_state w key
    have failed := handleFailed_state (w := w.quiescentAbort key) (by rw [aborted]; exact inv)
      (by rw [aborted]; exact running) (by rw [aborted]; exact found) error totalSize
    rw [aborted] at failed
    exact .inl failed
  | canceled key totalSize =>
    simp only [WorkerEvent.key] at running found
    have aborted := quiescentAbort_state w key
    have state := handleCanceled_state (w := w.quiescentAbort key) (by rw [aborted]; exact inv)
      (by rw [aborted]; exact running) (by rw [aborted]; exact found) totalSize
    have released : ((w.quiescentAbort key).releaseWorker key).state =
        (w.releaseWorker key).state := by
      simp only [releaseWorker, onState_state, aborted]
    rw [aborted, released] at state
    split at state
    · exact .inr state
    · exact .inl state

omit inv running in
theorem progress_state (progress : event.mayChangeSchedulerReadiness = false) :
    ∃ nextOffset totalSize, (w.handleQuiescentWorkerEvent event).state =
      w.state.recordProgress event.key nextOffset totalSize := by
  cases event with
  | progress key nextOffset totalSize =>
    exact ⟨_, _, handleProgress_state found nextOffset totalSize⟩
  | completed key totalSize payload => cases progress
  | failed key error totalSize => cases progress
  | canceled key totalSize => cases progress

theorem event_keyState_other {k : UniqueId} (other : k ≠ event.key) :
    (w.handleQuiescentWorkerEvent event).state.keyState k = w.state.keyState k := by
  cases terminal : event.mayChangeSchedulerReadiness with
  | false =>
    obtain ⟨nextOffset, totalSize, recorded⟩ := progress_state found terminal
    rw [recorded, SchedulerState.keyState_recordProgress]
  | true =>
    obtain ended | released := terminal_state inv running found terminal
    · rw [ended, SchedulerState.keyState_finish, if_neg other]
    · rw [released]
      exact (SchedulerState.keyState_release _ _ _).trans (if_neg other)

theorem event_keyState_here :
    if event.mayChangeSchedulerReadiness then
      event.key ∉ (w.handleQuiescentWorkerEvent event).state.active
    else (w.handleQuiescentWorkerEvent event).state.keyState event.key =
      w.state.keyState event.key := by
  cases terminal : event.mayChangeSchedulerReadiness with
  | false =>
    obtain ⟨nextOffset, totalSize, recorded⟩ := progress_state found terminal
    simp only [recorded, SchedulerState.keyState_recordProgress, Bool.false_eq_true, if_false]
  | true =>
    simp only [if_true, ← Finmap.lookup_eq_none]
    obtain ended | released := terminal_state inv running found terminal
    · rw [ended]
      exact Finmap.lookup_erase ..
    · rw [released]
      exact Finmap.lookup_erase ..

theorem event_cbSubmit :
    (w.handleQuiescentWorkerEvent event).state.cbSubmit = w.state.cbSubmit := by
  cases terminal : event.mayChangeSchedulerReadiness with
  | false =>
    obtain ⟨nextOffset, totalSize, recorded⟩ := progress_state found terminal
    rw [recorded]
    rfl
  | true =>
    obtain ended | released := terminal_state inv running found terminal
    · rw [ended]
      rfl
    · rw [released]
      rfl

end Events

/-! ## The beginning of a close -/

theorem Adds.quiet {id : TaskId} (adds : Adds w v id []) (other : TaskId) :
    TaskCell.Plain (w.heap other) (v.heap other) := by
  refine ⟨?_, adds.starts other⟩
  by_cases same : other = id
  · rw [same, adds.here, List.append_nil]
  · exact adds.others other same

structure Marks (w v : World) (keys : List UniqueId) : Prop where
  groups : v.state.groups = w.state.groups
  canceling : v.state.cancelingSet = w.state.cancelingSet
  active : ∀ k, k ∈ v.state.active ↔ k ∈ w.state.active
  paused : ∀ k ∈ w.state.pausedSet, k ∈ v.state.pausedSet
  marked : ∀ k ∈ keys, k ∉ w.state.cancelingSet → k ∈ v.state.pausedSet
  quiet : ∀ id, TaskCell.Plain (w.heap id) (v.heap id)

theorem mem_interrupt_active (s : SchedulerState) (key k : UniqueId) :
    k ∈ (s.interrupt key).active ↔ k ∈ s.active :=
  iff_of_eq (congrArg KeyStatus.active (s.status_interrupt key k))

theorem closeActive_marks (found : w.state.groups.lookup key = some group) :
    Marks w (w.closeActive key) [key] := by
  have quiet := (closeActive_adds found).quiet
  by_cases canceling : key ∈ w.state.cancelingSet
  · have state : (w.closeActive key).state = w.state.interrupt key := by
      simp only [closeActive, canceling, if_true, found]
      rfl
    refine ⟨?_, ?_, fun k => ?_, fun k paused => ?_, fun k member calm => ?_, quiet⟩
    · rw [state]
      rfl
    · rw [state]
      rfl
    · rw [state]
      exact mem_interrupt_active ..
    · rw [state]
      exact paused
    · rw [List.mem_singleton.mp member] at calm
      exact absurd canceling calm
  · have state : (w.closeActive key).state = w.state.pause key ∨
        (w.closeActive key).state = (w.state.pause key).interrupt key := by
      simp only [closeActive, canceling, if_false, interruptIf]
      split
      · right
        simp only [onState_state, claimStop_state]
      · left
        simp only [onState_state, claimStop_state]
    have same : (w.closeActive key).state.groups = w.state.groups ∧
        (w.closeActive key).state.cancelingSet = w.state.cancelingSet ∧
        (w.closeActive key).state.pausedSet = insert key w.state.pausedSet := by
      obtain state | state := state <;> rw [state] <;> exact ⟨rfl, rfl, rfl⟩
    refine ⟨same.1, same.2.1, fun k => ?_, fun k paused => ?_, fun k member calm => ?_, quiet⟩
    · obtain state | state := state <;> rw [state]
      · rfl
      · exact mem_interrupt_active ..
    · rw [same.2.2]
      exact Finset.mem_insert_of_mem paused
    · rw [same.2.2, List.mem_singleton.mp member]
      exact Finset.mem_insert_self _ _

theorem foldl_closeActive_marks (keys : List UniqueId)
    (grouped : ∀ key ∈ keys, key ∈ w.state.groups) : Marks w (keys.foldl closeActive w) keys := by
  induction keys generalizing w with
  | nil => exact ⟨rfl, rfl, fun _ => .rfl, fun _ paused => paused, nofun, fun _ => .of_history rfl⟩
  | cons key rest ih =>
    obtain ⟨group, found⟩ := Finmap.mem_iff.mp (grouped key List.mem_cons_self)
    have one := closeActive_marks found
    have tail : ∀ k ∈ rest, k ∈ (w.closeActive key).state.groups := by
      intro k member
      rw [one.groups]
      exact grouped k (List.mem_cons_of_mem _ member)
    have more := ih tail
    refine ⟨more.groups.trans one.groups, more.canceling.trans one.canceling,
      fun k => (more.active k).trans (one.active k),
      fun k paused => more.paused k (one.paused k paused), fun k member calm => ?_,
      fun id => (one.quiet id).trans (more.quiet id)⟩
    obtain rfl | later := List.mem_cons.mp member
    · exact more.paused k (one.marked k (List.mem_singleton_self _) calm)
    · exact more.marked k later (by rw [one.canceling]; exact calm)

theorem foldl_closeInactive_adds {keys : List UniqueId} (unique : keys.Nodup)
    (ids : w.state.IdsOk issued) (held : w.state.cbSubmit = true)
    (grouped : ∀ key ∈ keys, key ∈ w.state.groups) :
    (keys.foldl closeInactive w).state = w.state ∧
      (∀ id, ((keys.foldl closeInactive w).heap id).starts = (w.heap id).starts) ∧
      ∀ key group, w.state.groups.lookup key = some group →
        ((keys.foldl closeInactive w).heap group.leaderInner.taskId).milestones =
          (w.heap group.leaderInner.taskId).milestones ++ if key ∈ keys then [.paused] else [] := by
  induction keys generalizing w with
  | nil => simp
  | cons first rest ih =>
    obtain ⟨leader, there⟩ := Finmap.mem_iff.mp (grouped first List.mem_cons_self)
    have one := closeInactive_adds there held
    have state := closeInactive_state w first
    have fresh : first ∉ rest := (List.nodup_cons.mp unique).1
    obtain ⟨last, starts, milestones⟩ := @ih (w.closeInactive first) (List.nodup_cons.mp unique).2
      (by rw [state]; exact ids) (by rw [state]; exact held) (by
        rw [state]
        exact fun k member => grouped k (List.mem_cons_of_mem _ member))
    refine ⟨last.trans state, fun id => (starts id).trans (one.starts id), ?_⟩
    intro key group found
    rw [List.foldl_cons, milestones key group (by rw [state]; exact found)]
    by_cases same : key = first
    · subst same
      cases found.symm.trans there
      rw [one.here, if_neg fresh, if_pos List.mem_cons_self, List.append_nil]
    · have other : group.leaderInner.taskId ≠ leader.leaderInner.taskId :=
        fun equal => same (ids.leader_unique _ _ _ _ found there equal)
      rw [one.others _ other]
      simp only [List.mem_cons, same, false_or]

end RustyCat.World
