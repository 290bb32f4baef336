import RustyCat.System.View

/-!
# What the handlers touch

For every handler of the scheduler: the one key whose bookkeeping it changes,
the one task cell it changes, and both after the change.
-/

namespace RustyCat

def KeyState.absent : KeyState :=
  { group := none, active := none, paused := false, canceling := false }

namespace World

variable {w v u : World} {key : UniqueId} {id : TaskId} {state state' : KeyState}
  {cell cell' : TaskCell} {group : GroupState} {issued : Finset TaskId}
  {limit : Direction → Nat}

theorem Touches.refl (w : World) (key : UniqueId) (id : TaskId) :
    w.Touches w key id (w.state.keyState key) (w.heap id) :=
  ⟨rfl, fun _ _ => rfl, rfl, fun _ _ => rfl⟩

theorem Touches.trans (first : w.Touches v key id state cell)
    (second : v.Touches u key id state' cell') : w.Touches u key id state' cell' :=
  ⟨second.here, fun k other => (second.others k other).trans (first.others k other),
    second.cell, fun i other => (second.cells i other).trans (first.cells i other)⟩

theorem Touches.onState (touched : w.Touches v key id state cell)
    (f : SchedulerState → SchedulerState) (here : (f v.state).keyState key = state')
    (others : ∀ k, k ≠ key → (f v.state).keyState k = v.state.keyState k) :
    w.Touches (v.onState f) key id state' cell :=
  ⟨here, fun k other => (others k other).trans (touched.others k other), touched.cell,
    touched.cells⟩

theorem Touches.onCell (touched : w.Touches v key id state cell) (f : TaskCell → TaskCell) :
    w.Touches (v.onCell id f) key id state (f cell) := by
  refine ⟨touched.here, touched.others, ?_, fun i other => ?_⟩
  · rw [onCell_heap, Heap.modify_self, touched.cell]
  · rw [onCell_heap, Heap.modify_of_ne _ _ other]
    exact touched.cells i other

/-- The same, and the history of the leader grows by one such record or by none. -/
def Logs (w v : World) (key : UniqueId) (leader : InnerTask) (allowed : TransferStatus → Prop)
    (state : KeyState) (cell : TaskCell) : Prop :=
  ∃ event : Option TaskEvent, (∀ e ∈ event, e.IsRecord leader allowed) ∧
    w.Touches v key leader.taskId state (cell.logSome event)

theorem Touches.submit (touched : w.Touches v key id state cell) (progressCb : Option Nat)
    (dto : FileTransferRecord) (named : dto.taskId = id) :
    ∃ event : Option TaskEvent, (∀ e ∈ event, ∃ sinks, e = .record dto sinks) ∧
      w.Touches (v.submit progressCb dto) key id state (cell.logSome event) := by
  simp only [World.submit]
  split
  · refine ⟨some (.record dto (sinks v.state progressCb)), ?_, ?_⟩
    · rintro e ⟨⟩
      exact ⟨_, rfl⟩
    · rw [named]
      exact touched.onCell _
  · exact ⟨none, by simp, touched⟩

section

variable (group : GroupState) (touched : w.Touches v key group.leaderInner.taskId state cell)
include touched

theorem Touches.emitStatus (status : TransferStatus) (transferred total : Nat) :
    w.Logs (v.emitStatus group.entry status transferred total) key group.leaderInner (· = status)
      state cell := by
  have named : (record group.entry.inner status transferred total).taskId =
      group.leaderInner.taskId := by
    rw [← group.entry_inner]
    rfl
  obtain ⟨event, recorded, after⟩ := touched.submit group.entry.callbacks.progressCb _ named
  refine ⟨event, fun e member => ?_, after⟩
  obtain ⟨sinks, rfl⟩ := recorded e member
  refine ⟨_, sinks, rfl, ?_, rfl⟩
  rw [← group.entry_inner]
  rfl

theorem Touches.emitLast (filed : UniqueId) (totalSize : Nat) (status : TransferStatus) :
    w.Logs (v.emitLast filed totalSize status group) key group.leaderInner (· = status) state cell :=
  touched.emitStatus group status _ _

theorem Touches.emitCurrent (filed : UniqueId) (status : TransferStatus) :
    w.Logs (v.emitCurrent filed group status) key group.leaderInner (· = status) state cell :=
  touched.emitStatus group status _ _

end

section Stops

theorem claimStop_touches (found : w.state.groups.lookup key = some group) (kind : StopKind) :
    w.Touches (w.claimStop key kind).1 key group.leaderInner.taskId (w.state.keyState key)
      ((w.heap group.leaderInner.taskId).acceptStop kind) := by
  simp only [claimStop, found]
  exact (Touches.refl w key _).onCell _

theorem claimStop_disposition (found : w.state.groups.lookup key = some group)
    (kind : StopKind) : (w.claimStop key kind).2 =
      (kind.begin (w.heap group.leaderInner.taskId).life.terminal).2 := by
  simp only [claimStop, found]

theorem interrupt_touches (key : UniqueId) (id : TaskId) :
    w.Touches (w.onState (·.interrupt key)) key id
      { w.state.keyState key with active := (w.state.active.lookup key).map fun _ => ⟨true⟩ }
      (w.heap id) := by
  refine (Touches.refl w key id).onState _ ?_ fun k other => ?_
  · simp
  · simp [other]

theorem interruptIf_touches (disposition : StopRequestDisposition) (key : UniqueId)
    (id : TaskId) :
    w.Touches (w.interruptIf disposition key) key id
      { w.state.keyState key with
        active := (w.state.active.lookup key).map fun active =>
          ⟨active.cancelled || disposition = .interruptNow⟩ }
      (w.heap id) := by
  cases disposition with
  | interruptNow =>
    simp only [interruptIf, decide_true, Bool.or_true, if_true]
    exact interrupt_touches key id
  | deferredUntilRequestReturns =>
    have kept : ((w.state.active.lookup key).map fun active =>
        ActiveState.mk (active.cancelled || decide (StopRequestDisposition.deferredUntilRequestReturns
          = .interruptNow))) = w.state.active.lookup key := by
      cases w.state.active.lookup key <;> simp
    rw [kept]
    exact Touches.refl w key id

theorem pause_touches (key : UniqueId) (id : TaskId) :
    w.Touches (w.onState (·.pause key)) key id { w.state.keyState key with paused := true }
      (w.heap id) := by
  refine (Touches.refl w key id).onState _ ?_ fun k other => ?_
  · simp
  · simp [other]

theorem pauseMark_touches (key : UniqueId) (id : TaskId) :
    w.Touches (w.pauseMark key true) key id { w.state.keyState key with paused := true }
      (w.heap id) := by
  refine (Touches.refl w key id).onState (fun s => (s.dropQueued key).pause key) ?_ fun k other => ?_
  · simp
  · simp [other]

variable (found : w.state.groups.lookup key = some group)
include found

theorem cancelMark_touches (id : TaskId) :
    w.Touches (w.cancelMark key) key id
      { w.state.keyState key with paused := false, canceling := true } (w.heap id) := by
  have here : (w.state.dropQueued key).groups.lookup key = some group := found
  simp only [cancelMark, onState_state, here]
  refine ((Touches.refl w key id).onState _ rfl ?_).onState _ ?_ fun k other => ?_
  · intro k other
    simp [SchedulerState.keyState, SchedulerState.dropQueued, other]
  · simp [SchedulerState.keyState, SchedulerState.dropQueued]
  · simp [SchedulerState.keyState]

theorem pauseIdle_touches :
    w.Logs (w.pauseMark key false) key group.leaderInner (· = .paused)
      { w.state.keyState key with paused := true } ((w.heap group.leaderInner.taskId).log (.stopAccepted .pause)) := by
  have here : ((w.state.dropQueued key).pause key).groups.lookup key = some group := found
  simp only [pauseMark, onState_state, here]
  exact ((pauseMark_touches key _).onCell (·.log (.stopAccepted .pause))).emitCurrent group key .paused

theorem resumeGroup_touches :
    ∃ (event : Option TaskEvent) (paused : Bool),
      (∀ e ∈ event, e.IsRecord group.leaderInner fun status => status = .pending) ∧
      w.Touches (w.resumeGroup key).1 key group.leaderInner.taskId
        { w.state.keyState key with paused := paused }
        ((w.heap group.leaderInner.taskId).logSome event) ∧
      (key ∈ w.state.active → paused = (w.state.keyState key).paused) := by
  have same : w.Touches w key group.leaderInner.taskId
      { w.state.keyState key with paused := (w.state.keyState key).paused }
      ((w.heap group.leaderInner.taskId).logSome none) := Touches.refl w key _
  simp only [resumeGroup]
  split
  · exact ⟨none, _, by simp, same, fun _ => rfl⟩
  split
  · exact ⟨none, _, by simp, same, fun _ => rfl⟩
  rename_i idle
  have unpaused : w.Touches (w.onState fun s => { s with pausedSet := s.pausedSet.erase key })
      key group.leaderInner.taskId { w.state.keyState key with paused := false }
      (w.heap group.leaderInner.taskId) := by
    refine (Touches.refl w key _).onState _ ?_ fun k other => ?_
    · simp
    · simp [other]
  obtain ⟨event, plain, emitted⟩ := unpaused.emitCurrent group key .pending
  simp only [onState_state, found]
  refine ⟨event, false, plain, ?_, fun running => absurd running idle⟩
  simp only [pushIfIdle]
  split
  · exact emitted.onState _ emitted.here fun k other => rfl
  · exact emitted

theorem cancelInactive_touches (idle : key ∉ w.state.active) :
    w.Logs (w.cancelInactive key) key group.leaderInner (· = .canceled) .absent
      (((w.heap group.leaderInner.taskId).acceptStop .cancel).executorCancel
        group.leaderInner.direction) := by
  have state := cancelInactive_state idle found
  have here : (w.state.dropQueued key).groups.lookup key = some group := found
  -- The state after the whole handler is known; the cells are followed up to the record.
  have aborted := (Touches.refl ((w.onState fun s =>
    { s.dropQueued key with pausedSet := s.pausedSet.erase key }).onState (·.unregister key group))
    key group.leaderInner.taskId).onCell fun cell =>
      (cell.acceptStop .cancel).executorCancel group.leaderInner.direction
  obtain ⟨event, canceled, emitted⟩ := aborted.emitCurrent group key .canceled
  refine ⟨event, canceled, ?_, fun k other => ?_, ?_, ?_⟩
  · rw [state]
    simp [KeyState.absent]
  · rw [state]
    simp [other]
  · simp only [cancelInactive, onState_state, onState_heap, here]
    exact emitted.cell
  · simp only [cancelInactive, onState_state, onState_heap, here]
    exact emitted.cells

end Stops

section Close

theorem closeActive_touches (found : w.state.groups.lookup key = some group)
    (canceling : key ∈ w.state.cancelingSet) :
    w.Touches (w.closeActive key) key group.leaderInner.taskId
      { w.state.keyState key with active := (w.state.active.lookup key).map fun _ => ⟨true⟩ }
      ((w.heap group.leaderInner.taskId).log (.stopAccepted .close)) := by
  simp only [closeActive, canceling, if_true, found]
  exact (interrupt_touches key _).onCell _

theorem closeInactive_touches (found : w.state.groups.lookup key = some group) :
    w.Logs (w.closeInactive key) key group.leaderInner (· = .paused) (w.state.keyState key)
      ((w.heap group.leaderInner.taskId).log (.stopAccepted .close)) := by
  simp only [closeInactive, found]
  exact ((Touches.refl w key _).onCell (·.log (.stopAccepted .close))).emitCurrent group key .paused

end Close

section Registration

theorem rejectDuplicate_touches (key : UniqueId) (group : GroupState)
    (callbacks : TaskCallbacks) :
    w.Logs (w.rejectDuplicate group callbacks) key group.leaderInner
      (fun status => status ≠ .complete ∧ status ≠ .canceled) (w.state.keyState key) (w.heap group.leaderInner.taskId) := by
  obtain ⟨event, recorded, after⟩ := (Touches.refl w key group.leaderInner.taskId).submit
    callbacks.progressCb (record group.leaderInner (.failed (.fromCode1 .duplicateTaskError)) 0
      group.leaderInner.totalSize) rfl
  refine ⟨event, fun e member => ?_, after⟩
  obtain ⟨sinks, rfl⟩ := recorded e member
  exact ⟨_, sinks, rfl, rfl, by simp [record]⟩

variable {inner : InnerTask} (callbacks : TaskCallbacks)

/-- What is known about the key of a task that was just registered. -/
def registered (inner : InnerTask) (callbacks : TaskCallbacks) (paused : Bool) : KeyState :=
  { group := some (GroupState.new inner callbacks)
    active := none
    paused := paused
    canceling := false }

variable (absent : w.state.keyState inner.dedupeKey = .absent)
include absent

theorem registerPending_touches (idle : inner.dedupeKey ∉ w.state.active) :
    w.Logs (w.registerPending inner callbacks) inner.dedupeKey inner (· = .pending)
      (registered inner callbacks false) (w.heap inner.taskId) := by
  have new : w.Touches (w.onState (·.register inner callbacks)) inner.dedupeKey inner.taskId
      (registered inner callbacks false) (w.heap inner.taskId) := by
    refine (Touches.refl w _ _).onState _ ?_ fun k other => ?_
    · simp [absent, KeyState.absent, registered]
    · simp [other]
  simp only [registerPending, idle, if_false]
  exact Touches.emitCurrent (GroupState.new inner callbacks) new inner.dedupeKey .pending

theorem enqueueNew_touches (idle : inner.dedupeKey ∉ w.state.active) :
    w.Logs (w.enqueueNew inner callbacks) inner.dedupeKey inner (· = .pending)
      (registered inner callbacks false) (w.heap inner.taskId) := by
  obtain ⟨event, pending, new⟩ := registerPending_touches callbacks absent idle
  refine ⟨event, pending, ?_⟩
  simp only [enqueueNew, pushIfIdle]
  split
  · exact new.onState _ new.here fun k other => rfl
  · exact new

theorem enqueuePausedNew_touches :
    w.Logs (w.enqueuePausedNew inner callbacks) inner.dedupeKey inner (· = .paused)
      (registered inner callbacks true) (w.heap inner.taskId) := by
  have new : w.Touches
      (w.onState fun s => (s.register inner callbacks).pause inner.dedupeKey) inner.dedupeKey
      inner.taskId (registered inner callbacks true) (w.heap inner.taskId) := by
    refine (Touches.refl w _ _).onState _ ?_ fun k other => ?_
    · simp [absent, KeyState.absent, registered]
    · simp [other]
  exact Touches.emitCurrent (GroupState.new inner callbacks) new inner.dedupeKey .paused

end Registration

section Start

theorem startGroup_touches (key : UniqueId) (group : GroupState) :
    ∃ event : Option TaskEvent,
      (∀ e ∈ event, e.IsRecord group.leaderInner fun status => status = .transmission) ∧
      w.Touches (w.startGroup key group).1 key group.leaderInner.taskId
        { w.state.keyState key with active := some ⟨false⟩ }
        (((w.heap group.leaderInner.taskId).logSome event).log .started) := by
  have announced : w.Logs
      (if key.1 = .download ∧ w.state.effectiveTotal key group.entry.inner = 0 then w
      else w.emitStatus group.entry .transmission (w.state.currentOffset key)
        (w.state.effectiveTotal key group.entry.inner))
      key group.leaderInner (· = .transmission) (w.state.keyState key)
      (w.heap group.leaderInner.taskId) := by
    split
    · exact ⟨none, by simp, Touches.refl w key _⟩
    · exact (Touches.refl w key _).emitStatus group .transmission _ _
  obtain ⟨event, plain, touched⟩ := announced
  refine ⟨event, plain, (touched.onState _ ?_ fun k other => ?_).onCell _⟩
  · simp [touched.here]
  · simp [other]

end Start

section Events

theorem handleProgress_touches (found : w.state.groups.lookup key = some group)
    (nextOffset totalSize : Nat) :
    w.Logs (w.handleProgress key nextOffset totalSize) key group.leaderInner (· = .transmission)
      (w.state.keyState key) (w.heap group.leaderInner.taskId) := by
  have recorded := (Touches.refl w key group.leaderInner.taskId).onState
    (·.recordProgress key nextOffset totalSize) rfl fun k other => rfl
  simp only [handleProgress, found]
  split
  · exact ⟨none, by simp, recorded⟩
  · exact recorded.emitStatus group .transmission _ _

theorem endGroup_heap {last : World → GroupState → World}
    (found : w.state.groups.lookup key = some group) :
    (w.endGroup key last).heap = (last (w.onState (·.unregister key group)) group).heap := by
  simp only [endGroup, found, onState_heap]

theorem Touches.finish {base : World} (touched : base.Touches v key id state cell)
    (unchanged : base.heap = w.heap) (heap : u.heap = v.heap)
    (finished : u.state = w.state.finish key group) : w.Touches u key id .absent cell := by
  refine ⟨?_, fun k other => ?_, ?_, fun i other => ?_⟩
  · rw [finished]
    simp [KeyState.absent]
  · rw [finished]
    simp [other]
  · rw [heap]
    exact touched.cell
  · rw [heap, touched.cells i other, unchanged]

theorem Touches.invokeCompleteCb (touched : w.Touches v key id state cell) (callback : Nat)
    (payload : Option String) :
    ∃ event : Option TaskEvent,
      (∀ e ∈ event, ∃ id payload, e = .completeCallback id payload) ∧
      w.Touches (v.invokeCompleteCb callback id payload) key id state (cell.logSome event) := by
  simp only [World.invokeCompleteCb]
  split
  · refine ⟨some (.completeCallback callback payload), ?_, touched.onCell _⟩
    rintro e ⟨⟩
    exact ⟨_, _, rfl⟩
  · exact ⟨none, by simp, touched⟩

theorem Touches.emitComplete (group : GroupState)
    (touched : w.Touches v key group.leaderInner.taskId state cell) (filed : UniqueId)
    (totalSize : Nat) (payload : Option String) :
    ∃ event callback : Option TaskEvent,
      (∀ e ∈ event, e.IsRecord group.leaderInner fun status => status = .complete) ∧
      (∀ e ∈ callback, ∃ id payload, e = .completeCallback id payload) ∧
      w.Touches (v.emitComplete filed totalSize payload group) key group.leaderInner.taskId state
        ((cell.logSome event).logSome callback) := by
  obtain ⟨event, complete, emitted⟩ := touched.emitStatus group .complete
    (max totalSize (v.state.effectiveTotal filed group.entry.inner))
    (max totalSize (v.state.effectiveTotal filed group.entry.inner))
  simp only [World.emitComplete]
  split
  · exact ⟨event, none, complete, by simp, emitted⟩
  rename_i callback _
  rw [group.entry_inner] at emitted ⊢
  obtain ⟨call, calls, called⟩ := emitted.invokeCompleteCb callback payload
  exact ⟨event, call, complete, calls, called⟩

variable (inv : w.state.Inv issued limit) (running : key ∈ w.state.active)
  (found : w.state.groups.lookup key = some group)

include inv running found

theorem handleCompleted_touches (totalSize : Nat) (payload : Option String) :
    ∃ event callback : Option TaskEvent,
      (∀ e ∈ event, e.IsRecord group.leaderInner fun status => status = .complete) ∧
      (∀ e ∈ callback, ∃ id payload, e = .completeCallback id payload) ∧
      w.Touches (w.handleCompleted key totalSize payload) key group.leaderInner.taskId .absent
        (((w.heap group.leaderInner.taskId).logSome event).logSome callback) := by
  have there : (((w.releaseWorker key).unpause key).onState fun s =>
      { s with offsets := s.offsets.insert key totalSize }).state.groups.lookup key =
      some group := found
  obtain ⟨event, callback, complete, calls, emitted⟩ := (Touches.refl
    ((((w.releaseWorker key).unpause key).onState fun s =>
      { s with offsets := s.offsets.insert key totalSize }).onState (·.unregister key group)) key
    group.leaderInner.taskId).emitComplete group key totalSize payload
  exact ⟨event, callback, complete, calls, emitted.finish rfl (endGroup_heap there)
    (handleCompleted_state inv running found totalSize payload)⟩

theorem handleFailed_touches (error : MeowError) (totalSize : Nat) :
    w.Logs (w.handleFailed key error totalSize) key group.leaderInner (· = .failed error) .absent
      (w.heap group.leaderInner.taskId) := by
  have there : ((w.releaseWorker key).unpause key).state.groups.lookup key = some group := found
  obtain ⟨event, failed, emitted⟩ := (Touches.refl
    (((w.releaseWorker key).unpause key).onState (·.unregister key group)) key
    group.leaderInner.taskId).emitLast group key totalSize (.failed error)
  exact ⟨event, failed, emitted.finish rfl (endGroup_heap there)
    (handleFailed_state inv running found error totalSize)⟩

omit running in
theorem handleCanceled_paused_touches (totalSize : Nat) (paused : key ∈ w.state.pausedSet) :
    w.Logs (w.handleCanceled key totalSize) key group.leaderInner (· = .paused)
      { w.state.keyState key with active := none, canceling := false }
      ((w.heap group.leaderInner.taskId).setTerminal
        (w.heap group.leaderInner.taskId).life.terminal.resetPause) := by
  have calm : key ∉ w.state.cancelingSet :=
    fun canceling => (inv.keys key).canceling_unpaused canceling paused
  have kept : (w.releaseWorker key).state.pausedSet = w.state.pausedSet := rfl
  have there : (w.releaseWorker key).state.groups.lookup key = some group := found
  have released : w.Touches (w.releaseWorker key) key group.leaderInner.taskId
      { w.state.keyState key with active := none, canceling := false }
      (w.heap group.leaderInner.taskId) := by
    refine (Touches.refl w key _).onState _ ?_ fun k other => ?_
    · rw [SchedulerState.keyState_release, if_pos rfl]
    · rw [SchedulerState.keyState_release, if_neg other]
  simp only [handleCanceled, kept, paused, calm, not_false_eq_true, and_self, if_true, there]
  exact (released.onCell fun cell => cell.setTerminal cell.life.terminal.resetPause).emitLast
    group key totalSize .paused

theorem handleCanceled_ended_touches (totalSize : Nat) (unpaused : key ∉ w.state.pausedSet) :
    w.Logs (w.handleCanceled key totalSize) key group.leaderInner (· = .canceled) .absent
      (w.heap group.leaderInner.taskId) := by
  have finished := handleCanceled_state inv running found totalSize
  have there : ((w.releaseWorker key).unpause key).state.groups.lookup key = some group := found
  have kept : (w.releaseWorker key).state.pausedSet = w.state.pausedSet := rfl
  obtain ⟨event, canceled, emitted⟩ := (Touches.refl
    (((w.releaseWorker key).unpause key).onState (·.unregister key group)) key
    group.leaderInner.taskId).emitLast group key totalSize .canceled
  rw [if_neg unpaused] at finished
  refine ⟨event, canceled, emitted.finish rfl ?_ finished⟩
  simp only [handleCanceled, kept, unpaused, false_and, if_false]
  exact endGroup_heap there

omit inv running in
theorem quiescentAbort_touches (filed : group.leaderInner.dedupeKey = key) :
    w.Touches (w.quiescentAbort key) key group.leaderInner.taskId (w.state.keyState key)
      (if key ∈ w.state.cancelingSet then
        (w.heap group.leaderInner.taskId).executorCancel group.leaderInner.direction
      else w.heap group.leaderInner.taskId) := by
  have direction : key.1 = group.leaderInner.direction := by
    rw [← filed, InnerTask.dedupeKey_fst]
  by_cases canceling : key ∈ w.state.cancelingSet
  · by_cases upload : key.1 = .upload
    · simp only [quiescentAbort, upload, canceling, and_self, if_true, found]
      exact (Touches.refl w key _).onCell _
    · have download : group.leaderInner.direction = .download := by
        rw [direction] at upload
        cases way : group.leaderInner.direction with
        | upload => exact absurd way upload
        | download => rfl
      simp only [quiescentAbort, upload, false_and, if_false, canceling, if_true, download]
      exact Touches.refl w key _
  · simp only [quiescentAbort, canceling, and_false, if_false]
    exact Touches.refl w key _

end Events

end World

end RustyCat
