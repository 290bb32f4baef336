import RustyCat.System.Touch

/-!
# Milestones of a task

The records of a task other than `Transmission`, and the worker runs it was given.
`World.Adds` says which milestones a handler adds to one task; it adds none to the
others and starts no worker.
-/

namespace RustyCat

/-- The status of a record that is not a `Transmission`. -/
def TaskEvent.milestone? : TaskEvent → Option TransferStatus
  | record r _ => if r.status = .transmission then none else some r.status
  | _ => none

namespace TaskCell

/-- The statuses of the records other than `Transmission`, oldest first. -/
def milestones (cell : TaskCell) : List TransferStatus :=
  cell.history.filterMap TaskEvent.milestone?

def starts (cell : TaskCell) : Nat :=
  cell.history.countP (· = .started)

theorem milestones_log (cell : TaskCell) (event : TaskEvent) :
    (cell.log event).milestones = cell.milestones ++ event.milestone?.toList := by
  rw [milestones, log_history, List.filterMap_append, ← milestones]
  congr 1

theorem starts_log (cell : TaskCell) (event : TaskEvent) (other : event ≠ .started) :
    (cell.log event).starts = cell.starts := by
  simp [starts, List.countP_append, other]

/-- The cell gets no milestone and no worker. -/
def Plain (old new : TaskCell) : Prop :=
  new.milestones = old.milestones ∧ new.starts = old.starts

namespace Plain

variable {first second third : TaskCell}

theorem of_history (same : second.history = first.history) : Plain first second := by
  simp only [Plain, milestones, starts, same, and_self]

theorem trans (one : Plain first second) (two : Plain second third) : Plain first third :=
  ⟨two.1.trans one.1, two.2.trans one.2⟩

theorem log {event : TaskEvent} (none : event.milestone? = none) (other : event ≠ .started) :
    Plain first (first.log event) :=
  ⟨by simp [milestones_log, none], starts_log first event other⟩

theorem acceptStop (cell : TaskCell) (kind : StopKind) : Plain cell (cell.acceptStop kind) :=
  (of_history rfl).trans (log rfl nofun)

theorem executorCancel (cell : TaskCell) (direction : Direction) :
    Plain cell (cell.executorCancel direction) := by
  cases direction with
  | download => exact of_history rfl
  | upload =>
    cases started : cell.life.abortStarted with
    | true =>
      simp only [TaskCell.executorCancel, TransferLifecycle.beginAbort, started]
      exact of_history rfl
    | false =>
      simp only [TaskCell.executorCancel, TransferLifecycle.beginAbort, started]
      exact (of_history rfl).trans (@log { cell with life := _ } .abortUpload rfl nofun)

end Plain

end TaskCell

namespace World

variable {w v u : World} {id : TaskId} {old new : List TransferStatus}

/-- From `w` to `v` the task gets the milestones `new` and the others none; no worker is
started. -/
structure Adds (w v : World) (id : TaskId) (new : List TransferStatus) : Prop where
  here : (v.heap id).milestones = (w.heap id).milestones ++ new
  others : ∀ other, other ≠ id → (v.heap other).milestones = (w.heap other).milestones
  starts : ∀ other, (v.heap other).starts = (w.heap other).starts

theorem Adds.of_heap (same : v.heap = w.heap) (id : TaskId) : Adds w v id [] := by
  refine ⟨?_, fun other _ => ?_, fun other => ?_⟩ <;> rw [same]
  rw [List.append_nil]

theorem Adds.trans (first : Adds w v id old) (second : Adds v u id new) :
    Adds w u id (old ++ new) where
  here := by rw [second.here, first.here, List.append_assoc]
  others := fun other different => (second.others other different).trans
    (first.others other different)
  starts := fun other => (second.starts other).trans (first.starts other)

theorem Adds.start (adds : Adds v u id new) (same : v.heap = w.heap) : Adds w u id new := by
  refine ⟨?_, fun other different => ?_, fun other => ?_⟩
  · rw [adds.here, same]
  · rw [adds.others other different, same]
  · rw [adds.starts other, same]

theorem Adds.onState (adds : Adds w v id new) (f : SchedulerState → SchedulerState) :
    Adds w (v.onState f) id new :=
  ⟨adds.here, adds.others, adds.starts⟩

theorem Adds.of_cell {f : TaskCell → TaskCell}
    (milestones : (f (w.heap id)).milestones = (w.heap id).milestones ++ new)
    (starts : (f (w.heap id)).starts = (w.heap id).starts) : Adds w (w.onCell id f) id new := by
  refine ⟨?_, fun other different => ?_, fun other => ?_⟩
  · rw [onCell_heap, Heap.modify_self]
    exact milestones
  · rw [onCell_heap, Heap.modify_of_ne _ _ different]
  · by_cases same : other = id
    · rw [same, onCell_heap, Heap.modify_self]
      exact starts
    · rw [onCell_heap, Heap.modify_of_ne _ _ same]

theorem Adds.plain {f : TaskCell → TaskCell} (plain : ∀ cell, TaskCell.Plain cell (f cell)) :
    Adds w (w.onCell id f) id [] :=
  .of_cell (by rw [(plain _).1, List.append_nil]) (plain _).2

theorem Adds.submit (held : w.state.cbSubmit = true) (progressCb : Option Nat)
    (dto : FileTransferRecord) :
    Adds w (w.submit progressCb dto) dto.taskId
      (if dto.status = .transmission then [] else [dto.status]) := by
  rw [World.submit, if_pos held]
  refine .of_cell ?_ (TaskCell.starts_log _ _ (by simp))
  rw [TaskCell.milestones_log]
  simp only [TaskEvent.milestone?]
  split <;> rfl

theorem Adds.emitStatus (held : w.state.cbSubmit = true) (group : GroupState)
    (status : TransferStatus) (transferred total : Nat) :
    Adds w (w.emitStatus group.entry status transferred total) group.leaderInner.taskId
      (if status = .transmission then [] else [status]) := by
  rw [← group.entry_inner]
  exact Adds.submit held _ (record group.entry.inner status transferred total)

theorem Adds.invokeCompleteCb (w : World) (callback : Nat) (id : TaskId)
    (payload : Option String) : Adds w (w.invokeCompleteCb callback id payload) id [] := by
  rw [World.invokeCompleteCb]
  split
  · exact .plain fun cell => .log rfl (by simp)
  · exact .of_heap rfl id

/-! ## Handlers -/

variable {key : UniqueId} {group : GroupState}

section Close

variable (found : w.state.groups.lookup key = some group)

include found

theorem closeActive_adds : Adds w (w.closeActive key) group.leaderInner.taskId [] := by
  simp only [closeActive, claimStop, found]
  split
  · refine Adds.start (v := w.onState (·.interrupt key)) (.plain fun cell => ?_) rfl
    exact .log rfl (by simp)
  · have claimed : Adds w (w.onCell group.leaderInner.taskId (·.acceptStop .close))
        group.leaderInner.taskId [] := .plain fun cell => .acceptStop cell .close
    simp only [interruptIf]
    split
    · exact (claimed.onState (·.pause key)).onState (·.interrupt key)
    · exact claimed.onState (·.pause key)

theorem closeInactive_adds (held : w.state.cbSubmit = true) :
    Adds w (w.closeInactive key) group.leaderInner.taskId [.paused] := by
  simp only [closeInactive, found]
  have logged : Adds w (w.onCell group.leaderInner.taskId (·.log (.stopAccepted .close)))
      group.leaderInner.taskId [] := .plain fun cell => .log rfl (by simp)
  refine logged.trans (Adds.emitStatus ?_ group .paused _ _)
  exact held

end Close

section Events

variable (held : w.state.cbSubmit = true) (found : w.state.groups.lookup key = some group)

include found

theorem quiescentAbort_adds : Adds w (w.quiescentAbort key) group.leaderInner.taskId [] := by
  simp only [quiescentAbort, found]
  split
  · exact .plain fun cell => .executorCancel cell _
  · exact .of_heap rfl _

include held

theorem handleProgress_adds (nextOffset totalSize : Nat) :
    Adds w (w.handleProgress key nextOffset totalSize) group.leaderInner.taskId [] := by
  simp only [handleProgress, found]
  split
  · exact Adds.onState (.of_heap rfl _) _
  · refine Adds.start (v := w.onState (·.recordProgress key nextOffset totalSize)) ?_ rfl
    exact Adds.emitStatus (by exact held) group .transmission _ _

theorem endGroup_adds {last : World → GroupState → World} {status : TransferStatus}
    (emits : ∀ w : World, w.state.cbSubmit = true →
      Adds w (last w group) group.leaderInner.taskId [status]) :
    Adds w (w.endGroup key last) group.leaderInner.taskId [status] := by
  simp only [endGroup, found]
  have emitted := emits (w.onState (·.unregister key group)) held
  have same : (w.onState (·.unregister key group)).heap = w.heap := rfl
  exact (emitted.start same).onState (·.forgetProgress key)

theorem handleCompleted_adds (totalSize : Nat) (payload : Option String) :
    Adds w (w.handleCompleted key totalSize payload) group.leaderInner.taskId [.complete] := by
  rw [handleCompleted]
  refine Adds.start (endGroup_adds (by exact held) (by exact found) fun w held => ?_) rfl
  have emitted := Adds.emitStatus held group .complete
    (max totalSize (w.state.effectiveTotal key group.entry.inner))
    (max totalSize (w.state.effectiveTotal key group.entry.inner))
  simp only [emitComplete]
  split
  · exact emitted
  · rw [group.entry_inner] at emitted ⊢
    exact emitted.trans (Adds.invokeCompleteCb ..)

theorem handleFailed_adds (error : MeowError) (totalSize : Nat) :
    Adds w (w.handleFailed key error totalSize) group.leaderInner.taskId [.failed error] := by
  refine Adds.start (endGroup_adds (by exact held) (by exact found) fun w held => ?_) rfl
  exact Adds.emitStatus held group (.failed error) _ _

theorem handleCanceled_adds (totalSize : Nat) :
    Adds w (w.handleCanceled key totalSize) group.leaderInner.taskId
      [if key ∈ w.state.pausedSet ∧ key ∉ w.state.cancelingSet then .paused else .canceled] := by
  have there : (w.releaseWorker key).state.groups.lookup key = some group := found
  have kept : (w.releaseWorker key).state.pausedSet = w.state.pausedSet := rfl
  simp only [handleCanceled, kept]
  split
  · simp only [there]
    have reset : Adds (w.releaseWorker key) ((w.releaseWorker key).onCell
        group.leaderInner.taskId fun cell => cell.setTerminal cell.life.terminal.resetPause)
        group.leaderInner.taskId [] := .plain fun cell => .of_history rfl
    exact (reset.trans (Adds.emitStatus (by exact held) group .paused _ _)).start rfl
  · refine Adds.start (endGroup_adds (by exact held) (by exact found) fun w held => ?_) rfl
    exact Adds.emitStatus held group .canceled _ _

end Events

/-- The milestone of a terminal event, of a key that is being canceled or not. -/
def lastMilestone (canceling : Bool) : WorkerEvent → List TransferStatus
  | .progress _ _ _ => []
  | .completed _ _ _ => [.complete]
  | .failed _ error _ => [.failed error]
  | .canceled _ _ => [if canceling then .canceled else .paused]

theorem handleQuiescentWorkerEvent_adds {event : WorkerEvent} (held : w.state.cbSubmit = true)
    (found : w.state.groups.lookup event.key = some group)
    (stopping : event.key ∉ w.state.cancelingSet → event.key ∈ w.state.pausedSet) :
    Adds w (w.handleQuiescentWorkerEvent event) group.leaderInner.taskId
      (lastMilestone (event.key ∈ w.state.cancelingSet) event) := by
  cases event with
  | progress key nextOffset totalSize => exact handleProgress_adds held found _ _
  | completed key totalSize payload => exact handleCompleted_adds held found _ _
  | failed key error totalSize =>
    refine (quiescentAbort_adds found).trans (handleFailed_adds ?_ ?_ error totalSize)
    · rw [quiescentAbort_state]
      exact held
    · rw [quiescentAbort_state]
      exact found
  | canceled key totalSize =>
    have settled := quiescentAbort_state w key
    have there : (w.quiescentAbort key).state.groups.lookup key = some group := by
      rw [settled]
      exact found
    have canceled := handleCanceled_adds (by rw [settled]; exact held) there totalSize
    have same : [if key ∈ w.state.pausedSet ∧ key ∉ w.state.cancelingSet then
        TransferStatus.paused else .canceled] =
        lastMilestone (key ∈ w.state.cancelingSet) (.canceled key totalSize) := by
      by_cases canceling : key ∈ w.state.cancelingSet
      · simp [lastMilestone, canceling]
      · simp [lastMilestone, canceling, show key ∈ w.state.pausedSet from stopping canceling]
    rw [settled, same] at canceled
    exact (quiescentAbort_adds found).trans canceled

end World

end RustyCat
