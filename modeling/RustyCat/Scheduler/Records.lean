import RustyCat.Scheduler.Bookkeeping

/-!
# Records of a task

Which records a task id sees.  A record is appended to the history of the task it
names; the handlers emit records of registered tasks, and a terminal record only
after the group was removed.  The exception is the record that rejects a
duplicate: it names the leader of the group that is still registered.
-/

namespace RustyCat

namespace TaskEvent

def isRecord : TaskEvent → Bool
  | record _ _ => true
  | _ => false

def isTerminalRecord : TaskEvent → Bool
  | record r _ => r.status.isTerminal
  | _ => false

theorem isRecord_of_isTerminalRecord {event : TaskEvent} (terminal : event.isTerminalRecord = true) :
    event.isRecord = true := by
  cases event with
  | record _ _ => rfl
  | _ => cases terminal

end TaskEvent

/-- No record is emitted after a terminal record; so at most one is terminal. -/
def OneTerminal (history : List TaskEvent) : Prop :=
  history.Pairwise fun earlier later => earlier.isTerminalRecord = true → later.isRecord = false

instance (history : List TaskEvent) : Decidable (OneTerminal history) :=
  inferInstanceAs (Decidable (List.Pairwise _ history))

def TaskCell.Terminated (cell : TaskCell) : Prop :=
  ∃ e ∈ cell.history, e.isTerminalRecord = true

theorem TaskCell.log_terminated (cell : TaskCell) (event : TaskEvent) :
    (cell.log event).Terminated ↔ cell.Terminated ∨ event.isTerminalRecord = true := by
  simp only [TaskCell.Terminated, TaskCell.log_history, List.mem_append, List.mem_singleton]
  constructor
  · rintro ⟨e, old | rfl, terminal⟩
    · exact Or.inl ⟨e, old, terminal⟩
    · exact Or.inr terminal
  · rintro (⟨e, old, terminal⟩ | terminal)
    · exact ⟨e, Or.inl old, terminal⟩
    · exact ⟨event, Or.inr rfl, terminal⟩

theorem TaskCell.log_oneTerminal {cell : TaskCell} {event : TaskEvent}
    (ok : OneTerminal cell.history) (open_ : event.isRecord = true → ¬ cell.Terminated) :
    OneTerminal (cell.log event).history := by
  rw [TaskCell.log_history, OneTerminal, List.pairwise_append]
  refine ⟨ok, List.pairwise_singleton _ _, ?_⟩
  intro earlier member later last terminal
  rw [List.mem_singleton.mp last, ← Bool.not_eq_true]
  exact fun isRecord => open_ isRecord ⟨earlier, member, terminal⟩

/-- The cell moved on without a record. -/
def TaskCell.Quiet (old new : TaskCell) : Prop :=
  ∃ events, new.history = old.history ++ events ∧ ∀ e ∈ events, e.isRecord = false

namespace TaskCell.Quiet

variable {first second third : TaskCell}

theorem of_history (same : second.history = first.history) : Quiet first second :=
  ⟨[], by rw [same, List.append_nil], by simp⟩

theorem log {event : TaskEvent} (plain : event.isRecord = false) :
    Quiet first (first.log event) :=
  ⟨[event], rfl, by simpa using plain⟩

theorem trans (one : Quiet first second) (two : Quiet second third) : Quiet first third := by
  obtain ⟨front, front_eq, front_plain⟩ := one
  obtain ⟨back, back_eq, back_plain⟩ := two
  refine ⟨front ++ back, by rw [back_eq, front_eq, List.append_assoc], ?_⟩
  intro e member
  rcases List.mem_append.mp member with here | here
  · exact front_plain e here
  · exact back_plain e here

theorem acceptStop (cell : TaskCell) (kind : StopKind) : Quiet cell (cell.acceptStop kind) :=
  (of_history rfl).trans (log rfl)

theorem executorCancel (cell : TaskCell) (direction : Direction) :
    Quiet cell (cell.executorCancel direction) := by
  cases direction with
  | download => exact of_history rfl
  | upload =>
    cases started : cell.life.abortStarted with
    | true =>
      simp only [TaskCell.executorCancel, TransferLifecycle.beginAbort, started]
      exact of_history rfl
    | false =>
      simp only [TaskCell.executorCancel, TransferLifecycle.beginAbort, started]
      exact ⟨[.abortUpload], rfl, by simp [TaskEvent.isRecord]⟩

theorem terminated (quiet : Quiet first second) (now : second.Terminated) : first.Terminated := by
  obtain ⟨events, history, plain⟩ := quiet
  obtain ⟨e, member, terminal⟩ := now
  rw [history] at member
  rcases List.mem_append.mp member with old | new
  · exact ⟨e, old, terminal⟩
  · have isRecord := TaskEvent.isRecord_of_isTerminalRecord terminal
    rw [plain e new] at isRecord
    cases isRecord

theorem oneTerminal (quiet : Quiet first second) (ordered : OneTerminal first.history) :
    OneTerminal second.history := by
  obtain ⟨events, history, plain⟩ := quiet
  rw [history, OneTerminal, List.pairwise_append]
  refine ⟨ordered, ?_, ?_⟩
  · exact List.pairwise_of_forall_mem_list fun _ _ later member _ => plain later member
  · intro _ _ later member _
    exact plain later member

end TaskCell.Quiet

/-- Records are in order, registered tasks have no terminal record, and only
issued ids have one. -/
structure RecordsOk (issued : Finset TaskId) (w : World) : Prop where
  ordered : ∀ id, OneTerminal (w.heap id).history
  live : ∀ k g, w.state.groups.lookup k = some g → ¬ (w.heap g.leaderInner.taskId).Terminated
  issued : ∀ id, (w.heap id).Terminated → id ∈ issued

namespace RecordsOk

variable {issued : Finset TaskId} {w : World} {id : TaskId}

variable (ok : RecordsOk issued w)
include ok

theorem onState (f : SchedulerState → SchedulerState)
    (shrinks : ∀ k g, (f w.state).groups.lookup k = some g → w.state.groups.lookup k = some g) :
    RecordsOk issued (w.onState f) where
  ordered := ok.ordered
  live := fun k g found => ok.live k g (shrinks k g found)
  issued := ok.issued

theorem onCell (f : TaskCell → TaskCell)
    (quiet : TaskCell.Quiet (w.heap id) (f (w.heap id))) : RecordsOk issued (w.onCell id f) := by
  have all : ∀ other, TaskCell.Quiet (w.heap other) ((w.onCell id f).heap other) := by
    intro other
    by_cases same : other = id
    · subst same
      rw [World.onCell_heap, Heap.modify_self]
      exact quiet
    · rw [World.onCell_heap, Heap.modify_of_ne _ _ same]
      exact .of_history rfl
  refine ⟨?_, ?_, ?_⟩
  · intro other
    exact (all other).oneTerminal (ok.ordered other)
  · intro k g found terminated
    exact ok.live k g found ((all _).terminated terminated)
  · intro other terminated
    exact ok.issued other ((all other).terminated terminated)

theorem log {event : TaskEvent} (plain : event.isRecord = false) :
    RecordsOk issued (w.onCell id fun cell => cell.log event) :=
  ok.onCell _ (.log plain)

theorem submit (progressCb : Option Nat) {dto : FileTransferRecord}
    (open_ : ¬ (w.heap dto.taskId).Terminated)
    (last : dto.status.isTerminal = true → dto.taskId ∈ issued ∧
      ∀ k g, w.state.groups.lookup k = some g → g.leaderInner.taskId ≠ dto.taskId) :
    RecordsOk issued (w.submit progressCb dto) := by
  simp only [World.submit]
  split
  · have terminated : ∀ other, ((w.onCell dto.taskId fun cell =>
        cell.log (.record dto (World.sinks w.state progressCb))).heap other).Terminated →
        (w.heap other).Terminated ∨ other = dto.taskId ∧ dto.status.isTerminal = true := by
      intro other
      by_cases same : other = dto.taskId
      · subst same
        rw [World.onCell_heap, Heap.modify_self, TaskCell.log_terminated]
        exact Or.imp_right fun terminal => ⟨rfl, terminal⟩
      · rw [World.onCell_heap, Heap.modify_of_ne _ _ same]
        exact Or.inl
    refine ⟨?_, ?_, ?_⟩
    · intro other
      by_cases same : other = dto.taskId
      · subst same
        rw [World.onCell_heap, Heap.modify_self]
        exact TaskCell.log_oneTerminal (ok.ordered _) fun _ => open_
      · rw [World.onCell_heap, Heap.modify_of_ne _ _ same]
        exact ok.ordered other
    · intro k g found now
      rcases terminated _ now with old | ⟨same, terminal⟩
      · exact ok.live k g found old
      · exact (last terminal).2 k g found same
    · intro other now
      rcases terminated other now with old | ⟨rfl, terminal⟩
      · exact ok.issued other old
      · exact (last terminal).1
  · exact ok

theorem emitStatus {key : UniqueId} {group : GroupState}
    (found : w.state.groups.lookup key = some group) {status : TransferStatus}
    (running : status.isTerminal = false) (transferred total : Nat) :
    RecordsOk issued (w.emitStatus group.entry status transferred total) := by
  apply ok.submit
  · simp only [World.record, group.entry_inner]
    exact ok.live key group found
  · intro terminal
    simp only [World.record] at terminal
    rw [running] at terminal
    cases terminal

theorem emitStatus_removed {group : GroupState}
    (open_ : ¬ (w.heap group.leaderInner.taskId).Terminated)
    (known : group.leaderInner.taskId ∈ issued) (gone : ∀ k g, w.state.groups.lookup k = some g →
      g.leaderInner.taskId ≠ group.leaderInner.taskId) (status : TransferStatus)
    (transferred total : Nat) :
    RecordsOk issued (w.emitStatus group.entry status transferred total) := by
  apply ok.submit
  · simp only [World.record, group.entry_inner]
    exact open_
  · intro _
    simp only [World.record, group.entry_inner]
    exact ⟨known, gone⟩

theorem invokeCompleteCb (callback : Nat) (id : TaskId)
    (payload : Option String) : RecordsOk issued (w.invokeCompleteCb callback id payload) := by
  simp only [World.invokeCompleteCb]
  split
  · exact ok.log rfl
  · exact ok

end RecordsOk

namespace World

variable {issued : Finset TaskId} {limit : Direction → Nat} {w : World} {key : UniqueId}
  {group : GroupState}

theorem startGroup_records (ok : RecordsOk issued w)
    (found : w.state.groups.lookup key = some group) :
    RecordsOk issued (w.startGroup key group).1 := by
  have announced : RecordsOk issued
      (if key.1 = .download ∧ w.state.effectiveTotal key group.entry.inner = 0 then w
        else w.emitStatus group.entry .transmission (w.state.currentOffset key)
          (w.state.effectiveTotal key group.entry.inner)) := by
    split
    · exact ok
    · exact ok.emitStatus found rfl _ _
  exact (announced.onState (·.insertActive key { cancelled := false })
    fun _ _ there => there).log rfl

theorem startHead_records (ok : RecordsOk issued w) : RecordsOk issued w.startHead.1 := by
  cases queue : w.state.queued with
  | nil =>
    simp only [startHead, queue]
    exact ok
  | cons key rest =>
    have popped : RecordsOk issued (w.onState (·.popQueued key rest)) :=
      ok.onState _ fun _ _ there => there
    have requeued : RecordsOk issued
        ((w.onState (·.popQueued key rest)).onState (·.pushQueued key)) :=
      popped.onState _ fun _ _ there => there
    simp only [startHead, queue]
    split
    · exact requeued
    split
    · exact requeued
    split
    · exact popped
    rename_i group found
    split
    · exact startGroup_records popped found
    · exact requeued

theorem startRound_records (n : Nat) (ok : RecordsOk issued w) :
    RecordsOk issued (startRound n w).1 := by
  induction n generalizing w with
  | zero => exact ok
  | succ n ih => exact ih (startHead_records ok)

theorem startLoop_records (fuel : Nat) (ok : RecordsOk issued w) :
    RecordsOk issued (startLoop fuel w).1 := by
  induction fuel generalizing w with
  | zero => exact ok
  | succ fuel ih =>
    have round := startRound_records w.state.queued.length ok
    rw [startLoop_succ]
    split
    · exact ok
    split
    · exact round
    · exact ih round

theorem tryStartNext_records (ok : RecordsOk issued w) : RecordsOk issued w.tryStartNext.1 :=
  startLoop_records _ ok

variable {inner : InnerTask}

theorem register_records (ok : RecordsOk issued w) (callbacks : TaskCallbacks)
    (fresh : inner.taskId ∉ issued) :
    RecordsOk (insert inner.taskId issued) (w.onState (·.register inner callbacks)) where
  ordered := ok.ordered
  live := by
    intro k g found terminated
    have looked : (w.state.register inner callbacks).groups.lookup k =
        if k = inner.dedupeKey then some (GroupState.new inner callbacks)
        else w.state.groups.lookup k := HashMap.lookup_insert_ite ..
    rw [onState_state, looked] at found
    split at found
    · cases found
      exact fresh (ok.issued _ terminated)
    · exact ok.live k g found terminated
  issued := fun id terminated => Finset.mem_insert_of_mem (ok.issued id terminated)

theorem lookup_register (w : World) (inner : InnerTask) (callbacks : TaskCallbacks) :
    (w.state.register inner callbacks).groups.lookup inner.dedupeKey =
      some (GroupState.new inner callbacks) := by
  simp [SchedulerState.register]

section

variable (ok : RecordsOk issued w)
include ok

theorem pushIfIdle_records (key : UniqueId) :
    RecordsOk issued (w.pushIfIdle key) := by
  simp only [pushIfIdle]
  split
  · exact ok.onState _ fun _ _ there => there
  · exact ok

theorem enqueueNew_records (callbacks : TaskCallbacks) (fresh : inner.taskId ∉ issued) :
    RecordsOk (insert inner.taskId issued) (w.enqueueNew inner callbacks) := by
  have found := lookup_register w inner callbacks
  have registered := register_records ok callbacks fresh
  have pending : RecordsOk (insert inner.taskId issued)
      ((w.onState (·.register inner callbacks)).emitCurrent inner.dedupeKey
        (GroupState.new inner callbacks) .pending) := registered.emitStatus found rfl _ _
  have there : ((w.onState (·.register inner callbacks)).emitCurrent inner.dedupeKey
      (GroupState.new inner callbacks) .pending).state.groups.lookup inner.dedupeKey =
      some (GroupState.new inner callbacks) := by
    rw [emitCurrent_state]
    exact found
  apply pushIfIdle_records
  simp only [registerPending]
  split
  · exact pending.emitStatus there rfl _ _
  · exact pending

theorem enqueuePausedNew_records (callbacks : TaskCallbacks) (fresh : inner.taskId ∉ issued) :
    RecordsOk (insert inner.taskId issued) (w.enqueuePausedNew inner callbacks) := by
  have registered := register_records ok callbacks fresh
  have paused : RecordsOk (insert inner.taskId issued)
      (w.onState fun s => (s.register inner callbacks).pause inner.dedupeKey) :=
    registered.onState (·.pause inner.dedupeKey) fun _ _ there => there
  exact paused.emitStatus (lookup_register w inner callbacks) rfl _ _

theorem claimStop_records (key : UniqueId) (kind : StopKind) :
    RecordsOk issued (w.claimStop key kind).1 := by
  simp only [claimStop]
  split
  · exact ok
  · exact ok.onCell _ (.acceptStop _ kind)

theorem interruptIf_records (disposition : StopRequestDisposition)
    (key : UniqueId) : RecordsOk issued (w.interruptIf disposition key) := by
  simp only [interruptIf]
  split
  · exact ok.onState _ fun _ _ there => there
  · exact ok

theorem pauseMark_records (key : UniqueId) (wasActive : Bool) :
    RecordsOk issued (w.pauseMark key wasActive) := by
  have marked : RecordsOk issued (w.onState fun s => (s.dropQueued key).pause key) :=
    ok.onState _ fun _ _ there => there
  simp only [pauseMark]
  split
  · exact marked
  split
  · exact marked
  · rename_i group found
    exact (marked.log rfl).emitStatus found rfl _ _

theorem pauseGroup_records (key : UniqueId) :
    RecordsOk issued (w.pauseGroup key) := by
  simp only [pauseGroup]
  split
  · exact pauseMark_records (interruptIf_records (claimStop_records ok key .pause) _ key) key true
  · exact pauseMark_records ok key false

theorem resumeGroup_records (key : UniqueId) :
    RecordsOk issued (w.resumeGroup key).1 := by
  have unpaused : RecordsOk issued
      (w.onState fun s => { s with pausedSet := s.pausedSet.erase key }) :=
    ok.onState _ fun _ _ there => there
  simp only [resumeGroup]
  split
  · exact ok
  split
  · exact ok
  split
  · exact unpaused
  · rename_i group found
    exact pushIfIdle_records (unpaused.emitStatus found rfl _ _) key

theorem cancelMark_records (key : UniqueId) :
    RecordsOk issued (w.cancelMark key) := by
  have marked : RecordsOk issued (w.onState fun s =>
      { s.dropQueued key with
        pausedSet := s.pausedSet.erase key
        cancelingSet := insert key s.cancelingSet }) := ok.onState _ fun _ _ there => there
  simp only [cancelMark]
  split
  · exact marked
  · exact marked.onState _ fun _ _ there => there

end

theorem unregister_gone {s : SchedulerState}
    (unique : ∀ k g, s.groups.lookup k = some g →
      g.leaderInner.taskId = group.leaderInner.taskId → k = key) :
    ∀ k g, (s.unregister key group).groups.lookup k = some g →
      g.leaderInner.taskId ≠ group.leaderInner.taskId := by
  intro k g there same
  simp only [SchedulerState.unregister] at there
  rw [HashMap.lookup_erase_ite] at there
  split at there
  · cases there
  · rename_i different
    exact different (unique k g there same)

theorem unregister_shrinks (s : SchedulerState) (key : UniqueId) (group : GroupState) :
    ∀ k g, (s.unregister key group).groups.lookup k = some g → s.groups.lookup k = some g := by
  intro k g there
  simp only [SchedulerState.unregister] at there
  rw [HashMap.lookup_erase_ite] at there
  split at there
  · cases there
  · exact there

theorem cancelInactive_records (ok : RecordsOk issued w) (inv : w.state.Inv issued limit)
    (key : UniqueId) : RecordsOk issued (w.cancelInactive key) := by
  have dropped : RecordsOk issued
      (w.onState fun s => { s.dropQueued key with pausedSet := s.pausedSet.erase key }) :=
    ok.onState _ fun _ _ there => there
  simp only [cancelInactive]
  refine RecordsOk.onState ?_ _ fun _ _ there => there
  split
  · exact dropped
  rename_i group found
  have found : w.state.groups.lookup key = some group := found
  have removed := dropped.onState (·.unregister key group) (unregister_shrinks _ key group)
  have quiet := (TaskCell.Quiet.acceptStop (w.heap group.leaderInner.taskId) .cancel).trans
    (TaskCell.Quiet.executorCancel _ group.leaderInner.direction)
  have aborted := removed.onCell
    (fun cell => (cell.acceptStop .cancel).executorCancel group.leaderInner.direction) quiet
  refine RecordsOk.onState ?_ _ fun _ _ there => there
  apply aborted.emitStatus_removed
  · rw [onCell_heap, Heap.modify_self]
    exact fun terminated => ok.live key group found (quiet.terminated terminated)
  · exact inv.ids.leader_issued key group found
  · exact unregister_gone (s := (w.state.dropQueued key)) fun k g there =>
      inv.ids.leader_unique k key g group there found

theorem cancelGroup_records (ok : RecordsOk issued w) (inv : w.state.Inv issued limit)
    (key : UniqueId) : RecordsOk issued (w.cancelGroup key) := by
  simp only [cancelGroup]
  split
  · exact cancelMark_records
      (interruptIf_records (claimStop_records ok key .cancel) _ key) key
  · exact cancelInactive_records ok inv key

theorem closeActive_records (ok : RecordsOk issued w) (key : UniqueId) :
    RecordsOk issued (w.closeActive key) := by
  have interrupted : RecordsOk issued (w.onState (·.interrupt key)) :=
    ok.onState _ fun _ _ there => there
  simp only [closeActive]
  split
  · split
    · exact interrupted
    · exact interrupted.log rfl
  · exact interruptIf_records
      ((claimStop_records ok key .close).onState (·.pause key) fun _ _ there => there) _ key

theorem closeInactive_records (ok : RecordsOk issued w) (key : UniqueId) :
    RecordsOk issued (w.closeInactive key) := by
  simp only [closeInactive]
  split
  · exact ok
  · rename_i group found
    exact (ok.log rfl).emitStatus found rfl _ _

theorem foldl_records {f : World → UniqueId → World}
    (step : ∀ w key, RecordsOk issued w → RecordsOk issued (f w key)) (keys : List UniqueId)
    (ok : RecordsOk issued w) : RecordsOk issued (keys.foldl f w) := by
  induction keys generalizing w with
  | nil => exact ok
  | cons key rest ih => exact ih (step w key ok)

theorem closeBegin_records (ok : RecordsOk issued w) (activeKeys inactiveKeys : List UniqueId) :
    RecordsOk issued (w.closeBegin activeKeys inactiveKeys) :=
  foldl_records (fun _ key ok => closeInactive_records ok key) inactiveKeys
    (foldl_records (fun _ key ok => closeActive_records ok key) activeKeys ok)

theorem closeClear_records (ok : RecordsOk issued w) : RecordsOk issued w.closeClear := by
  refine ok.onState _ fun k g there => ?_
  simp at there

theorem endGroup_records (ok : RecordsOk issued w)
    (known : ∀ group, w.state.groups.lookup key = some group → group.leaderInner.taskId ∈ issued)
    (unique : ∀ group k g, w.state.groups.lookup key = some group →
      w.state.groups.lookup k = some g →
      g.leaderInner.taskId = group.leaderInner.taskId → k = key)
    (last : World → GroupState → World)
    (emits : ∀ w group, RecordsOk issued w → ¬ (w.heap group.leaderInner.taskId).Terminated →
      group.leaderInner.taskId ∈ issued → (∀ k g, w.state.groups.lookup k = some g →
        g.leaderInner.taskId ≠ group.leaderInner.taskId) → RecordsOk issued (last w group)) :
    RecordsOk issued (w.endGroup key last) := by
  simp only [endGroup]
  refine RecordsOk.onState ?_ _ fun _ _ there => there
  split
  · exact ok
  rename_i group found
  apply emits
  · exact ok.onState _ (unregister_shrinks _ key group)
  · exact ok.live key group found
  · exact known group found
  · exact unregister_gone fun k g there => unique group k g found there

theorem handleQuiescentWorkerEvent_records (ok : RecordsOk issued w)
    (inv : w.state.Inv issued limit) (event : WorkerEvent) :
    RecordsOk issued (w.handleQuiescentWorkerEvent event) := by
  have known : ∀ key group, w.state.groups.lookup key = some group →
      group.leaderInner.taskId ∈ issued := inv.ids.leader_issued
  have unique : ∀ key group k g, w.state.groups.lookup key = some group →
      w.state.groups.lookup k = some g →
      g.leaderInner.taskId = group.leaderInner.taskId → k = key :=
    fun key group k g found there same => inv.ids.leader_unique k key g group there found same
  have aborted : ∀ key, RecordsOk issued (w.quiescentAbort key) := by
    intro key
    simp only [quiescentAbort]
    split
    · split
      · exact ok
      · exact ok.onCell _ (.executorCancel _ _)
    · exact ok
  have released : ∀ key, RecordsOk issued ((w.quiescentAbort key).releaseWorker key) :=
    fun key => (aborted key).onState _ fun _ _ there => there
  cases event with
  | progress key nextOffset totalSize =>
    simp only [handleQuiescentWorkerEvent, handleWorkerEvent, handleProgress]
    split
    · exact ok
    rename_i group found
    have recorded : RecordsOk issued
        (w.onState (·.recordProgress key nextOffset totalSize)) :=
      ok.onState _ fun _ _ there => there
    split
    · exact recorded
    · exact recorded.emitStatus found rfl _ _
  | completed key totalSize payload =>
    simp only [handleQuiescentWorkerEvent, handleWorkerEvent, handleCompleted]
    apply endGroup_records
    · exact RecordsOk.onState (RecordsOk.onState (ok.onState _ fun _ _ there => there) _
        fun _ _ there => there) _ fun _ _ there => there
    · exact known key
    · exact unique key
    · intro w group ok open_ isKnown gone
      have emitted := ok.emitStatus_removed open_ isKnown gone .complete
        (max totalSize (w.state.effectiveTotal key group.entry.inner))
        (max totalSize (w.state.effectiveTotal key group.entry.inner))
      simp only [emitComplete]
      split
      · exact emitted
      · exact emitted.invokeCompleteCb _ _ _
  | failed key error totalSize =>
    simp only [handleQuiescentWorkerEvent, handleWorkerEvent, handleFailed]
    apply endGroup_records
    · exact (released key).onState _ fun _ _ there => there
    · intro group found
      simp only [unpause, releaseWorker, onState_state, quiescentAbort_state] at found
      exact known key group found
    · intro group k g found there
      simp only [unpause, releaseWorker, onState_state, quiescentAbort_state] at found there
      exact unique key group k g found there
    · intro w group ok open_ isKnown gone
      exact ok.emitStatus_removed open_ isKnown gone _ _ _
  | canceled key totalSize =>
    simp only [handleQuiescentWorkerEvent, handleWorkerEvent, handleCanceled]
    split
    · split
      · exact released key
      · rename_i group found
        exact ((released key).onCell _ (.of_history rfl)).emitStatus found rfl _ _
    · apply endGroup_records
      · exact (released key).onState _ fun _ _ there => there
      · intro group found
        simp only [unpause, releaseWorker, onState_state, quiescentAbort_state] at found
        exact known key group found
      · intro group k g found there
        simp only [unpause, releaseWorker, onState_state, quiescentAbort_state] at found there
        exact unique key group k g found there
      · intro w group ok open_ isKnown gone
        exact ok.emitStatus_removed open_ isKnown gone _ _ _

end World

namespace Loop

variable {limit : Direction → Nat} {l m : Loop} {input : Input}

def NoDuplicate (l : Loop) : Input → Prop
  | .cmd (.enqueue inner _) | .cmd (.enqueuePaused inner _) =>
    inner.dedupeKey ∉ l.world.state.groups
  | _ => True

theorem handleCmd_records {cmd : TransferCmd} (inv : l.world.state.Inv l.issued limit)
    (ok : RecordsOk l.issued l.world) (fresh : Disjoint (used cmd) l.issued)
    (single : l.NoDuplicate (.cmd cmd)) :
    RecordsOk (used cmd ∪ l.issued) (l.world.handleCmd cmd).1 := by
  cases cmd with
  | enqueue inner callbacks =>
    have unused : inner.taskId ∉ l.issued := Finset.disjoint_singleton_left.mp fresh
    simp only [World.handleCmd, used, Finset.singleton_union, Finmap.lookup_eq_none.mpr single]
    exact World.tryStartNext_records (World.enqueueNew_records ok callbacks unused)
  | enqueuePaused inner callbacks =>
    have unused : inner.taskId ∉ l.issued := Finset.disjoint_singleton_left.mp fresh
    simp only [World.handleCmd, used, Finset.singleton_union, Finmap.lookup_eq_none.mpr single]
    exact World.enqueuePausedNew_records ok callbacks unused
  | pause id =>
    simp only [World.handleCmd, used, Finset.empty_union]
    apply World.tryStartNext_records
    simp only [World.control]
    split
    · exact World.pauseGroup_records ok _
    · exact ok
  | resume id =>
    simp only [World.handleCmd, used, Finset.empty_union]
    apply World.tryStartNext_records
    simp only [World.control]
    split
    · exact World.resumeGroup_records ok _
    · exact ok
  | cancel id =>
    simp only [World.handleCmd, used, Finset.empty_union]
    apply World.tryStartNext_records
    simp only [World.control]
    split
    · exact World.cancelGroup_records ok inv _
    · exact ok
  | snapshot =>
    simp only [World.handleCmd, used, Finset.empty_union]
    exact ok
  | close activeKeys inactiveKeys =>
    simp only [World.handleCmd, used, Finset.empty_union]
    exact World.closeBegin_records ok activeKeys inactiveKeys

theorem step_records (inv : l.world.state.Inv l.issued limit) (ok : RecordsOk l.issued l.world)
    (single : l.NoDuplicate input) (taken : l.step input = some m) :
    RecordsOk m.issued m.world := by
  cases input with
  | cmd cmd =>
    simp only [step, Option.ite_none_right_eq_some, Option.some.injEq] at taken
    obtain ⟨⟨_, fresh, _⟩, rfl⟩ := taken
    exact handleCmd_records inv ok fresh single
  | event event =>
    simp only [step, Option.ite_none_right_eq_some, Option.some.injEq] at taken
    obtain ⟨_, rfl⟩ := taken
    have handled := World.handleQuiescentWorkerEvent_records ok inv event
    simp only [eventWorld]
    split
    · simp only [World.handleEvent]
      split
      · exact World.tryStartNext_records handled
      · exact handled
    · exact handled
    · exact handled
  | finishClose =>
    simp only [step, Option.ite_none_right_eq_some, Option.some.injEq] at taken
    obtain ⟨_, rfl⟩ := taken
    exact World.closeClear_records ok
  | listeners ids =>
    simp only [step, Option.some.injEq] at taken
    subst taken
    exact ok.onState (fun s => { s with globalProgressListener := ids }) fun _ _ there => there
  | worker id life =>
    simp only [step, Option.some.injEq] at taken
    subst taken
    exact ok.onCell _ (.of_history rfl)

/-- In a run without duplicate enqueues no record of a task id follows a terminal
record of that id. -/
theorem run_oneTerminal {maxUpload maxDownload : Nat} {listeners : List Nat}
    (run : Machine.Run step NoDuplicate (init maxUpload maxDownload listeners) l) (id : TaskId) :
    OneTerminal (l.world.heap id).history := by
  have both := run.invariant
    (fun l => l.world.state.Inv l.issued (limits maxUpload maxDownload) ∧
      RecordsOk l.issued l.world)
    ⟨SchedulerState.new_inv maxUpload maxDownload listeners,
      { ordered := fun _ => List.Pairwise.nil
        live := fun _ _ found => by simp [init, SchedulerState.new] at found
        issued := fun _ terminated => by simp [init, TaskCell.Terminated, TaskCell.new] at terminated }⟩
    (fun _ _ _ holds single taken =>
      ⟨step_inv holds.1 taken, step_records holds.1 holds.2 single taken⟩)
  exact both.2.ordered id

def recordedStatuses (l : Loop) (id : TaskId) : List TransferStatus :=
  (l.world.heap id).history.filterMap fun
    | .record r _ => some r.status
    | _ => none

def pausedRun : List Input :=
  [.cmd (.enqueue (sampleTask 1 "a") ⟨none, none⟩),
    .cmd (.pause 1),
    .event (.canceled (.upload, "a") 4),
    .cmd (.resume 1),
    .event (.completed (.upload, "a") 4 none)]

theorem run_oneTerminal_paused :
    ∃ l, Machine.Run step NoDuplicate (init 1 1 [7]) l ∧
      l.recordedStatuses 1 =
        [.pending, .transmission, .paused, .pending, .transmission, .complete] ∧
      OneTerminal (l.world.heap 1).history := by
  have ends : ((Machine.exec step (init 1 1 [7]) pausedRun).map (recordedStatuses · 1)) =
      some [.pending, .transmission, .paused, .pending, .transmission, .complete] := by
    decide
  obtain ⟨l, executed, statuses⟩ := Option.map_eq_some_iff.mp ends
  have run : Machine.Run step NoDuplicate (init 1 1 [7]) l := by
    refine Machine.run_of_exec executed ⟨?_, fun _ _ => ⟨trivial, fun _ _ => ⟨trivial, fun _ _ =>
      ⟨trivial, fun _ _ => ⟨trivial, fun _ _ => trivial⟩⟩⟩⟩⟩
    exact Finmap.notMem_empty
  exact ⟨l, run, statuses, run_oneTerminal run 1⟩

/-- A second task with the key of a running one: the rejection is recorded under
the id of the running task, which then completes. -/
def duplicateRun : List Input :=
  [.cmd (.enqueue (sampleTask 1 "a") ⟨none, none⟩),
    .cmd (.enqueue (sampleTask 2 "a") ⟨none, none⟩),
    .event (.completed (.upload, "a") 4 none)]

theorem duplicate_two_terminal_records :
    ∃ l, Machine.Reachable step (init 1 1 [7]) l ∧
      l.recordedStatuses 1 =
        [.pending, .transmission, .failed (.fromCode1 .duplicateTaskError), .complete] ∧
      ¬ OneTerminal (l.world.heap 1).history := by
  have ends : ((Machine.exec step (init 1 1 [7]) duplicateRun).map fun l =>
      (l.recordedStatuses 1, decide (OneTerminal (l.world.heap 1).history))) =
      some ([.pending, .transmission, .failed (.fromCode1 .duplicateTaskError), .complete],
        false) := by
    decide
  obtain ⟨l, executed, statuses⟩ := Option.map_eq_some_iff.mp ends
  simp only [Prod.mk.injEq, decide_eq_false_iff_not] at statuses
  exact ⟨l, Machine.reachable_of_exec executed, statuses⟩

end Loop

end RustyCat
