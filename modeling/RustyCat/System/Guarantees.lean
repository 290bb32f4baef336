import RustyCat.System.Projection
import RustyCat.System.TaskInvariant

/-!
# Restart and abort

What the task invariant says about the system: a registered task without a
worker can be restarted, and the provider abort of an upload is safe.
-/

namespace RustyCat

namespace History

/-- The provider abort of a task and what else happened to the task. -/
structure AbortSafe (h : List TaskEvent) : Prop where
  once : aborts h ≤ 1
  /-- Nothing was in flight when the abort was invoked. -/
  quiescent : ∀ before after, h = before ++ .abortUpload :: after →
    requested before = returned before
  incomplete : .abortUpload ∈ h → ∀ r sinks, .record r sinks ∈ h → r.status ≠ .complete
  canceled : ∀ before r sinks after, h = before ++ .record r sinks :: after →
    r.status = .canceled → r.direction = .upload → aborts before = 1

variable {h : List TaskEvent}

theorem aborts_le_one (law : Trace.Always Law h) : aborts h ≤ 1 := by
  refine law.induction (I := fun h => aborts h ≤ 1) (by simp [aborts]) ?_
  intro before event _ bound holds
  rw [aborts_append]
  split
  · rename_i abort
    subst abort
    rw [holds.1]
  · exact bound

theorem aborts_or_completeRecords (law : Trace.Always Law h) :
    aborts h = 0 ∨ completeRecords h = 0 := by
  refine law.induction (I := fun h => aborts h = 0 ∨ completeRecords h = 0)
    (Or.inl (by simp [aborts])) ?_
  intro before event _ either holds
  rw [aborts_append, completeRecords_append]
  cases event with
  | abortUpload => exact Or.inr (by simp [holds.2.2, TaskEvent.isCompleteRecord])
  | record r sinks =>
    by_cases complete : r.status = .complete
    · exact Or.inl (by simp [holds.2 complete])
    · simpa [TaskEvent.isCompleteRecord, complete] using either
  | _ => simpa [TaskEvent.isCompleteRecord] using either

theorem abortSafe (law : Trace.Always Law h) : AbortSafe h where
  once := aborts_le_one law
  quiescent := fun before after split => (law before _ after split).2.1
  incomplete := by
    intro aborted r sinks recorded complete
    rcases aborts_or_completeRecords law with none | none
    · exact List.count_eq_zero.mp none aborted
    · have found := List.countP_eq_zero.mp none _ recorded
      simp [TaskEvent.isCompleteRecord, complete] at found
  canceled := fun before r sinks after split status upload =>
    ((law before _ after split).1 status).2 upload

end History

namespace System

variable {maxUpload maxDownload : Nat} {listeners : List Nat} {s : System} {key : UniqueId}
  {group : GroupState}

theorem view_cell (s : System) (id : TaskId) : (s.view id).cell = s.world.heap id := by
  simp only [view]
  split
  · rfl
  simp only [KeyState.view]
  split
  · rfl
  split
  · split <;> rfl
  · rfl

theorem run_of_reachable
    (reached : Machine.Reachable step (init maxUpload maxDownload listeners) s) :
    Machine.Run step (Allows fun _ _ _ => True) (init maxUpload maxDownload listeners) s :=
  reached.weaken fun s label _ => by cases label <;> simp [Allows]

/-- The task invariant holds of every task in every run of the system. -/
theorem reachable_view_ok
    (reached : Machine.Reachable step (init maxUpload maxDownload listeners) s) (id : TaskId) :
    (s.view id).Ok :=
  (run_taskSteps (run_of_reachable reached) id).ok (Trace.always_nil _)

/-- The abort of an upload is invoked at most once, never while a request of the
task is in flight and never for a task that is reported `Complete`; a task that is
reported `Canceled` was aborted before. -/
theorem reachable_abortSafe
    (reached : Machine.Reachable step (init maxUpload maxDownload listeners) s) (id : TaskId) :
    History.AbortSafe (s.world.heap id).history := by
  have law := (reachable_view_ok reached id).law
  rw [view_cell] at law
  exact History.abortSafe law

def statuses (s : System) (id : TaskId) : List TransferStatus :=
  (s.world.heap id).history.filterMap fun
    | .record r _ => some r.status
    | _ => none

/-- An upload of one chunk starts, is paused and resumed, and is canceled while its
second run transfers. -/
def canceledRun : List Label :=
  let key := (Direction.upload, "a")
  let prepared := Choice.prepare (.upload none (.ok { completedFileId := none, nextByte := none }))
  [.cmd (.enqueue (Loop.sampleTask 1 "a") ⟨none, none⟩), .work key .tick, .work key prepared,
    .deliver key, .cmd (.pause 1), .sched, .sched, .work key .tick, .work key (.check none),
    .deliver key, .cmd (.resume 1), .work key .tick, .work key prepared, .deliver key,
    .cmd (.cancel 1), .sched, .work key .tick, .work key (.check none), .sched, .deliver key]

theorem reachable_abortSafe_canceled :
    ∃ s, Machine.Reachable step (init 1 1 [7]) s ∧
      s.statuses 1 = [.pending, .transmission, .transmission, .paused, .pending, .transmission,
        .transmission, .canceled] ∧
      History.aborts (s.world.heap 1).history = 1 ∧
      History.AbortSafe (s.world.heap 1).history := by
  have ends : ((Machine.exec step (init 1 1 [7]) canceledRun).map fun s =>
      (s.statuses 1, History.aborts (s.world.heap 1).history)) =
      some ([.pending, .transmission, .transmission, .paused, .pending, .transmission,
        .transmission, .canceled], 1) := by
    decide
  obtain ⟨s, executed, seen⟩ := Option.map_eq_some_iff.mp ends
  have reached : Machine.Reachable step (init 1 1 [7]) s := Machine.reachable_of_exec executed
  simp only [Prod.mk.injEq] at seen
  exact ⟨s, reached, seen.1, seen.2, reachable_abortSafe reached 1⟩

/-- A group that is queued, or paused without a worker, has an open lifecycle, so its next
worker can claim completion.  A run that has ended leaves no claim and no pending stop
behind. -/
theorem reachable_restartable
    (reached : Machine.Reachable step (init maxUpload maxDownload listeners) s)
    (found : s.world.state.groups.lookup key = some group) :
    (key ∈ s.world.state.queuedSet ∨ key ∈ s.world.state.pausedSet ∧ key ∉ s.world.state.active →
      (s.world.heap group.leaderInner.taskId).life.terminal = .opened) ∧
    (s.workers key = none →
      (s.world.heap group.leaderInner.taskId).life.terminal = .opened) ∧
    ∀ worker total, s.workers key = some worker → .canceled key total ∈ worker.outbox →
      key ∉ s.world.state.cancelingSet →
      (s.world.heap group.leaderInner.taskId).life.terminal.claimed = false := by
  have good := run_agrees (run_of_reachable reached)
  have ok := reachable_view_ok reached group.leaderInner.taskId
  rw [view_leader good.led found] at ok
  have idle : key ∉ s.world.state.active →
      (s.world.heap group.leaderInner.taskId).life.terminal = .opened := by
    intro inactive
    rw [KeyState.view_idle found (keyState_idle inactive)] at ok
    exact RestOk.opened ok
  refine ⟨fun waiting => ?_, fun nobody => ?_, fun worker total staffed sent calm => ?_⟩
  · rcases waiting with queued | ⟨_, inactive⟩
    · exact idle ((good.inv.keys key).queued_inactive queued)
    · exact idle inactive
  · refine idle fun active => ?_
    have staffed := (good.staffed key).mpr active
    rw [nobody] at staffed
    cases staffed
  · have active : key ∈ s.world.state.active := (good.staffed key).mp (by rw [staffed]; rfl)
    obtain ⟨token, running⟩ := Finmap.mem_iff.mp active
    rw [staffed, KeyState.view_live found running, keyState_calm calm] at ok
    exact (ok.sent.canceled key total sent).2.2.1 rfl

/-- An upload of one chunk is paused while its only chunk is in flight under a
completion claim; the protocol stops on request. -/
def pausedRun : List Label :=
  let key := (Direction.upload, "a")
  let prepared := Choice.prepare (.upload none (.ok { completedFileId := none, nextByte := none }))
  let stopped : UploadAnswer :=
    { source := none
      beforeLast := none
      chunk := .error (.fromCode1 .taskCanceled)
      afterTerminal := none
      complete := .ok none }
  [.cmd (.enqueue (Loop.sampleTask 1 "a") ⟨none, none⟩), .work key .tick, .work key prepared,
    .work key .tick, .work key .tick, .work key (.chunk .tick), .cmd (.pause 1), .sched, .sched,
    .work key (.chunk (.answer (.upload stopped))), .work key (.chunk .tick),
    .work key (.chunk .tick), .work key .tick, .work key (.check none), .deliver key, .deliver key]

/-- What is known about the sample key after a run. -/
def pausedIdle (s : System) (key : UniqueId) : Bool :=
  key ∈ s.world.state.pausedSet ∧ key ∉ s.world.state.active ∧
    (s.world.state.groups.lookup key).map (·.leaderInner.taskId) = some 1

theorem reachable_restartable_paused :
    ∃ s group, Machine.Reachable step (init 1 1 []) s ∧
      s.world.state.groups.lookup (.upload, "a") = some group ∧
      (.upload, "a") ∈ s.world.state.pausedSet ∧ (.upload, "a") ∉ s.world.state.active ∧
      (s.world.heap group.leaderInner.taskId).life.terminal = .opened := by
  have ends : ((Machine.exec step (init 1 1 []) pausedRun).map (pausedIdle · (.upload, "a"))) =
      some true := by
    decide
  obtain ⟨s, executed, seen⟩ := Option.map_eq_some_iff.mp ends
  have reached : Machine.Reachable step (init 1 1 []) s := Machine.reachable_of_exec executed
  simp only [pausedIdle, decide_eq_true_eq, Option.map_eq_some_iff] at seen
  obtain ⟨paused, inactive, group, found, -⟩ := seen
  exact ⟨s, group, reached, found, paused, inactive,
    (reachable_restartable reached found).1 (Or.inr ⟨paused, inactive⟩)⟩

end System

end RustyCat
