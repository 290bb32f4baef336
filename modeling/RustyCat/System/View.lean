import RustyCat.Scheduler.Bookkeeping
import RustyCat.System.Machine
import RustyCat.System.TaskMachine

/-!
# The view of one task

`System.view` reads off a system state what it says about one task.  Handlers
touch one key and one task cell; `World.Touches` records that, and a system step
that touches one key moves the view of one task only.
-/

namespace RustyCat

@[ext] structure KeyState where
  group : Option GroupState
  active : Option ActiveState
  paused : Bool
  canceling : Bool

namespace SchedulerState

def keyState (s : SchedulerState) (k : UniqueId) : KeyState where
  group := s.groups.lookup k
  active := s.active.lookup k
  paused := k ∈ s.pausedSet
  canceling := k ∈ s.cancelingSet

section KeyState

variable (s : SchedulerState) (a k : UniqueId)

@[simp] theorem keyState_register (inner : InnerTask) (callbacks : TaskCallbacks) :
    (s.register inner callbacks).keyState k =
      if k = inner.dedupeKey then
        { s.keyState k with group := some (GroupState.new inner callbacks) }
      else s.keyState k := by
  by_cases same : k = inner.dedupeKey
  · subst same
    rw [if_pos rfl]
    exact KeyState.ext (Finmap.lookup_insert _) rfl rfl rfl
  · simp only [if_neg same]
    exact KeyState.ext (Finmap.lookup_insert_of_ne _ same) rfl rfl rfl

@[simp] theorem keyState_pushQueued : (s.pushQueued a).keyState k = s.keyState k := rfl

@[simp] theorem keyState_popQueued (rest : List UniqueId) :
    (s.popQueued a rest).keyState k = s.keyState k := rfl

@[simp] theorem keyState_dropQueued : (s.dropQueued a).keyState k = s.keyState k := rfl

@[simp] theorem keyState_recordProgress (nextOffset totalSize : Nat) :
    (s.recordProgress a nextOffset totalSize).keyState k = s.keyState k := rfl

@[simp] theorem keyState_pause :
    (s.pause a).keyState k = if k = a then { s.keyState k with paused := true } else s.keyState k := by
  by_cases same : k = a
  · subst same
    rw [if_pos rfl]
    exact KeyState.ext rfl rfl (by simp [keyState, pause]) rfl
  · simp only [if_neg same]
    exact KeyState.ext rfl rfl (by simp [keyState, pause, same]) rfl

@[simp] theorem keyState_unpause :
    keyState { s with pausedSet := s.pausedSet.erase a } k =
      if k = a then { s.keyState k with paused := false } else s.keyState k := by
  by_cases same : k = a <;> simp [keyState, same]

@[simp] theorem keyState_interrupt :
    (s.interrupt a).keyState k =
      if k = a then { s.keyState k with active := (s.active.lookup k).map fun _ => ⟨true⟩ }
      else s.keyState k := by
  by_cases present : a ∈ s.active
  · obtain ⟨active, found⟩ := Finmap.mem_iff.mp present
    by_cases same : k = a
    · subst same
      simp [keyState, interrupt, present, found]
    · simp [keyState, interrupt, present, same]
  · have absent : s.active.lookup a = none := Finmap.lookup_eq_none.mpr present
    by_cases same : k = a
    · subst same
      simp [keyState, interrupt, present, absent]
    · simp [keyState, interrupt, present, same]

@[simp] theorem keyState_insertActive (token : ActiveState) :
    (s.insertActive a token).keyState k =
      if k = a then { s.keyState k with active := some token } else s.keyState k := by
  by_cases same : k = a
  · subst same
    rw [if_pos rfl]
    exact KeyState.ext rfl (Finmap.lookup_insert _) rfl rfl
  · simp only [if_neg same]
    exact KeyState.ext rfl (Finmap.lookup_insert_of_ne _ same) rfl rfl

@[simp] theorem keyState_finish (group : GroupState) :
    (s.finish a group).keyState k =
      if k = a then { group := none, active := none, paused := false, canceling := false }
      else s.keyState k := by
  by_cases same : k = a
  · subst same
    simp [keyState, finish, unregister, SchedulerState.removeActive, dropQueued]
  · simp [keyState, finish, unregister, SchedulerState.removeActive, dropQueued, same]

theorem keyState_release :
    (removeActive { s with cancelingSet := s.cancelingSet.erase a } a).keyState k =
      if k = a then { s.keyState k with active := none, canceling := false }
      else s.keyState k := by
  by_cases same : k = a
  · subst same
    simp [keyState, removeActive]
  · simp [keyState, removeActive, same]

end KeyState

end SchedulerState

def SchedPc.focus : SchedPc → UniqueId → Focus
  | idle, _ | closing _ _, _ => .none
  | token k kind disposition, key => if k = key then .token kind disposition else .none
  | marks k kind, key => if k = key then .marks kind else .none
  | closeSet k disposition _ _, key => if k = key then .closeSet disposition else .none
  | closeToken k disposition _ _, key => if k = key then .closeToken disposition else .none

/-- The view of a task from what is known about its key. -/
def KeyState.view (state : KeyState) (worker : Option Worker) (focus : Focus) (id : TaskId)
    (cell : TaskCell) : TaskView :=
  match state.group with
  | none => .gone cell
  | some group =>
    if group.leaderInner.taskId = id then
      match state.active, worker with
      | some active, some worker =>
        .live group.leaderInner
          { pc := worker.pc, outbox := worker.outbox, token := active.cancelled, cell := cell }
          state.paused state.canceling focus
      | _, _ => .idle group.leaderInner cell
    else .gone cell

namespace World

/-- A handler changes what is known about one key and the cell of one task. -/
structure Touches (w v : World) (key : UniqueId) (id : TaskId) (state : KeyState)
    (cell : TaskCell) : Prop where
  here : v.state.keyState key = state
  others : ∀ k, k ≠ key → v.state.keyState k = w.state.keyState k
  cell : v.heap id = cell
  cells : ∀ i, i ≠ id → v.heap i = w.heap i

end World

namespace System

def view (s : System) (id : TaskId) : TaskView :=
  match s.tasks.lookup id with
  | none => .gone (s.world.heap id)
  | some inner =>
    (s.world.state.keyState inner.dedupeKey).view (s.workers inner.dedupeKey)
      (s.sched.focus inner.dedupeKey) id (s.world.heap id)

/-- Every group is led by the task that was submitted under its id. -/
def Led (s : System) : Prop :=
  ∀ key group, s.world.state.groups.lookup key = some group →
    s.tasks.lookup group.leaderInner.taskId = some group.leaderInner ∧
      group.leaderInner.dedupeKey = key

section Frame

variable {ok : InnerTask → Run → Choice → Prop} {s t : System} {key : UniqueId}
  {group : GroupState} {state : KeyState} {cell : TaskCell}

theorem view_leader (led : s.Led) (found : s.world.state.groups.lookup key = some group) :
    s.view group.leaderInner.taskId =
      (s.world.state.keyState key).view (s.workers key) (s.sched.focus key)
        group.leaderInner.taskId (s.world.heap group.leaderInner.taskId) := by
  obtain ⟨submitted, filed⟩ := led key group found
  simp only [view, submitted, filed]

theorem view_touches (led : s.Led) (found : s.world.state.groups.lookup key = some group)
    (touched : s.world.Touches t.world key group.leaderInner.taskId state cell)
    (owner : state.group = none ∨ state.group = some group) (tasks : t.tasks = s.tasks)
    (workers : ∀ k, k ≠ key → t.workers k = s.workers k)
    (focus : ∀ k, k ≠ key → t.sched.focus k = s.sched.focus k)
    (moved : TaskSteps ok
      ((s.world.state.keyState key).view (s.workers key) (s.sched.focus key)
        group.leaderInner.taskId (s.world.heap group.leaderInner.taskId))
      (state.view (t.workers key) (t.sched.focus key) group.leaderInner.taskId cell))
    (id : TaskId) : TaskSteps ok (s.view id) (t.view id) := by
  obtain ⟨submitted, filed⟩ := led key group found
  by_cases leader : id = group.leaderInner.taskId
  · subst leader
    rw [view_leader led found]
    simp only [view, tasks, submitted, filed, touched.here, touched.cell]
    exact moved
  · have same : t.view id = s.view id := by
      simp only [view, tasks, touched.cells id leader]
      cases lookup : s.tasks.lookup id with
      | none => rfl
      | some inner =>
        by_cases here : inner.dedupeKey = key
        · have before : (s.world.state.keyState key).group = some group := found
          simp only [here, touched.here, KeyState.view, before, Ne.symm leader, if_false]
          rcases owner with after | after
          · rw [after]
          · simp only [after, Ne.symm leader, if_false]
        · simp only [touched.others _ here, workers _ here, focus _ here]
    rw [same]

end Frame

end System

end RustyCat
