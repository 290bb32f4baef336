import RustyCat.Lib.Admission
import RustyCat.Scheduler.Bookkeeping

/-!
# Fairness of the starter

A pass of `try_start_next` admits queued keys first come, first served, with the
free slots of each direction.  The first round does all of it: the blocked keys go
once around the queue, so the next round finds them in their old order and starts
nothing.
-/

namespace RustyCat

open Admission Function

namespace SchedulerState

def free (s : SchedulerState) (direction : Direction) : Nat :=
  s.maxConcurrency direction - s.activeDirectionCount direction

theorem canStartDirection_iff {s : SchedulerState} {direction : Direction} :
    s.canStartDirection direction = true ↔ 0 < s.free direction := by
  simp only [canStartDirection, free, decide_eq_true_eq]
  omega

theorem free_insertActive {s : SchedulerState} {key : UniqueId} (idle : key ∉ s.active)
    (token : ActiveState) :
    (s.insertActive key token).free =
      update s.free key.1 (s.free key.1 - 1) := by
  funext direction
  have count := activeDirectionCount_insertActive token direction idle
  by_cases same : direction = key.1
  · subst same
    rw [if_pos rfl] at count
    rw [update_self]
    simp only [free, count]
    exact Nat.sub_add_eq ..
  · rw [if_neg (Ne.symm same)] at count
    rw [update_of_ne same]
    simp only [free, count]
    rfl

end SchedulerState

namespace World

variable {issued : Finset TaskId} {limit : Direction → Nat} {w : World}

def keys (workers : List Started) : List UniqueId :=
  workers.map Started.key

/-- What a pass over some keys did: the keys it started are active, the free slots
are those that are left. -/
structure Admitted (before after : World) (started : List UniqueId) : Prop where
  active : ∀ k, k ∈ after.state.active ↔ k ∈ before.state.active ∨ k ∈ started
  free : ∀ d, after.state.free d =
    before.state.free d - (started.filter (·.1 = d)).length

theorem Admitted.refl (w : World) : Admitted w w [] :=
  ⟨by simp, by simp⟩

theorem startHead_spec {key : UniqueId} {rest : List UniqueId} (inv : w.state.Inv issued limit)
    (queue : w.state.queued = key :: rest) :
    (0 < w.state.free key.1 ∧ keys w.startHead.2.toList = [key] ∧
      w.startHead.1.state.queued = rest ∧
      (∀ k, k ∈ w.startHead.1.state.active ↔ k = key ∨ k ∈ w.state.active) ∧
      w.startHead.1.state.free =
        update w.state.free key.1 (w.state.free key.1 - 1)) ∨
    (w.state.free key.1 = 0 ∧ w.startHead.2 = none ∧
      w.startHead.1.state.queued = rest ++ [key] ∧
      (∀ k, k ∈ w.startHead.1.state.active ↔ k ∈ w.state.active) ∧
      w.startHead.1.state.free = w.state.free) := by
  obtain ⟨group, -, head⟩ := startHead_cons inv queue
  have member : key ∈ w.state.queuedSet :=
    (inv.queue.mem_iff key).mp (queue ▸ List.mem_cons_self)
  have idle : key ∉ w.state.active := (inv.keys key).queued_inactive member
  have state := startGroup_state (w.onState (·.popQueued key rest)) key group
  by_cases room : w.state.canStartDirection key.1 = true
  · left
    rw [if_pos room] at head
    rw [head]
    simp only [state]
    refine ⟨SchedulerState.canStartDirection_iff.mp room, rfl, rfl, fun k => ?_,
      SchedulerState.free_insertActive (s := w.state.popQueued key rest) idle
        { cancelled := false }⟩
    simp [SchedulerState.insertActive, SchedulerState.popQueued]
  · right
    rw [if_neg room] at head
    rw [head]
    have full := mt SchedulerState.canStartDirection_iff.mpr room
    exact ⟨by omega, rfl, rfl, fun k => Iff.rfl, rfl⟩

/-- A round starts what is admitted and keeps the others behind those already
blocked in this round. -/
theorem startRound_spec (todo blocked : List UniqueId) (inv : w.state.Inv issued limit)
    (queue : w.state.queued = todo ++ blocked) :
    (startRound todo.length w).1.state.queued =
        blocked ++ (admission Prod.fst w.state.free todo).2 ∧
      keys (startRound todo.length w).2 = (admission Prod.fst w.state.free todo).1 ∧
      Admitted w (startRound todo.length w).1 (admission Prod.fst w.state.free todo).1 := by
  induction todo generalizing w blocked with
  | nil =>
    refine ⟨?_, rfl, .refl w⟩
    simp [startRound, admission, queue]
  | cons key rest ih =>
    have kept := startHead_inv inv
    simp only [List.length_cons, startRound]
    obtain ⟨room, worker, queued, active, free⟩ | ⟨full, none, queued, active, free⟩ :=
      startHead_spec inv queue
    · obtain ⟨later, started, running, slots⟩ := ih blocked kept queued
      rw [free] at later started running slots
      rw [admission_free room]
      refine ⟨later, ?_, fun k => ?_, fun d => ?_⟩
      · simp only [keys, List.map_append] at worker started ⊢
        rw [worker, started]
        rfl
      · rw [running, active, List.mem_cons]
        exact ⟨fun either => by tauto, fun either => by tauto⟩
      · rw [slots]
        by_cases same : d = key.1
        · subst same
          simp only [update_self, List.filter_cons, decide_true, if_true,
            List.length_cons]
          omega
        · simp only [update_of_ne same, List.filter_cons, Ne.symm same, decide_false,
            Bool.false_eq_true, if_false]
    · have turned : w.startHead.1.state.queued = rest ++ (blocked ++ [key]) := by
        rw [queued, List.append_eq, List.append_assoc]
      obtain ⟨later, started, running, slots⟩ := ih (blocked ++ [key]) kept turned
      rw [free] at later started running slots
      rw [admission_blocked full, none]
      refine ⟨?_, started, fun k => ?_, slots⟩
      · rw [later, List.append_assoc]
        rfl
      · rw [running, active]

def Saturated (w : World) : Prop :=
  ∀ k ∈ w.state.queued, w.state.free k.1 = 0

theorem startLoop_saturated (fuel : Nat) (inv : w.state.Inv issued limit) (full : w.Saturated) :
    (startLoop fuel w).1.state.queued = w.state.queued ∧ (startLoop fuel w).2 = [] ∧
      Admitted w (startLoop fuel w).1 [] := by
  cases fuel with
  | zero => exact ⟨rfl, rfl, .refl w⟩
  | succ fuel =>
    obtain ⟨queued, started, admitted⟩ :=
      startRound_spec w.state.queued [] inv (List.append_nil _).symm
    rw [admission_full full] at queued started admitted
    have none : (startRound w.state.queued.length w).2 = [] := List.map_eq_nil_iff.mp started
    rw [startLoop_succ]
    split
    · exact ⟨rfl, rfl, .refl w⟩
    · exact ⟨queued, rfl, admitted⟩

theorem tryStartNext_spec (inv : w.state.Inv issued limit) :
    w.tryStartNext.1.state.queued = (admission Prod.fst w.state.free w.state.queued).2 ∧
      keys w.tryStartNext.2 = (admission Prod.fst w.state.free w.state.queued).1 ∧
      Admitted w w.tryStartNext.1 (admission Prod.fst w.state.free w.state.queued).1 := by
  obtain ⟨queued, started, admitted⟩ :=
    startRound_spec w.state.queued [] inv (List.append_nil _).symm
  rw [List.nil_append] at queued
  rw [tryStartNext, startLoop_succ]
  split
  · rename_i empty
    rw [empty]
    exact ⟨rfl, rfl, .refl w⟩
  · split
    · rename_i none
      rw [none] at started
      exact ⟨queued, started, admitted⟩
    · -- The first round used up the slots of every direction that still has keys queued.
      have full : (startRound w.state.queued.length w).1.Saturated := by
        intro k member
        rw [queued] at member
        rw [admitted.free, length_taken member]
        exact Nat.sub_self _
      obtain ⟨same, nothing, kept⟩ := startLoop_saturated w.state.queued.length
        (startRound_inv w.state.queued.length inv) full
      refine ⟨same.trans queued, ?_, fun k => ?_, fun d => ?_⟩
      · rw [nothing, List.append_nil]
        exact started
      · rw [kept.active, admitted.active]
        simp
      · rw [kept.free, admitted.free]
        simp

theorem startLoop_eq_tryStartNext {fuel : Nat} (enough : w.state.queued.length < fuel) :
    startLoop fuel w = w.tryStartNext := by
  induction fuel, enough using Nat.le_induction with
  | base => rfl
  | succ fuel enough ih => rw [startLoop_stable fuel w enough, ih]

/-- Under the scheduler invariant a pass ends, starts of each direction the earliest
queued keys, as many as it has free slots, leaves the others in line, and loses no
key. -/
theorem try_start_next_fair (inv : w.state.Inv issued limit) :
    (∀ fuel, w.state.queued.length < fuel → startLoop fuel w = w.tryStartNext) ∧
    (∀ k ∈ w.tryStartNext.1.state.queued,
      w.tryStartNext.1.state.canStartDirection k.1 = false) ∧
    (∀ d, (keys w.tryStartNext.2).filter (·.1 = d) =
        (w.state.queued.filter (·.1 = d)).take (limit d - w.state.activeDirectionCount d) ∧
      w.tryStartNext.1.state.queued.filter (·.1 = d) =
        (w.state.queued.filter (·.1 = d)).drop (limit d - w.state.activeDirectionCount d)) ∧
    w.tryStartNext.1.state.queued.Sublist w.state.queued ∧
    (keys w.tryStartNext.2 ++ w.tryStartNext.1.state.queued).Perm w.state.queued ∧
    (keys w.tryStartNext.2 ++ w.tryStartNext.1.state.queued).Nodup ∧
    (∀ k, k ∈ w.tryStartNext.1.state.active ↔ k ∈ w.state.active ∨ k ∈ keys w.tryStartNext.2) ∧
    ∀ k ∈ w.tryStartNext.1.state.queued, k ∉ w.tryStartNext.1.state.active := by
  obtain ⟨queued, started, admitted⟩ := tryStartNext_spec inv
  have after := tryStartNext_inv inv
  have slots : ∀ d, w.state.free d = limit d - w.state.activeDirectionCount d := by
    intro d
    rw [SchedulerState.free, inv.count.configured]
  have perm := @admission_perm _ _ _ Prod.fst w.state.free w.state.queued
  refine ⟨fun fuel enough => startLoop_eq_tryStartNext enough, fun k member => ?_, fun d => ?_,
    ?_, ?_, ?_, ?_, fun k member => ?_⟩
  · rw [← Bool.not_eq_true, SchedulerState.canStartDirection_iff, admitted.free]
    rw [queued] at member
    rw [length_taken member]
    omega
  · rw [queued, started, ← slots]
    exact filter_admission d w.state.free w.state.queued
  · rw [queued]
    exact left_sublist ..
  · rw [queued, started]
    exact perm
  · rw [queued, started]
    exact perm.nodup_iff.mpr inv.queue.nodup
  · rw [started]
    exact admitted.active
  · exact (after.keys k).queued_inactive ((after.queue.mem_iff k).mp member)

/-- Two uploads and a download in the queue, with one slot for uploads. -/
def sampleWorld : World where
  state := [Loop.sampleTask 1 "a", Loop.sampleTask 2 "b",
      { Loop.sampleTask 3 "" with direction := .download }].foldl
    (fun s inner => (s.register inner ⟨none, none⟩).pushQueued inner.dedupeKey)
    (SchedulerState.new 1 1 [])
  heap := fun _ => .new

theorem sampleWorld_inv :
    sampleWorld.state.Inv {3, 2, 1} (SchedulerState.new 1 1 []).maxConcurrency := by
  have one := (SchedulerState.new_inv 1 1 []).enqueue ⟨none, none⟩
    (show (Loop.sampleTask 1 "a").taskId ∉ _ by decide) (by decide)
  have two := one.enqueue ⟨none, none⟩
    (show (Loop.sampleTask 2 "b").taskId ∉ _ by decide) (by decide)
  exact two.enqueue ⟨none, none⟩
    (show InnerTask.taskId { Loop.sampleTask 3 "" with direction := .download } ∉ _ by decide)
    (by decide)

theorem try_start_next_fair_sample :
    keys sampleWorld.tryStartNext.2 = [(.upload, "a"), (.download, "u")] ∧
      sampleWorld.tryStartNext.1.state.queued = [(.upload, "b")] ∧
      sampleWorld.tryStartNext.1.state.canStartDirection .upload = false := by
  have queued : sampleWorld.tryStartNext.1.state.queued = [(.upload, "b")] := by decide
  refine ⟨by decide, queued, (try_start_next_fair sampleWorld_inv).2.1 (.upload, "b") ?_⟩
  rw [queued]
  exact List.mem_singleton_self _

end World

end RustyCat
