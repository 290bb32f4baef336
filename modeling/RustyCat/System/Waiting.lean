import RustyCat.Scheduler.Fairness
import RustyCat.System.Drain

/-!
# Waiting in the queue

While a key waits, its direction has no free slot, and no key of its direction that came
later is started.  So it waits for no more workers to end than stand in line before it.
-/

namespace RustyCat

open Admission

namespace World

variable {issued : Finset TaskId} {limit : Direction → Nat} {w v : World} {key a : UniqueId}

/-- How many keys of its own direction a queued key has before it. -/
def position (w : World) (key : UniqueId) : Nat :=
  (w.state.queued.filter (·.1 = key.1)).idxOf key

theorem idxOf_filter_le {p : UniqueId → Bool} (kept : p key = true) (l : List UniqueId) :
    (l.filter p).idxOf key ≤ l.idxOf key := by
  induction l with
  | nil => exact Nat.le_refl _
  | cons a l ih =>
    by_cases here : a = key
    · subst here
      simp [kept]
    · rw [List.filter_cons, List.idxOf_cons_ne l here]
      split
      · rw [List.idxOf_cons_ne _ here]
        omega
      · omega

theorem idxOf_drop {l : List UniqueId} {n : Nat} (nodup : l.Nodup) (later : key ∈ l.drop n) :
    (l.drop n).idxOf key + n = l.idxOf key := by
  have before : key ∉ l.take n := fun early =>
    List.disjoint_take_drop nodup (Nat.le_refl n) early later
  have size := List.length_pos_of_mem later
  have parts : (l.take n ++ l.drop n).idxOf key = _ := List.idxOf_append_of_notMem before
  rw [List.length_drop] at size
  rw [List.take_append_drop, List.length_take] at parts
  omega

/-- What a handler does to the queue before it looks for a key to start. -/
inductive Line (queue : List UniqueId) : List UniqueId → Prop where
  | same : Line queue queue
  | drop (a : UniqueId) : Line queue (queue.filter (· ≠ a))
  | push (a : UniqueId) : Line queue (queue ++ [a])

/-- What a step does for the waiting key: no direction with a queue has a free slot, and the
key gets ahead by at least `n` places. -/
structure Advances (key : UniqueId) (n : Nat) (w v : World) : Prop where
  saturated : v.Saturated
  position : key ∈ w.state.queued → key ∈ v.state.queued → v.position key + n ≤ w.position key

theorem Advances.of_same (full : w.Saturated) (queued : v.state.queued = w.state.queued)
    (free : v.state.free = w.state.free) : Advances key 0 w v := by
  constructor
  · intro k member
    rw [free]
    exact full k (queued ▸ member)
  · intro _ _
    rw [World.position, queued]
    exact Nat.le_refl _

/-- A pass fills the free slots with those who came first. -/
theorem Line.advances {n : Nat} (line : Line w.state.queued v.state.queued)
    (inv : v.state.Inv issued limit) (room : n ≤ v.state.free key.1) :
    Advances key n w v.tryStartNext.1 := by
  obtain ⟨queued, -, admitted⟩ := tryStartNext_spec inv
  constructor
  · intro k member
    rw [queued] at member
    rw [admitted.free, length_taken member]
    exact Nat.sub_self _
  · intro waits still
    -- of its direction, the pass has taken those in front
    have left := (@filter_admission _ _ _ Prod.fst key.1 v.state.free v.state.queued).2
    rw [← queued] at left
    have own : key ∈ w.state.queued.filter (·.1 = key.1) := List.mem_filter.mpr ⟨waits, by simp⟩
    have there : key ∈ v.state.queued := (left_sublist ..).subset (queued ▸ still)
    have moved : v.tryStartNext.1.position key + v.state.free key.1 = v.position key := by
      unfold World.position
      rw [left]
      exact idxOf_drop (inv.queue.nodup.filter _) (left ▸ List.mem_filter.mpr ⟨still, by simp⟩)
    have before : v.position key ≤ w.position key := by
      unfold World.position
      generalize v.state.queued = queue at line there
      cases line with
      | same => exact Nat.le_refl _
      | drop a =>
        rw [List.filter_comm]
        exact idxOf_filter_le (List.mem_filter.mp there).2 _
      | push a => rw [List.filter_append, List.idxOf_append_of_mem own]
    omega

/-! ## Commands and events -/

@[simp] theorem interruptIf_queued (disposition : StopRequestDisposition) :
    (w.interruptIf disposition a).state.queued = w.state.queued := by
  simp only [interruptIf]
  split <;> rfl

theorem pauseGroup_line : Line w.state.queued (w.pauseGroup a).state.queued := by
  have dropped : (w.pauseGroup a).state.queued = w.state.queued.filter (· ≠ a) := by
    simp only [pauseGroup]
    split <;> simp [SchedulerState.pause, SchedulerState.dropQueued]
  exact dropped ▸ .drop a

theorem pushIfIdle_line : Line w.state.queued (w.pushIfIdle a).state.queued := by
  simp only [pushIfIdle]
  split
  · exact .push a
  · exact .same

theorem resumeGroup_line : Line w.state.queued (w.resumeGroup a).1.state.queued := by
  simp only [resumeGroup]
  split
  · exact .same
  split
  · exact .same
  split
  · exact .same
  rename_i group _
  have line := @pushIfIdle_line ((w.onState fun s =>
    { s with pausedSet := s.pausedSet.erase a }).emitCurrent a group .pending) a
  rwa [emitCurrent_state] at line

theorem cancelGroup_line (grouped : a ∈ w.state.groups) :
    Line w.state.queued (w.cancelGroup a).state.queued := by
  obtain ⟨group, found⟩ := Finmap.mem_iff.mp grouped
  have dropped : (w.cancelGroup a).state.queued = w.state.queued.filter (· ≠ a) := by
    simp only [cancelGroup]
    split
    · rw [cancelMark_state _ (show _ = some group by simpa using found)]
      simp [SchedulerState.dropQueued]
    · rename_i idle
      rw [cancelInactive_state idle found]
      rfl
  exact dropped ▸ .drop a

section Handlers

variable (inv : w.state.Inv issued limit)

include inv

theorem control_advances (id : TaskId) (act : World → UniqueId → World × Except MeowError Unit)
    (acts : ∀ a ∈ w.state.groups, a ∉ w.state.cancelingSet →
      Line w.state.queued (act w a).1.state.queued ∧ (act w a).1.state.Inv issued limit) :
    Advances key 0 w (w.control id act).1.tryStartNext.1 := by
  simp only [World.control]
  split
  · rename_i a found
    obtain ⟨group, there, _, calm⟩ := (inv.ids.map_iff id a).mp found
    obtain ⟨line, after⟩ := acts a (Finmap.mem_of_lookup_eq_some there) calm
    exact line.advances after (Nat.zero_le _)
  · exact Line.same.advances inv (Nat.zero_le _)

theorem terminal_advances {event : WorkerEvent} (running : event.key ∈ w.state.active)
    (terminal : event.mayChangeSchedulerReadiness = true) :
    Advances key (if event.key.1 = key.1 then 1 else 0) w
      (w.handleQuiescentWorkerEvent event).tryStartNext.1 := by
  obtain ⟨group, found⟩ := Finmap.mem_iff.mp ((inv.keys event.key).active_grouped running)
  have after := handleQuiescentWorkerEvent_inv inv running
  have state := terminal_state inv running found terminal
  have line : Line w.state.queued (w.handleQuiescentWorkerEvent event).state.queued := by
    rcases state with state | state <;> rw [state]
    · exact .drop event.key
    · exact .same
  have active : (w.handleQuiescentWorkerEvent event).state.active =
      w.state.active.erase event.key := by
    rcases state with state | state <;> rw [state] <;> rfl
  refine line.advances after ?_
  -- the slot of the worker that ended
  have counted := HashMap.countKeys_erase_present w.state.active (fun k => k.1 = key.1) running
  have most := inv.count.limits key.1
  rw [inv.count.counts, ← counted, ← active, ← after.count.counts] at most
  rw [SchedulerState.free, after.count.configured]
  omega

theorem handleCmd_advances (key : UniqueId) {cmd : TransferCmd} (full : w.Saturated)
    (fresh : Disjoint (Loop.used cmd) issued) (running : Loop.phaseAfter cmd = .running) :
    Advances key 0 w (w.handleCmd cmd).1 := by
  cases cmd with
  | enqueue inner callbacks =>
    simp only [handleCmd]
    split
    · exact .of_same full (by simp [rejectDuplicate]) (by simp [rejectDuplicate])
    · rename_i absent
      have line := @pushIfIdle_line (w.registerPending inner callbacks) inner.dedupeKey
      rw [registerPending_state] at line
      exact line.advances (enqueueNew_inv callbacks inv (Finset.disjoint_singleton_left.mp fresh)
        (Finmap.lookup_eq_none.mp absent)) (Nat.zero_le _)
  | enqueuePaused inner callbacks =>
    simp only [handleCmd]
    split
    · exact .of_same full (by simp [rejectDuplicate]) (by simp [rejectDuplicate])
    · exact .of_same full (by simp [enqueuePausedNew]; rfl) (by simp [enqueuePausedNew]; rfl)
  | pause id =>
    exact control_advances inv id (fun w a => (w.pauseGroup a, .ok ())) fun a grouped calm =>
      ⟨pauseGroup_line, pauseGroup_inv inv grouped calm⟩
  | resume id =>
    exact control_advances inv id resumeGroup fun a _ _ => ⟨resumeGroup_line, resumeGroup_inv inv⟩
  | cancel id =>
    exact control_advances inv id (fun w a => (w.cancelGroup a, .ok ())) fun a grouped _ =>
      ⟨cancelGroup_line grouped, cancelGroup_inv inv grouped⟩
  | snapshot => exact .of_same full rfl rfl
  | close activeKeys inactiveKeys => cases running

end Handlers

end World

namespace Loop

open World

variable {limit : Direction → Nat} {l m : Loop} {input : Input}

/-- The input ends a worker of the direction. -/
def Input.frees (direction : Direction) : Input → Bool
  | .event e => e.mayChangeSchedulerReadiness && e.key.1 = direction
  | .cmd _ | .finishClose | .listeners _ | .worker _ _ => false

/-- No step leads back to `running`, and a step of a running loop serves those who wait. -/
theorem step_advances (key : UniqueId) (inv : l.world.state.Inv l.issued limit)
    (taken : l.step input = some m) (running : m.phase = .running) :
    l.phase = .running ∧
      (l.world.Saturated → Advances key (input.frees key.1).toNat l.world m.world) := by
  cases input with
  | cmd cmd =>
    simp only [step, Option.ite_none_right_eq_some, Option.some.injEq] at taken
    obtain ⟨⟨before, fresh, _⟩, rfl⟩ := taken
    exact ⟨before, fun full => handleCmd_advances inv key full fresh running⟩
  | event e =>
    simp only [step, Option.ite_none_right_eq_some, Option.some.injEq] at taken
    obtain ⟨⟨_, active⟩, rfl⟩ := taken
    have before : l.phase = .running := running
    refine ⟨before, fun full => ?_⟩
    simp only [eventWorld, before, World.handleEvent, Input.frees]
    cases terminal : e.mayChangeSchedulerReadiness with
    | true =>
      have advances : Advances key _ l.world _ := terminal_advances inv active terminal
      simpa [Bool.toNat, Bool.cond_decide] using advances
    | false =>
      obtain ⟨group, found⟩ := Finmap.mem_iff.mp ((inv.keys e.key).active_grouped active)
      obtain ⟨nextOffset, totalSize, state⟩ := progress_state found terminal
      exact .of_same full (congrArg (·.queued) state) (congrArg (·.free) state)
  | finishClose =>
    simp only [step, Option.ite_none_right_eq_some, Option.some.injEq] at taken
    obtain ⟨_, rfl⟩ := taken
    cases running
  | listeners | worker =>
    cases taken
    exact ⟨running, fun full => .of_same full rfl rfl⟩

section Run

variable {maxUpload maxDownload : Nat} {listeners : List Nat} {key : UniqueId}

/-- No key waits for a slot that is free. -/
theorem reachable_saturated
    (reached : Machine.Reachable step (init maxUpload maxDownload listeners) l)
    (running : l.phase = .running) : l.world.Saturated := by
  induction reached with
  | start =>
    intro key waits
    cases waits
  | next before _ taken ih =>
    obtain ⟨earlier, advances⟩ := step_advances (.upload, "") (reachable_inv before) taken running
    exact (advances (ih earlier)).saturated

/-- As long as a key waits, its direction is full, and with every worker of its direction
that ends it gets ahead in the line.  So it waits for no more of them than stand before it. -/
theorem bounded_waiting {inputs : List Input}
    (reached : Machine.Reachable step (init maxUpload maxDownload listeners) l)
    (waits : Machine.ExecAllowed step (fun l _ => key ∈ l.world.state.queued) l inputs)
    (executed : Machine.exec step l inputs = some m) (still : key ∈ m.world.state.queued)
    (running : m.phase = .running) :
    m.world.position key + inputs.countP (·.frees key.1) ≤ l.world.position key ∧
      m.world.state.activeDirectionCount key.1 = limits maxUpload maxDownload key.1 := by
  suffices moved : l.phase = .running ∧ key ∈ l.world.state.queued ∧
      m.world.position key + inputs.countP (·.frees key.1) ≤ l.world.position key by
    have last := reached.trans (Machine.reachable_of_exec executed)
    have full := reachable_saturated last running key still
    have count := (reachable_inv last).count
    refine ⟨moved.2.2, Nat.le_antisymm (count.limits _) ?_⟩
    rw [SchedulerState.free, count.configured] at full
    omega
  induction inputs generalizing l with
  | nil =>
    cases executed
    exact ⟨running, still, Nat.le_refl _⟩
  | cons input rest ih =>
    obtain ⟨t, taken, executed⟩ := Option.bind_eq_some_iff.mp executed
    obtain ⟨later, queued, moved⟩ := ih (.next reached trivial taken) (waits.2 t taken) executed
    obtain ⟨earlier, advances⟩ := step_advances key (reachable_inv reached) taken later
    have first := (advances (reachable_saturated reached earlier)).position waits.1 queued
    refine ⟨earlier, waits.1, ?_⟩
    rw [List.countP_cons]
    cases frees : input.frees key.1 <;> simp [frees] at first ⊢ <;> omega

/-- Three uploads for one slot; the third one is next when the first worker ends. -/
theorem bounded_waiting_sample :
    ∃ l m, Machine.Reachable step (init 1 1 []) l ∧
      l.step (.event (.completed (.upload, "a") 4 none)) = some m ∧
      l.world.position (.upload, "c") = 1 ∧
      m.world.position (.upload, "c") + 1 ≤ l.world.position (.upload, "c") ∧
      m.world.state.activeUploads = 1 := by
  let start := [("a", 1), ("b", 2), ("c", 3)].map fun task =>
    Input.cmd (.enqueue (sampleTask task.2 task.1) ⟨none, none⟩)
  have ends : ((Machine.exec step (init 1 1 []) start).bind fun l =>
      (l.step (.event (.completed (.upload, "a") 4 none))).map fun m =>
        (l.world.position (.upload, "c"), l.world.state.queued, m.world.state.queued, m.phase)) =
      some (1, [(.upload, "b"), (.upload, "c")], [(.upload, "c")], .running) := by
    decide
  simp only [Option.bind_eq_some_iff, Option.map_eq_some_iff, Prod.mk.injEq] at ends
  obtain ⟨l, executed, m, taken, second, before, after, running⟩ := ends
  have reached : Machine.Reachable step (init 1 1 []) l := Machine.reachable_of_exec executed
  have waits := @bounded_waiting l m 1 1 [] (.upload, "c")
    [.event (.completed (.upload, "a") 4 none)] reached ⟨by simp [before], fun _ _ => trivial⟩
    (by simp [Machine.exec, taken]) (by simp [after]) running
  exact ⟨l, m, reached, taken, second, waits.1, waits.2⟩

end Run

end Loop

end RustyCat
