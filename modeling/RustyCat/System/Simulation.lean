import RustyCat.System.Touch

/-!
# The system runs every task by the task machine

`System.Ok` is what the scheduler, the workers and the submitted tasks agree on.
Every step of the system keeps it and moves the view of each task by steps of
the task machine, so a property of all runs of one task holds of every task in
every run of the system.
-/

namespace RustyCat

namespace KeyState

variable {state : KeyState} {group : GroupState} {focus : Focus} {cell : TaskCell}

theorem view_idle {worker : Option Worker} (found : state.group = some group)
    (idle : state.active = none) :
    state.view worker focus group.leaderInner.taskId cell = .idle group.leaderInner cell := by
  simp only [view, found, idle, if_true]

theorem view_live {worker : Worker} {active : ActiveState} (found : state.group = some group)
    (running : state.active = some active) :
    state.view (some worker) focus group.leaderInner.taskId cell =
      .live group.leaderInner
        { pc := worker.pc, outbox := worker.outbox, token := active.cancelled, cell := cell }
        state.paused state.canceling focus := by
  simp only [view, found, running, if_true]

end KeyState

namespace TaskSteps

variable {ok : InnerTask → Run → Choice → Prop} {inner : InnerTask} {cell : TaskCell}
  {run : Run} {paused canceling : Bool} {focus : Focus} {event : Option TaskEvent}
  {statuses : TransferStatus → Prop}

theorem emitIdle (recorded : ∀ e ∈ event, e.IsRecord inner statuses)
    (plain : ∀ status, statuses status → status ≠ .complete ∧ status ≠ .canceled) :
    TaskSteps ok (.idle inner cell) (.idle inner (cell.logSome event)) := by
  cases event with
  | none => exact .refl
  | some e =>
    obtain ⟨r, sinks, same, direction, found⟩ := recorded e rfl
    exact .single (.emitIdle e ⟨r, sinks, same, direction, plain _ found⟩)

theorem emitLive (recorded : ∀ e ∈ event, e.IsRecord inner statuses)
    (plain : ∀ status, statuses status → status ≠ .complete ∧ status ≠ .canceled) :
    TaskSteps ok (.live inner run paused canceling focus)
      (.live inner { run with cell := run.cell.logSome event } paused canceling focus) := by
  cases event with
  | none => exact .refl
  | some e =>
    obtain ⟨r, sinks, same, direction, found⟩ := recorded e rfl
    exact .single (.emitLive e ⟨r, sinks, same, direction, plain _ found⟩)

end TaskSteps

namespace System

/-- The keys a close still has to stop, and those it only reports. -/
def CloseOk (s : System) (activeKeys inactiveKeys : List UniqueId) : Prop :=
  (∀ k ∈ activeKeys, k ∈ s.world.state.active) ∧ ∀ k ∈ inactiveKeys, k ∉ s.world.state.active

/-- The command the scheduler is in is about a running task that is not canceled. -/
def SchedOk (s : System) : Prop :=
  match s.sched with
  | .idle => True
  | .token key kind _ | .marks key kind =>
    key ∈ s.world.state.active ∧ key ∉ s.world.state.cancelingSet ∧ kind ≠ .close
  | .closing activeKeys inactiveKeys => s.CloseOk activeKeys inactiveKeys
  | .closeSet key _ activeKeys inactiveKeys | .closeToken key _ activeKeys inactiveKeys =>
    key ∈ s.world.state.active ∧ key ∉ s.world.state.cancelingSet ∧
      s.CloseOk activeKeys inactiveKeys

structure Ok (limit : Direction → Nat) (s : System) : Prop where
  inv : s.world.state.Inv s.tasks.keys limit
  led : s.Led
  fresh : ∀ id, s.tasks.lookup id = none → s.world.heap id = .new
  /-- Exactly the active keys have a worker. -/
  staffed : ∀ key, (s.workers key).isSome = true ↔ key ∈ s.world.state.active
  addressed : ∀ key worker, s.workers key = some worker → ∀ e ∈ worker.outbox, e.key = key
  sched : s.SchedOk

/-- The view of every task moves by steps of the task machine. -/
def Follows (ok : InnerTask → Run → Choice → Prop) (s t : System) : Prop :=
  ∀ id, TaskSteps ok (s.view id) (t.view id)

@[simp] theorem setWorker_self (s : System) (key : UniqueId) (worker : Option Worker) :
    (s.setWorker key worker).workers key = worker := by
  simp [setWorker]

theorem setWorker_of_ne (s : System) {key k : UniqueId} (worker : Option Worker)
    (other : k ≠ key) : (s.setWorker key worker).workers k = s.workers k := by
  simp [setWorker, other]

@[simp] theorem setWorker_same (s : System) (key : UniqueId) :
    s.setWorker key (s.workers key) = s := by
  have same : (fun k => if k = key then s.workers key else s.workers k) = s.workers := by
    funext k
    split
    · rename_i here
      rw [here]
    · rfl
  simp only [setWorker, same]

/-- A step keeps the agreement and moves every task by its own machine. -/
structure Keeps (ok : InnerTask → Run → Choice → Prop) (limit : Direction → Nat)
    (s t : System) : Prop where
  agrees : t.Ok limit
  follows : Follows ok s t

section Moves

variable {ok : InnerTask → Run → Choice → Prop} {limit : Direction → Nat} {s t u : System}
  {key : UniqueId} {group : GroupState} {state : KeyState} {cell : TaskCell}

theorem Follows.refl (s : System) : Follows ok s s := fun _ => .refl

theorem Follows.trans (first : Follows ok s t) (second : Follows ok t u) : Follows ok s u :=
  fun id => (first id).trans (second id)

theorem Keeps.refl (good : s.Ok limit) : Keeps ok limit s s := ⟨good, .refl s⟩

theorem Keeps.trans (first : Keeps ok limit s t) (second : Keeps ok limit t u) :
    Keeps ok limit s u :=
  ⟨second.agrees, first.follows.trans second.follows⟩

theorem Ok.lead (good : s.Ok limit) (found : s.world.state.groups.lookup key = some group) :
    s.tasks.lookup group.leaderInner.taskId = some group.leaderInner ∧
      group.leaderInner.dedupeKey = key :=
  good.led key group found

theorem Ok.moves {w : World} {worker : Option Worker} {sched : SchedPc} {phase : Phase}
    (good : s.Ok limit) (found : s.world.state.groups.lookup key = some group)
    (touched : s.world.Touches w key group.leaderInner.taskId state cell)
    (owner : state.group = none ∨ state.group = some group)
    (focus : ∀ k, k ≠ key → sched.focus k = s.sched.focus k)
    (inv : w.state.Inv s.tasks.keys limit) (staffed : worker.isSome = state.active.isSome)
    (addressed : ∀ found, worker = some found → ∀ e ∈ found.outbox, e.key = key)
    (target : t = { s.setWorker key worker with world := w, sched := sched, phase := phase })
    (schedOk : t.SchedOk)
    (moved : TaskSteps ok
      ((s.world.state.keyState key).view (s.workers key) (s.sched.focus key)
        group.leaderInner.taskId (s.world.heap group.leaderInner.taskId))
      (state.view worker (sched.focus key) group.leaderInner.taskId cell)) :
    Keeps ok limit s t := by
  obtain ⟨submitted, filed⟩ := good.lead found
  have worker_self : t.workers key = worker := by
    rw [target]
    exact setWorker_self s key worker
  have workers : ∀ k, k ≠ key → t.workers k = s.workers k := by
    intro k other
    rw [target]
    exact setWorker_of_ne s worker other
  subst target
  refine ⟨⟨inv, fun k g there => ?_, fun id absent => ?_, fun k => ?_, fun k worker there => ?_,
    schedOk⟩, view_touches good.led found touched owner rfl workers focus ?_⟩
  · change (w.state.keyState k).group = some g at there
    by_cases here : k = key
    · subst here
      rw [touched.here] at there
      rcases owner with none | same
      · rw [none] at there
        cases there
      · rw [← Option.some.inj (same.symm.trans there)]
        exact ⟨submitted, filed⟩
    · rw [touched.others k here] at there
      exact good.led k g there
  · have other : id ≠ group.leaderInner.taskId := by
      rintro rfl
      exact absurd (submitted.symm.trans absent) (by simp)
    exact (touched.cells id other).trans (good.fresh id absent)
  · have active : k ∈ w.state.active ↔ (w.state.keyState k).active.isSome = true := by
      rw [Finmap.mem_iff, Option.isSome_iff_exists]
      rfl
    rw [active]
    by_cases here : k = key
    · subst here
      rw [touched.here, worker_self, staffed]
    · rw [workers k here, touched.others k here, good.staffed k, Finmap.mem_iff,
        Option.isSome_iff_exists]
      rfl
  · by_cases here : k = key
    · subst here
      rw [worker_self] at there
      exact addressed worker there
    · rw [workers k here] at there
      exact good.addressed k worker there
  · rw [worker_self]
    exact moved

theorem Ok.quiet (good : s.Ok limit) (tasks : t.tasks = s.tasks)
    (heap : t.world.heap = s.world.heap)
    (keys : ∀ k, t.world.state.keyState k = s.world.state.keyState k)
    (workers : t.workers = s.workers) (focus : ∀ k, t.sched.focus k = s.sched.focus k)
    (inv : t.world.state.Inv t.tasks.keys limit) (sched : t.SchedOk) : Keeps ok limit s t := by
  refine ⟨⟨inv, fun k g there => ?_, fun id absent => ?_, fun k => ?_, ?_, sched⟩, fun id => ?_⟩
  · rw [tasks]
    exact good.led k g ((congrArg KeyState.group (keys k)).symm.trans there)
  · rw [heap]
    rw [tasks] at absent
    exact good.fresh id absent
  · have active : t.world.state.active.lookup k = s.world.state.active.lookup k :=
      congrArg KeyState.active (keys k)
    rw [workers, good.staffed k, Finmap.mem_iff, Finmap.mem_iff, active]
  · rw [workers]
    exact good.addressed
  · have same : t.view id = s.view id := by
      simp only [view, tasks, heap, keys, workers, focus]
    rw [same]

theorem keyState_idle (absent : key ∉ s.world.state.active) :
    (s.world.state.keyState key).active = none := Finmap.lookup_eq_none.mpr absent

end Moves

section Start

variable {ok : InnerTask → Run → Choice → Prop} {limit : Direction → Nat} {s t : System}
  {key : UniqueId} {group : GroupState}

theorem settle_world (s : System) (w : World) (workers : List Started) :
    { workers.foldl spawn s with world := w } = workers.foldl spawn { s with world := w } := by
  induction workers generalizing s with
  | nil => rfl
  | cons started rest ih => exact ih (s.spawn started)

theorem settle_append (s : System) (middle last : World) (first rest : List Started) :
    s.settle (last, first ++ rest) = (s.settle (middle, first)).settle (last, rest) := by
  simp only [settle, List.foldl_append, settle_world]

theorem start_group (good : s.Ok limit) (idle : s.sched = .idle)
    {rest : List UniqueId} (queue : s.world.state.queued = key :: rest)
    (found : s.world.state.groups.lookup key = some group)
    (free : s.world.state.canStartDirection key.1 = true)
    (target : t = { s.setWorker key
        (some { pc := .prepCheck 0 (s.world.state.currentOffset key), outbox := [] }) with
      world := ((s.world.onState (·.popQueued key rest)).startGroup key group).1 }) :
    Keeps ok limit s t := by
  have queued : key ∈ s.world.state.queuedSet :=
    (good.inv.queue.mem_iff key).mp (queue ▸ List.mem_cons_self)
  have inactive : key ∉ s.world.state.active := (good.inv.keys key).queued_inactive queued
  have unpaused : (s.world.state.keyState key).paused = false :=
    decide_eq_false ((good.inv.keys key).queued_unpaused queued)
  have calm : (s.world.state.keyState key).canceling = false :=
    decide_eq_false fun canceling => inactive ((good.inv.keys key).canceling_active canceling)
  have popped : s.world.Touches (s.world.onState (·.popQueued key rest)) key
      group.leaderInner.taskId (s.world.state.keyState key)
      (s.world.heap group.leaderInner.taskId) :=
    (World.Touches.refl _ _ _).onState _ rfl fun _ _ => rfl
  obtain ⟨event, transmission, started⟩ :=
    World.startGroup_touches (w := s.world.onState (·.popQueued key rest)) key group
  refine good.moves found (popped.trans started) (Or.inr found) (fun _ _ => rfl) ?_ rfl ?_ target ?_
    ?_
  · rw [World.startGroup_state]
    exact good.inv.start queue free _
  · rintro worker ⟨⟩ e member
    cases member
  · subst target
    simp only [setWorker, SchedOk, idle]
  · rw [KeyState.view_idle found (keyState_idle inactive), KeyState.view_live found rfl, idle]
    refine (TaskSteps.emitIdle transmission (by simp)).tail ?_
    change TaskStep ok _ (.live _ _ (s.world.state.keyState key).paused
      (s.world.state.keyState key).canceling _)
    rw [unpaused, calm]
    exact .start _

theorem startHead_ok (good : s.Ok limit) (idle : s.sched = .idle) :
    Keeps ok limit s (s.settle (s.world.startHead.1, s.world.startHead.2.toList)) := by
  cases queue : s.world.state.queued with
  | nil =>
    have same : s.world.startHead = (s.world, none) := by
      simp only [World.startHead, queue]
    rw [same]
    exact .refl good
  | cons key rest =>
    obtain ⟨group, found, head⟩ := World.startHead_cons good.inv queue
    by_cases free : s.world.state.canStartDirection key.1 = true
    · rw [if_pos free] at head
      rw [head]
      exact start_group good idle queue found free rfl
    · rw [if_neg free] at head
      rw [head]
      refine good.quiet rfl rfl (fun _ => rfl) rfl (fun _ => rfl) (good.inv.rotate queue) ?_
      simp only [SchedOk, settle, Option.toList_none, List.foldl_nil, idle]

theorem settle_sched (s : System) (next : World × List Started) :
    (s.settle next).sched = s.sched := by
  obtain ⟨w, workers⟩ := next
  have kept : ∀ (workers : List Started) (s : System), (workers.foldl spawn s).sched = s.sched := by
    intro workers
    induction workers with
    | nil =>
      intro s
      rfl
    | cons started rest ih =>
      intro s
      exact (ih (s.spawn started)).trans rfl
  exact kept workers _

theorem settle_world_eq (s : System) (next : World × List Started) :
    (s.settle next).world = next.1 := by
  obtain ⟨w, workers⟩ := next
  have kept : ∀ (workers : List Started) (s : System), (workers.foldl spawn s).world = s.world := by
    intro workers
    induction workers with
    | nil =>
      intro s
      rfl
    | cons started rest ih =>
      intro s
      exact (ih (s.spawn started)).trans rfl
  exact kept workers _

theorem startRound_ok (n : Nat) (good : s.Ok limit) (idle : s.sched = .idle) :
    Keeps ok limit s (s.settle (World.startRound n s.world)) := by
  induction n generalizing s with
  | zero => exact .refl good
  | succ n ih =>
    have head : Keeps ok limit s _ := startHead_ok good idle
    have world := settle_world_eq s (s.world.startHead.1, s.world.startHead.2.toList)
    have tail := ih head.agrees ((settle_sched _ _).trans idle)
    rw [world] at tail
    have split : s.settle (World.startRound (n + 1) s.world) =
        (s.settle (s.world.startHead.1, s.world.startHead.2.toList)).settle
          (World.startRound n s.world.startHead.1) := settle_append ..
    rw [split]
    exact head.trans tail

theorem startLoop_ok (fuel : Nat) (good : s.Ok limit) (idle : s.sched = .idle) :
    Keeps ok limit s (s.settle (World.startLoop fuel s.world)) := by
  induction fuel generalizing s with
  | zero => exact .refl good
  | succ fuel ih =>
    have round : Keeps ok limit s _ := startRound_ok s.world.state.queued.length good idle
    have world := settle_world_eq s (World.startRound s.world.state.queued.length s.world)
    have tail := ih round.agrees ((settle_sched _ _).trans idle)
    rw [world] at tail
    rw [World.startLoop_succ]
    split
    · exact .refl good
    split
    · rename_i nothing
      have same : World.startRound s.world.state.queued.length s.world =
          ((World.startRound s.world.state.queued.length s.world).1, []) := by
        rw [← nothing]
      rw [← same]
      exact round
    · rw [settle_append s (World.startRound s.world.state.queued.length s.world).1]
      exact round.trans tail

theorem tryStartNext_ok (good : s.Ok limit) (idle : s.sched = .idle) :
    Keeps ok limit s (s.settle s.world.tryStartNext) :=
  startLoop_ok _ good idle

end Start

end System

end RustyCat
