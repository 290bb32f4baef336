import RustyCat.Binary.Law

/-!
# Outcomes of the binary executor

The first stop accepted for a task decides what its callback gets; a task without one
gets what its worker ended with.
-/

namespace RustyCat.BinaryState

variable {β : Type} {s t : BinaryState β}

/-! ## The first stop -/

def firstStop (stops : List (Nat × BinaryStop)) (taskId : Nat) : Option BinaryStop :=
  (stops.find? (·.1 = taskId)).map Prod.snd

section FirstStop

variable {stops new : List (Nat × BinaryStop)} {taskId : Nat} {stop : BinaryStop}

theorem firstStop_append :
    firstStop (stops ++ new) taskId = (firstStop stops taskId).or (firstStop new taskId) := by
  rw [firstStop, List.find?_append, Option.map_or]
  rfl

theorem firstStop_eq_none : firstStop stops taskId = none ↔ taskId ∉ stops.map Prod.fst := by
  simp only [firstStop, Option.map_eq_none_iff, List.find?_eq_none, decide_eq_true_eq,
    List.mem_map, not_exists, not_and]

theorem firstStop_append_other (other : taskId ∉ new.map Prod.fst) :
    firstStop (stops ++ new) taskId = firstStop stops taskId := by
  rw [firstStop_append, firstStop_eq_none.mpr other, Option.or_none]

theorem firstStop_append_some (stopped : firstStop stops taskId = some stop) :
    firstStop (stops ++ new) taskId = some stop := by
  rw [firstStop_append, stopped, Option.some_or]

theorem firstStop_append_none (free : firstStop stops taskId = none) :
    firstStop (stops ++ new) taskId = firstStop new taskId := by
  rw [firstStop_append, free, Option.none_or]

@[simp] theorem firstStop_singleton : firstStop [(taskId, stop)] taskId = some stop := by
  simp [firstStop]

theorem firstStop_all {taskIds : List Nat} (member : taskId ∈ taskIds) :
    firstStop (taskIds.map fun taskId => (taskId, stop)) taskId = some stop := by
  induction taskIds with
  | nil => cases member
  | cons first rest ih =>
    by_cases same : first = taskId
    · simp [firstStop, same]
    have later := ih ((List.mem_cons.mp member).resolve_left (Ne.symm same))
    rw [List.map_cons, firstStop, List.find?_cons_of_neg (by simpa using same)]
    exact later

end FirstStop

/-! ## What a callback gets -/

def stoppable (s : BinaryState β) : List Nat :=
  enqueuedIds s.commands ++ s.pending ++ s.active.map Prod.fst

def settled (s : BinaryState β) : List (Nat × Except MeowError β) :=
  (s.terminalJobs ++ s.channel).map (fun job => (job.taskId, job.result)) ++ s.called

/-- The result is the error of the first stop, or else what the worker ended with. -/
def Judged (s : BinaryState β) (entry : Nat × Except MeowError β) : Prop :=
  match firstStop s.stops entry.1 with
  | some stop => entry.2 = .error stop.error
  | none => entry ∈ s.outcomes

variable {entry : Nat × Except MeowError β} {taskId : Nat} {label : Label β}

theorem judged_of_stop {stop : BinaryStop} (stopped : firstStop s.stops entry.1 = some stop)
    (result : entry.2 = .error stop.error) :
    s.Judged entry := by
  rw [Judged, stopped]
  exact result

theorem judged_of_outcome (free : firstStop s.stops entry.1 = none) (outcome : entry ∈ s.outcomes) :
    s.Judged entry := by
  rw [Judged, free]
  exact outcome

theorem Placed.settled_not_stoppable (placed : Placed s)
    (member : entry ∈ s.settled) : entry.1 ∉ s.stoppable := by
  intro reached
  have once := placed.count_le_one entry.1
  have before : 0 < s.stoppable.count entry.1 := List.count_pos_iff.mpr reached
  have after : 0 < (s.settled.map Prod.fst).count entry.1 :=
    List.count_pos_iff.mpr (List.mem_map_of_mem member)
  have ids : s.settled.map Prod.fst = s.terminalJobs.map CallbackJob.taskId ++
      s.channel.map CallbackJob.taskId ++ s.called.map Prod.fst := by
    simp [settled, Function.comp_def]
  rw [ids] at after
  simp only [stoppable, List.count_append] at before after
  omega

theorem Placed.stoppable_accepted (placed : Placed s)
    (member : taskId ∈ s.stoppable) : taskId ∈ s.accepted := by
  refine placed.perm.mem_iff.mp ?_
  exact List.mem_append_left _ (List.mem_append_left _ (List.mem_append_left _ member))

theorem stops_step (step : Step s label t) :
    ∃ new, t.stops = s.stops ++ new ∧ ∀ taskId ∈ new.map Prod.fst, taskId ∈ s.stoppable := by
  cases step with
  | late _ head _ _ =>
    refine ⟨_, rfl, ?_⟩
    simp [stoppable, head]
  | canceledPending _ _ here _ =>
    refine ⟨_, rfl, ?_⟩
    simp [stoppable, here]
  | canceledActive _ _ here _ =>
    refine ⟨_, rfl, fun taskId member => ?_⟩
    rw [List.mem_singleton.mp member]
    exact List.mem_append_right _ (List.mem_map_of_mem here)
  | closed _ head _ =>
    refine ⟨_, rfl, fun taskId member => ?_⟩
    simp only [List.map_map, Function.comp_def, List.map_id', List.mem_append] at member
    rcases member with waits | works
    · exact List.mem_append_left _ (List.mem_append_right _ waits)
    · exact List.mem_append_right _ works
  | _ => exact ⟨[], (List.append_nil _).symm, nofun⟩

theorem outcomes_step (step : Step s label t) : s.outcomes ⊆ t.outcomes := by
  cases step with
  | workerEnded _ _ => exact List.subset_append_left _ _
  | _ => exact List.Subset.refl _

theorem Placed.firstStop_settled (placed : Placed s) (step : Step s label t)
    (member : entry ∈ s.settled) :
    firstStop t.stops entry.1 = firstStop s.stops entry.1 := by
  obtain ⟨new, stops, reached⟩ := stops_step step
  rw [stops]
  exact firstStop_append_other fun stopped =>
    placed.settled_not_stoppable member (reached _ stopped)

theorem Judged.step (placed : Placed s) (step : Step s label t) (member : entry ∈ s.settled)
    (judged : s.Judged entry) :
    t.Judged entry := by
  rw [Judged, placed.firstStop_settled step member]
  unfold Judged at judged
  split
  · rename_i stopped
    rw [stopped] at judged
    exact judged
  · rename_i free
    rw [free] at judged
    exact outcomes_step step judged

/-! ## What every step keeps -/

structure Verdicts (s : BinaryState β) : Prop where
  known : ∀ taskId ∈ s.stops.map Prod.fst, taskId ∈ s.accepted
  waiting : ∀ taskId ∈ enqueuedIds s.commands ++ s.pending, firstStop s.stops taskId = none
  working : ∀ worker ∈ s.active, firstStop s.stops worker.1 = worker.2
  reported : s.events ⊆ s.outcomes
  settled : ∀ entry ∈ s.settled, s.Judged entry
  once : s.cancelOks.Nodup
  canceled : ∀ taskId ∈ s.cancelOks, firstStop s.stops taskId = some .cancel

/-- A close is handled only while no worker has been told to stop by a cancel. -/
def ClosesFirst (s : BinaryState β) : Label β → Prop
  | .recvCommand =>
    s.commands.head? = some .close → ∀ worker ∈ s.active, worker.2 ≠ some .cancel
  | _ => True

theorem Placed.stoppable_nodup (placed : Placed s) : s.stoppable.Nodup := by
  refine placed.nodup.sublist ?_
  exact ((List.sublist_append_left _ _).trans (List.sublist_append_left _ _)).trans
    (List.sublist_append_left _ _)

theorem Placed.not_mem_others (placed : Placed s) {others : List Nat}
    (perm : s.stoppable.Perm (taskId :: others)) : taskId ∉ others :=
  (List.nodup_cons.mp (perm.nodup_iff.mp placed.stoppable_nodup)).1

theorem Placed.waiting_ne_working (placed : Placed s) {worker : Nat × Option BinaryStop}
    (waits : taskId ∈ enqueuedIds s.commands ++ s.pending)
    (works : worker ∈ s.active) : taskId ≠ worker.1 :=
  (List.nodup_append.mp placed.stoppable_nodup).2.2 _ waits _ (List.mem_map_of_mem works)

theorem stoppable_enqueue {rest : List BinaryCommand}
    (head : s.commands = .enqueue taskId :: rest) :
    s.stoppable.Perm (taskId :: (enqueuedIds rest ++ s.pending ++ s.active.map Prod.fst)) := by
  rw [stoppable, head]
  exact List.Perm.refl _

theorem stoppable_pending {rest : List BinaryCommand} {before after : List Nat}
    (head : s.commands = .cancel taskId :: rest) (here : s.pending = before ++ taskId :: after) :
    s.stoppable.Perm
      (taskId :: (enqueuedIds rest ++ (before ++ after) ++ s.active.map Prod.fst)) := by
  rw [stoppable, head, here, enqueuedIds_cancel, ← List.append_assoc, ← List.append_assoc,
    ← List.cons_append]
  exact List.Perm.append_right _ List.perm_middle

theorem accepted_step (step : Step s label t) : s.accepted ⊆ t.accepted := by
  cases step with
  | enqueued _ _ => exact List.subset_append_left _ _
  | _ => exact List.Subset.refl _

theorem Verdicts.known_step (placed : Placed s) (verdicts : Verdicts s)
    (step : Step s label t) : ∀ taskId ∈ t.stops.map Prod.fst, taskId ∈ t.accepted := by
  obtain ⟨new, stops, reached⟩ := stops_step step
  intro taskId member
  rw [stops, List.map_append] at member
  rcases List.mem_append.mp member with old | fresh
  · exact accepted_step step (verdicts.known taskId old)
  · exact accepted_step step (placed.stoppable_accepted (reached taskId fresh))

theorem Verdicts.waiting_step (placed : Placed s) (verdicts : Verdicts s) (step : Step s label t) :
    ∀ taskId ∈ enqueuedIds t.commands ++ t.pending, firstStop t.stops taskId = none := by
  have waiting := verdicts.waiting
  cases step with
  | enqueued _ _ =>
    intro taskId member
    simp only [enqueuedIds_append, enqueuedIds_enqueue, enqueuedIds_nil, List.append_assoc,
      List.mem_append, List.mem_singleton] at member
    rcases member with old | rfl | old
    · exact waiting taskId (List.mem_append_left _ old)
    · -- a new task has a new number
      refine firstStop_eq_none.mpr fun stopped => ?_
      have accepted := verdicts.known _ stopped
      rw [placed.fresh] at accepted
      exact absurd (List.mem_range.mp accepted) (Nat.lt_irrefl _)
    · exact waiting taskId (List.mem_append_right _ old)
  | sent kind _ =>
    simpa only [enqueuedIds_append, enqueuedIds_singleton kind, List.append_nil] using waiting
  | launched pending _ _ =>
    intro taskId member
    refine waiting taskId ?_
    rw [pending]
    rcases List.mem_append.mp member with queued | waits
    · exact List.mem_append_left _ queued
    · exact List.mem_append_right _ (List.mem_cons_of_mem _ waits)
  | admitted _ head _ =>
    intro taskId member
    refine waiting taskId ?_
    rw [head, enqueuedIds_enqueue]
    simp only [List.mem_append, List.mem_cons, List.not_mem_nil, or_false] at member ⊢
    rcases member with queued | waits | same
    · exact Or.inl (Or.inr queued)
    · exact Or.inr waits
    · exact Or.inl (Or.inl same)
  | late _ head _ _ =>
    have alone := placed.not_mem_others (stoppable_enqueue head)
    intro taskId member
    refine (firstStop_append_other fun same => ?_).trans (waiting taskId ?_)
    · rw [List.mem_singleton.mp same] at member
      exact alone (List.mem_append_left _ member)
    · rw [head, enqueuedIds_enqueue]
      exact List.mem_cons_of_mem _ member
  | canceledPending _ head here _ =>
    have alone := placed.not_mem_others (stoppable_pending head here)
    intro taskId member
    refine (firstStop_append_other fun same => ?_).trans (waiting taskId ?_)
    · rw [List.mem_singleton.mp same] at member
      exact alone (List.mem_append_left _ member)
    · rw [head, here, enqueuedIds_cancel]
      simp only [List.mem_append, List.mem_cons] at member ⊢
      rcases member with queued | first | last
      · exact Or.inl queued
      · exact Or.inr (Or.inl first)
      · exact Or.inr (Or.inr (Or.inr last))
  | canceledActive _ head here _ =>
    intro taskId member
    have waits : taskId ∈ enqueuedIds s.commands ++ s.pending := by
      rw [head, enqueuedIds_cancel]
      exact member
    refine (firstStop_append_other fun same => ?_).trans (waiting taskId waits)
    exact placed.waiting_ne_working waits here (List.mem_singleton.mp same)
  | notFound _ head => simpa only [head, enqueuedIds_cancel] using waiting
  | closed _ head _ =>
    intro taskId member
    have queued : taskId ∈ enqueuedIds s.commands := by
      rw [head, enqueuedIds_close]
      simpa only [beginClose, List.append_nil] using member
    refine (firstStop_append_other fun same => ?_).trans
      (waiting taskId (List.mem_append_left _ queued))
    simp only [List.map_map, Function.comp_def, List.map_id'] at same
    have nodup := placed.stoppable_nodup
    rw [stoppable, List.append_assoc] at nodup
    exact (List.nodup_append.mp nodup).2.2 _ queued _ same rfl
  | _ => exact waiting

theorem Verdicts.working_beside (verdicts : Verdicts s) {stop : BinaryStop}
    (alone : taskId ∉ s.active.map Prod.fst) :
    ∀ worker ∈ s.active, firstStop (s.stops ++ [(taskId, stop)]) worker.1 = worker.2 := by
  intro worker member
  refine (firstStop_append_other fun same => alone ?_).trans (verdicts.working worker member)
  have same : worker.1 = taskId := List.mem_singleton.mp same
  rw [← same]
  exact List.mem_map_of_mem member

theorem Verdicts.working_step (placed : Placed s) (verdicts : Verdicts s)
    (first : s.ClosesFirst label) (step : Step s label t) :
    ∀ worker ∈ t.active, firstStop t.stops worker.1 = worker.2 := by
  have working := verdicts.working
  cases step with
  | launched pending _ _ =>
    intro worker member
    rcases List.mem_append.mp member with old | new
    · exact working worker old
    · rw [List.mem_singleton.mp new]
      refine verdicts.waiting _ (List.mem_append_right _ ?_)
      rw [pending]
      exact List.mem_cons_self
  | late _ head _ _ =>
    have alone := placed.not_mem_others (stoppable_enqueue head)
    exact verdicts.working_beside fun works => alone (List.mem_append_right _ works)
  | canceledPending _ head here _ =>
    have alone := placed.not_mem_others (stoppable_pending head here)
    exact verdicts.working_beside fun works => alone (List.mem_append_right _ works)
  | canceledActive _ _ here _ =>
    intro worker member
    obtain ⟨before, old, rfl⟩ := List.mem_map.mp member
    unfold markCancel
    split
    · exact (firstStop_append_none (working _ here)).trans firstStop_singleton
    · rename_i other
      exact (firstStop_append_other (by simpa using other)).trans (working before old)
  | closed _ head _ =>
    intro worker member
    obtain ⟨before, old, rfl⟩ := List.mem_map.mp member
    have reason := working before old
    match stored : before.2 with
    | none =>
      rw [stored] at reason
      refine (firstStop_append_none reason).trans (firstStop_all ?_)
      exact List.mem_append_right _ (List.mem_map_of_mem old)
    | some .close =>
      rw [stored] at reason
      exact firstStop_append_some reason
    | some .cancel => exact absurd stored (first (by rw [head]; rfl) before old)
  | ended _ _ here _ =>
    intro worker member
    refine working worker ?_
    rw [here]
    rcases List.mem_append.mp member with old | old
    · exact List.mem_append_left _ old
    · exact List.mem_append_right _ (List.mem_cons_of_mem _ old)
  | _ => exact working

theorem Verdicts.reported_step (verdicts : Verdicts s) (step : Step s label t) :
    t.events ⊆ t.outcomes := by
  have reported := verdicts.reported
  cases step with
  | ended _ head _ _ =>
    rw [head] at reported
    exact (List.cons_subset.mp reported).2
  | workerEnded _ _ =>
    exact List.append_subset.mpr ⟨List.Subset.trans reported (List.subset_append_left _ _),
      List.subset_append_right _ _⟩
  | _ => exact reported

theorem Verdicts.settled_of_new (placed : Placed s) (verdicts : Verdicts s) (step : Step s label t)
    (new : List (Nat × Except MeowError β))
    (either : ∀ entry ∈ t.settled, entry ∈ s.settled ∨ entry ∈ new)
    (judged : ∀ entry ∈ new, t.Judged entry) : ∀ entry ∈ t.settled, t.Judged entry := by
  intro entry member
  rcases either entry member with old | fresh
  · exact (verdicts.settled entry old).step placed step old
  · exact judged entry fresh

theorem mem_settled_append {new : List (CallbackJob β)}
    (jobs : t.terminalJobs = s.terminalJobs ++ new) (channel : t.channel = s.channel)
    (called : t.called = s.called) (entry : Nat × Except MeowError β) (member : entry ∈ t.settled) :
    entry ∈ s.settled ∨ entry ∈ new.map fun job => (job.taskId, job.result) := by
  simp only [BinaryState.settled, jobs, channel, called, List.map_append, List.mem_append]
    at member ⊢
  rcases member with ((old | fresh) | old) | old
  · exact Or.inl (Or.inl (Or.inl old))
  · exact Or.inr fresh
  · exact Or.inl (Or.inl (Or.inr old))
  · exact Or.inl (Or.inr old)

theorem Verdicts.settled_step (placed : Placed s) (verdicts : Verdicts s)
    (step : Step s label t) : ∀ entry ∈ t.settled, t.Judged entry := by
  have whole := step
  cases step with
  | flushed _ _ jobs =>
    refine verdicts.settled_of_new placed whole [] (fun entry member => Or.inl ?_) nofun
    simpa [BinaryState.settled, jobs, or_assoc, or_comm, or_left_comm] using member
  | late _ head _ _ =>
    refine verdicts.settled_of_new placed whole _ (mem_settled_append rfl rfl rfl) ?_
    rintro entry member
    rw [List.mem_singleton.mp member]
    refine @judged_of_stop _ _ _ .close ?_ rfl
    refine (firstStop_append_none (verdicts.waiting _ ?_)).trans firstStop_singleton
    rw [head]
    exact List.mem_cons_self
  | canceledPending _ _ here _ =>
    refine verdicts.settled_of_new placed whole _ (mem_settled_append rfl rfl rfl) ?_
    rintro entry member
    rw [List.mem_singleton.mp member]
    refine @judged_of_stop _ _ _ .cancel ?_ rfl
    refine (firstStop_append_none (verdicts.waiting _ ?_)).trans firstStop_singleton
    rw [here]
    exact List.mem_append_right _ (List.mem_append_right _ List.mem_cons_self)
  | closed _ _ _ =>
    refine verdicts.settled_of_new placed whole _ (mem_settled_append rfl rfl rfl) ?_
    rintro entry member
    simp only [List.map_map, Function.comp_def, List.mem_map] at member
    obtain ⟨taskId, waits, rfl⟩ := member
    refine @judged_of_stop _ _ _ .close ?_ rfl
    have free := verdicts.waiting taskId (List.mem_append_right _ waits)
    exact (firstStop_append_none free).trans (firstStop_all (List.mem_append_left _ waits))
  | @ended _ taskId result reason _ _ _ _ head here _ =>
    refine verdicts.settled_of_new placed whole _ (mem_settled_append rfl rfl rfl) ?_
    rintro entry member
    rw [List.mem_singleton.mp member]
    have cell : firstStop s.stops taskId = reason :=
      verdicts.working (taskId, reason) (here ▸ List.mem_append_right _ List.mem_cons_self)
    cases reason with
    | some stop => exact judged_of_stop cell rfl
    | none => exact judged_of_outcome cell (verdicts.reported (head ▸ List.mem_cons_self))
  | called head _ =>
    refine verdicts.settled_of_new placed whole [] (fun entry member => Or.inl ?_) nofun
    simpa [BinaryState.settled, head, or_assoc, or_comm, or_left_comm] using member
  | _ =>
    exact fun entry member => (verdicts.settled entry member).step placed whole member

theorem Verdicts.cancel_step (verdicts : Verdicts s) (free : firstStop s.stops taskId = none) :
    (s.cancelOks ++ [taskId]).Nodup ∧ ∀ canceled ∈ s.cancelOks ++ [taskId],
      firstStop (s.stops ++ [(taskId, .cancel)]) canceled = some .cancel := by
  refine ⟨List.nodup_append.mpr ⟨verdicts.once, List.pairwise_singleton _ _, ?_⟩, ?_⟩
  · rintro canceled member other new rfl
    rw [List.mem_singleton.mp new] at member
    have stopped := verdicts.canceled taskId member
    rw [free] at stopped
    cases stopped
  · intro canceled member
    rcases List.mem_append.mp member with old | new
    · exact firstStop_append_some (verdicts.canceled canceled old)
    · rw [List.mem_singleton.mp new]
      exact (firstStop_append_none free).trans firstStop_singleton

theorem Verdicts.cancels_step (verdicts : Verdicts s) (step : Step s label t) :
    t.cancelOks.Nodup ∧ ∀ taskId ∈ t.cancelOks, firstStop t.stops taskId = some .cancel := by
  cases step with
  | canceledPending _ _ here _ =>
    refine verdicts.cancel_step (verdicts.waiting _ (List.mem_append_right _ ?_))
    rw [here]
    exact List.mem_append_right _ List.mem_cons_self
  | canceledActive _ _ here _ => exact verdicts.cancel_step (verdicts.working _ here)
  | late _ _ _ _ | closed _ _ _ =>
    exact ⟨verdicts.once, fun taskId member =>
      firstStop_append_some (verdicts.canceled taskId member)⟩
  | _ => exact ⟨verdicts.once, verdicts.canceled⟩

theorem Verdicts.step (placed : Placed s) (verdicts : Verdicts s) (first : s.ClosesFirst label)
    (step : Step s label t) : Verdicts t where
  known := verdicts.known_step placed step
  waiting := verdicts.waiting_step placed step
  working := verdicts.working_step placed first step
  reported := verdicts.reported_step step
  settled := verdicts.settled_step placed step
  once := (verdicts.cancels_step step).1
  canceled := (verdicts.cancels_step step).2

/-! ## Every run -/

theorem placed_origin : Placed (origin : BinaryState β) := ⟨fun _ => rfl, rfl⟩

theorem permits_origin : Permits (origin : BinaryState β) where
  outstanding := rfl
  room := Nat.zero_le _
  slots := rfl
  held := nofun
  flight := rfl
  calls := rfl

theorem gate_origin : Gate (origin : BinaryState β) :=
  ⟨fun _ => ⟨rfl, nofun⟩, List.Pairwise.nil, nofun, nofun⟩

theorem verdicts_origin : Verdicts (origin : BinaryState β) where
  known := nofun
  waiting := nofun
  working := nofun
  reported := nofun
  settled := nofun
  once := List.nodup_nil
  canceled := nofun

theorem reachable_law (run : Machine.Reachable step (origin : BinaryState β) s) :
    Placed s ∧ Permits s ∧ Gate s := by
  refine run.invariant (fun s => Placed s ∧ Permits s ∧ Gate s)
    ⟨placed_origin, permits_origin, gate_origin⟩ ?_
  rintro s label t ⟨placed, permits, gate⟩ _ taken
  have step := step_cases taken
  exact ⟨placed.step step, permits.step placed step, gate.step step⟩

theorem run_verdicts (run : Machine.Run step ClosesFirst (origin : BinaryState β) s) :
    Verdicts s := by
  suffices both : Placed s ∧ Verdicts s from both.2
  refine run.invariant (fun s => Placed s ∧ Verdicts s) ⟨placed_origin, verdicts_origin⟩ ?_
  rintro s label t ⟨placed, verdicts⟩ first taken
  have step := step_cases taken
  exact ⟨placed.step step, verdicts.step placed first step⟩

theorem Placed.called_nodup (placed : Placed s) : (s.called.map Prod.fst).Nodup :=
  placed.nodup.sublist (List.sublist_append_right _ _)

theorem Placed.called_accepted (placed : Placed s) : s.called.map Prod.fst ⊆ s.accepted :=
  fun _ member => placed.perm.mem_iff.mp (List.mem_append_right _ member)

theorem Gate.places_called (gate : Gate s) (permits : Permits s) (replied : s.replied = true) :
    s.places = s.called.map Prod.fst := by
  obtain ⟨closing, pending, active, jobs, idle⟩ := gate.exit replied
  have flight := permits.flight
  rw [idle] at flight
  have channel : s.channel = [] := List.length_eq_zero_iff.mp (by omega)
  simp only [places, gate.closed closing, pending, active, jobs, channel, List.map_nil,
    List.nil_append]

def unfinished (s : BinaryState β) : List Nat := s.accepted.filter (· ∉ s.finished)

theorem Permits.unfinished_length (placed : Placed s) (permits : Permits s) :
    s.unfinished.length = s.outstanding := by
  have calls := permits.calls
  have finished : s.finished.Nodup :=
    placed.called_nodup.sublist (calls ▸ List.sublist_append_left _ _)
  have accepted : s.accepted.Nodup := placed.perm.nodup_iff.mp placed.nodup
  -- the finished tasks are those that the filter leaves out
  have out : (s.accepted.filter (· ∈ s.finished)).Perm s.finished := by
    refine (List.perm_ext_iff_of_nodup (accepted.sublist List.filter_sublist) finished).mpr ?_
    intro taskId
    simp only [List.mem_filter, decide_eq_true_eq, and_iff_right_iff_imp]
    intro member
    exact placed.called_accepted (calls ▸ List.mem_append_left _ member)
  have both := @List.length_eq_countP_add_countP _ (· ∈ s.finished) s.accepted
  simp only [List.countP_eq_length_filter, decide_eq_true_eq] at both
  have total := permits.outstanding
  have length := out.length_eq
  simp only [unfinished]
  omega

theorem run_outcome (run : Machine.Run step ClosesFirst (origin : BinaryState β) s) :
    (s.called.map Prod.fst).Nodup ∧ s.called.map Prod.fst ⊆ s.accepted ∧
      (s.replied = true → (s.called.map Prod.fst).Perm s.accepted) ∧
      (∀ call ∈ s.called, s.Judged call) ∧
      (∀ call ∈ s.called, call.1 ∈ s.cancelOks → call.2 = .error binaryTaskCanceled) ∧
      s.cancelOks.Nodup ∧ s.unfinished.length ≤ 1024 ∧ s.active.length ≤ 2 ∧
      s.active.length + s.bodies ≤ 2 := by
  obtain ⟨placed, permits, gate⟩ := reachable_law run.reachable
  have verdicts := run_verdicts run
  have slots : s.bodySlots + s.active.length + s.bodies = 2 := permits.slots
  have judged : ∀ call ∈ s.called, s.Judged call := fun call member =>
    verdicts.settled call (List.mem_append_right _ member)
  refine ⟨placed.called_nodup, placed.called_accepted, fun replied => ?_, judged, ?_,
    verdicts.once, ?_, by omega, by omega⟩
  · rw [← gate.places_called permits replied]
    exact placed.perm
  · intro call member canceled
    have result := judged call member
    rw [Judged, verdicts.canceled call.1 canceled] at result
    exact result
  · rw [permits.unfinished_length placed]
    exact permits.room

instance decidableClosesFirst (s : BinaryState β) : ∀ label, Decidable (s.ClosesFirst label)
  | .recvCommand => by
    unfold ClosesFirst
    infer_instance
  | .enqueue | .shut | .sendCancel _ | .sendClose | .tick | .recvEvent | .recvAck
  | .workerEnds _ _ | .call | .returns | .ack => isTrue trivial

/-! ## Runs -/

def cancelSecond : List (Label Nat) :=
  [.enqueue, .enqueue] ++ List.replicate 4 .tick ++ [.recvCommand] ++ List.replicate 5 .tick ++
    [.recvCommand] ++ List.replicate 5 .tick ++
    [.workerEnds 0 (.ok 7), .sendCancel 1, .recvCommand] ++ List.replicate 4 .tick

/-- Both callbacks are called, and then the client closes. -/
def closeAfter : List (Label Nat) :=
  [.recvEvent] ++ List.replicate 4 .tick ++ [.call, .returns, .ack, .recvAck] ++
    List.replicate 4 .tick ++ [.workerEnds 1 (.ok 8), .recvEvent] ++ List.replicate 4 .tick ++
    [.call, .returns, .ack, .recvAck] ++ List.replicate 4 .tick ++
    [.shut, .sendClose, .recvCommand] ++ List.replicate 4 .tick

theorem run_outcome_closeAfter :
    ∃ s : BinaryState Nat, Machine.exec step origin (cancelSecond ++ closeAfter) = some s ∧
      s.called = [(0, .ok 7), (1, .error binaryTaskCanceled)] ∧
      (s.called.map Prod.fst).Perm s.accepted := by
  obtain ⟨s, executed, called, replied⟩ :
      ∃ s : BinaryState Nat, Machine.exec step origin (cancelSecond ++ closeAfter) = some s ∧
        s.called = [(0, .ok 7), (1, .error binaryTaskCanceled)] ∧ s.replied = true :=
    ⟨_, rfl, rfl, rfl⟩
  have reached : Machine.Run step ClosesFirst origin s :=
    Machine.run_of_exec executed (by decide +kernel)
  exact ⟨s, executed, called, (run_outcome reached).2.2.1 replied⟩

/-- The client closes before the canceled worker has ended. -/
def closeDuring : List (Label Nat) :=
  [.shut, .sendClose, .recvCommand] ++ List.replicate 4 .tick ++ [.recvEvent] ++
    List.replicate 4 .tick ++ [.call, .returns, .ack, .workerEnds 1 (.error binaryTaskCanceled),
      .recvAck] ++ List.replicate 4 .tick ++ [.recvEvent] ++ List.replicate 4 .tick ++ [.call]

/-- The cancel was accepted first, and yet the callback is told of the close. -/
theorem closed_after_cancel :
    ∃ s : BinaryState Nat, Machine.Reachable step origin s ∧ s.cancelOks = [1] ∧
      firstStop s.stops 1 = some .cancel ∧ (1, .error binaryClientClosed) ∈ s.called ∧
      ¬ s.Judged (1, .error binaryClientClosed) := by
  obtain ⟨s, executed, canceled, first, called⟩ :
      ∃ s : BinaryState Nat, Machine.exec step origin (cancelSecond ++ closeDuring) = some s ∧
        s.cancelOks = [1] ∧ firstStop s.stops 1 = some .cancel ∧
        s.called = [(0, .error binaryClientClosed), (1, .error binaryClientClosed)] :=
    ⟨_, rfl, rfl, rfl, rfl⟩
  refine ⟨s, Machine.reachable_of_exec executed, canceled, first, by simp [called], ?_⟩
  rw [Judged, first]
  simp [BinaryStop.error, binaryClientClosed, binaryTaskCanceled, MeowError.fromCode]

end RustyCat.BinaryState
