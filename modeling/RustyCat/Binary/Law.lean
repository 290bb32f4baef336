import RustyCat.Binary.Executor

/-!
# What every step of the binary executor keeps

Each accepted task is in one place, from the command queue to the record of calls; the
permits count the tasks that have not finished and the bodies that are held.
-/

namespace RustyCat.BinaryState

variable {β : Type} {s t : BinaryState β}

/-- The steps, one constructor for each thing a step can do; `point` is where the loop
goes on. -/
inductive Step (s : BinaryState β) : Label β → BinaryState β → Prop where
  | refused {label : Label β} : Step s label s
  | enqueued {label : Label β} (admitting : s.admitting = true)
      (room : s.outstanding < binaryMaxOutstandingTasks) :
      Step s label { s with
        nextId := s.nextId + 1
        outstanding := s.outstanding + 1
        commands := s.commands ++ [.enqueue s.nextId]
        accepted := s.accepted ++ [s.nextId] }
  | shut {label : Label β} : Step s label { s with admitting := false }
  | sent {label : Label β} {command : BinaryCommand} (kind : command.enqueued? = none)
      (gate : command = .close → s.admitting = false) :
      Step s label { s with commands := s.commands ++ [command] }
  | moved {label : Label β} (point : LoopPoint) : Step s label { s with point := point }
  | drained {label : Label β} {ack : Nat} {rest : List Nat} (point : LoopPoint)
      (acks : s.acks = ack :: rest) :
      Step s label
        { s with acks := rest, callbackInflight := s.callbackInflight - 1, point := point }
  | flushed {label : Label β} {job : CallbackJob β} {rest : List (CallbackJob β)}
      (point : LoopPoint)
      (idle : s.callbackInflight = 0) (jobs : s.terminalJobs = job :: rest) :
      Step s label { s with
        terminalJobs := rest, channel := s.channel ++ [job], callbackInflight := 1, point := point }
  | launched {label : Label β} {taskId : Nat} {rest : List Nat}
      (pending : s.pending = taskId :: rest)
      (few : s.active.length < binaryMaxConcurrency) (free : 0 < s.bodySlots) :
      Step s label { s with
        pending := rest
        active := s.active ++ [(taskId, none)]
        bodySlots := s.bodySlots - 1 }
  | exited {label : Label β} (closing : s.closing = true) (noPending : s.pending = [])
      (noActive : s.active = [])
      (noJobs : s.terminalJobs = []) (idle : s.callbackInflight = 0) : Step s label
        { s with replied := true }
  | admitted {label : Label β} {taskId : Nat} {rest : List BinaryCommand} (point : LoopPoint)
      (head : s.commands = .enqueue taskId :: rest) (live : s.replied = false) :
      Step s label { s with commands := rest, pending := s.pending ++ [taskId], point := point }
  | late {label : Label β} {taskId : Nat} {rest : List BinaryCommand} (point : LoopPoint)
      (head : s.commands = .enqueue taskId :: rest) (closing : s.closing = true)
      (live : s.replied = false) :
      Step s label { s with
        commands := rest
        terminalJobs := s.terminalJobs ++ [⟨taskId, .error binaryClientClosed, false⟩]
        stops := s.stops ++ [(taskId, .close)]
        point := point }
  | canceledPending {label : Label β} {taskId : Nat} {rest : List BinaryCommand}
      {before after : List Nat}
      (point : LoopPoint) (head : s.commands = .cancel taskId :: rest)
      (here : s.pending = before ++ taskId :: after) (live : s.replied = false) :
      Step s label { s with
        commands := rest
        pending := before ++ after
        terminalJobs := s.terminalJobs ++ [⟨taskId, .error binaryTaskCanceled, false⟩]
        stops := s.stops ++ [(taskId, .cancel)]
        cancelOks := s.cancelOks ++ [taskId]
        point := point }
  | canceledActive {label : Label β} {taskId : Nat} {rest : List BinaryCommand} (point : LoopPoint)
      (head : s.commands = .cancel taskId :: rest) (here : (taskId, none) ∈ s.active)
      (live : s.replied = false) :
      Step s label { s with
        commands := rest
        active := s.active.map (markCancel taskId)
        stops := s.stops ++ [(taskId, .cancel)]
        cancelOks := s.cancelOks ++ [taskId]
        point := point }
  | notFound {label : Label β} {taskId : Nat} {rest : List BinaryCommand} (point : LoopPoint)
      (head : s.commands = .cancel taskId :: rest) :
      Step s label { s with commands := rest, point := point }
  | closed {rest : List BinaryCommand} (point : LoopPoint) (head : s.commands = .close :: rest)
      (live : s.replied = false) :
      Step s .recvCommand
        { { s with commands := rest }.beginClose with closing := true, point := point }
  | ended {label : Label β} {taskId : Nat} {result : Except MeowError β}
      {reason : Option BinaryStop}
      {rest : List (Nat × Except MeowError β)} {before after : List (Nat × Option BinaryStop)}
      (point : LoopPoint) (head : s.events = (taskId, result) :: rest)
      (here : s.active = before ++ (taskId, reason) :: after) (live : s.replied = false) :
      Step s label { s with
        events := rest
        active := before ++ after
        bodySlots := if isOk (resultFor reason result) then s.bodySlots else s.bodySlots + 1
        terminalJobs := s.terminalJobs ++
          [⟨taskId, resultFor reason result, isOk (resultFor reason result)⟩]
        point := point }
  | workerEnded {label : Label β} {taskId : Nat} {result : Except MeowError β}
      (here : taskId ∈ s.active.map Prod.fst)
      (new : taskId ∉ s.events.map Prod.fst) :
      Step s label { s with
        events := s.events ++ [(taskId, result)]
        outcomes := s.outcomes ++ [(taskId, result)] }
  | called {label : Label β} {job : CallbackJob β} {rest : List (CallbackJob β)}
      (head : s.channel = job :: rest)
      (free : s.running = none) :
      Step s label { s with
        channel := rest, running := some job, called := s.called ++ [(job.taskId, job.result)] }
  | returned {label : Label β} {job : CallbackJob β} (running : s.running = some job)
      (free : s.returned = none) :
      Step s label { s with
        running := none
        returned := some job.taskId
        outstanding := s.outstanding - 1
        bodySlots := if job.bodyPermit then s.bodySlots + 1 else s.bodySlots
        finished := s.finished ++ [job.taskId] }
  | acked {label : Label β} {taskId : Nat} (returned : s.returned = some taskId) :
      Step s label { s with returned := none, acks := s.acks ++ [taskId] }

theorem step_tick : Step s .tick s.tick := by
  unfold tick
  split
  · split
    · exact .moved .flush
    · rename_i acks
      exact Step.drained s.point acks
  · unfold flushCallbackJobs
    split
    · exact .moved .launch
    rename_i idle
    split
    · exact .moved .launch
    rename_i jobs
    split
    · exact .flushed .launch (by omega) jobs
    · exact .moved .launch
  · split
    · exact .moved .check
    · rename_i pending
      split
      · rename_i may
        exact .launched pending may.2.1 may.2.2
      · exact .moved .check
  · split
    · rename_i idle
      exact .exited idle.1 idle.2.1 idle.2.2.1 (by simpa using idle.2.2.2.1) idle.2.2.2.2
    · exact .moved .select
  · exact .refused

variable {command : BinaryCommand} {label : Label β}

theorem step_onCommand {rest : List BinaryCommand} (live : s.replied = false)
    (head : s.commands = command :: rest) :
    Step s .recvCommand { { s with commands := rest }.onCommand command with point := .drain } := by
  cases command with
  | enqueue taskId =>
    simp only [onCommand]
    split
    · rename_i closing
      exact .late .drain head closing live
    · exact .admitted .drain head live
  | cancel taskId =>
    by_cases waits : taskId ∈ s.pending
    · obtain ⟨before, after, _, here, erased⟩ := List.exists_erase_eq waits
      simp only [onCommand, cancelTask, if_pos waits, finishTask, noteStop, erased]
      exact .canceledPending .drain head here live
    · by_cases works : (taskId, none) ∈ s.active
      · simp only [onCommand, cancelTask, if_neg waits, if_pos works]
        exact .canceledActive .drain head works live
      · simp only [onCommand, cancelTask, if_neg waits, if_neg works]
        exact .notFound .drain head
  | close => exact .closed .drain head live

/-- Everything a step can do. -/
theorem step_cases (taken : s.step label = some t) : Step s label t := by
  cases label with
  | enqueue =>
    simp only [step, tryEnqueue, Option.some.injEq] at taken
    split at taken
    · cases taken
      exact .refused
    · rename_i admitting
      split at taken
      · cases taken
        exact .refused
      · rename_i room
        split at taken
        · cases taken
          exact .refused
        · cases taken
          exact .enqueued (by simpa using admitting) (Nat.lt_of_not_le room)
  | shut =>
    cases taken
    exact .shut
  | sendCancel taskId =>
    simp only [step, send, Option.ite_none_right_eq_some, Option.some.injEq] at taken
    obtain ⟨_, rfl⟩ := taken
    exact .sent rfl nofun
  | sendClose =>
    simp only [step, send, Option.ite_none_right_eq_some, Option.ite_none_left_eq_some,
      Option.some.injEq] at taken
    obtain ⟨shut, _, rfl⟩ := taken
    exact .sent rfl fun _ => by simpa using shut
  | tick =>
    simp only [step, Option.ite_none_left_eq_some, Option.some.injEq, not_or] at taken
    obtain ⟨_, rfl⟩ := taken
    exact step_tick
  | recvCommand =>
    simp only [step] at taken
    split at taken
    · cases taken
    rename_i head
    simp only [Option.ite_none_left_eq_some, Option.some.injEq, not_or] at taken
    obtain ⟨⟨live, _⟩, rfl⟩ := taken
    exact step_onCommand (by simpa using live) head
  | recvEvent =>
    simp only [step] at taken
    split at taken
    · cases taken
    rename_i taskId result rest head
    split at taken
    · cases taken
    rename_i found reason isFound
    simp only [Option.ite_none_left_eq_some, Option.some.injEq, not_or] at taken
    obtain ⟨⟨live, _⟩, rfl⟩ := taken
    obtain ⟨same, before, after, here, noneBefore⟩ := List.find?_eq_some_iff_append.mp isFound
    have same : found = taskId := by simpa using same
    subst same
    have erased : s.active.eraseP
      (fun worker => decide (worker.1 = found)) = before ++ after := by
      rw [here, List.eraseP_append_right _ (by simpa using noneBefore), List.eraseP_cons_of_pos]
      simp
    simp only [onEvent, finishTask, erased]
    exact .ended .drain head here (by simpa using live)
  | recvAck =>
    simp only [step] at taken
    split at taken
    · cases taken
    rename_i acks
    simp only [Option.ite_none_left_eq_some, Option.some.injEq] at taken
    obtain ⟨_, rfl⟩ := taken
    exact .drained .drain acks
  | workerEnds taskId result =>
    simp only [step, Option.ite_none_right_eq_some, Option.some.injEq] at taken
    obtain ⟨⟨here, new⟩, rfl⟩ := taken
    exact .workerEnded (by simpa using here) (by simpa using new)
  | call =>
    simp only [step] at taken
    split at taken
    · rename_i head free _
      cases taken
      exact .called head free
    · cases taken
  | returns =>
    simp only [step] at taken
    split at taken
    · rename_i running free
      cases taken
      exact .returned running free
    · cases taken
  | ack =>
    simp only [step] at taken
    split at taken
    · cases taken
    rename_i returned
    cases taken
    exact .acked returned

/-! ## Every task is in one place -/

def places (s : BinaryState β) : List Nat :=
  enqueuedIds s.commands ++ s.pending ++ s.active.map Prod.fst ++
    s.terminalJobs.map CallbackJob.taskId ++ s.channel.map CallbackJob.taskId ++
    s.called.map Prod.fst

structure Placed (s : BinaryState β) : Prop where
  count : ∀ taskId, s.places.count taskId = s.accepted.count taskId
  fresh : s.accepted = List.range s.nextId

theorem markCancel_fst (taskId : Nat) (worker : Nat × Option BinaryStop) :
    (markCancel taskId worker).1 = worker.1 := by
  unfold markCancel
  split
  · rename_i same
    exact same.symm
  · rfl

@[simp] theorem map_fst_markCancel (taskId : Nat) (active : List (Nat × Option BinaryStop)) :
    (active.map (markCancel taskId)).map Prod.fst = active.map Prod.fst := by
  rw [List.map_map]
  exact List.map_congr_left fun worker _ => markCancel_fst taskId worker

@[simp] theorem map_fst_close (active : List (Nat × Option BinaryStop)) :
    (active.map fun worker => (worker.1, some BinaryStop.close)).map Prod.fst =
      active.map Prod.fst := by
  rw [List.map_map]
  rfl

@[simp] theorem map_taskId_jobs (taskIds : List Nat) (e : MeowError) :
    (taskIds.map fun taskId => (⟨taskId, .error e, false⟩ : CallbackJob β)).map
      CallbackJob.taskId = taskIds := by
  rw [List.map_map]
  exact List.map_id _

theorem enqueuedIds_singleton (kind : command.enqueued? = none) :
    enqueuedIds [command] = [] := by
  simp [enqueuedIds, kind]

theorem Placed.step (placed : Placed s) (step : Step s label t) : Placed t := by
  refine ⟨fun taskId => ?_, ?_⟩
  · have before := placed.count taskId
    cases step with
    | refused | shut | moved _ | drained _ _ | exited _ _ _ _ _ | workerEnded _ _
      | returned _ _ | acked _ => exact before
    | enqueued _ _ =>
      simp only [places, enqueuedIds_append, enqueuedIds_enqueue, enqueuedIds_nil,
        List.count_append] at before ⊢
      omega
    | @sent _ command kind _ =>
      simp only [places, enqueuedIds_append, enqueuedIds_singleton kind, List.append_nil]
        at before ⊢
      exact before
    | flushed _ _ jobs =>
      simp only [places, jobs, List.map_append, List.map_cons, List.map_nil, List.count_append,
        List.count_cons, List.count_nil] at before ⊢
      omega
    | launched pending _ _ =>
      simp only [places, pending, List.map_append, List.map_cons, List.map_nil, List.count_append,
        List.count_cons, List.count_nil] at before ⊢
      omega
    | admitted _ head _ =>
      simp only [places, head, enqueuedIds_enqueue, List.count_append, List.count_cons,
        List.count_nil] at before ⊢
      omega
    | late _ head _ _ =>
      simp only [places, head, enqueuedIds_enqueue, List.map_append, List.map_cons, List.map_nil,
        List.count_append, List.count_cons, List.count_nil] at before ⊢
      omega
    | canceledPending _ head here _ =>
      simp only [places, head, here, enqueuedIds_cancel, List.map_append, List.map_cons,
        List.map_nil, List.count_append, List.count_cons, List.count_nil] at before ⊢
      omega
    | canceledActive _ head _ _ =>
      simpa only [places, head, enqueuedIds_cancel, map_fst_markCancel] using before
    | notFound _ head => simpa only [places, head, enqueuedIds_cancel] using before
    | closed _ head _ =>
      simp only [places, head, beginClose, enqueuedIds_close, List.map_append, map_fst_close,
        map_taskId_jobs, List.count_append, List.append_nil] at before ⊢
      omega
    | ended _ _ here _ =>
      simp only [places, here, List.map_append, List.map_cons, List.map_nil, List.count_append,
        List.count_cons, List.count_nil] at before ⊢
      omega
    | called head _ =>
      simp only [places, head, List.map_append, List.map_cons, List.map_nil, List.count_append,
        List.count_cons, List.count_nil] at before ⊢
      omega
  · cases step with
    | enqueued _ _ => simp only [placed.fresh, List.range_succ]
    | _ => exact placed.fresh

theorem Placed.perm (placed : Placed s) : s.places.Perm s.accepted :=
  List.perm_iff_count.mpr placed.count

theorem Placed.nodup (placed : Placed s) : s.places.Nodup := by
  rw [placed.perm.nodup_iff, placed.fresh]
  exact List.nodup_range

theorem Placed.count_le_one (placed : Placed s) (taskId : Nat) :
    (enqueuedIds s.commands).count taskId + s.pending.count taskId +
      (s.active.map Prod.fst).count taskId + (s.terminalJobs.map CallbackJob.taskId).count taskId +
      (s.channel.map CallbackJob.taskId).count taskId + (s.called.map Prod.fst).count taskId ≤ 1 := by
  have once := List.nodup_iff_count.mp placed.nodup taskId
  simpa only [places, List.count_append] using once

/-! ## Permits -/

def heldJobs (s : BinaryState β) : List (CallbackJob β) :=
  s.terminalJobs ++ s.channel ++ s.running.toList

def bodies (s : BinaryState β) : Nat := s.heldJobs.countP fun job => isOk job.result

structure Permits (s : BinaryState β) : Prop where
  outstanding : s.outstanding + s.finished.length = s.accepted.length
  room : s.outstanding ≤ binaryMaxOutstandingTasks
  slots : s.bodySlots + s.active.length + s.bodies = binaryMaxConcurrency
  held : ∀ job ∈ s.heldJobs, job.bodyPermit = isOk job.result
  flight : s.callbackInflight = s.channel.length + s.running.toList.length +
    s.returned.toList.length + s.acks.length
  calls : s.called.map Prod.fst = s.finished ++ s.running.toList.map CallbackJob.taskId

theorem Permits.outstanding_step (placed : Placed s) (permits : Permits s)
    (step : Step s label t) : t.outstanding + t.finished.length = t.accepted.length ∧
      t.outstanding ≤ binaryMaxOutstandingTasks := by
  have outstanding := permits.outstanding
  have room := permits.room
  cases step with
  | enqueued _ more =>
    simp only [List.length_append, List.length_singleton]
    omega
  | returned running _ =>
    -- the running task is accepted and not finished
    have lengths := congrArg List.length permits.calls
    have all := placed.perm.length_eq
    simp only [places, running, Option.toList_some, List.length_append, List.length_map,
      List.length_singleton] at lengths all ⊢
    omega
  | _ => exact ⟨outstanding, room⟩

theorem Permits.slots_of_new (permits : Permits s) (new : List (CallbackJob β))
    (jobs : t.heldJobs.Perm (s.heldJobs ++ new))
    (honest : ∀ job ∈ new, job.bodyPermit = isOk job.result)
    (paid : t.bodySlots + t.active.length + new.countP (fun job => isOk job.result) =
      s.bodySlots + s.active.length) :
    t.bodySlots + t.active.length + t.bodies = binaryMaxConcurrency ∧
      ∀ job ∈ t.heldJobs, job.bodyPermit = isOk job.result := by
  have slots := permits.slots
  refine ⟨?_, fun job member => ?_⟩
  · rw [bodies, jobs.countP_eq, List.countP_append]
    rw [bodies] at slots
    omega
  · rcases List.mem_append.mp (jobs.mem_iff.mp member) with old | added
    · exact permits.held job old
    · exact honest job added

theorem heldJobs_append (terminal new channel running : List (CallbackJob β)) :
    (terminal ++ new ++ channel ++ running).Perm (terminal ++ channel ++ running ++ new) := by
  rw [List.append_assoc, List.append_assoc, List.append_assoc, List.append_assoc]
  refine List.Perm.append_left terminal ?_
  rw [← List.append_assoc channel]
  exact List.perm_append_comm

theorem Permits.slots_step (permits : Permits s) (step : Step s label t) :
    t.bodySlots + t.active.length + t.bodies = binaryMaxConcurrency ∧
      ∀ job ∈ t.heldJobs, job.bodyPermit = isOk job.result := by
  cases step with
  | refused | enqueued _ _ | shut | sent _ _ | moved _ | drained _ _ | exited _ _ _ _ _
    | admitted _ _ _ | notFound _ _ | workerEnded _ _ | acked _ => exact ⟨permits.slots, permits.held⟩
  | @flushed _ job rest _ _ jobs =>
    refine permits.slots_of_new [] ?_ nofun rfl
    simp only [heldJobs, jobs, List.append_nil]
    simpa using @List.perm_middle _ job (rest ++ s.channel) s.running.toList
  | launched _ few free =>
    refine permits.slots_of_new [] (by simp [heldJobs]) nofun ?_
    simp only [List.length_append, List.length_singleton, List.countP_nil]
    omega
  | late _ _ _ _ | canceledPending _ _ _ _ =>
    refine permits.slots_of_new _ (heldJobs_append _ _ _ _) ?_ rfl
    simp [isOk]
  | canceledActive _ _ _ _ =>
    exact permits.slots_of_new [] (by simp [heldJobs]) nofun (by simp)
  | closed _ _ _ =>
    refine permits.slots_of_new _ (heldJobs_append _ _ _ _) ?_ ?_
    · intro job member
      obtain ⟨taskId, _, rfl⟩ := List.mem_map.mp member
      rfl
    · simp [beginClose, isOk, Function.comp_def]
  | ended _ _ here _ =>
    refine permits.slots_of_new _ (heldJobs_append _ _ _ _) (by simp) ?_
    simp only [here, List.length_append, List.length_cons]
    split
    · rename_i ok
      simp [ok]
      omega
    · rename_i failed
      simp [failed]
      omega
  | called head free =>
    refine permits.slots_of_new [] ?_ nofun rfl
    simp only [heldJobs, head, free, Option.toList_none, Option.toList_some, List.append_nil,
      List.append_assoc]
    exact List.Perm.append_left _ (List.perm_append_singleton _ _)
  | @returned _ job running _ =>
    have slots := permits.slots
    have held := permits.held
    simp only [bodies, heldJobs, running, Option.toList_some, List.countP_append,
      List.countP_singleton] at slots
    simp only [heldJobs, running, Option.toList_some, List.mem_append, List.mem_singleton] at held
    refine ⟨?_, fun other member => held other (Or.inl (by simpa [heldJobs] using member))⟩
    simp only [bodies, heldJobs, Option.toList_none, List.append_nil, List.countP_append]
    rw [held job (Or.inr rfl)]
    split at slots <;> simp_all <;> omega

theorem Permits.flight_step (permits : Permits s) (step : Step s label t) :
    t.callbackInflight = t.channel.length + t.running.toList.length +
      t.returned.toList.length + t.acks.length := by
  have flight := permits.flight
  cases step with
  | drained _ acks =>
    simp only [acks, List.length_cons] at flight ⊢
    omega
  | flushed _ idle _ =>
    simp only [List.length_append, List.length_singleton]
    omega
  | called head free =>
    simp only [head, free, Option.toList_none, Option.toList_some, List.length_cons,
      List.length_nil] at flight ⊢
    omega
  | returned running free =>
    simp only [running, free, Option.toList_none, Option.toList_some, List.length_cons,
      List.length_nil] at flight ⊢
    omega
  | acked returned =>
    simp only [returned, Option.toList_none, Option.toList_some, List.length_cons,
      List.length_append, List.length_nil] at flight ⊢
    omega
  | _ => exact flight

theorem Permits.calls_step (permits : Permits s) (step : Step s label t) :
    t.called.map Prod.fst = t.finished ++ t.running.toList.map CallbackJob.taskId := by
  have calls := permits.calls
  cases step with
  | called head free =>
    simp only [free, Option.toList_none, Option.toList_some, List.map_nil, List.append_nil,
      List.map_append, List.map_cons] at calls ⊢
    rw [calls]
  | returned running _ =>
    simpa only [running, Option.toList_none, Option.toList_some, List.map_nil, List.append_nil,
      List.map_cons] using calls
  | _ => exact calls

theorem Permits.step (placed : Placed s) (permits : Permits s)
    (step : Step s label t) : Permits t where
  outstanding := (permits.outstanding_step placed step).1
  room := (permits.outstanding_step placed step).2
  slots := (permits.slots_step step).1
  held := (permits.slots_step step).2
  flight := permits.flight_step step
  calls := permits.calls_step step

/-! ## The gate -/

/-- No task is behind a close on the queue, and the loop ends with nothing left. -/
structure Gate (s : BinaryState β) : Prop where
  gate : s.admitting = true → s.closing = false ∧ .close ∉ s.commands
  order : s.commands.Pairwise fun first second => first = .close → second.enqueued? = none
  closed : s.closing = true → enqueuedIds s.commands = []
  exit : s.replied = true → s.closing = true ∧ s.pending = [] ∧ s.active = [] ∧
    s.terminalJobs = [] ∧ s.callbackInflight = 0

theorem enqueuedIds_eq_nil {commands : List BinaryCommand} :
    enqueuedIds commands = [] ↔ ∀ command ∈ commands, command.enqueued? = none := by
  rw [enqueuedIds, List.filterMap_eq_nil_iff]

theorem Gate.tail {rest : List BinaryCommand} (gate : Gate s)
    (head : s.commands = command :: rest) :
    (s.admitting = true → s.closing = false ∧ .close ∉ rest) ∧
      (rest.Pairwise fun first second => first = .close → second.enqueued? = none) ∧
      (s.closing = true → enqueuedIds rest = []) := by
  refine ⟨fun admitting => ⟨(gate.gate admitting).1, fun later => ?_⟩, ?_, fun closing => ?_⟩
  · exact (gate.gate admitting).2 (head ▸ List.mem_cons_of_mem _ later)
  · exact (List.pairwise_cons.mp (head ▸ gate.order)).2
  · have none := enqueuedIds_eq_nil.mp (gate.closed closing)
    rw [head] at none
    exact enqueuedIds_eq_nil.mpr fun other member => none other (List.mem_cons_of_mem _ member)

theorem not_replied {P : Prop} (live : s.replied = false) (replied : s.replied = true) : P := by
  rw [live] at replied
  cases replied

theorem Gate.step (gate : Gate s) (step : Step s label t) : Gate t := by
  cases step with
  | refused | moved _ | workerEnded _ _ | called _ _ | returned _ _ | acked _ =>
    exact ⟨gate.gate, gate.order, gate.closed, gate.exit⟩
  | shut => exact ⟨nofun, gate.order, gate.closed, gate.exit⟩
  | enqueued admitting _ =>
    obtain ⟨opened, noClose⟩ := gate.gate admitting
    refine ⟨fun _ => ⟨opened, ?_⟩, ?_, fun closing => ?_, gate.exit⟩
    · simpa using noClose
    · -- there is no close for the new task to be behind
      refine List.pairwise_append.mpr ⟨gate.order, List.pairwise_singleton _ _, ?_⟩
      intro first member second _ isClose
      exact absurd (isClose ▸ member) noClose
    · rw [opened] at closing
      cases closing
  | @sent _ command kind shut =>
    refine ⟨fun admitting => ⟨(gate.gate admitting).1, fun member => ?_⟩, ?_, fun closing => ?_,
      gate.exit⟩
    · rcases List.mem_append.mp member with old | new
      · exact (gate.gate admitting).2 old
      · have admitting : s.admitting = true := admitting
        rw [shut (List.mem_singleton.mp new).symm] at admitting
        cases admitting
    · refine List.pairwise_append.mpr ⟨gate.order, List.pairwise_singleton _ _, ?_⟩
      intro first _ second new _
      rw [List.mem_singleton.mp new, kind]
    · have none := gate.closed closing
      rw [enqueuedIds_append, none, enqueuedIds_singleton kind]
      rfl
  | drained _ _ =>
    refine ⟨gate.gate, gate.order, gate.closed, fun replied => ?_⟩
    obtain ⟨closing, pending, active, jobs, idle⟩ := gate.exit replied
    exact ⟨closing, pending, active, jobs, by simp only [idle]⟩
  | flushed _ _ jobs =>
    refine ⟨gate.gate, gate.order, gate.closed, fun replied => ?_⟩
    have none := (gate.exit replied).2.2.2.1
    rw [jobs] at none
    cases none
  | launched pending _ _ =>
    refine ⟨gate.gate, gate.order, gate.closed, fun replied => ?_⟩
    have none := (gate.exit replied).2.1
    rw [pending] at none
    cases none
  | exited closing noPending noActive noJobs idle =>
    exact ⟨gate.gate, gate.order, gate.closed,
      fun _ => ⟨closing, noPending, noActive, noJobs, idle⟩⟩
  | admitted _ head live | late _ head _ live | canceledPending _ head _ live
    | canceledActive _ head _ live =>
    obtain ⟨admits, order, closed⟩ := gate.tail head
    exact ⟨admits, order, closed, not_replied live⟩
  | notFound _ head =>
    obtain ⟨admits, order, closed⟩ := gate.tail head
    exact ⟨admits, order, closed, gate.exit⟩
  | closed _ head live =>
    obtain ⟨admits, order, _⟩ := gate.tail head
    refine ⟨fun admitting => ?_, order, fun _ => enqueuedIds_eq_nil.mpr ?_, not_replied live⟩
    · exact absurd (head ▸ List.mem_cons_self) (gate.gate admitting).2
    · intro command member
      have order := gate.order
      rw [head, List.pairwise_cons] at order
      exact order.1 command member rfl
  | ended _ _ _ live => exact ⟨gate.gate, gate.order, gate.closed, not_replied live⟩

end RustyCat.BinaryState
