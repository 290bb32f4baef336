import RustyCat.System.Dispatcher

/-!
# What a close guarantees when it replies

Between the step in which the loop takes a close and the reply, `Since` relates
the two states: what happened to each group, which callbacks were submitted and
what the dispatcher did with them.
-/

namespace RustyCat.Service

variable {s t u : Service} {label : Label} {limit : Direction → Nat}

/-- The steps, with what each needs. -/
inductive Step (s : Service) : Service → Prop where
  | input {input : Loop.Input} {jobs : List CbJob} {next : Loop}
      (taken : s.loop.step input = some next) (emitted : emits s.loop next jobs = true) :
      Step s { s with
        loop := next
        pending := s.pending ++ jobs
        handled := s.handled ++ input.handled }
  | submit {job : CbJob} {rest : List CbJob} {next : Channel CbJob}
      (first : s.pending = job :: rest)
      (sent : s.dispatcher.send CbJob.callbackQueueCapacity CbJob.isSamplingFrame job =
        some next) :
      Step s { s with dispatcher := next, pending := rest }
  | serve {next : Channel CbJob}
      (same : next.kept = s.dispatcher.kept ∧ next.sent = s.dispatcher.sent) :
      Step s { s with dispatcher := next }
  | reply (joined : s.joined = true) : Step s { s with replied := true }

theorem step_cases (taken : s.step label = some t) : s.replied = false ∧ Step s t := by
  simp only [step, Option.ite_none_left_eq_some] at taken
  obtain ⟨open_, taken⟩ := taken
  refine ⟨Bool.eq_false_of_not_eq_true open_, ?_⟩
  cases label with
  | input input jobs =>
    simp only [move, Option.ite_none_right_eq_some, Option.bind_eq_some_iff,
      Option.some.injEq] at taken
    obtain ⟨_, next, stepped, emitted, rfl⟩ := taken
    exact .input stepped emitted
  | submit =>
    simp only [move] at taken
    split at taken
    · cases taken
    rename_i job rest first
    obtain ⟨next, sent, rfl⟩ := Option.map_eq_some_iff.mp taken
    exact .submit first sent
  | receive =>
    obtain ⟨next, received, rfl⟩ := Option.map_eq_some_iff.mp taken
    exact .serve (Channel.receive_eq received)
  | finish =>
    obtain ⟨next, finished, rfl⟩ := Option.map_eq_some_iff.mp taken
    exact .serve (Channel.finish_eq finished)
  | reply =>
    simp only [move, Option.ite_none_right_eq_some, Option.some.injEq] at taken
    obtain ⟨joined, rfl⟩ := taken
    exact .reply joined

/-- What holds in every state: the loop is in a reachable state and the dispatcher
drops nothing but samples. -/
structure Sound (maxUpload maxDownload : Nat) (listeners : List Nat) (s : Service) : Prop where
  loop : Machine.Reachable Loop.step (Loop.init maxUpload maxDownload listeners) s.loop
  dispatcher : s.dispatcher.Sound CbJob.isSamplingFrame

section Sound

variable {maxUpload maxDownload : Nat} {listeners : List Nat}

theorem sound_step (sound : Sound maxUpload maxDownload listeners s)
    (taken : s.step label = some t) : Sound maxUpload maxDownload listeners t := by
  obtain ⟨_, moved⟩ := step_cases taken
  cases moved with
  | input stepped _ => exact ⟨.next sound.loop trivial stepped, sound.dispatcher⟩
  | submit _ sent => exact ⟨sound.loop, sound.dispatcher.send sent⟩
  | serve same => exact ⟨sound.loop, sound.dispatcher.of_same same⟩
  | reply _ => exact ⟨sound.loop, sound.dispatcher⟩

theorem reachable_sound
    (reached : Machine.Reachable step (init maxUpload maxDownload listeners) s) :
    Sound maxUpload maxDownload listeners s := by
  refine reached.invariant (Sound maxUpload maxDownload listeners) ?_ ?_
  · exact ⟨.start, .empty⟩
  · exact fun s label t sound _ taken => sound_step sound taken

end Sound

/-- The callbacks submitted, or about to be, between two states. -/
structure Submits (s u : Service) (jobs : List CbJob) : Prop where
  issued : u.loop.issued = s.loop.issued
  listed : u.dispatcher.sent ++ u.pending = s.dispatcher.sent ++ jobs
  noted : ∀ id ∈ s.loop.issued, (u.loop.world.heap id).jobs id =
    (s.loop.world.heap id).jobs id ++ jobs.filter (·.taskId = id)

/-- The states after a close was taken in `s`. -/
structure Since (s u : Service) : Prop where
  drains : ∃ events, u.handled = s.handled ++ events ∧
    Loop.Draining s.loop.world u.loop events
  submits : ∃ jobs, Submits s u jobs
  joined : u.replied = true → u.joined = true

theorem issued_of_step {l m : Loop} {input : Loop.Input} (taken : l.step input = some m)
    (stopping : l.phase ≠ .running) : m.issued = l.issued := by
  cases input with
  | cmd cmd =>
    simp only [Loop.step, Option.ite_none_right_eq_some] at taken
    exact absurd taken.1.1 stopping
  | event | finishClose =>
    simp only [Loop.step, Option.ite_none_right_eq_some, Option.some.injEq] at taken
    obtain ⟨_, rfl⟩ := taken
    rfl
  | listeners | worker =>
    obtain rfl := Option.some.inj taken
    rfl

theorem Submits.input {jobs more : List CbJob} {next : Loop} (submits : Submits s u jobs)
    (same : next.issued = u.loop.issued) (emitted : emits u.loop next more = true)
    (handled : List WorkerEvent) :
    Submits s { u with loop := next, pending := u.pending ++ more, handled := handled }
      (jobs ++ more) := by
  simp only [emits, decide_eq_true_eq] at emitted
  refine ⟨same.trans submits.issued, ?_, fun id member => ?_⟩
  · rw [← List.append_assoc, submits.listed, List.append_assoc]
  · have known : id ∈ next.issued := by
      rw [same, submits.issued]
      exact member
    rw [emitted.2 id known, submits.noted id member, List.filter_append, List.append_assoc]

theorem since_step (origin : s.loop.world.state.Inv s.loop.issued limit)
    (inv : u.loop.world.state.Inv u.loop.issued limit) (since : Since s u)
    (taken : u.step label = some t) : Since s t := by
  obtain ⟨⟨events, handled, draining⟩, ⟨jobs, submits⟩, joined⟩ := since
  obtain ⟨open_, moved⟩ := step_cases taken
  cases moved with
  | @input input more next stepped emitted =>
    refine ⟨⟨events ++ input.handled, ?_, draining.step origin inv stepped⟩,
      ⟨jobs ++ more, submits.input (issued_of_step stepped draining.phase) emitted _⟩, ?_⟩
    · rw [handled, List.append_assoc]
    · exact fun replied => absurd (open_.symm.trans replied) nofun
  | submit first sent =>
    refine ⟨⟨events, handled, draining⟩, ⟨jobs, submits.issued, ?_, submits.noted⟩, ?_⟩
    · rw [Channel.send_sent sent, ← submits.listed, first, List.append_assoc]
      rfl
    · exact fun replied => absurd (open_.symm.trans replied) nofun
  | serve same =>
    refine ⟨⟨events, handled, draining⟩, ⟨jobs, submits.issued, ?_, submits.noted⟩, ?_⟩
    · rw [same.2, submits.listed]
    · exact fun replied => absurd (open_.symm.trans replied) nofun
  | reply joined =>
    exact ⟨⟨events, handled, draining⟩, ⟨jobs, submits.issued, submits.listed, submits.noted⟩,
      fun _ => joined⟩

theorem since_begin {activeKeys inactiveKeys : List UniqueId} {jobs : List CbJob}
    (inv : s.loop.world.state.Inv s.loop.issued limit)
    (held : s.loop.phase ≠ .closed → s.loop.world.state.cbSubmit = true)
    (taken : s.step (.input (.cmd (.close activeKeys inactiveKeys)) jobs) = some t) :
    Since s t := by
  obtain ⟨unreplied, _⟩ := step_cases taken
  simp only [step, Option.ite_none_left_eq_some, move, background, Bool.false_eq_true, or_false,
    Option.ite_none_right_eq_some, Option.bind_eq_some_iff, Option.some.injEq] at taken
  obtain ⟨_, quiet, next, stepped, emitted, rfl⟩ := taken
  have running : s.loop.phase = .running := by
    simp only [Loop.step, Option.ite_none_right_eq_some] at stepped
    exact stepped.1.1
  have same : next.issued = s.loop.issued := by
    simp only [Loop.step, Option.ite_none_right_eq_some, Option.some.injEq] at stepped
    obtain ⟨_, rfl⟩ := stepped
    exact Finset.empty_union _
  have nothing : Submits s s [] := by
    refine ⟨rfl, by rw [quiet], fun id _ => ?_⟩
    rw [List.filter_nil, List.append_nil]
  refine ⟨⟨[], rfl, ?_⟩, ⟨jobs, nothing.input same emitted _⟩, ?_⟩
  · exact Loop.draining_begin inv (held (by simp [running])) stepped
  · intro replied
    cases unreplied.symm.trans replied

/-- The whole of what a close has done when it replies. -/
structure Drained (s u : Service) (events : List WorkerEvent) (jobs : List CbJob) : Prop where
  /-- Every registered group got one last record. -/
  records : ∀ key group, s.loop.world.state.groups.lookup key = some group →
    ∃ status, (u.loop.world.heap group.leaderInner.taskId).milestones =
        (s.loop.world.heap group.leaderInner.taskId).milestones ++ [status] ∧
      s.loop.world.state.Verdict key events status ∧
      (key ∈ s.loop.world.state.cancelingSet → status ≠ .paused)
  /-- No worker was started. -/
  starts : ∀ id, (u.loop.world.heap id).starts = (s.loop.world.heap id).starts
  /-- Every worker delivered its terminal event. -/
  workers : ∀ key ∈ s.loop.world.state.active, ∃ event, terminals key events = [event]
  cleared : u.loop.world.state.Cleared
  /-- The callbacks submitted since the close are those noted for the tasks. -/
  submitted : u.dispatcher.sent = s.dispatcher.sent ++ jobs ∧ ∀ id ∈ s.loop.issued,
    (u.loop.world.heap id).jobs id =
      (s.loop.world.heap id).jobs id ++ jobs.filter (·.taskId = id)
  /-- Nothing but `Transmission` records was dropped, and the order was kept. -/
  delivered : u.dispatcher.done.filter (!·.isSamplingFrame) =
    u.dispatcher.sent.filter (!·.isSamplingFrame)
  ordered : u.dispatcher.done.Sublist u.dispatcher.sent

theorem lastMilestone_canceling {event : WorkerEvent} {status : TransferStatus}
    (last : World.lastMilestone true event = [status]) : status ≠ .paused := by
  rintro rfl
  cases event with
  | progress key nextOffset totalSize => cases last
  | completed key totalSize payload => cases last
  | failed key error totalSize => cases last
  | canceled key totalSize => cases last

section Close

variable {maxUpload maxDownload : Nat} {listeners : List Nat}

theorem since_run {activeKeys inactiveKeys : List UniqueId} {jobs : List CbJob}
    (sound : Sound maxUpload maxDownload listeners s)
    (taken : s.step (.input (.cmd (.close activeKeys inactiveKeys)) jobs) = some t)
    (run : Machine.Reachable step t u) :
    Sound maxUpload maxDownload listeners u ∧ Since s u := by
  have origin := Loop.reachable_inv sound.loop
  refine run.invariant (fun u => Sound maxUpload maxDownload listeners u ∧ Since s u) ?_ ?_
  · exact ⟨sound_step sound taken, since_begin origin (Loop.reachable_held sound.loop) taken⟩
  · rintro v label v' ⟨held, since⟩ _ moved
    exact ⟨sound_step held moved,
      since_step origin (Loop.reachable_inv held.loop) since moved⟩

/-- Whatever the state in which a close is taken, whichever workers are active and in
whichever order their events come: when the close replies, it has drained everything. -/
theorem close_drains {activeKeys inactiveKeys : List UniqueId} {jobs : List CbJob}
    (reached : Machine.Reachable step (init maxUpload maxDownload listeners) s)
    (taken : s.step (.input (.cmd (.close activeKeys inactiveKeys)) jobs) = some t)
    (run : Machine.Reachable step t u) (replied : u.replied = true) :
    ∃ events jobs, u.handled = s.handled ++ events ∧ Drained s u events jobs := by
  have sound := reachable_sound reached
  obtain ⟨after, ⟨⟨events, handled, draining⟩, ⟨made, submits⟩, joined⟩⟩ :=
    since_run sound taken run
  have idle := joined replied
  simp only [Service.joined, decide_eq_true_eq] at idle
  obtain ⟨closed, submitted, free, empty⟩ := idle
  have cleared := draining.cleared closed
  have settled : ∀ key group, s.loop.world.state.groups.lookup key = some group →
      Loop.Settled s.loop.world u.loop.world key group events := by
    intro key group found
    have ended : key ∉ u.loop.world.state.active := by
      rw [cleared.active.1]
      exact Finmap.notMem_empty
    have final := draining.groups key group found
    rwa [if_neg ended] at final
  have origin := Loop.reachable_inv sound.loop
  have everything := Channel.kept_of_idle free empty
  refine ⟨events, made, handled,
    { records := fun key group found => ?_
      starts := draining.starts
      workers := fun key running => ?_
      cleared := cleared
      submitted := ⟨?_, submits.noted⟩
      delivered := everything ▸ after.dispatcher.lossless
      ordered := everything ▸ after.dispatcher.ordered }⟩
  · obtain ⟨status, last, verdict⟩ := settled key group found
    refine ⟨status, last, verdict, fun canceling => ?_⟩
    have running : key ∈ s.loop.world.state.active :=
      (origin.keys key).canceling_active canceling
    rw [SchedulerState.Verdict, if_pos running] at verdict
    obtain ⟨event, _, milestone⟩ := verdict
    rw [decide_eq_true canceling] at milestone
    exact lastMilestone_canceling milestone
  · obtain ⟨group, found⟩ := Finmap.mem_iff.mp ((origin.keys key).active_grouped running)
    obtain ⟨_, _, verdict⟩ := settled key group found
    rw [SchedulerState.Verdict, if_pos running] at verdict
    obtain ⟨event, only, _⟩ := verdict
    exact ⟨event, only⟩
  · rw [← submits.listed, submitted, List.append_nil]

end Close

def sampleJob (id : TaskId) (sign : String) (status : TransferStatus) : CbJob :=
  .progress (.listener 7) (World.record (Loop.sampleTask id sign) status 0 4)

/-- One upload runs and one is imported paused. -/
def sampleBefore : List Label :=
  [.input (.cmd (.enqueue (Loop.sampleTask 1 "a") ⟨none, none⟩))
      [sampleJob 1 "a" .pending, sampleJob 1 "a" .transmission],
    .submit, .receive, .submit,
    .input (.cmd (.enqueuePaused (Loop.sampleTask 2 "b") ⟨none, none⟩))
      [sampleJob 2 "b" .paused],
    .submit]

def sampleClose : Label :=
  .input (.cmd (.close [(.upload, "a")] [(.upload, "b")])) [sampleJob 2 "b" .paused]

/-- The worker stops, and the dispatcher catches up. -/
def sampleAfter : List Label :=
  [.submit, .input (.event (.canceled (.upload, "a") 4)) [sampleJob 1 "a" .paused], .finish,
    .submit, .input .finishClose [], .receive, .finish, .receive, .finish, .receive, .finish,
    .receive, .finish, .reply]

theorem sample_replies :
    ((Machine.exec step (init 1 1 [7]) sampleBefore).bind fun s =>
      (s.step sampleClose).bind fun t => (Machine.exec step t sampleAfter).map fun u =>
        (s.loop.world.state.active.keys, u.replied, u.dispatcher.done)) =
      some ({(.upload, "a")}, true,
        [sampleJob 1 "a" .pending, sampleJob 1 "a" .transmission, sampleJob 2 "b" .paused,
          sampleJob 2 "b" .paused, sampleJob 1 "a" .paused]) := by
  decide +kernel

theorem close_drains_sample :
    ∃ s t u events jobs, Machine.exec step (init 1 1 [7]) sampleBefore = some s ∧
      s.step sampleClose = some t ∧ Machine.exec step t sampleAfter = some u ∧
      s.loop.world.state.active.keys = {(.upload, "a")} ∧
      u.handled = s.handled ++ events ∧ Drained s u events jobs := by
  have executed := sample_replies
  simp only [Option.bind_eq_some_iff, Option.map_eq_some_iff, Prod.mk.injEq] at executed
  obtain ⟨s, before, t, taken, u, after, active, replied, _⟩ := executed
  obtain ⟨events, jobs, drained⟩ := close_drains (Machine.reachable_of_exec before) taken
    (Machine.reachable_of_exec after) replied
  exact ⟨s, t, u, events, jobs, before, taken, after, active, drained⟩

end RustyCat.Service
