import RustyCat.Client.Attempts

/-!
# Guarantees of closing

No admission behind a close, and no way back from a close that ended well or from a
mixed one that failed.
-/

namespace RustyCat.ClientState

open Function

variable {s t : ClientState}

/-! ## Admissions and closes on a queue -/

/-- A Pounce-only close has failed behind its command, and the loop still receives. -/
def Attempt.reopensEarly (executors : ExecutorKind → Option ExecutorState) : Attempt → Bool
  | .pounceOnly _ (.ended (.error _)) =>
    match executors .pounce with
    | some executor => executor.receiving && executor.log.contains .close
    | none => false
  | _ => false

/-- The future of a Pounce-only close is not dropped at one of its awaits, and when such
a close fails behind its command, the loop has dropped the receiver. -/
def Steady (s : ClientState) : Label → Prop
  | .drop caller => ∀ attempt ∈ s.attempts, attempt.awaitedBy caller = false
  | .publish index =>
    (s.attempts[index]?).all (fun attempt => !Attempt.reopensEarly s.executors attempt) = true
  | _ => True

def Ordered (log : List QueueEntry) : Prop :=
  log.Pairwise fun first second => first = .close → ∀ taskId, second ≠ .task taskId

theorem Ordered.close {log : List QueueEntry} (ordered : Ordered log) :
    Ordered (log ++ [.close]) := by
  refine List.pairwise_append.mpr ⟨ordered, List.pairwise_singleton _ _, ?_⟩
  intro first _ second last _ taskId
  rw [List.mem_singleton.mp last]
  exact nofun

theorem Ordered.task {log : List QueueEntry} (ordered : Ordered log) (opened : .close ∉ log)
    (taskId : Nat) : Ordered (log ++ [.task taskId]) := by
  refine List.pairwise_append.mpr ⟨ordered, List.pairwise_singleton _ _, ?_⟩
  intro first member _ _ isClose
  exact absurd (isClose ▸ member) opened

/-- A queue behind which tasks may be put has no close on it. -/
structure Queued (lifecycle : BinaryLifecycle) (executor : ExecutorState) : Prop where
  ordered : Ordered executor.log
  shut : .close ∈ executor.log → lifecycle ≠ .opened ∨ executor.receiving = false

theorem queued_fresh (lifecycle : BinaryLifecycle) : Queued lifecycle .fresh :=
  ⟨List.Pairwise.nil, nofun⟩

variable {executor : ExecutorState} {kind : ExecutorKind} {label : Label}
  {executors : ExecutorKind → Option ExecutorState}

theorem Queued.move {lifecycle : BinaryLifecycle} {executor' : ExecutorState} {op op' : CloseOp}
    (queued : Queued lifecycle executor) (move : OpMove kind executor executor' op op')
    (closing : lifecycle = .closing) :
    Queued lifecycle executor' := by
  refine ⟨?_, fun _ => .inl (by simp [closing])⟩
  rcases move.log with same | sent
  · rw [same]
    exact queued.ordered
  · rw [sent]
    exact queued.ordered.close

theorem Queued.away {lifecycle other : BinaryLifecycle} (queued : Queued lifecycle executor)
    (away : other ≠ .opened) : Queued other executor :=
  ⟨queued.ordered, fun _ => .inl away⟩

structure Orderly (s : ClientState) : Prop where
  attempted : s.lifecycle = .closing → s.attempts ≠ []
  queued : ∀ kind executor, s.executors kind = some executor → Queued s.lifecycle executor
  placed : ∀ entry ∈ s.admitted, ∃ executor, s.executors entry.1 = some executor ∧
    .task entry.2 ∈ executor.log

theorem Orderly.attempted_step (sound : Sound s) (orderly : Orderly s) (steady : s.Steady label)
    (step : Step s label t) :
    t.lifecycle = .closing → t.attempts ≠ [] := by
  have attempted := orderly.attempted
  cases step with
  | retried _ | beganMixed _ | beganPounceOnly _ _ => simp
  | spawned here | skippedPounce here _ | skipped here | movedPounce here _ _ _
    | moved here _ _ _ =>
    rw [(sound.only here).2.2.1]
    exact fun _ => List.cons_ne_nil _ _
  | @publishedPounce _ _ result _ => cases result <;> exact nofun
  | published _ _ _ _ =>
    unfold publishMixedCloseResult
    dsimp only
    split <;> exact nofun
  | @dropped caller =>
    intro closing
    have same : (s.attempts.filter fun attempt => ¬ attempt.awaitedBy caller) = s.attempts :=
      List.filter_eq_self.mpr fun attempt member => by
        simpa using steady attempt member
    unfold drop
    rw [same]
    exact attempted closing
  | _ => exact attempted

theorem Orderly.queued_grown (orderly : Orderly s) (grown : Grown s.executors executors)
    (here : executors kind = some executor) :
    Queued s.lifecycle executor := by
  rcases grown kind with same | ⟨_, fresh⟩
  · exact orderly.queued kind executor (same ▸ here)
  · rw [fresh] at here
    cases here
    exact queued_fresh _

theorem Orderly.queued_step (sound : Sound s) (orderly : Orderly s) (steady : s.Steady label)
    (step : Step s label t) :
    ∀ kind executor, t.executors kind = some executor → Queued t.lifecycle executor := by
  have queued := orderly.queued
  cases step with
  | used _ _ _ _ grown _ => exact fun kind executor here => orderly.queued_grown grown here
  | admitted _ operation gate grown found receiving _ =>
    intro kind executor here
    rcases update_some_cases here with ⟨_, rfl⟩ | ⟨_, before⟩
    · have old := orderly.queued_grown grown found
      -- the loop receives and the client is open, so there is no close to be behind
      have opened : QueueEntry.close ∉ _ := fun closed => by
        rcases old.shut closed with away | gone
        · exact away gate
        · rw [receiving] at gone
          cases gone
      exact ⟨old.ordered.task opened _, fun closed => absurd (by simpa using closed) opened⟩
    · exact orderly.queued_grown grown before
  | retried _ | beganMixed _ | beganPounceOnly _ _ =>
    exact fun kind executor here => (queued kind executor here).away nofun
  | movedPounce here found move _ | moved here found move _ =>
    intro kind executor after
    rcases update_some_cases after with ⟨_, rfl⟩ | ⟨_, before⟩
    · exact (queued _ _ found).move move (sound.only here).2.1
    · exact queued kind executor before
  | @publishedPounce index caller result here =>
    intro kind executor found
    cases result with
    | ok _ => exact (queued kind executor found).away nofun
    | error e =>
      -- the client opens again
      have alone := (sound.honest _ (List.mem_of_getElem? here)).1
      cases kind with
      | binary =>
        cases alone.symm.trans found
      | pounce =>
        refine ⟨(queued _ executor found).ordered, fun closed => .inr ?_⟩
        have found : s.executors .pounce = some executor := found
        simpa [Steady, here, Attempt.reopensEarly, found, closed] using steady
  | published here freed _ _ =>
    intro kind executor found
    have old : Ordered executor.log := by
      rcases freed kind with same | free
      · exact (queued kind executor (same.symm.trans found)).ordered
      · obtain ⟨before, here, rfl⟩ := Option.map_eq_some_iff.mp (free.symm.trans found)
        exact (queued kind before here).ordered
    refine ⟨old, fun _ => .inl ?_⟩
    unfold publishMixedCloseResult
    dsimp only
    split <;> exact nofun
  | gone here =>
    intro kind executor found
    rcases update_some_cases found with ⟨_, rfl⟩ | ⟨_, before⟩
    · exact ⟨(queued _ _ here).ordered, fun _ => .inr rfl⟩
    · exact queued kind executor before
  | _ => exact queued

theorem has_task_update {old new : ExecutorState} {entry : ExecutorKind × Nat}
    (found : executors kind = some old) (more : old.log ⊆ new.log)
    (has : ∃ executor, executors entry.1 = some executor ∧ .task entry.2 ∈ executor.log) :
    ∃ executor, update executors kind (some new) entry.1 = some executor ∧
      .task entry.2 ∈ executor.log := by
  obtain ⟨executor, here, member⟩ := has
  by_cases same : entry.1 = kind
  · rw [same, update_self]
    rw [same, found, Option.some.injEq] at here
    exact ⟨new, rfl, more (here ▸ member)⟩
  · rw [update_of_ne same]
    exact ⟨executor, here, member⟩

theorem Orderly.placed_grown (orderly : Orderly s) (grown : Grown s.executors executors)
    {entry : ExecutorKind × Nat} (member : entry ∈ s.admitted) :
    ∃ executor, executors entry.1 = some executor ∧ .task entry.2 ∈ executor.log := by
  obtain ⟨executor, here, has⟩ := orderly.placed entry member
  rcases grown entry.1 with same | ⟨none, _⟩
  · exact ⟨executor, same.trans here, has⟩
  · cases none.symm.trans here

theorem Orderly.placed_step (orderly : Orderly s) (step : Step s label t) :
    ∀ entry ∈ t.admitted, ∃ executor, t.executors entry.1 = some executor ∧
      .task entry.2 ∈ executor.log := by
  have placed := orderly.placed
  cases step with
  | used _ _ _ _ grown _ => exact fun entry member => orderly.placed_grown grown member
  | admitted _ operation _ grown found _ _ =>
    intro entry member
    rcases List.mem_append.mp member with old | new
    · exact has_task_update found (List.subset_append_left _ _) (orderly.placed_grown grown old)
    · rw [List.mem_singleton.mp new]
      exact ⟨_, update_self .., List.mem_append_right _ List.mem_cons_self⟩
  | movedPounce _ found move _ | moved _ found move _ =>
    intro entry member
    refine has_task_update found ?_ (placed entry member)
    rcases move.log with same | sent
    · rw [same]
      exact List.Subset.refl _
    · rw [sent]
      exact List.subset_append_left _ _
  | published _ freed _ _ =>
    intro entry member
    obtain ⟨executor, here, has⟩ := placed entry member
    rcases freed entry.1 with same | free
    · exact ⟨executor, same.trans here, has⟩
    · exact ⟨executor.release, free.trans (by rw [here]; rfl), has⟩
  | gone found =>
    exact fun entry member => has_task_update found (List.Subset.refl _) (placed entry member)
  | _ => exact placed

theorem Orderly.step (sound : Sound s) (orderly : Orderly s) (steady : s.Steady label)
    (step : Step s label t) : Orderly t where
  attempted := orderly.attempted_step sound steady step
  queued := orderly.queued_step sound steady step
  placed := orderly.placed_step step

/-! ## No way back -/

structure Finished (s : ClientState) : Prop where
  closed : s.lifecycle = .closed
  idle : s.attempts = []
  errors : ∀ entry ∈ s.published, isOk entry.result = false

/-- Nothing is admitted, no executor appears, and every call is rejected. -/
structure Rejecting (s t : ClientState) : Prop where
  admitted : t.admitted = s.admitted
  executors : ∀ kind, (t.executors kind).isSome = (s.executors kind).isSome
  results : ∃ new, t.results = s.results ++ new ∧ ∀ result ∈ new, isOk result.2 = false

theorem Rejecting.refl (s : ClientState) : Rejecting s s :=
  ⟨rfl, fun _ => rfl, [], (List.append_nil _).symm, nofun⟩

theorem Rejecting.trans {u : ClientState} (first : Rejecting s t) (second : Rejecting t u) :
    Rejecting s u := by
  obtain ⟨new, results, errors⟩ := first.results
  obtain ⟨newer, more, stillErrors⟩ := second.results
  refine ⟨second.admitted.trans first.admitted,
    fun kind => (second.executors kind).trans (first.executors kind), new ++ newer, ?_, ?_⟩
  · rw [more, results, List.append_assoc]
  · intro result member
    rcases List.mem_append.mp member with old | fresh
    · exact errors result old
    · exact stillErrors result fresh

theorem Finished.step (finished : Finished s) (step : Step s label t) :
    Finished t ∧ Rejecting s t := by
  obtain ⟨closed, idle, errors⟩ := finished
  have noAttempt : ∀ {index : Nat} {attempt : Attempt} {P : Prop},
      s.attempts[index]? = some attempt → P := by
    intro index attempt P here
    rw [idle] at here
    cases here
  cases step with
  | quiet _ _ _ new failures =>
    exact ⟨⟨closed, idle, errors⟩, rfl, fun _ => rfl, new, rfl, failures⟩
  | used _ _ _ gate _ _ | admitted _ _ gate _ _ _ _ | beganMixed gate | beganPounceOnly gate _ =>
    cases closed.symm.trans gate
  | retried failed => cases closed.symm.trans failed
  | spawned here | skippedPounce here _ | skipped here | movedPounce here _ _ _
    | moved here _ _ _ | publishedPounce here | published here _ _ _ => exact noAttempt here
  | @delivered _ index entry here =>
    have failed := errors entry (List.mem_of_getElem? here)
    refine ⟨⟨closed, idle, fun other member => ?_⟩, rfl, fun _ => rfl, ?_⟩
    · exact errors other (List.mem_of_mem_eraseIdx member)
    · obtain ⟨own, results, either⟩ :=
        deliver_results { s with published := s.published.eraseIdx index } entry
      refine ⟨_, results.trans (List.append_assoc _ _ _), fun result member => ?_⟩
      rcases List.mem_append.mp member with woken | mine
      · obtain ⟨_, _, rfl⟩ := List.mem_map.mp woken
        rfl
      · rcases either with rfl | rfl
        · cases mine
        · rw [List.mem_singleton.mp mine]
          exact failed
  | dropped =>
    refine ⟨⟨closed, ?_, errors⟩, rfl, fun _ => rfl, [], (List.append_nil _).symm, nofun⟩
    simp [drop, idle]
  | @gone _ kind executor here =>
    refine ⟨⟨closed, idle, errors⟩, rfl, fun other => ?_, [], (List.append_nil _).symm, nofun⟩
    by_cases same : other = kind
    · subst same
      simp [setExecutor, here]
    · simp [setExecutor, update_of_ne same]

def Attempt.isMixed : Attempt → Bool
  | .mixed .. => true
  | .pounceOnly .. => false

structure Sealed (s : ClientState) : Prop where
  shut : s.lifecycle ≠ .opened
  mixed : ∀ attempt ∈ s.attempts, Attempt.isMixed attempt = true

theorem Sealed.step (sealed : Sealed s) (step : Step s label t) :
    Sealed t ∧ t.admitted = s.admitted := by
  obtain ⟨shut, mixed⟩ := sealed
  have noPounce : ∀ {index caller : Nat} {op : CloseOp} {P : Prop},
      s.attempts[index]? = some (.pounceOnly caller op) → P := by
    intro index caller op P here
    cases mixed _ (List.mem_of_getElem? here)
  have replaced : ∀ {index : Nat} {attempt : Attempt}, Attempt.isMixed attempt = true →
      ∀ other ∈ s.attempts.set index attempt, Attempt.isMixed other = true := by
    intro index attempt isMixed other member
    rcases List.mem_or_eq_of_mem_set member with old | rfl
    · exact mixed other old
    · exact isMixed
  cases step with
  | quiet _ _ _ _ _ | delivered _ | gone _ => exact ⟨⟨shut, mixed⟩, rfl⟩
  | used _ _ _ gate _ _ | admitted _ _ gate _ _ _ _ | beganMixed gate | beganPounceOnly gate _ =>
    exact absurd gate shut
  | retried _ =>
    refine ⟨⟨nofun, fun attempt member => ?_⟩, rfl⟩
    rcases List.mem_append.mp member with old | new
    · exact mixed attempt old
    · rw [List.mem_singleton.mp new]
      rfl
  | skippedPounce here _ | movedPounce here _ _ _ | publishedPounce here => exact noPounce here
  | spawned _ | skipped _ | moved _ _ _ _ => exact ⟨⟨shut, replaced rfl⟩, rfl⟩
  | published _ _ _ _ =>
    refine ⟨⟨?_, fun attempt member => mixed attempt (List.mem_of_mem_eraseIdx member)⟩, rfl⟩
    unfold publishMixedCloseResult
    dsimp only
    split <;> exact nofun
  | dropped =>
    exact ⟨⟨shut, fun attempt member => mixed attempt (List.mem_filter.mp member).1⟩, rfl⟩

/-! ## Every run -/

theorem sound_origin : Sound origin where
  one := Nat.zero_le _
  running := fun some => absurd rfl some
  honest := nofun
  known := nofun
  flag := fun _ => rfl
  calls := nofun
  oks := Nat.zero_le _

theorem orderly_origin : Orderly origin := ⟨nofun, nofun, nofun⟩

theorem run_orderly (run : Machine.Run step Steady origin s) : Sound s ∧ Orderly s := by
  refine run.invariant (fun s => Sound s ∧ Orderly s) ⟨sound_origin, orderly_origin⟩ ?_
  rintro s label t ⟨sound, orderly⟩ steady taken
  have step := step_cases taken
  exact ⟨sound.step step, orderly.step sound steady step⟩

theorem Sound.finished (sound : Sound s) (ended : (.close, .ok ()) ∈ s.results) : Finished s := by
  have oks := sound.oks
  have one : 0 < s.results.countP okClose :=
    List.countP_pos_iff.mpr ⟨_, ended, by simp [okClose]⟩
  unfold okCloses at oks
  split at oks
  · rename_i closed
    refine ⟨closed, sound.idle (by simp [closed]), fun entry member => ?_⟩
    have none : s.published.countP (fun entry => isOk entry.result) = 0 := by omega
    simpa using List.countP_eq_zero.mp none entry member
  · omega

theorem Finished.run (finished : Finished s) (run : Machine.Reachable ClientState.step s t) :
    Rejecting s t := by
  refine (run.invariant (fun t => Finished t ∧ Rejecting s t) ⟨finished, .refl s⟩ ?_).2
  rintro t label u ⟨finished, rejecting⟩ _ taken
  obtain ⟨still, more⟩ := finished.step (step_cases taken)
  exact ⟨still, rejecting.trans more⟩

theorem Sealed.run (sealed : Sealed s) (run : Machine.Reachable ClientState.step s t) :
    t.admitted = s.admitted := by
  refine (run.invariant (fun t => Sealed t ∧ t.admitted = s.admitted) ⟨sealed, rfl⟩ ?_).2
  rintro t label u ⟨sealed, same⟩ _ taken
  obtain ⟨still, more⟩ := sealed.step (step_cases taken)
  exact ⟨still, more.trans same⟩

theorem Sound.attempts_startClose (sound : Sound s) (idle : s.attempts = [])
    (away : s.lifecycle ≠ .closing) (live : s.lifecycle ≠ .closed) :
    (s.startClose false).attempts.length = 1 := by
  unfold startClose
  cases phase : s.lifecycle with
  | closing => exact absurd phase away
  | closed => exact absurd phase live
  | closeFailed _ _ => simp [idle]
  | opened =>
    simp only [sound.flag phase, Bool.false_eq_true, if_false]
    split <;> simp [idle]

theorem run_close (run : Machine.Run step Steady origin s) :
    (∀ entry ∈ s.admitted, ∃ executor, s.executors entry.1 = some executor ∧
      .task entry.2 ∈ executor.log ∧ Ordered executor.log) ∧
    s.attempts.length ≤ 1 ∧
    ((.close, .ok ()) ∈ s.results → ∀ t, Machine.Reachable step s t → Rejecting s t) ∧
    (∀ pounceClosed binaryClosed, s.lifecycle = .closeFailed pounceClosed binaryClosed →
      ∀ t, Machine.Reachable step s t → t.admitted = s.admitted) ∧
    (∀ call ∈ s.closeCalls, call.2 = false) ∧
    (s.attempts = [] → s.lifecycle ≠ .closing ∧
      (s.lifecycle ≠ .closed → (s.startClose false).attempts.length = 1)) := by
  obtain ⟨sound, orderly⟩ := run_orderly run
  refine ⟨fun entry member => ?_, sound.one, fun ended t later => ?_,
    fun pounceClosed binaryClosed failed t later => ?_, sound.calls, fun idle => ?_⟩
  · obtain ⟨executor, here, has⟩ := orderly.placed entry member
    exact ⟨executor, here, has, (orderly.queued entry.1 executor here).ordered⟩
  · exact (sound.finished ended).run later
  · refine Sealed.run ⟨by simp [failed], ?_⟩ later
    simp [sound.idle (by simp [failed])]
  · have away : s.lifecycle ≠ .closing := fun closing => orderly.attempted closing idle
    exact ⟨away, sound.attempts_startClose idle away⟩

/-! ## Runs -/

instance decidableSteady (s : ClientState) : ∀ label, Decidable (s.Steady label)
  | .drop caller =>
    inferInstanceAs (Decidable (∀ attempt ∈ s.attempts, attempt.awaitedBy caller = false))
  | .publish index =>
    inferInstanceAs (Decidable ((s.attempts[index]?).all _ = true))
  | .begin _ | .pass _ _ _ _ | .enqueueBinary _ _ _ | .startClose _ | .spawn _ | .spawnFails _ _
  | .poll _ _ | .drive _ _ _ | .abort _ _ | .deliver _ | .receiverGone _ => isTrue trivial

def busyError : MeowError := .fromCode .unknown "binary dispatcher is busy"

/-- The first attempt closes the Pounce executor and not the binary one. -/
def halfClosed : List Label :=
  [.begin .tryEnqueue, .pass 0 false none none, .enqueueBinary none none none, .startClose false,
    .spawn 0, .poll 0 .pounce, .poll 0 .binary, .drive 0 .pounce .send, .drive 0 .binary .send,
    .drive 0 .binary (.reply (.retryable busyError)),
    .drive 0 .pounce (.reply (.complete (.ok ()))), .receiverGone .pounce,
    .drive 0 .pounce (.join none), .publish 0, .deliver 0]

/-- The second attempt calls close on the binary executor only. -/
def retry : List Label :=
  [.startClose false, .spawn 0, .poll 0 .pounce, .poll 0 .binary, .drive 0 .binary .send,
    .drive 0 .binary (.reply (.complete (.ok ()))), .receiverGone .binary,
    .drive 0 .binary (.join none), .publish 0, .deliver 0]

theorem run_close_retry :
    ∃ s, Machine.exec step origin (halfClosed ++ retry) = some s ∧
      s.closeCalls = [(.pounce, false), (.binary, false), (.binary, false)] ∧
      ∀ t, Machine.Reachable step s t → Rejecting s t := by
  obtain ⟨s, executed, calls, results⟩ :
      ∃ s, Machine.exec step origin (halfClosed ++ retry) = some s ∧
        s.closeCalls = [(.pounce, false), (.binary, false), (.binary, false)] ∧
        s.results = [(.tryEnqueue, .ok ()), (.tryEnqueueBinaryTask, .ok ()),
          (.close, .error busyError), (.close, .ok ())] :=
    ⟨_, rfl, rfl, rfl⟩
  have reached : Machine.Run step Steady origin s := Machine.run_of_exec executed (by decide)
  exact ⟨s, executed, calls, (run_close reached).2.2.1 (by simp [results])⟩

/-- A Pounce-only close whose future is dropped while it sends its command. -/
def abandoned : List Label :=
  [.begin .tryEnqueue, .pass 0 false none none, .startClose false, .poll 0 .pounce, .drop 1]

/-- A Pounce-only close that fails behind its command while the loop still receives. -/
def reopened : List Label :=
  [.begin .tryEnqueue, .pass 0 false none none, .startClose false, .poll 0 .pounce,
    .drive 0 .pounce .send, .drive 0 .pounce (.reply .lost), .publish 0, .deliver 0,
    .begin .tryEnqueue, .pass 0 false none none]

theorem stranded_closing :
    (∃ s, Machine.Reachable step origin s ∧ s.attempts = [] ∧ s.lifecycle = .closing ∧
      (s.startClose false).attempts = []) ∧
    ∃ s executor, Machine.Reachable step origin s ∧ s.admitted = [(.pounce, 0), (.pounce, 1)] ∧
      s.executors .pounce = some executor ∧ executor.log = [.task 0, .close, .task 1] := by
  constructor
  · obtain ⟨s, executed, idle, closing, none⟩ :
        ∃ s, Machine.exec step origin abandoned = some s ∧ s.attempts = [] ∧
          s.lifecycle = .closing ∧ (s.startClose false).attempts = [] := ⟨_, rfl, rfl, rfl, rfl⟩
    exact ⟨s, Machine.reachable_of_exec executed, idle, closing, none⟩
  · obtain ⟨s, executed, admitted, executor, here, log⟩ :
        ∃ s, Machine.exec step origin reopened = some s ∧
          s.admitted = [(.pounce, 0), (.pounce, 1)] ∧
          ∃ executor, s.executors .pounce = some executor ∧
            executor.log = [.task 0, .close, .task 1] := ⟨_, rfl, rfl, _, rfl, rfl⟩
    exact ⟨s, executor, Machine.reachable_of_exec executed, admitted, here, log⟩

end RustyCat.ClientState
