import RustyCat.Client.Close

/-!
# What every step of closing keeps

The close of an executor moves only its own attempt; an attempt runs only while the
lifecycle is `closing`; a close that is complete is known to whoever may call it again.
-/

namespace RustyCat.ClientState

open Function

variable {s t : ClientState}

/-! ## The close of an executor -/

/-- What one await of a close does to its executor. -/
structure OpMove (kind : ExecutorKind) (e e' : ExecutorState) (op op' : CloseOp) : Prop where
  log : e'.log = e.log ∨ e'.log = e.log ++ [.close]
  receiving : e'.receiving = e.receiving
  complete : e'.complete = e.complete ∨ ∃ result, op = .joining result ∧ op' = .ended result
  settles : op' = .ended (.ok ()) → e'.complete = true
  joins : ∀ result, op' = .joining result → kind = .pounce → isOk result = true
  live : ∀ result, op ≠ .ended result

@[simp] theorem isOk_ok (value : Unit) : isOk (.ok value) = true := rfl

@[simp] theorem isOk_error (e : MeowError) : isOk (.error e) = false := rfl

theorem isOk_eq_true {result : Except MeowError Unit} : isOk result = true ↔ result = .ok () := by
  cases result <;> simp [isOk]

variable {executor : ExecutorState} {kind : ExecutorKind} {label : Label} {attempt : Attempt}
  {index : Nat}

theorem callClose_move (s : ClientState) (kind : ExecutorKind)
    (here : s.executors kind = some executor) :
    ∃ executor', OpMove kind executor executor' .idle (s.callClose kind executor).2 ∧
      (s.callClose kind executor).1 =
        { s.setExecutor kind executor' with
          closeCalls := s.closeCalls ++ [(kind, executor.complete)] } := by
  have same : update s.executors kind (some executor) = s.executors := by
    rw [← here, update_eq_self]
  cases kind with
  | pounce =>
    refine ⟨executor, ⟨.inl rfl, rfl, .inl rfl, nofun, nofun, nofun⟩, ?_⟩
    simp only [callClose, setExecutor, same]
  | binary =>
    by_cases complete : executor.complete = true
    · refine ⟨executor, ⟨.inl rfl, rfl, .inl rfl, fun _ => complete, ?_, nofun⟩, ?_⟩
      · simp [callClose, complete]
      · simp only [callClose, setExecutor, complete, if_true, same]
    · by_cases busy : executor.inProgress = true
      · refine ⟨executor, ⟨.inl rfl, rfl, .inl rfl, ?_, ?_, nofun⟩, ?_⟩
        · simp [callClose, complete, busy]
        · simp [callClose, complete, busy]
        · simp [callClose, setExecutor, complete, busy, same]
      · refine ⟨{ executor with inProgress := true }, ⟨.inl rfl, rfl, .inl rfl, ?_, ?_, nofun⟩, ?_⟩
        · simp [callClose, complete, busy]
        · simp [callClose, complete, busy]
        · simp [callClose, setExecutor, complete, busy]

theorem driveClose_move {op op' : CloseOp} {action : CloseAction}
    (here : s.executors kind = some executor)
    (driven : s.driveClose kind executor op action = some (t, op')) :
    ∃ executor', t = s.setExecutor kind executor' ∧ OpMove kind executor executor' op op' := by
  have same : s.setExecutor kind executor = s := by
    rw [setExecutor, ← here, update_eq_self]
  unfold driveClose at driven
  split at driven
  · split at driven
    · cases driven
      exact ⟨_, rfl, ⟨.inr rfl, rfl, .inl rfl, nofun, nofun, nofun⟩⟩
    · cases driven
      exact ⟨_, rfl, ⟨.inl rfl, rfl, .inl rfl, nofun, nofun, nofun⟩⟩
  · cases driven
    exact ⟨_, rfl, ⟨.inl rfl, rfl, .inl rfl, nofun, nofun, nofun⟩⟩
  · simp only [Option.ite_none_right_eq_some, Option.some.injEq, Prod.mk.injEq] at driven
    obtain ⟨_, rfl, rfl⟩ := driven
    exact ⟨_, rfl, ⟨.inl rfl, rfl, .inl rfl, nofun, nofun, nofun⟩⟩
  · simp only [Option.ite_none_right_eq_some, Option.some.injEq, Prod.mk.injEq] at driven
    obtain ⟨may, rfl, rfl⟩ := driven
    refine ⟨executor, same.symm, .inl rfl, rfl, .inl rfl, nofun, ?_, nofun⟩
    rintro _ ⟨⟩ rfl
    simpa using may
  · cases driven
    exact ⟨_, rfl, ⟨.inl rfl, rfl, .inr ⟨_, rfl, rfl⟩, fun _ => rfl, nofun, nofun⟩⟩
  · rename_i result e
    cases driven
    refine ⟨_, rfl, .inl rfl, rfl, .inl rfl, fun ended => ?_, nofun, nofun⟩
    cases result <;> simp [isOk] at ended
  · cases driven

/-! ## Steps -/

def Grown (old new : ExecutorKind → Option ExecutorState) : Prop :=
  ∀ kind, new kind = old kind ∨ (old kind = none ∧ new kind = some .fresh)

def Freed (old new : ExecutorKind → Option ExecutorState) : Prop :=
  ∀ kind, new kind = old kind ∨ new kind = (old kind).map ExecutorState.release

/-- The steps, one constructor for each thing a step can do. -/
inductive Step (s : ClientState) : Label → ClientState → Prop where
  | quiet {label : Label} (nextCaller : Nat) (building : List (Nat × Operation))
      (waiting : List Nat) (new : List (Operation × Except MeowError Unit))
      (errors : ∀ result ∈ new, isOk result.2 = false) :
      Step s label { s with
        nextCaller := nextCaller, building := building, waiting := waiting
        results := s.results ++ new }
  | used {label : Label} (building : List (Nat × Operation)) (operation : Operation)
      (result : Except MeowError Unit) {executors : ExecutorKind → Option ExecutorState}
      (gate : s.lifecycle = .opened) (grown : Grown s.executors executors)
      (other : operation ≠ .close) :
      Step s label { s with
        building := building, executors := executors
        results := s.results ++ [(operation, result)] }
  | admitted {label : Label} (building : List (Nat × Operation)) (operation : Operation)
      {executors : ExecutorKind → Option ExecutorState} {executor : ExecutorState}
      (gate : s.lifecycle = .opened) (grown : Grown s.executors executors)
      (here : executors operation.kind = some executor) (receiving : executor.receiving = true)
      (other : operation ≠ .close) :
      Step s label { s with
        building := building
        executors := update executors operation.kind
          (some { executor with log := executor.log ++ [.task s.nextTask] })
        nextTask := s.nextTask + 1
        admitted := s.admitted ++ [(operation.kind, s.nextTask)]
        results := s.results ++ [(operation, .ok ())] }
  | retried {label : Label} {pounceClosed binaryClosed : Bool}
      (failed : s.lifecycle = .closeFailed pounceClosed binaryClosed) :
      Step s label { s with
        nextCaller := s.nextCaller + 1
        lifecycle := .closing
        listening := s.listening ++ [s.nextCaller]
        attempts := s.attempts ++ [.mixed s.nextCaller false
          (fun
            | .pounce => pounceClosed
            | .binary => binaryClosed)
          fun _ => .idle] }
  | beganMixed {label : Label} (gate : s.lifecycle = .opened) :
      Step s label { s with
        nextCaller := s.nextCaller + 1
        closed := true
        lifecycle := .closing
        listening := s.listening ++ [s.nextCaller]
        attempts := s.attempts ++ [.mixed s.nextCaller false (fun _ => false) fun _ => .idle] }
  | beganPounceOnly {label : Label} (gate : s.lifecycle = .opened)
      (alone : s.executors .binary = none) :
      Step s label { s with
        nextCaller := s.nextCaller + 1
        closed := true
        lifecycle := .closing
        attempts := s.attempts ++ [.pounceOnly s.nextCaller .idle] }
  | spawned {label : Label} {index caller : Nat} {progress : ExecutorKind → Bool}
      {ops : ExecutorKind → CloseOp}
      (here : s.attempts[index]? = some (.mixed caller false progress ops)) :
      Step s label { s with
        attempts := s.attempts.set index (.mixed caller true progress ops) }
  | skippedPounce {label : Label} {index caller : Nat}
      (here : s.attempts[index]? = some (.pounceOnly caller .idle))
      (none : s.executors .pounce = none) :
      Step s label { s with
        attempts := s.attempts.set index (.pounceOnly caller (.ended (.ok ()))) }
  | skipped {label : Label} {index caller : Nat} {progress : ExecutorKind → Bool}
      {ops : ExecutorKind → CloseOp} {kind : ExecutorKind}
      (here : s.attempts[index]? = some (.mixed caller true progress ops)) :
      Step s label { s with
        attempts := s.attempts.set index (.mixed caller true (update progress kind true)
          (update ops kind (.ended (.ok ())))) }
  | movedPounce {label : Label} {index caller : Nat} {op op' : CloseOp}
      {executor executor' : ExecutorState} {calls : List (ExecutorKind × Bool)}
      (here : s.attempts[index]? = some (.pounceOnly caller op))
      (found : s.executors .pounce = some executor) (move : OpMove .pounce executor executor' op op')
      (called : calls = [] ∨ op = .idle ∧ calls = [(.pounce, executor.complete)]) :
      Step s label { s.setExecutor .pounce executor' with
        attempts := s.attempts.set index (.pounceOnly caller op')
        closeCalls := s.closeCalls ++ calls }
  | moved {label : Label} {index caller : Nat} {progress : ExecutorKind → Bool}
      {ops : ExecutorKind → CloseOp} {kind : ExecutorKind} {op' : CloseOp}
      {executor executor' : ExecutorState} {calls : List (ExecutorKind × Bool)}
      (here : s.attempts[index]? = some (.mixed caller true progress ops))
      (found : s.executors kind = some executor)
      (move : OpMove kind executor executor' (ops kind) op')
      (called : calls = [] ∨ progress kind = false ∧ calls = [(kind, executor.complete)]) :
      Step s label { s.setExecutor kind executor' with
        attempts := s.attempts.set index (.mixed caller true
          ((s.setExecutor kind executor').noteEnded kind op' progress)
          (update ops kind op'))
        closeCalls := s.closeCalls ++ calls }
  | publishedPounce {index caller : Nat} {result : Except MeowError Unit}
      (here : s.attempts[index]? = some (.pounceOnly caller (.ended result))) :
      Step s (.publish index)
        ({ s with attempts := s.attempts.eraseIdx index }.publishPounceOnly caller result)
  | published {label : Label} {index caller : Nat} {spawned : Bool}
      {progress progress' : ExecutorKind → Bool} {ops : ExecutorKind → CloseOp}
      {executors : ExecutorKind → Option ExecutorState} {result : Except MeowError Unit}
      (here : s.attempts[index]? = some (.mixed caller spawned progress ops))
      (freed : Freed s.executors executors)
      (kept : ∀ kind, progress kind = true → progress' kind = true)
      (both : result = .ok () → ∀ kind, ops kind = .ended (.ok ())) :
      Step s label ({ s with
        attempts := s.attempts.eraseIdx index
        executors := executors }.publishMixedCloseResult caller progress' result)
  | delivered {label : Label} {index : Nat} {entry : Published}
      (here : s.published[index]? = some entry) :
      Step s label ({ s with published := s.published.eraseIdx index }.deliver entry)
  | dropped {caller : Nat} : Step s (.drop caller) (s.drop caller)
  | gone {label : Label} {kind : ExecutorKind} {executor : ExecutorState}
      (here : s.executors kind = some executor) :
      Step s label (s.setExecutor kind { executor with receiving := false })

theorem lockOpenLifecycle_cases (s : ClientState) :
    s.lockOpenLifecycle = .error clientClosedError ∨
      s.lockOpenLifecycle = .ok () ∧ s.lifecycle = .opened := by
  unfold lockOpenLifecycle
  split
  · exact .inl rfl
  · rename_i may
    exact .inr ⟨rfl, Decidable.not_not.mp fun other => may (.inl other)⟩

theorem getExecLocked_cases {failure : Option MeowError}
    (taken : s.getExecLocked kind failure = .ok (t, executor)) :
    t.executors kind = some executor ∧
      ∃ executors, Grown s.executors executors ∧ t = { s with executors := executors } := by
  unfold getExecLocked at taken
  split at taken
  · rename_i found
    cases taken
    exact ⟨found, s.executors, fun _ => .inl rfl, rfl⟩
  · cases taken
  · rename_i none
    cases taken
    refine ⟨update_self .., _, fun other => ?_, rfl⟩
    by_cases same : other = kind
    · subst same
      exact .inr ⟨none, update_self ..⟩
    · exact .inl (update_of_ne same _ _)

theorem step_refused (building : List (Nat × Operation)) (operation : Operation) (e : MeowError) :
    Step s label ({ s with building := building }.answer operation (.error e)) :=
  .quiet s.nextCaller building s.waiting [(operation, .error e)] (by simp [isOk])

theorem step_accept (building : List (Nat × Operation)) (operation : Operation)
    (failure refusal : Option MeowError) (other : operation ≠ .close) :
    Step s label ((({ s with building := building }.accept operation failure refusal).1).answer
      operation ({ s with building := building }.accept operation failure refusal).2) := by
  unfold accept
  rcases lockOpenLifecycle_cases { s with building := building } with shut | ⟨passed, gate⟩
  · rw [shut]
    exact step_refused building operation _
  · rw [passed]
    dsimp only
    split
    · exact step_refused building operation _
    rename_i after executor taken
    obtain ⟨here, executors, grown, rfl⟩ := getExecLocked_cases taken
    unfold trySend
    split
    · exact .used building operation _ gate grown other
    split
    · rename_i receiving
      exact .admitted building operation gate grown here receiving other
    · exact .used building operation _ gate grown other

theorem step_control (building : List (Nat × Operation)) (isBinary : Bool)
    (failure : Option MeowError) :
    Step s label ((({ s with building := building }.control isBinary failure).1).answer
      .control ({ s with building := building }.control isBinary failure).2) := by
  unfold control
  rcases lockOpenLifecycle_cases { s with building := building } with shut | ⟨passed, gate⟩
  · rw [shut]
    exact step_refused building .control _
  · rw [passed]
    dsimp only
    split
    · exact .used building .control _ gate (fun _ => .inl rfl) nofun
    split
    · exact step_refused building .control _
    rename_i taken
    obtain ⟨_, executors, grown, rfl⟩ := getExecLocked_cases taken
    exact .used building .control _ gate grown nofun

theorem step_startClose (onDispatcher : Bool) :
    Step s label (s.startClose onDispatcher) := by
  unfold startClose
  dsimp only
  split
  · exact step_refused s.building .close _
  split
  · have waits := @Step.quiet s label (s.nextCaller + 1) s.building
      (s.waiting ++ [s.nextCaller]) [] nofun
    rwa [List.append_nil] at waits
  · exact step_refused s.building .close _
  · rename_i failed
    exact .retried failed
  · rename_i gate
    split
    · exact step_refused s.building .close _
    split
    · exact .beganMixed gate
    · rename_i alone
      exact .beganPounceOnly gate (by simpa using alone)

theorem pollClose_step {attempt' : Attempt} (here : s.attempts[index]? = some attempt)
    (polled : s.pollClose attempt kind = some (t, attempt')) :
    Step s label { t with attempts := s.attempts.set index attempt' } := by
  unfold pollClose at polled
  split at polled
  · split at polled
    · rename_i none
      cases polled
      exact .skippedPounce here none
    · rename_i executor found
      obtain ⟨executor', move, after⟩ := callClose_move s .pounce found
      simp only [Option.some.injEq, Prod.mk.injEq] at polled
      obtain ⟨rfl, rfl⟩ := polled
      rw [after]
      exact .movedPounce here found move (.inr ⟨rfl, rfl⟩)
  · rename_i caller progress ops
    split at polled
    · rename_i idle
      split at polled
      · rename_i known
        cases polled
        have same : update progress kind true = progress := by
          rw [← known, update_eq_self]
        have skipped := @Step.skipped s label index _ progress ops kind here
        rwa [same] at skipped
      · rename_i unknown
        split at polled
        · cases polled
          exact .skipped here
        · rename_i executor found
          obtain ⟨executor', move, after⟩ := callClose_move s kind found
          simp only [Option.some.injEq, Prod.mk.injEq] at polled
          obtain ⟨rfl, rfl⟩ := polled
          rw [after]
          exact .moved here found (idle ▸ move) (.inr ⟨by simpa using unknown, rfl⟩)
    · cases polled
  · cases polled

theorem driveAttempt_step {attempt' : Attempt} {action : CloseAction}
    (here : s.attempts[index]? = some attempt)
    (driven : s.driveAttempt action attempt kind = some (t, attempt')) :
    Step s label { t with attempts := s.attempts.set index attempt' } := by
  unfold driveAttempt at driven
  split at driven
  · simp only [Option.bind_eq_bind, Option.bind_eq_some_iff, Option.pure_def, Option.some.injEq,
      Prod.exists, Prod.mk.injEq] at driven
    obtain ⟨executor, found, after, op', moved, rfl, rfl⟩ := driven
    obtain ⟨executor', rfl, move⟩ := driveClose_move found moved
    have step := @Step.movedPounce s label index _ _ op' _ executor' [] here found move (.inl rfl)
    rwa [List.append_nil] at step
  · simp only [Option.bind_eq_bind, Option.bind_eq_some_iff, Option.pure_def, Option.some.injEq,
      Prod.exists, Prod.mk.injEq] at driven
    obtain ⟨executor, found, after, op', moved, rfl, rfl⟩ := driven
    obtain ⟨executor', rfl, move⟩ := driveClose_move found moved
    have step := @Step.moved s label index _ _ _ _ op' _ executor' [] here found move (.inl rfl)
    rwa [List.append_nil] at step
  · cases driven

theorem mixedResult_ok {pounce binary : Except MeowError Unit}
    (fine : mixedResult pounce binary = .ok ()) : pounce = .ok () ∧ binary = .ok () := by
  unfold mixedResult at fine
  split at fine
  · rename_i first
    exact ⟨isOk_eq_true.mp first, fine⟩
  · rename_i first
    exact absurd (isOk_eq_true.mpr fine) first

theorem publish_step (here : s.attempts[index]? = some attempt)
    (written : { s with attempts := s.attempts.eraseIdx index }.publish attempt = some t) :
    Step s (.publish index) t := by
  unfold publish at written
  split at written
  · cases written
    exact .publishedPounce here
  · split at written
    · rename_i pounce binary first second
      cases written
      refine .published here (fun _ => .inl rfl) (fun kind known => ?_) fun fine kind => ?_
      · simp [reconcileCloseProgress, known]
      · obtain ⟨rfl, rfl⟩ := mixedResult_ok fine
        cases kind
        · exact first
        · exact second
    · cases written
  · cases written

theorem abort_step {e : MeowError} (here : s.attempts[index]? = some attempt)
    (written : { s with attempts := s.attempts.eraseIdx index }.abort e attempt = some t) :
    Step s label t := by
  unfold abort at written
  split at written
  · cases written
    refine .published here (fun _ => .inr rfl) (fun kind known => ?_) nofun
    simp [reconcileCloseProgress, known]
  · cases written

theorem spawnFails_step {e : MeowError} (here : s.attempts[index]? = some attempt)
    (written : { s with attempts := s.attempts.eraseIdx index }.spawnFails e attempt = some t) :
    Step s label t := by
  unfold spawnFails at written
  split at written
  · cases written
    exact .published here (fun _ => .inl rfl) (fun _ known => known) nofun
  · cases written

/-- Everything a step can do. -/
theorem step_cases (taken : s.step label = some t) : Step s label t := by
  cases label with
  | «begin» operation =>
    have begun : ∀ {label : Label}, Step s label (s.begin operation) := by
      intro label
      unfold ClientState.begin
      split
      · exact step_refused s.building operation _
      have begun := @Step.quiet s label (s.nextCaller + 1)
        (s.building ++ [(s.nextCaller, operation)]) s.waiting [] nofun
      rwa [List.append_nil] at begun
    cases operation <;> cases taken <;> exact begun
  | pass index isBinary failure refusal =>
    simp only [step, Option.bind_eq_bind, Option.bind_eq_some_iff, Option.pure_def,
      Option.some.injEq, Prod.exists] at taken
    obtain ⟨_, operation, _, after, result, passed, rfl⟩ := taken
    cases operation with
    | control =>
      have step := @step_control s (.pass index isBinary failure refusal)
        (s.building.eraseIdx index) isBinary failure
      rwa [Option.some.inj passed] at step
    | tryEnqueue =>
      have step := @step_accept s (.pass index isBinary failure refusal)
        (s.building.eraseIdx index) .tryEnqueue failure refusal nofun
      rwa [Option.some.inj passed] at step
    | tryEnqueuePaused =>
      have step := @step_accept s (.pass index isBinary failure refusal)
        (s.building.eraseIdx index) .tryEnqueuePaused failure refusal nofun
      rwa [Option.some.inj passed] at step
    | tryEnqueueBinaryTask | close => cases passed
  | enqueueBinary invalid failure refusal =>
    cases taken
    split
    · exact step_refused s.building .tryEnqueueBinaryTask _
    · exact step_accept s.building .tryEnqueueBinaryTask failure refusal nofun
  | startClose onDispatcher =>
    cases taken
    exact step_startClose onDispatcher
  | spawn index =>
    simp only [step, Option.bind_eq_bind, Option.bind_eq_some_iff] at taken
    obtain ⟨attempt, here, taken⟩ := taken
    split at taken
    · cases taken
      exact .spawned here
    · cases taken
  | spawnFails index e =>
    simp only [step, Option.bind_eq_bind, Option.bind_eq_some_iff] at taken
    obtain ⟨attempt, here, taken⟩ := taken
    exact spawnFails_step here taken
  | poll index kind =>
    simp only [step, Option.bind_eq_bind, Option.bind_eq_some_iff, Option.pure_def,
      Option.some.injEq, Prod.exists] at taken
    obtain ⟨attempt, here, after, attempt', polled, rfl⟩ := taken
    exact pollClose_step here polled
  | drive index kind action =>
    simp only [step, Option.bind_eq_bind, Option.bind_eq_some_iff, Option.pure_def,
      Option.some.injEq, Prod.exists] at taken
    obtain ⟨attempt, here, after, attempt', driven, rfl⟩ := taken
    exact driveAttempt_step here driven
  | publish index =>
    simp only [step, Option.bind_eq_bind, Option.bind_eq_some_iff] at taken
    obtain ⟨attempt, here, taken⟩ := taken
    exact publish_step here taken
  | abort index e =>
    simp only [step, Option.bind_eq_bind, Option.bind_eq_some_iff] at taken
    obtain ⟨attempt, here, taken⟩ := taken
    exact abort_step here taken
  | deliver index =>
    simp only [step, Option.bind_eq_bind, Option.bind_eq_some_iff, Option.pure_def,
      Option.some.injEq] at taken
    obtain ⟨entry, here, rfl⟩ := taken
    exact .delivered here
  | drop caller =>
    cases taken
    exact .dropped
  | receiverGone kind =>
    simp only [step, Option.bind_eq_bind, Option.bind_eq_some_iff, Option.pure_def,
      Option.some.injEq] at taken
    obtain ⟨executor, here, rfl⟩ := taken
    exact .gone here

end RustyCat.ClientState
