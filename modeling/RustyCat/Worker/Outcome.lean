import RustyCat.Lib.Machine
import RustyCat.System.TaskMachine
import RustyCat.Worker.Parallel

/-!
# The outcome of a parallel transfer

`run_group_parallel` among everything that can happen around it: its parts settle
in any order and with any outcome, a stop is accepted or the token is cancelled at
any moment, records are submitted and events are received in between.
-/

namespace RustyCat

namespace Retry

/-- The loop holds a failure that no stop hides: it has ended as failed, or its
request failed with an error that cancelling does not cause and that is not retried. -/
def Lost (limit : Nat) : Retry → Prop
  | failed attempt e | failedToken attempt e =>
    cancellationCanMask e = false ∧ (isTransportRetryable e = false ∨ limit ≤ attempt)
  | settled (.failed _) => True
  | _ => False

theorem Step.lost {ctx : RetryContext} {cell after : TaskCell} {choice : RetryChoice}
    {retry next : Retry} (moved : Step ctx cell choice retry next after)
    (lost : retry.Lost ctx.inner.maxChunkRetries) : next.Lost ctx.inner.maxChunkRetries := by
  cases moved with
  | stopped canceled requested =>
    have masks := cancellationCanMask_of_isTaskCanceled canceled
    rw [lost.1] at masks
    cases masks
  | inspect plain => exact lost
  | masked seen can =>
    have never := lost.1
    rw [can] at never
    cases never
  | giveUp => trivial
  | delay again more =>
    rcases lost.2 with final | spent
    · rw [again] at final
      cases final
    · omega
  | _ => exact lost.elim

end Retry

namespace Part

/-- The part has failed, or has panicked. -/
def Lost (limit : Nat) (part : Part) : Prop :=
  match part.pc with
  | .retry retry => retry.Lost limit
  | .panicked _ => True
  | .acquire => False

theorem Step.lost {inner : InnerTask} {total : Nat} {token : Bool} {cell after : TaskCell}
    {choice : PartChoice} {part next : Part}
    (moved : Step inner total token cell choice part next after)
    (lost : part.Lost inner.maxChunkRetries) : next.Lost inner.maxChunkRetries := by
  cases moved with
  | refused | interrupted | granted => exact lost.elim
  | retry moved => exact moved.lost lost
  | panickedIdle | panickedCalling => trivial

end Part

/-- A part of the driver has failed or has panicked. -/
def Pc.Lost (limit : Nat) : Pc → Prop
  | join d => d.Holds (Part.Lost limit)
  | barrier d => d.failed.isSome = true
  | panicDrain _ _ | exitFailed _ _ _ => True
  | _ => False

namespace Run

variable {inner : InnerTask} {r s : Run}

/-- Every terminal event among the added ones is a failure. -/
def OnlyFails (key : UniqueId) (more : List TaskEvent) : Prop :=
  ∀ event, .sent event ∈ more → event.mayChangeSchedulerReadiness = true →
    ∃ e known, event = .failed key e known

/-- The run stays lost, or it ends here as failed. -/
def StaysLost (inner : InnerTask) (r s : Run) : Prop :=
  ∃ more, s.cell.history = r.cell.history ++ more ∧ OnlyFails inner.dedupeKey more ∧
    (s.pc.Lost inner.maxChunkRetries ∨ s.pc = .finished)

theorem StaysLost.silent {more : List TaskEvent}
    (added : s.cell.history = r.cell.history ++ more) (silent : Parallel.trace more = [])
    (lost : s.pc.Lost inner.maxChunkRetries) : StaysLost inner r s := by
  refine ⟨more, added, fun event member _ => ?_, Or.inl lost⟩
  have own : TaskEvent.sent event ∈ Parallel.trace more := List.mem_filter.mpr ⟨member, rfl⟩
  rw [silent] at own
  cases own

theorem staysLost_joined {d : Driver} {index : Nat} {part : Part}
    (here : d.parts[index]? = some part) (settled : part.settled = true)
    (lost : d.Holds (Part.Lost inner.maxChunkRetries)) :
    StaysLost inner r (r.joined inner { d with parts := d.parts.eraseIdx index } part) := by
  have left := lost.erase here
  have joins : ∀ outcome, OnlyFails inner.dedupeKey [.joined part.offset outcome] := by
    intro outcome event member
    cases List.mem_singleton.mp member
  obtain ⟨offset, pc⟩ := part
  cases pc with
  | acquire => cases settled
  | panicked text => exact ⟨[_], rfl, joins _, Or.inl trivial⟩
  | retry retry =>
    cases retry with
    | settled result =>
      cases result with
      | failed e =>
        exact ⟨[_], rfl, joins _, Or.inl (Or.inl (by simp [Driver.onJoined, Driver.fail]))⟩
      | cancelled =>
        have others := left.resolve_right id
        exact ⟨[_], rfl, joins _, Or.inl (others.onJoined offset .cancelled)⟩
      | done outcome =>
        have others := (left.resolve_right id).onJoined offset (.done outcome)
        let rest : Driver := { d with parts := d.parts.eraseIdx index }
        let next := rest.onJoined offset (.done outcome)
        obtain ⟨news, added, plain⟩ : ∃ news,
            ((r.log (.joined offset .done)).sendMoved inner d.window.total next.2).cell.history =
              r.cell.history ++ news ∧ OnlyFails inner.dedupeKey news := by
          cases next.2 with
          | none => exact ⟨[_], rfl, joins _⟩
          | some watermark =>
            refine ⟨[.joined offset .done, .sent (.progress inner.dedupeKey watermark d.window.total)],
              List.append_assoc _ _ _, ?_⟩
            intro event member ends
            simp only [List.mem_cons, List.not_mem_nil, or_false, reduceCtorEq, false_or,
              TaskEvent.sent.injEq] at member
            subst member
            cases ends
        refine ⟨news ++ next.1.topUp.2.map TaskEvent.spawned, ?_, ?_, Or.inl others.topUp⟩
        · rw [← List.append_assoc, ← added]
          rfl
        · intro event member ends
          rcases List.mem_append.mp member with old | spawned
          · exact plain event old ends
          · obtain ⟨_, _, same⟩ := List.mem_map.mp spawned
            cases same
    | _ => cases settled

theorem Step.staysLost {pc : Pc} {choice : Choice} (taken : Step inner r pc choice s)
    (lost : pc.Lost inner.maxChunkRetries) : StaysLost inner r s := by
  cases taken with
  | part here moved =>
    obtain ⟨more, added, silent, -⟩ := Parallel.trace_part moved
    exact .silent added silent (lost.set here moved.lost)
  | panicPart here moved =>
    obtain ⟨more, added, silent, -⟩ := Parallel.trace_part moved
    exact .silent added silent trivial
  | joined here settled => exact staysLost_joined here settled lost
  | drained empty =>
    exact .silent (List.append_nil _).symm rfl (lost.resolve_right (by simp [empty]))
  | panicJoined here settled =>
    refine ⟨[_], rfl, fun event member => ?_, Or.inl trivial⟩
    cases List.mem_singleton.mp member
  | panicDrained empty =>
    simp only [settlePanic]
    cases inner.direction with
    | download | upload => exact .silent (List.append_nil _).symm rfl trivial
  | barrier =>
    obtain ⟨e, failed⟩ := Option.isSome_iff_exists.mp lost
    simp only [settleBarrier, failed]
    exact .silent (List.append_nil _).symm rfl trivial
  | @failed e known settles =>
    have fails : ∀ quiet, Parallel.trace quiet = [] →
        OnlyFails inner.dedupeKey (quiet ++ [.sent (.failed inner.dedupeKey e known)]) := by
      intro quiet silent event member ends
      rcases List.mem_append.mp member with old | new
      · have own : TaskEvent.sent event ∈ Parallel.trace quiet := List.mem_filter.mpr ⟨old, rfl⟩
        rw [silent] at own
        cases own
      · simp only [List.mem_singleton, TaskEvent.sent.injEq] at new
        exact ⟨e, known, new⟩
    simp only [exitFailed]
    split
    · obtain ⟨quiet, added, silent⟩ := Parallel.trace_abort r.cell inner.direction
      refine ⟨quiet ++ [_], ?_, fails quiet silent, Or.inr rfl⟩
      rw [← List.append_assoc, ← added]
      rfl
    · exact ⟨[_], rfl, fails [] rfl, Or.inr rfl⟩
  | prepInterrupted seen waiting => rcases waiting with rfl | rfl <;> exact lost.elim
  | _ => exact lost.elim

end Run

/-- A step of the driver, or of what happens around it. -/
inductive DriverLabel where
  | work (choice : Choice)
  | acceptStop (kind : StopKind)
  | cancelToken
  /-- The scheduler submits a record of the task. -/
  | record (record : FileTransferRecord) (sinks : List Sink)
  /-- The scheduler receives the oldest event. -/
  | receive

namespace Run

variable {inner : InnerTask} {r s : Run} {start total : Nat}

def driverStep (inner : InnerTask) (r : Run) : DriverLabel → Option Run
  | .work choice => r.step inner choice
  | .acceptStop kind => some (r.acceptStop kind)
  | .cancelToken => some { r with token := true }
  | .record record sinks => some (r.log (.record record sinks))
  | .receive => if r.outbox = [] then none else some { r with outbox := r.outbox.tail }

theorem driverStep_cases {label : DriverLabel} (taken : r.driverStep inner label = some s) :
    (∃ choice, Step inner r r.pc choice s) ∨
      s.pc = r.pc ∧ ∃ more, s.cell.history = r.cell.history ++ more ∧
        Parallel.trace more = [] := by
  cases label with
  | work choice => exact Or.inl ⟨choice, step_cases taken⟩
  | acceptStop | record =>
    cases taken
    exact Or.inr ⟨rfl, [_], rfl, rfl⟩
  | cancelToken =>
    cases taken
    exact Or.inr ⟨rfl, [], (List.append_nil _).symm, rfl⟩
  | receive =>
    simp only [driverStep, Option.ite_none_left_eq_some, Option.some.injEq] at taken
    obtain ⟨_, rfl⟩ := taken
    exact Or.inr ⟨rfl, [], (List.append_nil _).symm, rfl⟩

theorem good_enterParallel (r : Run) (start total : Nat) (total_le : total ≤ u64Max) :
    Parallel.Moves start inner.chunkSize total [] r (r.enterParallel inner start total total_le) := by
  have empty : Trace.Always (Parallel.Law start inner.chunkSize total) [] := Trace.always_nil _
  have flight : Parallel.Flight [] [] := ⟨rfl, fun _ => rfl⟩
  simp only [enterParallel]
  split
  · -- no part of the grid is left
    rename_i past
    refine .stay rfl ⟨empty, flight, ?_, by simp [Parallel.Broken], rfl⟩
    intro offset point
    have below := point.start_le
    have room := point.1
    omega
  · rename_i room
    have width : max inner.chunkSize 1 = inner.chunkSize := Nat.max_eq_left inner.chunkSize_pos
    have watch : Parallel.Watch start inner.chunkSize total []
        (Driver.new inner start total total_le) :=
      { chunk := width
        total := rfl
        tracks := .new total_le (Nat.le_of_not_le room) _
        reported := by simp [Parallel.watermarks]
        low := by simp [Driver.new, PartWindow.new]; omega
        uncalled := rfl
        failed := by simp
        calm := by simp }
    have fresh : (Driver.new inner start total total_le).fill =
        (Driver.new inner start total total_le).topUp := by
      simp [Driver.topUp, Driver.new]
    rw [fresh]
    exact Parallel.moves_joinWith [] (List.append_nil _).symm empty flight watch

theorem ended_iff_finished {chunk : Nat} {t : List TaskEvent} {pc : Pc}
    (ok : Parallel.PcOk start chunk total t pc) : History.ended t = true ↔ pc = .finished := by
  cases pc with
  | finished => exact iff_of_true ok rfl
  | panicDrain | exitFailed => simp [Parallel.Flight.going ok]
  | totalClaim | totalValidate | join | barrier | completeClaim | completeValidate | completeCall
  | release | exitCanceled =>
    simp [Parallel.Flight.going ok.1]
  | _ => exact ok.elim

/-- What the driver has done since `run_group_parallel` began, and that it stands
where that leaves it. -/
def Driven (inner : InnerTask) (start total : Nat) (origin s : Run) : Prop :=
  ∃ h, s.cell.history = origin.cell.history ++ h ∧
    Parallel.Good start inner.chunkSize total (Parallel.trace h) s.pc

theorem Driven.step {origin : Run} {label : DriverLabel} (driven : Driven inner start total origin r)
    (taken : r.driverStep inner label = some s) : Driven inner start total origin s := by
  obtain ⟨h, added, good⟩ := driven
  have extend : ∀ {more}, s.cell.history = r.cell.history ++ more →
      Parallel.Good start inner.chunkSize total (Parallel.trace h ++ Parallel.trace more) s.pc →
      Driven inner start total origin s := by
    intro more grown kept
    refine ⟨h ++ more, by rw [grown, added, List.append_assoc], ?_⟩
    rw [Parallel.trace_append]
    exact kept
  rcases driverStep_cases taken with ⟨choice, own⟩ | ⟨same, more, grown, silent⟩
  · obtain ⟨more, grown, kept⟩ := Parallel.step_moves own good
    exact extend grown kept
  · refine extend grown ?_
    rw [silent, List.append_nil, same]
    exact good

theorem reachable_driven {total_le : total ≤ u64Max}
    (reached : Machine.Reachable (driverStep inner) (r.enterParallel inner start total total_le) s) :
    Driven inner start total r s := by
  refine reached.invariant (Driven inner start total r) ?_ fun _ _ _ driven _ taken =>
    driven.step taken
  exact good_enterParallel r start total total_le

theorem reachable_staysLost (lost : r.pc.Lost inner.maxChunkRetries)
    (reached : Machine.Reachable (driverStep inner) r s) : StaysLost inner r s := by
  refine reached.invariant (StaysLost inner r) ?_ ?_
  · exact .silent (List.append_nil _).symm rfl lost
  · rintro s label t ⟨more, added, fails, stands⟩ - taken
    have extend : ∀ {news}, t.cell.history = s.cell.history ++ news →
        OnlyFails inner.dedupeKey news → (t.pc.Lost inner.maxChunkRetries ∨ t.pc = .finished) →
        StaysLost inner r t := by
      intro news grown plain next
      refine ⟨more ++ news, by rw [grown, added, List.append_assoc], ?_, next⟩
      intro event member ends
      rcases List.mem_append.mp member with old | new
      · exact fails event old ends
      · exact plain event new ends
    rcases driverStep_cases taken with ⟨choice, own⟩ | ⟨same, news, grown, silent⟩
    · rcases stands with lost | past
      · obtain ⟨news, grown, plain, next⟩ := own.staysLost lost
        exact extend grown plain next
      · rw [past] at own
        cases own with
        | prepInterrupted seen waiting => rcases waiting with impossible | impossible <;> cases impossible
    · refine extend grown (fun event member _ => ?_) (by rw [same]; exact stands)
      have own : TaskEvent.sent event ∈ Parallel.trace news := List.mem_filter.mpr ⟨member, rfl⟩
      rw [silent] at own
      cases own

def isTerminal : TaskEvent → Bool
  | .sent event => event.mayChangeSchedulerReadiness
  | _ => false

def terminals (h : List TaskEvent) : Nat := h.countP isTerminal

theorem terminals_trace (h : List TaskEvent) : terminals (Parallel.trace h) = terminals h := by
  simp only [terminals, Parallel.trace, List.countP_filter]
  refine List.countP_congr fun e _ => ?_
  cases e <;> simp [isTerminal, Parallel.isOwn]

theorem terminals_eq {chunk : Nat} {h : List TaskEvent}
    (law : Trace.Always (Parallel.Law start chunk total) (Parallel.trace h)) :
    terminals (Parallel.trace h) = (History.ended (Parallel.trace h)).toNat := by
  have own : ∀ e ∈ Parallel.trace h, Parallel.isOwn e = true := fun e member =>
    (List.mem_filter.mp member).2
  revert own
  refine law.induction (I := fun t => (∀ e ∈ t, Parallel.isOwn e = true) →
    terminals t = (History.ended t).toNat) (fun _ => rfl) ?_
  intro before event _ ih obeys own
  have counted := ih fun e member => own e (List.mem_append_left _ member)
  have mine := own event (List.mem_append_right _ (List.mem_singleton_self _))
  simp only [terminals, List.countP_append, List.countP_singleton, History.ended_append] at counted ⊢
  rw [counted]
  cases event with
  | sent event =>
    cases event with
    | progress key next known =>
      simp [isTerminal, History.noteEnd, WorkerEvent.mayChangeSchedulerReadiness]
    | completed | failed | canceled =>
      simp [isTerminal, History.noteEnd, WorkerEvent.mayChangeSchedulerReadiness, obeys.1]
  | started => cases mine
  | _ => simp [isTerminal, History.noteEnd]

/-- What a driver that began at `origin` shows in a state it reaches.  `law` says
for each thing it did what lies behind it; the driver is never stuck before its
terminal event, and each of its steps brings the event nearer. -/
structure ParallelOutcome (inner : InnerTask) (start total : Nat) (origin s : Run)
    (h : List TaskEvent) : Prop where
  added : s.cell.history = origin.cell.history ++ h
  law : Trace.Always (Parallel.Law start inner.chunkSize total) (Parallel.trace h)
  once : terminals h = if s.pc = .finished then 1 else 0
  quiet : s.pc = .finished → ∀ choice, s.step inner choice = none
  live : s.pc ≠ .finished → ∃ choice, (s.step inner choice).isSome = true
  nearer : ∀ choice t, s.step inner choice = some t → t.pc.fuel inner < s.pc.fuel inner
  unmasked : s.pc.Lost inner.maxChunkRetries → ∀ t, Machine.Reachable (driverStep inner) s t →
    ∃ more, t.cell.history = s.cell.history ++ more ∧ OnlyFails inner.dedupeKey more

theorem step_finished (past : s.pc = .finished) (choice : Choice) : s.step inner choice = none := by
  simp only [step, past, stepExit]

/-- In every order of the parts and at every moment of a stop, the driver's outcome
is in order. -/
theorem reachable_parallelOutcome {total_le : total ≤ u64Max}
    (reached : Machine.Reachable (driverStep inner) (r.enterParallel inner start total total_le) s) :
    ∃ h, ParallelOutcome inner start total r s h := by
  obtain ⟨h, added, good⟩ := reachable_driven reached
  refine ⟨h, added, good.law, ?_, step_finished, ?_, ?_, ?_⟩
  · rw [← terminals_trace, terminals_eq good.law]
    have ends := ended_iff_finished good.ok
    split
    · rename_i past
      rw [ends.mpr past]
      rfl
    · rename_i going
      rw [Bool.eq_false_iff.mpr (mt ends.mp going)]
      rfl
  · intro going
    obtain ⟨choice, _, _, enabled⟩ := exists_step s going
    exact ⟨choice, enabled⟩
  · intro choice t taken
    refine (step_cases taken).fuel_lt.resolve_left ?_
    rintro ⟨offset, known, stands, _⟩
    have ok := good.ok
    rw [stands] at ok
    exact ok
  · intro lost t later
    obtain ⟨more, grown, fails, _⟩ := reachable_staysLost lost later
    exact ⟨more, grown, fails⟩

def twoParts : InnerTask where
  taskId := 1
  fileSign := "a"
  fileName := "a"
  uploadFileSnapshot := none
  direction := .download
  totalSize := 4
  chunkSize := 2
  url := "http://host/a"
  maxChunkRetries := 0
  maxUploadPrepareRetries := 0
  maxPartsInFlight := 2
  supportsParallelParts := true
  totalSize_le := sample_size
  chunkSize_pos := Nat.two_pos

/-- The first part meets a bad checksum, then a pause is accepted, the token is
cancelled and the second part stops. -/
def failThenPause : List DriverLabel :=
  [.work (.part 0 .grant), .work (.part 0 (.retry .tick)),
    .work (.part 0 (.retry (.answer (.download (.error (.fromCode1 .checksumMismatch)))))),
    .acceptStop .pause, .cancelToken, .work (.part 1 .grant), .work (.join 1),
    .work (.part 0 (.retry .tick)), .work (.part 0 (.retry .tick)), .work (.join 0),
    .work .tick, .work .tick, .work .tick]

/-- The run above is reported as failed. -/
theorem reachable_parallelOutcome_failed :
    ∃ s, Machine.exec (driverStep twoParts)
        ((spawn 0 .new).enterParallel twoParts 0 4 (by decide)) failThenPause = some s ∧
      s.outbox = [.failed twoParts.dedupeKey (.fromCode1 .checksumMismatch) 4] ∧
      ∃ h, ParallelOutcome twoParts 0 4 (spawn 0 .new) s h := by
  have ends : ∃ s, Machine.exec (driverStep twoParts)
      ((spawn 0 .new).enterParallel twoParts 0 4 (by decide)) failThenPause = some s ∧
      s.outbox = [.failed twoParts.dedupeKey (.fromCode1 .checksumMismatch) 4] := by
    refine ⟨_, rfl, ?_⟩
    decide
  obtain ⟨s, executed, sent⟩ := ends
  exact ⟨s, executed, sent, reachable_parallelOutcome (Machine.reachable_of_exec executed)⟩

end Run

end RustyCat
