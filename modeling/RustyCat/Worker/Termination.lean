import RustyCat.Worker.Verdict

/-!
# Runs end

A bound on the steps a run still has before it.  Every step lowers it, except
that the serial loop starts over as long as no stop reaches it: how often it does
is up to the protocol.  A run that has not finished is never stuck.
-/

namespace RustyCat

namespace Retry

/-- The steps the loop can still take when the request may be retried `limit` times. -/
def fuel (limit : Nat) : Retry → Nat
  | check attempt => 5 * (limit - attempt) + 5
  | call attempt => 5 * (limit - attempt) + 4
  | failed attempt _ => 5 * (limit - attempt) + 3
  | failedToken attempt _ => 5 * (limit - attempt) + 2
  | backoff attempt => 5 * (limit - (attempt + 1)) + 6
  | settleClaim => 1
  | settled _ => 0

theorem Step.fuel_lt {ctx : RetryContext} {cell after : TaskCell} {choice : RetryChoice}
    {retry next : Retry} (moved : Step ctx cell choice retry next after) :
    next.fuel ctx.inner.maxChunkRetries < retry.fuel ctx.inner.maxChunkRetries := by
  cases moved with
  | headInterrupted | request | stopped | inspect | masked | giveUp | settle
  | backoffInterrupted | wake | delay =>
    simp only [fuel]
    omega
  | @returned attempt answer transfer called =>
    cases result : transfer.result <;> simp only [afterCall, fuel] <;> omega

def someAnswer (inner : InnerTask) : ChunkAnswer :=
  match inner.direction with
  | .upload => .upload
      { source := none
        beforeLast := none
        chunk := .ok { completedFileId := none, nextByte := none }
        afterTerminal := none
        complete := .ok none }
  | .download => .download (.error (.fromCode1 .unknown))

theorem transferChunk_someAnswer (inner : InnerTask) (mode : ChunkTransferMode) (offset : Nat) :
    (transferChunk inner mode offset (someAnswer inner)).isSome = true := by
  cases direction : inner.direction <;> cases mode <;> simp [transferChunk, someAnswer, direction]

theorem someAnswer_polite (inner : InnerTask) (stop : Bool) :
    (RetryChoice.answer (someAnswer inner)).Polite stop := by
  cases direction : inner.direction <;>
    simp [RetryChoice.Polite, someAnswer, direction, ChunkAnswer.raised, UploadAnswer.raised,
      errorOf, isTaskCanceled, MeowError.fromCode1, InnerErrorCode.asI32]

theorem exists_step (ctx : RetryContext) (retry : Retry) (cell : TaskCell)
    (going : ∀ result, retry ≠ settled result) :
    ∃ choice, (∀ stop, choice.Polite stop) ∧ (retry.step ctx cell choice).isSome = true := by
  cases retry with
  | check | failed => exact ⟨.tick, fun _ => trivial, by simp only [step]; split <;> rfl⟩
  | call attempt =>
    exact ⟨.answer (someAnswer ctx.inner), someAnswer_polite ctx.inner, by
      simp [step, transferChunk_someAnswer]⟩
  | failedToken attempt e =>
    refine ⟨.tick, fun _ => trivial, ?_⟩
    simp only [step]
    split
    · rfl
    · split <;> rfl
  | settleClaim => exact ⟨.tick, fun _ => trivial, rfl⟩
  | backoff attempt => exact ⟨.wake, fun _ => trivial, rfl⟩
  | settled result => exact absurd rfl (going result)

end Retry

namespace Part

def fuel (limit : Nat) (part : Part) : Nat :=
  match part.pc with
  | .acquire => 5 * limit + 6
  | .retry retry => retry.fuel limit
  | .panicked _ => 0

theorem Step.fuel_lt {inner : InnerTask} {total : Nat} {token : Bool} {cell after : TaskCell}
    {choice : PartChoice} {part next : Part}
    (moved : Step inner total token cell choice part next after) :
    next.fuel inner.maxChunkRetries < part.fuel inner.maxChunkRetries := by
  have unsettled : ∀ part : Part, part.settled = false → 0 < part.fuel inner.maxChunkRetries := by
    rintro ⟨offset, pc⟩ running
    cases pc with
    | acquire => simp [fuel]
    | retry retry => cases retry <;> simp_all [fuel, Retry.fuel, settled]
    | panicked text => simp [settled] at running
  cases moved with
  | refused | interrupted | granted =>
    simp only [fuel, Retry.fuel]
    omega
  | retry moved => exact moved.fuel_lt
  | panickedIdle text running idle => exact unsettled _ running
  | panickedCalling text busy =>
    refine unsettled _ ?_
    obtain ⟨offset, pc⟩ := part
    cases pc with
    | retry retry => cases retry <;> simp_all [settled, calling, Retry.calling]
    | _ => simp [calling] at busy

theorem exists_step (inner : InnerTask) (total : Nat) (token : Bool) (part : Part)
    (cell : TaskCell) (going : part.settled = false) :
    ∃ choice, (∀ text, choice ≠ .panic text) ∧
      (∀ retryChoice stop, choice = .retry retryChoice → retryChoice.Polite stop) ∧
      (part.step inner total token cell choice).isSome = true := by
  obtain ⟨offset, pc⟩ := part
  cases pc with
  | acquire =>
    refine ⟨.grant, by simp, by simp, ?_⟩
    simp only [step]
    split
    · rfl
    · split <;> rfl
  | retry retry =>
    have open_ : ∀ result, retry ≠ .settled result := by
      rintro result rfl
      simp [settled] at going
    obtain ⟨choice, polite, enabled⟩ :=
      retry.exists_step { inner := inner, mode := .part, offset := offset, token := token } cell open_
    refine ⟨.retry choice, by simp, ?_, by simpa [step] using enabled⟩
    rintro _ stop ⟨⟩
    exact polite stop
  | panicked text => simp [settled] at going

end Part

namespace PartWindow

theorem dispatchLoop_length (fuel : Nat) (w : PartWindow) :
    (dispatchLoop fuel w).1.total = w.total ∧
      (dispatchLoop fuel w).2.length +
        ((dispatchLoop fuel w).1.total - (dispatchLoop fuel w).1.nextDispatch) ≤
        w.total - w.nextDispatch := by
  induction fuel generalizing w with
  | zero => simp [dispatchLoop]
  | succ fuel ih =>
    cases taken : w.takeDispatch with
    | none => simp [dispatchLoop, taken]
    | some pair =>
      obtain ⟨offset, next⟩ := pair
      obtain ⟨same, shorter⟩ := ih next
      simp only [takeDispatch, Option.ite_none_left_eq_some, Option.some.injEq,
        Prod.mk.injEq] at taken
      obtain ⟨free, rfl, rfl⟩ := taken
      have room : w.nextDispatch < w.total := by omega
      have moves := Grid.lt_next w.chunk_pos room
      have inside : Grid.next w.chunk w.total w.nextDispatch ≤ w.total := Grid.next_le _
      have step : dispatchLoop (fuel + 1) w =
          ((dispatchLoop fuel { w with
              nextDispatch := w.advance w.nextDispatch, inFlight := w.inFlight + 1 }).1,
            w.nextDispatch :: (dispatchLoop fuel { w with
              nextDispatch := w.advance w.nextDispatch, inFlight := w.inFlight + 1 }).2) := by
        simp only [dispatchLoop, takeDispatch, if_neg free]
      rw [step]
      simp only [advance_eq, List.length_cons] at same shorter ⊢
      exact ⟨same, by omega⟩

end PartWindow

namespace Driver

/-- What a part costs at most, from its dispatch to its join. -/
def partFuel (inner : InnerTask) : Nat := 5 * inner.maxChunkRetries + 8

def fuel (inner : InnerTask) (d : Driver) : Nat :=
  (d.parts.map fun part => part.fuel inner.maxChunkRetries + 1).sum +
    (d.window.total - d.window.nextDispatch) * partFuel inner

theorem fuel_fill (inner : InnerTask) (d : Driver) : d.fill.1.fuel inner ≤ d.fuel inner := by
  obtain ⟨-, shorter⟩ :=
    PartWindow.dispatchLoop_length (d.window.maxInFlight - d.window.inFlight) d.window
  have scaled := Nat.mul_le_mul_right (partFuel inner) shorter
  have spawned : ∀ offsets : List Nat,
      ((offsets.map Part.spawn).map fun part => part.fuel inner.maxChunkRetries + 1).sum ≤
        offsets.length * partFuel inner := by
    intro offsets
    induction offsets with
    | nil => simp
    | cons offset rest ih =>
      simp only [List.map_cons, List.sum_cons, List.length_cons, Nat.add_mul]
      simp only [Part.spawn, Part.fuel, partFuel] at ih ⊢
      omega
  have added := spawned d.window.dispatchAll.2
  simp only [fill, fuel, List.map_append, List.sum_append, PartWindow.dispatchAll,
    Nat.add_mul] at added scaled ⊢
  omega

theorem fuel_topUp (inner : InnerTask) (d : Driver) : d.topUp.1.fuel inner ≤ d.fuel inner := by
  simp only [topUp]
  split
  · exact fuel_fill inner d
  · exact Nat.le_refl _

theorem fuel_onJoined (inner : InnerTask) (d : Driver) (offset : Nat) (result : ChunkRetryResult) :
    (d.onJoined offset result).1.fuel inner = d.fuel inner := by
  cases result with
  | done outcome =>
    simp only [onJoined]
    split
    · rename_i window moved settled
      simp only [PartWindow.onDone] at settled
      split at settled
      · cases settled
      cases settled
      obtain ⟨-, total, dispatch⟩ := PartWindow.absorbLoop_frame
        (insert offset d.window.completed).card
        { d.window with
          inFlight := d.window.inFlight - 1
          completed := insert offset d.window.completed }
      simp only [fuel, PartWindow.absorb, total, dispatch]
    · rfl
  | cancelled => rfl
  | failed e => rfl

end Driver

namespace Pc

/-- What the part of a run before the first chunk leaves for the rest. -/
def transferFuel (inner : InnerTask) : Nat := u64Max * Driver.partFuel inner + 7

/-- A bound on the steps before the run. -/
def fuel (inner : InnerTask) : Pc → Nat
  | finished => 0
  | exitCanceled _ | exitFailed _ _ _ | release _ _ => 1
  | totalValidate _ | completeCall _ | serialDone _ _ | serialHead _ _ => 2
  | completeValidate _ | serialFinish _ _ => 3
  | totalClaim _ | completeClaim _ => 4
  | barrier _ => 5
  | serialChunk _ _ _ retry => retry.fuel inner.maxChunkRetries + 4
  | serialClaim _ _ => 5 * inner.maxChunkRetries + 10
  | join d => d.fuel inner + 6
  | panicDrain d _ => d.fuel inner + 2
  | prepCheck attempt _ => transferFuel inner + 5 * (Run.maxPrepRetries inner - attempt) + 5
  | prepCall attempt _ => transferFuel inner + 5 * (Run.maxPrepRetries inner - attempt) + 4
  | prepFailed attempt _ _ => transferFuel inner + 5 * (Run.maxPrepRetries inner - attempt) + 3
  | prepForce attempt _ _ => transferFuel inner + 5 * (Run.maxPrepRetries inner - attempt) + 2
  | prepBackoff attempt _ =>
    transferFuel inner + 5 * (Run.maxPrepRetries inner - (attempt + 1)) + 6

end Pc

namespace Run

variable {inner : InnerTask} {r s : Run}

theorem fuel_claim (won lost : Pc) :
    (r.claim won lost).pc = won ∨ (r.claim won lost).pc = lost := by
  simp only [claim]
  split <;> simp

theorem fuel_enterParallel (offset total : Nat) (total_le : total ≤ u64Max) :
    (r.enterParallel inner offset total total_le).pc.fuel inner < Pc.transferFuel inner := by
  simp only [enterParallel]
  split
  · simp [goto, Pc.fuel, Pc.transferFuel]
  have filled := Driver.fuel_fill inner (Driver.new inner offset total total_le)
  have whole : (total - min offset total) * Driver.partFuel inner ≤
      u64Max * Driver.partFuel inner := Nat.mul_le_mul_right _ (by omega)
  simp only [Driver.fuel, Driver.new, PartWindow.new, List.map_nil, List.sum_nil,
    Nat.zero_add] at filled
  simp only [joinWith, Pc.fuel, Pc.transferFuel, Driver.fuel, Driver.new, PartWindow.new]
    at filled ⊢
  omega

theorem fuel_prepared (v : PrepareOutcome) :
    (r.prepared inner v).pc.fuel inner < Pc.transferFuel inner := by
  simp only [prepared]
  split
  · split
    · cases inner.direction <;> simp [goto, Pc.fuel, Pc.transferFuel]
    · exact fuel_enterParallel _ _ _
  · simp [goto, Pc.fuel, Pc.transferFuel]

theorem fuel_claim_lt {won lost : Pc} {bound : Nat} (wonLess : won.fuel inner < bound)
    (lostLess : lost.fuel inner < bound) : (r.claim won lost).pc.fuel inner < bound := by
  rcases fuel_claim (r := r) won lost with same | same <;> rw [same] <;> assumption

theorem fuel_joined {d : Driver} {index : Nat} {part : Part}
    (here : d.parts[index]? = some part) (settled : part.settled = true) :
    (r.joined inner { d with parts := d.parts.eraseIdx index } part).pc.fuel inner <
      d.fuel inner + 6 := by
  have fewer := ListCount.sum_map_eraseIdx
    (f := fun part : Part => part.fuel inner.maxChunkRetries + 1) here
  have less : Driver.fuel inner { d with parts := d.parts.eraseIdx index } < d.fuel inner := by
    simp only [Driver.fuel]
    omega
  obtain ⟨offset, pc⟩ := part
  cases pc with
  | acquire => cases settled
  | panicked text =>
    simp only [joined, Pc.fuel]
    omega
  | retry retry =>
    cases retry with
    | settled result =>
      have same := Driver.fuel_onJoined inner { d with parts := d.parts.eraseIdx index } offset
        result
      cases result with
      | done outcome =>
        have topped := Driver.fuel_topUp inner
          (Driver.onJoined { d with parts := d.parts.eraseIdx index } offset (.done outcome)).1
        simp only [joined, joinWith, Pc.fuel]
        omega
      | cancelled | failed =>
        simp only [joined, goto, Pc.fuel]
        omega
    | _ => cases settled

theorem fuel_part {d : Driver} {index : Nat} {part next : Part}
    (here : d.parts[index]? = some part)
    (less : next.fuel inner.maxChunkRetries < part.fuel inner.maxChunkRetries) :
    Driver.fuel inner { d with parts := d.parts.set index next } < d.fuel inner := by
  have changed := ListCount.sum_map_set
    (f := fun part : Part => part.fuel inner.maxChunkRetries + 1) here next
  simp only [Driver.fuel]
  omega

theorem fuel_settleBarrier (d : Driver) : (r.settleBarrier d).pc.fuel inner < 5 := by
  simp only [settleBarrier]
  split
  · simp [goto, Pc.fuel]
  split
  · simp [goto, Pc.fuel]
  · split <;> simp [goto, Pc.fuel]

/-- Every step brings the end of the run nearer, except that the serial loop goes
on while no stop reaches it. -/
theorem Step.fuel_lt {pc : Pc} {choice : Choice} (taken : Step inner r pc choice s) :
    (∃ offset total, pc = .serialHead offset total ∧ r.token = false) ∨
      s.pc.fuel inner < pc.fuel inner := by
  cases taken with
  | serialLast live last | serialNext live more => exact Or.inl ⟨_, _, rfl, live⟩
  | prepInterrupted seen waiting =>
    right
    rcases waiting with rfl | rfl <;> simp [goto, Pc.fuel, Pc.transferFuel]
  | prepOk called result =>
    right
    refine Nat.lt_of_lt_of_le (fuel_prepared _) ?_
    simp only [Pc.fuel]
    omega
  | prepRequest | prepError | prepUnmasked | prepDelay | prepWake =>
    right
    simp only [goto, log, Pc.fuel]
    omega
  | prepMasked | prepGiveUp =>
    right
    simp only [goto, Pc.fuel, Pc.transferFuel]
    omega
  | serialClaim =>
    right
    exact fuel_claim_lt (by simp [Pc.fuel, Retry.fuel]) (by simp [Pc.fuel])
  | serialRetry moved =>
    right
    exact Nat.add_lt_add_right moved.fuel_lt 4
  | serialOutcome =>
    right
    simp only [chunkDone]
    split
    · simp [goto, Pc.fuel]
    · split <;> simp [goto, Pc.fuel]
  | serialFinish =>
    right
    dsimp only
    split <;> simp [Pc.fuel]
  | totalDownload | totalUpload | completeClaim =>
    right
    exact fuel_claim_lt (by simp [Pc.fuel]) (by simp [Pc.fuel])
  | part here moved =>
    right
    exact Nat.add_lt_add_right (fuel_part here moved.fuel_lt) 6
  | panicPart here moved =>
    right
    exact Nat.add_lt_add_right (fuel_part here moved.fuel_lt) 2
  | joined here settled => exact Or.inr (fuel_joined here settled)
  | panicJoined here settled =>
    have fewer := ListCount.sum_map_eraseIdx
      (f := fun part : Part => part.fuel inner.maxChunkRetries + 1) here
    right
    simp only [goto, Pc.fuel, Driver.fuel]
    omega
  | barrier => exact Or.inr (fuel_settleBarrier _)
  | panicDrained empty =>
    right
    simp only [settlePanic]
    cases inner.direction <;> simp [goto, Pc.fuel]
  | completeReturned =>
    right
    rename_i answer
    cases answer <;> simp [completed, goto, Pc.fuel]
  | serialInterrupted | serialCancelled | serialFailed | serialAck | totalInvalid | totalValid | drained
  | completeInvalid | completeRequest | releaseFailed | released | cleanupFailed | canceled
  | failed =>
    right
    simp [goto, sendCompleted, sendFailed, sendCanceled, exitFailed, requestComplete, Pc.fuel]

/-- A run that has not finished is not stuck: it can go on without a panic and
with a polite answer. -/
theorem exists_step (r : Run) (going : r.pc ≠ .finished) :
    ∃ choice, choice.Polite r ∧ (∀ index text, choice ≠ .part index (.panic text)) ∧
      (r.step inner choice).isSome = true := by
  obtain ⟨pc, outbox, token, cell⟩ := r
  have parts : ∀ (d : Driver), d.parts ≠ [] →
      (∃ index choice, Choice.Polite ⟨pc, outbox, token, cell⟩ (.part index choice) ∧
        (∀ text, choice ≠ .panic text) ∧
        (stepPart inner ⟨pc, outbox, token, cell⟩ d index choice).isSome = true) ∨
      ∃ index, (takeSettled d index).isSome = true := by
    intro d some_
    obtain ⟨part, rest, parts⟩ := List.exists_cons_of_ne_nil some_
    by_cases settled : part.settled = true
    · exact Or.inr ⟨0, by simp [takeSettled, parts, settled]⟩
    obtain ⟨choice, calm, polite, enabled⟩ := part.exists_step inner d.window.total token cell
      (by simpa using settled)
    refine Or.inl ⟨0, choice, ?_, calm, by simpa [stepPart, parts] using enabled⟩
    cases choice with
    | retry retryChoice => exact polite retryChoice _ rfl
    | _ => trivial
  cases pc with
  | finished => exact absurd rfl going
  | prepCheck | prepFailed | prepForce =>
    refine ⟨.tick, trivial, by simp, ?_⟩
    simp only [step, stepPrepare]
    split <;> rfl
  | prepCall attempt start =>
    cases direction : inner.direction with
    | upload =>
      exact ⟨.prepare (.upload none (.ok { completedFileId := none, nextByte := none })),
        by simp [Choice.Polite, PrepareAnswer.raised, errorOf], by simp,
        by simp [step, stepPrepare, prepareCall, direction]⟩
    | download =>
      exact ⟨.prepare (.download (.error (.fromCode1 .unknown))),
        by simp [Choice.Polite, PrepareAnswer.raised, errorOf, isTaskCanceled,
          MeowError.fromCode1, InnerErrorCode.asI32], by simp,
        by simp [step, stepPrepare, prepareCall, direction]⟩
  | prepBackoff attempt start => exact ⟨.wake, trivial, by simp, rfl⟩
  | serialHead offset total =>
    refine ⟨.tick, trivial, by simp, ?_⟩
    simp only [step, stepSerial]
    split
    · rfl
    · split <;> rfl
  | serialChunk offset total claimed retry =>
    by_cases settled : ∃ result, retry = .settled result
    · obtain ⟨result, rfl⟩ := settled
      exact ⟨.tick, trivial, by simp, by cases result <;> rfl⟩
    · have open_ : ∀ result, retry ≠ .settled result := fun result same => settled ⟨result, same⟩
      obtain ⟨choice, polite, enabled⟩ := retry.exists_step
        { inner := inner, mode := .whole, offset := offset, token := token } cell open_
      refine ⟨.chunk choice, polite _, by simp, ?_⟩
      cases retry <;> simpa [step, stepSerial] using enabled
  | totalClaim total =>
    refine ⟨.tick, trivial, by simp, ?_⟩
    simp only [step, stepParallel]
    split <;> rfl
  | totalValidate | completeValidate => exact ⟨.check none, trivial, by simp, by simp [step, stepParallel]⟩
  | join d | panicDrain d =>
    by_cases empty : d.parts = []
    · exact ⟨.tick, trivial, by simp, by simp [step, stepParallel, empty]⟩
    rcases parts d empty with ⟨index, choice, polite, calm, enabled⟩ | ⟨index, enabled⟩
    · exact ⟨.part index choice, polite, by simpa using fun _ text _ => calm text,
        by simpa [step, stepParallel] using enabled⟩
    · exact ⟨.join index, trivial, by simp, by simpa [step, stepParallel] using enabled⟩
  | completeCall total => exact ⟨.complete (.ok none), by simp [Choice.Polite, errorOf], by simp, rfl⟩
  | release | exitCanceled => exact ⟨.check none, trivial, by simp, by simp [step, stepExit]⟩
  | _ => exact ⟨.tick, trivial, by simp, rfl⟩

end Run

end RustyCat
