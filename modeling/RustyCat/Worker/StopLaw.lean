import RustyCat.Worker.Effects
import RustyCat.Worker.Outcome
import RustyCat.Worker.RetryLaw

/-!
# No new work after a stop

What a worker run may still ask of the executor.  The lifecycle and the token
decide when a stop is final: once both have it, nothing is started, and a stop
that waits behind a completion claim leaves the claimed call with its retries.
-/

namespace RustyCat

def TaskEvent.request? : TaskEvent → Option Request
  | requested request => some request
  | _ => none

def TaskCell.requests (cell : TaskCell) : List Request := cell.history.filterMap TaskEvent.request?

def Run.requests (r : Run) : List Request := r.cell.requests

def Request.isPrepare : Request → Bool
  | prepare _ => true
  | chunk _ | part _ | complete => false

def Retry.left (limit : Nat) : Retry → Nat
  | check attempt => limit - attempt + 1
  | call attempt | failed attempt _ | failedToken attempt _ => limit - attempt
  | backoff attempt => limit - (attempt + 1) + 1
  | settleClaim | settled _ => 0

/-- The calls that a completion claim has left to it. -/
def Pc.allowance (inner : InnerTask) : Pc → List Request
  | serialChunk offset _ true retry =>
    List.replicate (retry.left inner.maxChunkRetries) (.chunk offset)
  | completeValidate _ => [.complete]
  | _ => []

/-- How often the prepare loop may still start its request. -/
def Pc.prepLeft (inner : InnerTask) : Pc → Nat
  | prepCheck attempt _ => Run.maxPrepRetries inner - attempt + 1
  | prepCall attempt _ | prepFailed attempt _ _ | prepForce attempt _ _ =>
    Run.maxPrepRetries inner - attempt
  | prepBackoff attempt _ => Run.maxPrepRetries inner - (attempt + 1) + 1
  | _ => 0

namespace TaskCell

variable (cell : TaskCell)

@[simp] theorem requests_log (event : TaskEvent) :
    (cell.log event).requests = cell.requests ++ event.request?.toList := by
  simp only [requests, log_history, List.filterMap_append]
  cases event <;> rfl

@[simp] theorem requests_setTerminal (terminal : Terminal) :
    (cell.setTerminal terminal).requests = cell.requests := rfl

theorem requests_logAll {events : List TaskEvent} (silent : ∀ e ∈ events, e.request? = none) :
    (cell.logAll events).requests = cell.requests := by
  simp only [requests, logAll, List.filterMap_append]
  rw [List.filterMap_eq_nil_iff.mpr silent, List.append_nil]

@[simp] theorem requests_finishIncomplete : cell.finishIncomplete.requests = cell.requests := by
  simp only [finishIncomplete]
  split <;> simp [TaskEvent.request?]

@[simp] theorem requests_executorCancel (direction : Direction) :
    (cell.executorCancel direction).requests = cell.requests := by
  cases direction with
  | download => rfl
  | upload =>
    simp only [executorCancel]
    split <;> simp [requests, TaskEvent.request?]

theorem requests_returnCall {α : Type} {call : Call α} {raised : List MeowError}
    (sound : call.Sound raised) (request : Request) :
    (cell.returnCall request call).requests = cell.requests := by
  have silent : call.notes.filterMap TaskEvent.request? = [] := by
    refine List.filterMap_eq_nil_iff.mpr fun event member => ?_
    have answer := sound.noted event member
    cases event <;> first | rfl | cases answer
  simp [requests, returnCall, silent, TaskEvent.request?]

end TaskCell

theorem Retry.Step.spends {ctx : RetryContext} {cell after : TaskCell} {choice : RetryChoice}
    {retry next : Retry} (moved : Retry.Step ctx cell choice retry next after) :
    ∃ n, after.requests = cell.requests ++ List.replicate n (ctx.mode.request ctx.offset) ∧
      n + next.left ctx.inner.maxChunkRetries ≤ retry.left ctx.inner.maxChunkRetries ∧
      (n = 0 ∨ ctx.token = false) := by
  cases moved with
  | request attempt live =>
    refine ⟨1, by simp [TaskEvent.request?], ?_, .inr live⟩
    simp only [left]
    omega
  | @returned attempt answer transfer called =>
    refine ⟨0, ?_, ?_, .inl rfl⟩
    · rw [List.replicate_zero, List.append_nil, TaskCell.requests_returnCall cell (transferChunk_sound called)]
    · cases transfer.result with
      | ok v => exact Nat.zero_le _
      | error e => exact Nat.le_of_eq (Nat.zero_add _)
  | delay again more =>
    refine ⟨0, by simp, ?_, .inl rfl⟩
    simp only [left]
    omega
  | headInterrupted | stopped | inspect | masked | giveUp | settle | backoffInterrupted | wake =>
    exact ⟨0, by simp, by simp [left], .inl rfl⟩

theorem Part.Step.spends {inner : InnerTask} {total : Nat} {token : Bool} {cell after : TaskCell}
    {choice : PartChoice} {part next : Part}
    (moved : Part.Step inner total token cell choice part next after) :
    ∃ n, after.requests = cell.requests ++ List.replicate n (.part part.offset) ∧
      (n = 0 ∨ token = false) := by
  cases moved with
  | retry moved =>
    obtain ⟨n, requests, -, live⟩ := moved.spends
    exact ⟨n, requests, live⟩
  | refused | interrupted | granted | panickedIdle | panickedCalling =>
    exact ⟨0, by simp [TaskEvent.request?], .inl rfl⟩

namespace Run

variable {inner : InnerTask} {r s : Run}

/-- What a step starts: it takes from what the prepare loop has left, and from what
a claim has left unless the run still works and the stop is not final. -/
structure Spends (inner : InnerTask) (r s : Run) (new : List Request) : Prop where
  requests : s.requests = r.requests ++ new
  prepares : new.countP Request.isPrepare + s.pc.prepLeft inner ≤ r.pc.prepLeft inner
  claim : new ++ s.pc.allowance inner <+: r.pc.allowance inner ∨
    (r.pc.mode = .working ∨ r.pc.mode = .draining) ∧
      (r.token = false ∨ r.cell.life.terminal = .opened)

theorem Spends.silent (requests : s.requests = r.requests) (prepares : s.pc.prepLeft inner = 0)
    (claim : s.pc.allowance inner = []) : Spends inner r s [] where
  requests := by rw [requests, List.append_nil]
  prepares := by simp [prepares]
  claim := .inl (by simp [claim])

@[simp] theorem requests_goto (r : Run) (pc : Pc) : (r.goto pc).requests = r.requests := rfl

@[simp] theorem requests_send (r : Run) (event : WorkerEvent) :
    (r.send event).requests = r.requests := by
  simp [requests, send, TaskEvent.request?]

@[simp] theorem requests_log (r : Run) (event : TaskEvent) :
    (r.log event).requests = r.requests ++ event.request?.toList :=
  r.cell.requests_log event

@[simp] theorem requests_joinWith (r : Run) (next : Driver × List Nat) :
    (r.joinWith next).requests = r.requests := by
  refine TaskCell.requests_logAll _ fun event member => ?_
  obtain ⟨offset, -, rfl⟩ := List.mem_map.mp member
  rfl

@[simp] theorem requests_sendMoved (r : Run) (total : Nat) (moved : Option Nat) :
    (r.sendMoved inner total moved).requests = r.requests := by
  cases moved with
  | none => rfl
  | some watermark => exact requests_send _ _

@[simp] theorem requests_abort (r : Run) : (r.abort inner).requests = r.requests :=
  r.cell.requests_executorCancel _

theorem spends_claim {won lost : Pc} (working : r.pc.mode = .working)
    (prepWon : won.prepLeft inner = 0) (prepLost : lost.prepLeft inner = 0)
    (claimLost : lost.allowance inner = []) : Spends inner r (r.claim won lost) [] := by
  cases terminal : r.cell.life.terminal with
  | opened =>
    refine ⟨by simp [requests, claim], ?_, .inr ⟨.inl working, .inr terminal⟩⟩
    simp [claim, terminal, Terminal.beginCompletion, prepWon]
  | completing | canceling | pausing | completingCancelPending | completingPausePending =>
    refine .silent (by simp [requests, claim]) ?_ ?_
    · simp [claim, terminal, Terminal.beginCompletion, prepLost]
    · simp [claim, terminal, Terminal.beginCompletion, claimLost]

theorem prepared_starts_nothing (v : PrepareOutcome) :
    (r.prepared inner v).requests = r.requests ∧ (r.prepared inner v).pc.prepLeft inner = 0 ∧
      (r.prepared inner v).pc.allowance inner = [] := by
  simp only [prepared, enterParallel]
  split
  · split
    · split
      · exact ⟨by simp, rfl, rfl⟩
      · exact ⟨requests_send _ _, rfl, rfl⟩
    · split
      · exact ⟨by simp, rfl, rfl⟩
      · exact ⟨by simp, rfl, rfl⟩
  · exact ⟨by simp, rfl, rfl⟩

theorem Spends.live {n : Nat} {request : Request}
    (requests : s.requests = r.requests ++ List.replicate n request)
    (plain : request.isPrepare = false) (live : n = 0 ∨ r.token = false)
    (mode : r.pc.mode = .working ∨ r.pc.mode = .draining) (prepares : s.pc.prepLeft inner = 0)
    (claim : s.pc.allowance inner = []) : Spends inner r s (List.replicate n request) where
  requests := requests
  prepares := by simp [prepares, List.countP_replicate, plain]
  claim := by
    rcases live with rfl | live
    · exact .inl (by simp [claim])
    · exact .inr ⟨mode, .inl live⟩

theorem spends_retry {offset total : Nat} {claimed : Bool} {choice : RetryChoice}
    {retry next : Retry} {after : TaskCell}
    (here : r.pc = .serialChunk offset total claimed retry)
    (moved : Retry.Step { inner := inner, mode := .whole, offset := offset, token := r.token }
      r.cell choice retry next after) :
    ∃ new, Spends inner r { r with pc := .serialChunk offset total claimed next, cell := after }
      new := by
  obtain ⟨n, requests, left, live⟩ := moved.spends
  refine ⟨List.replicate n (.chunk offset), ?_⟩
  cases claimed with
  | true =>
    refine ⟨requests, by simp [List.countP_replicate, Request.isPrepare, Pc.prepLeft], .inl ?_⟩
    obtain ⟨rest, split⟩ := Nat.exists_eq_add_of_le left
    refine ⟨List.replicate rest (.chunk offset), ?_⟩
    rw [here]
    simp only [Pc.allowance, split, List.replicate_append_replicate]
  | false =>
    have working : n = 0 ∨ r.pc.mode = .working := by
      rw [here]
      cases retry with
      | settled result =>
        left
        simp only [Retry.left] at left
        omega
      | _ => exact .inr rfl
    rcases working with rfl | working
    · exact .silent (requests.trans (List.append_nil _)) rfl rfl
    · exact .live requests rfl live (.inl working) rfl rfl

theorem spends_joined {before : Driver} (here : r.pc = .join before) (d : Driver) (part : Part) :
    Spends inner r (r.joined inner d part) [] := by
  have noted : (r.log (.joined part.offset part.outcome)).requests = r.requests := by
    rw [requests_log]
    exact List.append_nil _
  simp only [joined]
  split
  · exact .silent (by simp [noted]) rfl rfl
  · exact .silent noted rfl rfl
  · exact .silent noted rfl rfl
  · refine .silent noted ?_ ?_
    · change Pc.prepLeft inner r.pc = 0
      rw [here]
      rfl
    · change Pc.allowance inner r.pc = []
      rw [here]
      rfl

theorem spends_chunkDone {total : Nat} {claimed : Bool} {outcome : ChunkOutcome} :
    Spends inner r (r.chunkDone inner total claimed outcome) [] := by
  simp only [chunkDone]
  split
  · exact .silent (by simp) rfl rfl
  split
  · exact .silent (by simp) rfl rfl
  · exact .silent (by simp) rfl rfl

theorem spends_settleBarrier (d : Driver) : Spends inner r (r.settleBarrier d) [] := by
  simp only [settleBarrier]
  split
  · exact .silent rfl rfl rfl
  split
  · exact .silent rfl rfl rfl
  split
  · exact .silent rfl rfl rfl
  · exact .silent rfl rfl rfl

theorem spends_completed (total : Nat) (answer : Except MeowError (Option String)) :
    Spends inner r (r.completed inner total answer) [] := by
  simp only [completed]
  cases inner.direction with
  | upload | download => cases answer <;> exact .silent (by simp [TaskEvent.request?]) rfl rfl

theorem Step.spends {choice : Choice} (taken : Step inner r r.pc choice s) :
    ∃ new, Spends inner r s new := by
  obtain ⟨pc, outbox, token, cell⟩ := r
  cases taken with
  | prepInterrupted | prepMasked | prepGiveUp | serialInterrupted | serialLast | serialNext
    | serialCancelled | serialFailed | serialAck | totalInvalid | drained =>
    exact ⟨[], .silent rfl rfl rfl⟩
  | @prepRequest attempt start live =>
    exact ⟨[.prepare start], requests_log _ _, Nat.le_of_eq (Nat.add_comm ..),
      .inr ⟨.inl rfl, .inl live⟩⟩
  | @prepOk attempt start answer call v called result =>
    obtain ⟨requests, prepares, claim⟩ := prepared_starts_nothing v
    exact ⟨[], .silent (requests.trans
      (TaskCell.requests_returnCall cell (prepareCall_sound called) _)) prepares claim⟩
  | prepError called result =>
    refine ⟨[], ?_, Nat.le_of_eq (Nat.zero_add _), .inl List.prefix_rfl⟩
    rw [List.append_nil]
    exact TaskCell.requests_returnCall cell (prepareCall_sound called) _
  | prepUnmasked plain =>
    exact ⟨[], (List.append_nil _).symm, Nat.le_of_eq (Nat.zero_add _), .inl List.prefix_rfl⟩
  | prepDelay free more =>
    refine ⟨[], (List.append_nil _).symm, ?_, .inl List.prefix_rfl⟩
    simp only [List.countP_nil, Pc.prepLeft, goto]
    omega
  | prepWake => exact ⟨[], (List.append_nil _).symm, Nat.le_of_eq (Nat.zero_add _), .inl List.prefix_rfl⟩
  | serialClaim | totalDownload | totalUpload | completeClaim =>
    exact ⟨[], spends_claim rfl rfl rfl rfl⟩
  | serialRetry moved => exact spends_retry rfl moved
  | serialOutcome => exact ⟨[], spends_chunkDone⟩
  | serialFinish =>
    refine ⟨[], .silent (TaskCell.requests_finishIncomplete _) ?_ ?_⟩
    · dsimp only
      split <;> rfl
    · dsimp only
      split <;> rfl
  | totalValid | releaseFailed | released | cleanupFailed | canceled =>
    exact ⟨[], .silent (requests_send _ _) rfl rfl⟩
  | part here moved =>
    obtain ⟨n, requests, live⟩ := moved.spends
    exact ⟨_, .live requests rfl live (.inl rfl) rfl rfl⟩
  | joined here settled => exact ⟨[], spends_joined rfl _ _⟩
  | panicPart here moved =>
    obtain ⟨n, requests, live⟩ := moved.spends
    exact ⟨_, .live requests rfl live (.inr rfl) rfl rfl⟩
  | panicJoined here settled => exact ⟨[], .silent (by simp [TaskEvent.request?]) rfl rfl⟩
  | panicDrained empty =>
    simp only [settlePanic]
    cases inner.direction with
    | download | upload => exact ⟨[], .silent rfl rfl rfl⟩
  | barrier => exact ⟨[], spends_settleBarrier _⟩
  | completeInvalid upload => exact ⟨[], .silent (requests_abort _) rfl rfl⟩
  | completeRequest =>
    exact ⟨[.complete], requests_log _ _, Nat.le_refl _, .inl List.prefix_rfl⟩
  | completeReturned => exact ⟨[], spends_completed _ _⟩
  | failed =>
    simp only [exitFailed]
    split
    · exact ⟨[], .silent ((requests_send _ _).trans (requests_abort _)) rfl rfl⟩
    · exact ⟨[], .silent (requests_send _ _) rfl rfl⟩

end Run

namespace Stance

/-- The run holds a claim exactly when the lifecycle does, while it still transfers. -/
def Claims (a : Stance) : Prop :=
  match a.mode with
  | .working | .draining => a.cell.life.terminal.claimed = false
  | .claimed => a.cell.life.terminal.claimed = true
  | .answered | .finishing | .stopping | .failing | .finished => True

/-- A run that still transfers has a final stop, or one that waits behind its claim. -/
def Stopped (a : Stance) : Prop :=
  match a.mode with
  | .working | .draining =>
    a.token = true ∧ a.cell.life.terminal.claimed = false ∧ a.cell.life.terminal ≠ .opened
  | .claimed => a.cell.life.terminal.stopPending = true
  | .answered | .finishing | .stopping | .failing | .finished => True

end Stance

section Acts

variable {inner : InnerTask} {a b : Stance}

theorem Terminal.finishIncompleteCompletion_of_unclaimed {t : Terminal} (free : t.claimed = false) :
    t.finishIncompleteCompletion.1 = t := by
  cases t with
  | opened | canceling | pausing => rfl
  | completing | completingCancelPending | completingPausePending => cases free

theorem Act.claims (act : Act inner a b) (claims : a.Claims) : b.Claims := by
  cases act with
  | request | note | progress | sawToken | sawRequest | forget => exact claims
  | returned => simpa [Stance.Claims, Stance.onCell] using claims
  | claim _ may opened => rfl
  | settlePart _ may =>
    simp only [Stance.Claims, Stance.onCell]
    rcases may with may | may <;> simp [may]
  | giveUpClaim => simp [Stance.Claims, Stance.onCell]
  | requireAbort _ may | abort _ may => simp [Stance.Claims, Stance.onCell, may]
  | panic _ may =>
    simp only [Stance.Claims, may] at claims
    exact claims
  | refuse | stop | settleStop | yieldClaim | fail | answer | acknowledge | complete
  | sendCompleted | sendFailed | sendCanceled | drained => trivial

theorem Act.stopped (act : Act inner a b) (stopped : a.Stopped) : b.Stopped := by
  cases act with
  | request | note | progress | sawToken | sawRequest | forget => exact stopped
  | returned => simpa [Stance.Stopped, Stance.onCell] using stopped
  | claim _ may opened =>
    simp only [Stance.Stopped, may] at stopped
    exact absurd opened stopped.2.2
  | settlePart _ may =>
    simp only [Stance.Stopped, Stance.onCell] at stopped ⊢
    rcases may with may | may <;>
    · simp only [may, TaskCell.finishIncomplete_terminal] at stopped ⊢
      rwa [Terminal.finishIncompleteCompletion_of_unclaimed stopped.2.1]
  | giveUpClaim _ may calm nothing =>
    simp only [Stance.Stopped, may, nothing] at stopped
    cases stopped
  | requireAbort _ may | abort _ may => simp [Stance.Stopped, Stance.onCell, may]
  | panic _ may =>
    simp only [Stance.Stopped, may] at stopped
    exact ⟨rfl, stopped.2⟩
  | refuse | stop | settleStop | yieldClaim | fail | answer | acknowledge | complete
  | sendCompleted | sendFailed | sendCanceled | drained => trivial

theorem Acts.keeps {P : Stance → Prop} (each : ∀ {a b}, Act inner a b → P a → P b)
    (acts : Acts inner a b) (holds : P a) : P b := by
  induction acts with
  | refl => exact holds
  | tail _ act ih => exact each act ih

end Acts

namespace Run

variable {inner : InnerTask} {r s : Run} {label : DriverLabel}

theorem claims_driverStep (taken : r.driverStep inner label = some s) (claims : r.stance.Claims) :
    s.stance.Claims := by
  cases label with
  | work choice => exact (step_acts (step_cases taken)).keeps Act.claims claims
  | acceptStop kind =>
    cases taken
    simpa [Stance.Claims, stance, acceptStop, TaskCell.acceptStop] using claims
  | cancelToken | record =>
    cases taken
    exact claims
  | receive =>
    simp only [driverStep, Option.ite_none_left_eq_some, Option.some.injEq] at taken
    obtain ⟨-, rfl⟩ := taken
    exact claims

theorem acceptStop_ne_opened (r : Run) (kind : StopKind) :
    (r.acceptStop kind).cell.life.terminal ≠ .opened := by
  intro opened
  have requested := kind.begin_stopRequested r.cell.life.terminal
  rw [show (kind.begin r.cell.life.terminal).1 = .opened from opened] at requested
  cases requested

theorem stopped_driverStep (taken : r.driverStep inner label = some s)
    (stopped : r.stance.Stopped) : s.stance.Stopped := by
  cases label with
  | work choice => exact (step_acts (step_cases taken)).keeps Act.stopped stopped
  | acceptStop kind =>
    cases taken
    have opened := r.acceptStop_ne_opened kind
    simp only [acceptStop, TaskCell.acceptStop, TaskCell.log_life,
      TaskCell.setTerminal_terminal] at opened
    simp only [Stance.Stopped, stance, acceptStop, TaskCell.acceptStop, TaskCell.log_life,
      TaskCell.setTerminal_terminal, StopKind.begin_claimed, Terminal.stopPending_eq,
      StopKind.begin_stopRequested, Bool.and_true] at stopped ⊢
    split at stopped
    · exact ⟨stopped.1, stopped.2.1, opened⟩
    · exact ⟨stopped.1, stopped.2.1, opened⟩
    · exact (Bool.and_eq_true_iff.mp stopped).1
    all_goals trivial
  | cancelToken =>
    cases taken
    simp only [Stance.Stopped, stance] at stopped ⊢
    split at stopped
    · exact ⟨trivial, stopped.2⟩
    · exact ⟨trivial, stopped.2⟩
    · exact stopped
    all_goals trivial
  | record =>
    cases taken
    exact stopped
  | receive =>
    simp only [driverStep, Option.ite_none_left_eq_some, Option.some.injEq] at taken
    obtain ⟨-, rfl⟩ := taken
    exact stopped

theorem spends_driverStep (taken : r.driverStep inner label = some s) :
    ∃ new, Spends inner r s new := by
  have around : ∀ {s : Run}, s.requests = r.requests → s.pc = r.pc → Spends inner r s [] := by
    intro s requests pc
    refine ⟨by rw [requests, List.append_nil], ?_, .inl ?_⟩
    · rw [pc, List.countP_nil, Nat.zero_add]
    · rw [pc, List.nil_append]
  cases label with
  | work choice => exact (step_cases taken).spends
  | acceptStop kind =>
    cases taken
    exact ⟨[], around (by simp [requests, acceptStop, TaskCell.acceptStop, TaskEvent.request?]) rfl⟩
  | cancelToken =>
    cases taken
    exact ⟨[], around rfl rfl⟩
  | record =>
    cases taken
    exact ⟨[], around (by simp [TaskEvent.request?]) rfl⟩
  | receive =>
    simp only [driverStep, Option.ite_none_left_eq_some, Option.some.injEq] at taken
    obtain ⟨-, rfl⟩ := taken
    exact ⟨[], around rfl rfl⟩

theorem Spends.stopped {new : List Request} (spends : Spends inner r s new)
    (stopped : r.stance.Stopped) : new ++ s.pc.allowance inner <+: r.pc.allowance inner := by
  rcases spends.claim with covered | ⟨mode, open_⟩
  · exact covered
  · have final : r.token = true ∧ r.cell.life.terminal ≠ .opened := by
      simp only [Stance.Stopped, stance] at stopped
      rcases mode with mode | mode <;>
      · rw [mode] at stopped
        exact ⟨stopped.1, stopped.2.2⟩
    rcases open_ with live | opened
    · cases final.1.symm.trans live
    · exact absurd opened final.2

theorem requests_of_stopped {t : Run} (stopped : s.stance.Stopped)
    (later : Machine.Reachable (driverStep inner) s t) :
    ∃ more, t.requests = s.requests ++ more ∧ more <+: s.pc.allowance inner := by
  have law : t.stance.Stopped ∧ ∃ more, t.requests = s.requests ++ more ∧
      more ++ t.pc.allowance inner <+: s.pc.allowance inner := by
    refine later.invariant (fun t => t.stance.Stopped ∧ ∃ more, t.requests = s.requests ++ more ∧
      more ++ t.pc.allowance inner <+: s.pc.allowance inner) ⟨stopped, [], by simp, by simp⟩ ?_
    rintro a label b ⟨still, more, started, rest⟩ - taken
    obtain ⟨new, spends⟩ := spends_driverStep taken
    refine ⟨stopped_driverStep taken still, more ++ new, ?_, ?_⟩
    · rw [spends.requests, started, List.append_assoc]
    · have left := spends.stopped still
      rw [List.append_assoc]
      exact ((List.prefix_append_right_inj more).mpr left).trans rest
  obtain ⟨-, more, started, rest⟩ := law
  exact ⟨more, started, (List.prefix_append _ _).trans rest⟩

theorem prepares_le {start : Nat} {cell : TaskCell}
    (reached : Machine.Reachable (driverStep inner) (spawn start cell) s) :
    ∃ own, s.requests = cell.requests ++ own ∧
      own.countP Request.isPrepare ≤ 1 + maxPrepRetries inner := by
  have law : ∃ own, s.requests = cell.requests ++ own ∧
      own.countP Request.isPrepare + s.pc.prepLeft inner ≤ maxPrepRetries inner + 1 := by
    refine reached.invariant (fun s => ∃ own, s.requests = cell.requests ++ own ∧
      own.countP Request.isPrepare + s.pc.prepLeft inner ≤ maxPrepRetries inner + 1)
      ⟨[], (List.append_nil _).symm, Nat.le_of_eq (Nat.zero_add _)⟩ ?_
    rintro a label b ⟨own, started, rest⟩ - taken
    obtain ⟨new, spends⟩ := spends_driverStep taken
    refine ⟨own ++ new, by rw [spends.requests, started, List.append_assoc], ?_⟩
    have prepares := spends.prepares
    rw [List.countP_append]
    omega
  obtain ⟨own, started, bound⟩ := law
  exact ⟨own, started, by omega⟩

theorem allowance_eq_nil {pc : Pc} (unclaimed : pc.mode ≠ .claimed) : pc.allowance inner = [] := by
  cases pc with
  | serialChunk offset total claimed retry =>
    cases claimed with
    | false => rfl
    | true =>
      cases retry with
      | settled result => rfl
      | _ => exact absurd rfl unclaimed
  | completeValidate => exact absurd rfl unclaimed
  | _ => rfl

theorem stopped_of_final (claims : s.stance.Claims) (seen : s.token = true)
    (free : s.cell.life.terminal.claimed = false) (moved : s.cell.life.terminal ≠ .opened) :
    s.stance.Stopped ∧ s.pc.mode ≠ .claimed := by
  simp only [Stance.Claims, Stance.Stopped, stance] at claims ⊢
  cases mode : s.pc.mode with
  | claimed =>
    rw [mode] at claims
    cases free.symm.trans claims
  | working | draining => exact ⟨⟨seen, free, moved⟩, by simp⟩
  | _ => exact ⟨trivial, by simp⟩

theorem stopped_of_pending (claims : s.stance.Claims)
    (pending : s.cell.life.terminal.stopPending = true) : s.stance.Stopped := by
  have held : s.cell.life.terminal.claimed = true := by
    rw [Terminal.stopPending_eq] at pending
    exact (Bool.and_eq_true_iff.mp pending).1
  simp only [Stance.Claims, Stance.Stopped, stance] at claims ⊢
  cases mode : s.pc.mode with
  | claimed => exact pending
  | working | draining =>
    rw [mode] at claims
    cases held.symm.trans claims
  | _ => trivial

/-- Once a stop has moved the lifecycle and the token, the run starts no call.  A stop that
waits behind a completion claim leaves the calls of the claim.  The prepare loop starts its
request at most once more than it retries. -/
theorem no_new_work_after_stop {start : Nat} {cell : TaskCell}
    (free : cell.life.terminal.claimed = false)
    (reached : Machine.Reachable (driverStep inner) (spawn start cell) s) :
    (∀ kind : StopKind,
      ((kind.begin s.cell.life.terminal).2 = .interruptNow ↔
        (s.acceptStop kind).cell.life.terminal = .pausing ∨
          (s.acceptStop kind).cell.life.terminal = .canceling) ∧
      ((kind.begin s.cell.life.terminal).2 = .deferredUntilRequestReturns ↔
        (s.acceptStop kind).cell.life.terminal.stopPending = true)) ∧
    (s.token = true → (s.cell.life.terminal = .pausing ∨ s.cell.life.terminal = .canceling) →
      ∀ t, Machine.Reachable (driverStep inner) s t → t.requests = s.requests) ∧
    (s.cell.life.terminal.stopPending = true →
      ∀ t, Machine.Reachable (driverStep inner) s t →
        ∃ more, t.requests = s.requests ++ more ∧ more <+: s.pc.allowance inner) ∧
    ∃ own, s.requests = cell.requests ++ own ∧
      own.countP Request.isPrepare ≤ 1 + maxPrepRetries inner := by
  have claims : s.stance.Claims := reached.invariant (fun s => s.stance.Claims) free
    fun _ _ _ claims _ taken => claims_driverStep taken claims
  refine ⟨fun kind => ?_, fun seen stopped t later => ?_, fun pending t later => ?_,
    prepares_le reached⟩
  · simp only [acceptStop, TaskCell.acceptStop, TaskCell.log_life, TaskCell.setTerminal_terminal]
    cases kind <;> cases s.cell.life.terminal <;> decide
  · have final : s.cell.life.terminal.claimed = false ∧ s.cell.life.terminal ≠ .opened := by
      rcases stopped with stopped | stopped <;>
      · rw [stopped]
        exact ⟨rfl, nofun⟩
    obtain ⟨still, unclaimed⟩ := stopped_of_final claims seen final.1 final.2
    obtain ⟨more, started, left⟩ := requests_of_stopped still later
    rw [allowance_eq_nil unclaimed, List.prefix_nil] at left
    rw [started, left, List.append_nil]
  · exact requests_of_stopped (stopped_of_pending claims pending) later

/-- The last chunk is claimed and in flight when a pause comes. -/
def samplePaused : Run :=
  (Machine.exec (driverStep RetryRun.sampleTask) (spawn 4 TaskCell.new)
    [.work .tick, .work (.prepare (.download (.ok ⟨4, 8, sample_total⟩))), .work .tick,
     .work .tick, .work (.chunk .tick), .acceptStop .pause]).getD (spawn 4 TaskCell.new)

/-- The pause is deferred; the claimed chunk fails once, and its retry is the last call. -/
theorem no_new_work_after_stop_sample :
    Machine.Reachable (driverStep RetryRun.sampleTask) (spawn 4 TaskCell.new) samplePaused ∧
      samplePaused.cell.life.terminal = .completingPausePending ∧
      samplePaused.requests = [.prepare 4, .chunk 4] ∧
      ∃ t, Machine.Reachable (driverStep RetryRun.sampleTask) samplePaused t ∧
        t.requests = [.prepare 4, .chunk 4, .chunk 4] ∧ t.pc = .exitCanceled 8 ∧
        ∃ more, t.requests = samplePaused.requests ++ more ∧
          more <+: samplePaused.pc.allowance RetryRun.sampleTask := by
  have reached : Machine.Reachable (driverStep RetryRun.sampleTask) (spawn 4 TaskCell.new)
      samplePaused :=
    Machine.reachable_of_exec (show Machine.exec (driverStep RetryRun.sampleTask) _
      [.work .tick, .work (.prepare (.download (.ok ⟨4, 8, sample_total⟩))), .work .tick,
       .work .tick, .work (.chunk .tick), .acceptStop .pause] = some _ from rfl)
  have later : Machine.Reachable (driverStep RetryRun.sampleTask) samplePaused _ :=
    Machine.reachable_of_exec (show Machine.exec (driverStep RetryRun.sampleTask) _
      [.work (.chunk (.answer (.download (.error (.fromCode1 .httpError))))),
       .work (.chunk .tick), .work (.chunk .tick), .work (.chunk .wake), .work (.chunk .tick),
       .work (.chunk (.answer (.download (.ok ⟨6, 8, false, none⟩)))), .work .tick,
       .work .tick] = some _ from rfl)
  exact ⟨reached, rfl, rfl, _, later, rfl, rfl,
    (no_new_work_after_stop rfl reached).2.2.1 rfl _ later⟩

end Run

end RustyCat
