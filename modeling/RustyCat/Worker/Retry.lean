import RustyCat.Worker.Upload

/-!
# The chunk retry loop

`transfer_chunk_with_retry` of `retry.rs` as a machine.  Its states are the
points between two accesses to what the scheduler shares with the worker: the
cancellation token and the lifecycle atomic.
-/

namespace RustyCat

inductive ChunkRetryResult where
  | done (outcome : ChunkOutcome)
  | cancelled
  | failed (error : MeowError)
  deriving DecidableEq, Repr

inductive ChunkTransferMode where
  | whole
  | part
  deriving DecidableEq, Repr

/-- What comes back from one chunk call.  The download side answers with any
result; the upload side is computed from the answers of its protocol. -/
inductive ChunkAnswer where
  | upload (answer : UploadAnswer)
  | download (result : Except MeowError ChunkOutcome)
  deriving DecidableEq

def transferChunk (inner : InnerTask) (mode : ChunkTransferMode) (offset : Nat)
    (answer : ChunkAnswer) : Option (Call ChunkOutcome) :=
  match inner.direction, answer with
  | .upload, .upload answer =>
    match mode with
    | .whole => some (uploadOneChunk inner offset inner.chunkSize answer)
    | .part => some (uploadOneChunkPart inner offset inner.chunkSize answer)
  | .download, .download result =>
    some { result := result, abortRequired := false, notes := [] }
  | _, _ => none

def ChunkAnswer.raised : ChunkAnswer → List MeowError
  | upload answer => answer.raised
  | download result => errorOf result

theorem transferChunk_sound {inner : InnerTask} {mode : ChunkTransferMode} {offset : Nat}
    {answer : ChunkAnswer} {call : Call ChunkOutcome}
    (called : transferChunk inner mode offset answer = some call) : call.Sound answer.raised := by
  simp only [transferChunk] at called
  split at called
  · split at called
    · cases called
      exact uploadOneChunk_sound _ _ _
    · cases called
      exact uploadOneChunkPart_sound _ _ _
  · cases called
    exact ⟨by simp, by simp, fun e failed _ => mem_errorOf.mpr failed⟩
  · cases called

def ChunkTransferMode.request (mode : ChunkTransferMode) (offset : Nat) : Request :=
  match mode with
  | whole => .chunk offset
  | part => .part offset

inductive Retry where
  /-- Before the token is read at the head of the loop. -/
  | check (attempt : Nat)
  /-- The request is in flight. -/
  | call (attempt : Nat)
  /-- It failed; `stop_requested` is read next. -/
  | failed (attempt : Nat) (error : MeowError)
  /-- The token is read next. -/
  | failedToken (attempt : Nat) (error : MeowError)
  /-- The protocol stopped on request; its completion claim is settled next. -/
  | settleClaim
  | backoff (attempt : Nat)
  | settled (result : ChunkRetryResult)
  deriving DecidableEq

inductive RetryChoice where
  | tick
  /-- The backoff delay has passed. -/
  | wake
  | answer (answer : ChunkAnswer)
  deriving DecidableEq

namespace TaskCell

/-- The effects of a call on the cell: its notes, its request for an abort, its return. -/
def returnCall {α : Type} (cell : TaskCell) (request : Request) (call : Call α) : TaskCell where
  life := if call.abortRequired then cell.life.requireAbort else cell.life
  history := cell.history ++ call.notes ++ [.returned request]

/-- `finish_incomplete_completion`; giving up a held claim is noted. -/
def finishIncomplete (cell : TaskCell) : TaskCell :=
  let (terminal, stop) := cell.life.terminal.finishIncompleteCompletion
  if cell.life.terminal.claimed then (cell.setTerminal terminal).log (.incomplete stop)
  else cell.setTerminal terminal

section FinishIncomplete

variable (cell : TaskCell)

@[simp] theorem finishIncomplete_terminal :
    cell.finishIncomplete.life.terminal = cell.life.terminal.finishIncompleteCompletion.1 := by
  simp only [finishIncomplete]
  split <;> rfl

@[simp] theorem finishIncomplete_abortStarted :
    cell.finishIncomplete.life.abortStarted = cell.life.abortStarted := by
  simp only [finishIncomplete]
  split <;> rfl

@[simp] theorem finishIncomplete_abortRequired :
    cell.finishIncomplete.life.abortRequired = cell.life.abortRequired := by
  simp only [finishIncomplete]
  split <;> rfl

@[simp] theorem finishIncomplete_stopRequested :
    cell.finishIncomplete.life.stopRequested = cell.life.stopRequested := by
  simp [TransferLifecycle.stopRequested]

end FinishIncomplete

end TaskCell

def Retry.afterCall (attempt : Nat) : Except MeowError ChunkOutcome → Retry
  | .ok outcome => .settled (.done outcome)
  | .error e => .failed attempt e

structure RetryContext where
  inner : InnerTask
  mode : ChunkTransferMode
  offset : Nat
  token : Bool

/-- One step of the loop on the shared cell. -/
def Retry.step (ctx : RetryContext) (retry : Retry) (cell : TaskCell) (choice : RetryChoice) :
    Option (Retry × TaskCell) :=
  match retry, choice with
  | check attempt, .tick =>
    if ctx.token then some (settled .cancelled, cell)
    else some (call attempt, cell.log (.requested (ctx.mode.request ctx.offset)))
  | call attempt, .answer answer =>
    (transferChunk ctx.inner ctx.mode ctx.offset answer).map fun transfer =>
      (afterCall attempt transfer.result,
        cell.returnCall (ctx.mode.request ctx.offset) transfer)
  | failed attempt e, .tick =>
    if isTaskCanceled e ∧ cell.life.stopRequested then some (settleClaim, cell)
    else some (failedToken attempt e, cell)
  | failedToken attempt e, .tick =>
    if ctx.token ∧ cancellationCanMask e then some (settled .cancelled, cell)
    else if ¬ isTransportRetryable e ∨ attempt ≥ ctx.inner.maxChunkRetries then
      some (settled (.failed e), cell)
    else some (backoff attempt, cell)
  | settleClaim, .tick => some (settled .cancelled, cell.finishIncomplete)
  | backoff _, .tick => if ctx.token then some (settled .cancelled, cell) else none
  | backoff attempt, .wake => some (check (attempt + 1), cell)
  | _, _ => none

namespace Retry

def calling : Retry → Bool
  | call _ => true
  | _ => false

/-- The loop has seen a stop and will end, or has ended, as cancelled. -/
def sawStop : Retry → Bool
  | settleClaim | settled .cancelled => true
  | _ => false

/-- The steps of the loop, one constructor for each thing a step can do. -/
inductive Step (ctx : RetryContext) (cell : TaskCell) :
    RetryChoice → Retry → Retry → TaskCell → Prop where
  | headInterrupted {attempt : Nat} (seen : ctx.token = true) :
      Step ctx cell .tick (check attempt) (settled .cancelled) cell
  | request (attempt : Nat) (live : ctx.token = false) :
      Step ctx cell .tick (check attempt) (call attempt)
        (cell.log (.requested (ctx.mode.request ctx.offset)))
  | returned (attempt : Nat) {answer : ChunkAnswer} {transfer : Call ChunkOutcome}
      (called : transferChunk ctx.inner ctx.mode ctx.offset answer = some transfer) :
      Step ctx cell (.answer answer) (call attempt) (afterCall attempt transfer.result)
        (cell.returnCall (ctx.mode.request ctx.offset) transfer)
  | stopped {attempt : Nat} {e : MeowError} (canceled : isTaskCanceled e = true)
      (requested : cell.life.stopRequested = true) :
      Step ctx cell .tick (failed attempt e) settleClaim cell
  | inspect {attempt : Nat} {e : MeowError}
      (plain : ¬ (isTaskCanceled e = true ∧ cell.life.stopRequested = true)) :
      Step ctx cell .tick (failed attempt e) (failedToken attempt e) cell
  | masked {attempt : Nat} {e : MeowError} (seen : ctx.token = true)
      (can : cancellationCanMask e = true) :
      Step ctx cell .tick (failedToken attempt e) (settled .cancelled) cell
  | giveUp {attempt : Nat} {e : MeowError} :
      Step ctx cell .tick (failedToken attempt e) (settled (.failed e)) cell
  | delay {attempt : Nat} {e : MeowError} (again : isTransportRetryable e = true)
      (more : attempt < ctx.inner.maxChunkRetries) :
      Step ctx cell .tick (failedToken attempt e) (backoff attempt) cell
  | settle : Step ctx cell .tick settleClaim (settled .cancelled) cell.finishIncomplete
  | backoffInterrupted {attempt : Nat} (seen : ctx.token = true) :
      Step ctx cell .tick (backoff attempt) (settled .cancelled) cell
  | wake (attempt : Nat) : Step ctx cell .wake (backoff attempt) (check (attempt + 1)) cell

theorem step_cases {ctx : RetryContext} {retry next : Retry} {cell after : TaskCell}
    {choice : RetryChoice} (taken : retry.step ctx cell choice = some (next, after)) :
    Step ctx cell choice retry next after := by
  cases retry with
  | check attempt =>
    cases choice with
    | tick =>
      simp only [step] at taken
      split at taken
      · rename_i seen
        cases taken
        exact .headInterrupted seen
      · rename_i live
        cases taken
        exact .request attempt (by simpa using live)
    | wake => cases taken
    | answer _ => cases taken
  | call attempt =>
    cases choice with
    | tick => cases taken
    | wake => cases taken
    | answer answer =>
      simp only [step, Option.map_eq_some_iff, Prod.mk.injEq] at taken
      obtain ⟨transfer, called, rfl, rfl⟩ := taken
      exact .returned attempt called
  | failed attempt e =>
    cases choice with
    | tick =>
      simp only [step] at taken
      split at taken
      · rename_i both
        cases taken
        exact .stopped both.1 both.2
      · rename_i plain
        cases taken
        exact .inspect plain
    | wake => cases taken
    | answer _ => cases taken
  | failedToken attempt e =>
    cases choice with
    | tick =>
      simp only [step] at taken
      split at taken
      · rename_i both
        cases taken
        exact .masked both.1 both.2
      · split at taken
        · cases taken
          exact .giveUp
        · rename_i more
          cases taken
          exact .delay (by simp_all) (by omega)
    | wake => cases taken
    | answer _ => cases taken
  | settleClaim =>
    cases choice with
    | tick =>
      cases taken
      exact .settle
    | wake => cases taken
    | answer _ => cases taken
  | backoff attempt =>
    cases choice with
    | tick =>
      simp only [step, Option.ite_none_right_eq_some, Option.some.injEq, Prod.mk.injEq] at taken
      obtain ⟨seen, rfl, rfl⟩ := taken
      exact .backoffInterrupted seen
    | wake =>
      cases taken
      exact .wake attempt
    | answer _ => cases taken
  | settled result => cases choice <;> cases taken

end Retry

end RustyCat
