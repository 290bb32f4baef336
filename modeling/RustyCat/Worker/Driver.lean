import RustyCat.Worker.PartWindow
import RustyCat.Worker.Retry

/-!
# Parts of a parallel transfer

The memory checks of `exec.rs`, `spawn_part`, and what the parallel driver does
when a part is joined.
-/

namespace RustyCat

def memoryLimitForPointerWidth (pointerWidth : Nat) : Nat :=
  if pointerWidth ≤ 32 then 64 * 1024 * 1024 else 512 * 1024 * 1024

/-- The limit on a 64-bit target. -/
def currentMemoryLimitBytes : Nat := memoryLimitForPointerWidth 64

def maxParallelPartTasks : Nat := 256

/-- A download part holds the received frame besides its own buffer. -/
def Direction.bodyBufferCopies : Direction → Nat
  | download => 2
  | upload => 1

def InnerTask.verificationScratchBytes (inner : InnerTask) : Nat :=
  inner.uploadFileSnapshot.getD 0

def validateParallelPartWindow (maxPartsInFlight chunkSize remainingBytes bodyBufferCopies
    verificationScratchBytes memoryLimitBytes : Nat) : Except MeowError Unit :=
  if remainingBytes = 0 then .ok ()
  else if chunkSize = 0 then
    .error (.fromCode .ioError "parallel part count overflow or zero chunk size")
  else
    let partCount := (remainingBytes - 1) / chunkSize + 1
    let effectiveParts := min (max maxPartsInFlight 1) partCount
    if effectiveParts > maxParallelPartTasks then
      .error (.fromCode .ioError
        s!"parallel part window exceeds task limit: requested={effectiveParts} limit={maxParallelPartTasks}")
    else
      match Word.checkedMul 128 effectiveParts chunkSize with
      | none => .error (.fromCode .ioError "parallel part body budget overflow")
      | some bytes =>
        match Word.checkedMul 128 (min bytes remainingBytes) (max bodyBufferCopies 1) with
        | none => .error (.fromCode .ioError "parallel part body-buffer budget overflow")
        | some bodyBudget =>
          match Word.checkedMul 128 effectiveParts verificationScratchBytes with
          | none => .error (.fromCode .ioError "parallel verification scratch budget overflow")
          | some scratchBudget =>
            match Word.checkedAdd 128 bodyBudget scratchBudget with
            | none => .error (.fromCode .ioError "parallel part window size overflow")
            | some budget =>
              if budget > memoryLimitBytes then
                .error (.fromCode .ioError
                  s!"parallel part window exceeds memory limit: requested={budget} limit={memoryLimitBytes}")
              else .ok ()

def checkedParallelPartMemoryBytes (bodyBytes bodyBufferCopies verificationScratchBytes : Nat) :
    Except MeowError Nat :=
  match Word.checkedMul 64 bodyBytes (max bodyBufferCopies 1) with
  | none => .error (.fromCode .ioError "parallel part body-buffer size overflow")
  | some bytes =>
    match Word.checkedAdd 64 bytes verificationScratchBytes with
    | none => .error (.fromCode .ioError "parallel part body plus verification scratch overflow")
    | some sum => .ok sum

/-- The bytes a part asks the memory budget for, or why it cannot ask. -/
def partMemory (inner : InnerTask) (total offset : Nat) : Except MeowError Nat :=
  match Word.checkedSub total offset with
  | none =>
    .error (.fromCode .invalidRange
      s!"parallel part offset exceeds total: offset={offset} total={total}")
  | some remaining =>
    match checkedParallelPartMemoryBytes (min remaining inner.chunkSize)
        inner.direction.bodyBufferCopies inner.verificationScratchBytes with
    | .error e => .error e
    | .ok bytes =>
      if bytes > currentMemoryLimitBytes then
        .error (.fromCode .ioError
          s!"parallel part memory exceeds client limit: requested={bytes} limit={currentMemoryLimitBytes}")
      else if bytes > Word.maxVal 32 then
        .error (.fromCode .ioError
          s!"parallel part memory permit count does not fit u32: {bytes}")
      else .ok bytes

inductive PartPc where
  /-- It waits for its memory permit. -/
  | acquire
  | retry (retry : Retry)
  | panicked (text : String)
  deriving DecidableEq

structure Part where
  offset : Nat
  pc : PartPc
  deriving DecidableEq

inductive PartChoice where
  /-- The wait for the permit ends: by the token if it is cancelled, else by the permit. -/
  | grant
  | retry (choice : RetryChoice)
  | panic (text : String)
  deriving DecidableEq

namespace Part

def spawn (offset : Nat) : Part := { offset := offset, pc := .acquire }

def calling (part : Part) : Bool :=
  match part.pc with
  | .retry retry => retry.calling
  | _ => false

def settled (part : Part) : Bool :=
  match part.pc with
  | .retry (.settled _) | .panicked _ => true
  | _ => false

def step (inner : InnerTask) (total : Nat) (token : Bool) (part : Part) (cell : TaskCell)
    (choice : PartChoice) : Option (Part × TaskCell) :=
  match part.pc, choice with
  | .acquire, .grant =>
    match partMemory inner total part.offset with
    | .error e => some ({ part with pc := .retry (.settled (.failed e)) }, cell)
    | .ok _ =>
      if token then some ({ part with pc := .retry (.settled .cancelled) }, cell)
      else some ({ part with pc := .retry (.check 0) }, cell)
  | .retry retry, .retry choice =>
    (retry.step { inner := inner, mode := .part, offset := part.offset, token := token }
      cell choice).map fun (next, cell) => ({ part with pc := .retry next }, cell)
  | _, .panic text =>
    if part.settled then none
    else
      some ({ part with pc := .panicked text },
        if part.calling then cell.log (.returned (.part part.offset)) else cell)
  | _, _ => none

def sawStop (part : Part) : Bool :=
  match part.pc with
  | .retry retry => retry.sawStop
  | _ => false

def context (inner : InnerTask) (token : Bool) (offset : Nat) : RetryContext :=
  { inner := inner, mode := .part, offset := offset, token := token }

/-- The steps of a part, one constructor for each thing a step can do. -/
inductive Step (inner : InnerTask) (total : Nat) (token : Bool) (cell : TaskCell) :
    PartChoice → Part → Part → TaskCell → Prop where
  | refused {offset : Nat} {e : MeowError} (refusal : partMemory inner total offset = .error e) :
      Step inner total token cell .grant ⟨offset, .acquire⟩
        ⟨offset, .retry (.settled (.failed e))⟩ cell
  | interrupted {offset : Nat} (seen : token = true) :
      Step inner total token cell .grant ⟨offset, .acquire⟩
        ⟨offset, .retry (.settled .cancelled)⟩ cell
  | granted {offset : Nat} (live : token = false) :
      Step inner total token cell .grant ⟨offset, .acquire⟩ ⟨offset, .retry (.check 0)⟩ cell
  | retry {offset : Nat} {choice : RetryChoice} {before after : Retry} {cellAfter : TaskCell}
      (moved : Retry.Step (context inner token offset) cell choice before after cellAfter) :
      Step inner total token cell (.retry choice) ⟨offset, .retry before⟩ ⟨offset, .retry after⟩
        cellAfter
  | panickedIdle {part : Part} (text : String) (running : part.settled = false)
      (idle : part.calling = false) :
      Step inner total token cell (.panic text) part ⟨part.offset, .panicked text⟩ cell
  | panickedCalling {part : Part} (text : String) (busy : part.calling = true) :
      Step inner total token cell (.panic text) part ⟨part.offset, .panicked text⟩
        (cell.log (.returned (.part part.offset)))

theorem step_cases {inner : InnerTask} {total : Nat} {token : Bool} {part next : Part}
    {cell after : TaskCell} {choice : PartChoice}
    (taken : part.step inner total token cell choice = some (next, after)) :
    Step inner total token cell choice part next after := by
  obtain ⟨offset, pc⟩ := part
  have panics : ∀ text, (if settled ⟨offset, pc⟩ = true then none
      else some ((⟨offset, .panicked text⟩ : Part),
        if calling ⟨offset, pc⟩ = true then cell.log (.returned (.part offset)) else cell)) =
      some (next, after) →
      Step inner total token cell (.panic text) ⟨offset, pc⟩ next after := by
    intro text ends
    simp only [Option.ite_none_left_eq_some, Option.some.injEq, Prod.mk.injEq] at ends
    obtain ⟨running, rfl, rfl⟩ := ends
    split
    · rename_i busy
      exact .panickedCalling text busy
    · rename_i idle
      exact .panickedIdle text (by simpa using running) (by simpa using idle)
  cases choice with
  | panic text =>
    cases pc <;> exact panics text taken
  | grant =>
    cases pc with
    | acquire =>
      simp only [step] at taken
      split at taken
      · rename_i e refusal
        cases taken
        exact .refused refusal
      · split at taken
        · rename_i seen
          cases taken
          exact .interrupted seen
        · rename_i live
          cases taken
          exact .granted (by simpa using live)
    | retry _ => cases taken
    | panicked _ => cases taken
  | retry choice =>
    cases pc with
    | acquire => cases taken
    | retry before =>
      simp only [step, Option.map_eq_some_iff, Prod.mk.injEq, Prod.exists] at taken
      obtain ⟨after, cellAfter, moved, rfl, rfl⟩ := taken
      exact .retry (Retry.step_cases moved)
    | panicked _ => cases taken

end Part

/-- The local variables of `run_group_parallel`. -/
structure Driver where
  window : PartWindow
  parts : List Part
  cancelled : Bool
  failed : Option MeowError
  deriving DecidableEq

namespace Driver

/-- Spawns parts until the window is full; the offsets are those of the new parts. -/
def fill (d : Driver) : Driver × List Nat :=
  let (window, offsets) := d.window.dispatchAll
  ({ d with window := window, parts := d.parts ++ offsets.map Part.spawn }, offsets)

def new (inner : InnerTask) (startOffset total : Nat) (total_le : total ≤ u64Max) : Driver where
  window := .new startOffset inner.chunkSize total inner.maxPartsInFlight total_le
  parts := []
  cancelled := false
  failed := none

def fail (d : Driver) (e : MeowError) : Driver :=
  { d with failed := d.failed.or (some e) }

/-- Tops up the window only while nothing was cancelled or failed. -/
def topUp (d : Driver) : Driver × List Nat :=
  if ¬ d.cancelled ∧ d.failed = none then d.fill else (d, [])

/-- The driver after a part was joined that did not panic, before any top-up, and
the watermark to report. -/
def onJoined (d : Driver) (offset : Nat) : ChunkRetryResult → Driver × Option Nat
  | .done _ =>
    match d.window.onDone offset with
    | .ok (window, moved) => ({ d with window := window }, moved)
    | .error e => (d.fail e, none)
  | .cancelled =>
    ({ d with cancelled := true, window := d.window.onSettledWithoutProgress }, none)
  | .failed e => ({ d.fail e with window := d.window.onSettledWithoutProgress }, none)

end Driver

def ChunkRetryResult.outcome : ChunkRetryResult → PartOutcome
  | done _ => .done
  | cancelled => .cancelled
  | failed _ => .failed

def Part.outcome (part : Part) : PartOutcome :=
  match part.pc with
  | .retry (.settled result) => result.outcome
  | _ => .panicked

end RustyCat
