import RustyCat.Worker.Driver
import RustyCat.Scheduler.Handlers

/-!
# One worker run

`run_group` and `run_group_parallel` of `exec.rs` as a machine.  A program
counter marks the points between two accesses to shared state: the cancellation
token, the lifecycle atomic, a request to the protocol, the channel to the
scheduler.  The outbox holds the events that were sent and not handled yet.
-/

namespace RustyCat

inductive PrepareAnswer where
  | upload (source : Option LocalError) (answer : Except MeowError UploadResumeInfo)
  | download (result : Except MeowError PrepareOutcome)
  deriving DecidableEq

def prepareCall (inner : InnerTask) (localOffset : Nat) (answer : PrepareAnswer) :
    Option (Call PrepareOutcome) :=
  match inner.direction, answer with
  | .upload, .upload source answer => some (uploadPrepareOnce inner localOffset source answer)
  | .download, .download result => some { result := result, abortRequired := false, notes := [] }
  | _, _ => none

def PrepareAnswer.raised : PrepareAnswer → List MeowError
  | upload _ answer => errorOf answer
  | download result => errorOf result

theorem prepareCall_sound {inner : InnerTask} {localOffset : Nat} {answer : PrepareAnswer}
    {call : Call PrepareOutcome} (called : prepareCall inner localOffset answer = some call) :
    call.Sound answer.raised := by
  simp only [prepareCall] at called
  split at called
  · cases called
    exact uploadPrepareOnce_sound _ _ _
  · cases called
    exact ⟨by simp, by simp, fun e failed _ => mem_errorOf.mpr failed⟩
  · cases called

inductive Pc where
  | prepCheck (attempt start : Nat)
  | prepCall (attempt start : Nat)
  /-- `prepare` failed; the token is read for the masking test. -/
  | prepFailed (attempt start : Nat) (error : MeowError)
  /-- The token is read again for `force_failure`. -/
  | prepForce (attempt start : Nat) (error : MeowError)
  | prepBackoff (attempt start : Nat)
  | serialHead (offset total : Nat)
  | serialClaim (offset total : Nat)
  | serialChunk (offset total : Nat) (claimed : Bool) (retry : Retry)
  /-- The last chunk is done; completion is acknowledged next. -/
  | serialDone (total : Nat) (payload : Option String)
  /-- The claimed chunk did not finish the transfer. -/
  | serialFinish (offset total : Nat)
  /-- The parallel path was entered at the end of the file. -/
  | totalClaim (total : Nat)
  | totalValidate (total : Nat)
  | join (driver : Driver)
  /-- A part panicked; its siblings are drained. -/
  | panicDrain (driver : Driver) (text : String)
  /-- Every part was joined. -/
  | barrier (driver : Driver)
  | completeClaim (total : Nat)
  | completeValidate (total : Nat)
  | completeCall (total : Nat)
  /-- The transfer is complete; a download still releases its target. -/
  | release (total : Nat) (payload : Option String)
  | exitCanceled (total : Nat)
  /-- `settles` says whether `settle_required_upload_abort` is on the way out. -/
  | exitFailed (error : MeowError) (total : Nat) (settles : Bool)
  | finished
  deriving DecidableEq

inductive Choice where
  | tick
  | wake
  | prepare (answer : PrepareAnswer)
  | chunk (choice : RetryChoice)
  | complete (answer : Except MeowError (Option String))
  /-- The outcome of a check of the local source or of a cleanup of the local target. -/
  | check (outcome : Option LocalError)
  | part (index : Nat) (choice : PartChoice)
  | join (index : Nat)
  deriving DecidableEq

structure Run where
  pc : Pc
  outbox : List WorkerEvent
  token : Bool
  cell : TaskCell
  deriving DecidableEq

namespace Run

def goto (r : Run) (pc : Pc) : Run := { r with pc := pc }

def log (r : Run) (event : TaskEvent) : Run := { r with cell := r.cell.log event }

def send (r : Run) (event : WorkerEvent) : Run :=
  { r with outbox := r.outbox ++ [event], cell := r.cell.log (.sent event) }

/-- A worker spawned at `start` on the given cell. -/
def spawn (start : Nat) (cell : TaskCell) : Run :=
  { pc := .prepCheck 0 start, outbox := [], token := false, cell := cell }

section Steps

variable (inner : InnerTask)

def claim (r : Run) (won lost : Pc) : Run :=
  let (terminal, success) := r.cell.life.terminal.beginCompletion
  { r with pc := if success then won else lost, cell := r.cell.setTerminal terminal }

def maxPrepRetries : Nat :=
  match inner.direction with
  | .upload => inner.maxUploadPrepareRetries
  | .download => inner.maxChunkRetries

def prepRetryable (e : MeowError) : Bool :=
  match inner.direction with
  | .upload => isTransportRetryable e
  | .download => isConnectionLayerRetryable e

/-- Waits for the parts of the driver, some of which were just spawned. -/
def joinWith (r : Run) (next : Driver × List Nat) : Run :=
  { r with pc := .join next.1, cell := r.cell.logAll (next.2.map TaskEvent.spawned) }

/-- The beginning of `run_group_parallel`. -/
def enterParallel (r : Run) (offset total : Nat) (total_le : total ≤ u64Max) : Run :=
  if offset ≥ total then r.goto (.totalClaim total)
  else r.joinWith (Driver.new inner offset total total_le).fill

/-- `known_total` after a successful prepare. -/
def knownTotal (v : PrepareOutcome) : Nat :=
  if v.totalSize > 0 then v.totalSize else inner.totalSize

theorem knownTotal_le (v : PrepareOutcome) : knownTotal inner v ≤ u64Max := by
  simp only [knownTotal]
  split
  · exact v.totalSize_le
  · exact inner.totalSize_le

/-- From the answer of `prepare` to the first chunk: the first progress event and
the choice between the serial and the parallel path. -/
def prepared (r : Run) (v : PrepareOutcome) : Run :=
  let total := knownTotal inner v
  let announced := r.send (.progress inner.dedupeKey v.nextOffset total)
  if inner.maxPartsInFlight > 1 ∧ total > 0 ∧ inner.supportsParallelParts then
    match validateParallelPartWindow inner.maxPartsInFlight inner.chunkSize
        (total - v.nextOffset) inner.direction.bodyBufferCopies
        inner.verificationScratchBytes currentMemoryLimitBytes with
    | .error e =>
      match inner.direction with
      | .download => announced.goto (.exitFailed e total false)
      | .upload =>
        { announced with
          pc := .exitFailed e total true
          cell := { announced.cell with life := announced.cell.life.requireAbort } }
    | .ok () => announced.enterParallel inner v.nextOffset total (knownTotal_le inner v)
  else announced.goto (.serialHead v.nextOffset total)

/-- Whether the chunk at `offset` is predicted to be the last one. -/
def isTerminalChunk (offset total : Nat) : Bool :=
  (total > 0 &&
    match Word.checkedAdd 64 offset inner.chunkSize with
    | some chunkEnd => decide (chunkEnd ≥ total)
    | none => true) ||
  (inner.direction = .upload && inner.totalSize = 0)

def chunkDone (r : Run) (total : Nat) (claimed : Bool) (outcome : ChunkOutcome) : Run :=
  let total := if outcome.totalSize > 0 then outcome.totalSize else total
  let announced := r.send (.progress inner.dedupeKey outcome.nextOffset total)
  if outcome.done then announced.goto (.serialDone total outcome.completionPayload)
  else if claimed then announced.goto (.serialFinish outcome.nextOffset total)
  else announced.goto (.serialHead outcome.nextOffset total)

def requestComplete (r : Run) (total : Nat) : Run :=
  (r.log (.requested .complete)).goto (.completeCall total)

/-- `complete` answered; for an upload that is the answer of `complete_upload`. -/
def completed (r : Run) (total : Nat) (answer : Except MeowError (Option String)) : Run :=
  let noted :=
    match inner.direction with
    | .upload => r.log (.completeUpload answer.isOk)
    | .download => r
  let returned := noted.log (.returned .complete)
  match answer with
  | .ok payload => returned.goto (.release total payload)
  | .error e => returned.goto (.exitFailed e total false)

def sendCompleted (r : Run) (total : Nat) (payload : Option String) : Run :=
  (r.send (.completed inner.dedupeKey total payload)).goto .finished

def sendFailed (r : Run) (error : MeowError) (total : Nat) : Run :=
  (r.send (.failed inner.dedupeKey error total)).goto .finished

def sendCanceled (r : Run) (total : Nat) : Run :=
  (r.send (.canceled inner.dedupeKey total)).goto .finished

def abort (r : Run) : Run :=
  { r with cell := r.cell.executorCancel inner.direction }

/-- A failing run: the required abort of an upload, then the event. -/
def exitFailed (r : Run) (error : MeowError) (total : Nat) (settles : Bool) : Run :=
  let settled := if settles ∧ r.cell.life.abortRequired then r.abort inner else r
  settled.sendFailed inner error total

/-- The watermark is reported when it moved. -/
def sendMoved (r : Run) (total : Nat) : Option Nat → Run
  | some watermark => r.send (.progress inner.dedupeKey watermark total)
  | none => r

/-- A settled part was taken out of the join set of `d`.  Only a part that is done
lets the driver spawn more. -/
def joined (r : Run) (d : Driver) (part : Part) : Run :=
  let noted := r.log (.joined part.offset part.outcome)
  match part.pc with
  | .retry (.settled (.done outcome)) =>
    let (next, moved) := d.onJoined part.offset (.done outcome)
    (noted.sendMoved inner d.window.total moved).joinWith next.topUp
  | .retry (.settled result) => noted.goto (.join (d.onJoined part.offset result).1)
  | .panicked text => { noted with token := true, pc := .panicDrain d text }
  | _ => noted

def settleBarrier (r : Run) (d : Driver) : Run :=
  match d.failed with
  | some e => r.goto (.exitFailed e d.window.total true)
  | none =>
    if d.cancelled ∨ r.token then r.goto (.exitCanceled d.window.total)
    else if ¬ d.window.isComplete then
      r.goto (.exitFailed (.fromCode .unknown
        s!"internal: complete fired before contiguous prefix reached total (watermark={d.window.watermark}, total={d.window.total})")
        d.window.total false)
    else r.goto (.completeClaim d.window.total)

/-- The end of a drain after a panic. -/
def settlePanic (r : Run) (d : Driver) (text : String) : Run :=
  let failing := r.goto
    (.exitFailed (.fromCode .unknown s!"transfer part task panicked: {text}") d.window.total true)
  match inner.direction with
  | .download => failing
  | .upload => { failing with cell := { r.cell with life := r.cell.life.requireAbort } }

/-- One step of a part; the driver is where the parts are kept. -/
def stepPart (r : Run) (d : Driver) (index : Nat) (choice : PartChoice) :
    Option (Driver × TaskCell) :=
  (d.parts[index]?).bind fun part =>
    (part.step inner d.window.total r.token r.cell choice).map fun (next, cell) =>
      ({ d with parts := d.parts.set index next }, cell)

def takeSettled (d : Driver) (index : Nat) : Option (Part × Driver) :=
  (d.parts[index]?).bind fun part =>
    if part.settled then some (part, { d with parts := d.parts.eraseIdx index }) else none

def stepPrepare (r : Run) : Pc → Choice → Option Run
  | .prepCheck attempt start, .tick =>
    if r.token then some (r.goto (.exitCanceled inner.totalSize))
    else some ((r.log (.requested (.prepare start))).goto (.prepCall attempt start))
  | .prepCall attempt start, .prepare answer =>
    (prepareCall inner start answer).map fun call =>
      let returned := { r with cell := r.cell.returnCall (.prepare start) call }
      match call.result with
      | .ok v => returned.prepared inner v
      | .error e => returned.goto (.prepFailed attempt start e)
  | .prepFailed attempt start e, .tick =>
    if r.token ∧ cancellationCanMask e ∧ ¬ r.cell.life.abortRequired then
      some (r.goto (.exitCanceled inner.totalSize))
    else some (r.goto (.prepForce attempt start e))
  | .prepForce attempt start e, .tick =>
    let forceFailure := r.cell.life.abortRequired ∨ (r.token ∧ ¬ cancellationCanMask e)
    if forceFailure ∨ ¬ prepRetryable inner e ∨ attempt ≥ maxPrepRetries inner then
      some (r.goto (.exitFailed e inner.totalSize true))
    else some (r.goto (.prepBackoff attempt start))
  | .prepBackoff _ _, .tick =>
    if r.token then some (r.goto (.exitCanceled inner.totalSize)) else none
  | .prepBackoff attempt start, .wake => some (r.goto (.prepCheck (attempt + 1) start))
  | _, _ => none

def stepSerial (r : Run) : Pc → Choice → Option Run
  | .serialHead offset total, .tick =>
    if r.token then some (r.goto (.exitCanceled total))
    else if isTerminalChunk inner offset total then some (r.goto (.serialClaim offset total))
    else some (r.goto (.serialChunk offset total false (.check 0)))
  | .serialClaim offset total, .tick =>
    some (r.claim (.serialChunk offset total true (.check 0)) (.exitCanceled total))
  | .serialChunk _ total claimed (.settled result), .tick =>
    match result with
    | .done outcome => some (r.chunkDone inner total claimed outcome)
    | .cancelled => some (r.goto (.exitCanceled total))
    | .failed e => some (r.goto (.exitFailed e total true))
  | .serialChunk offset total claimed retry, .chunk choice =>
    (retry.step { inner := inner, mode := .whole, offset := offset, token := r.token }
      r.cell choice).map fun (next, cell) =>
        { r with pc := .serialChunk offset total claimed next, cell := cell }
  | .serialDone total payload, .tick =>
    some { r with
      pc := .release total payload
      cell := r.cell.setTerminal r.cell.life.terminal.acknowledgeCompletion }
  | .serialFinish offset total, .tick =>
    some { r with
      pc :=
        if r.cell.life.terminal.finishIncompleteCompletion.2.isSome then .exitCanceled total
        else .serialHead offset total
      cell := r.cell.finishIncomplete }
  | _, _ => none

def stepParallel (r : Run) : Pc → Choice → Option Run
  | .totalClaim total, .tick =>
    match inner.direction with
    | .download => some (r.claim (.completeValidate total) (.exitCanceled total))
    | .upload => some (r.claim (.totalValidate total) (.exitCanceled total))
  | .totalValidate total, .check outcome =>
    match inner.uploadFileSnapshot, outcome with
    | some _, some e =>
      some { r with
        pc := .exitFailed e.error total true
        cell := { r.cell with life := r.cell.life.requireAbort } }
    | _, _ => some (r.sendCompleted inner total none)
  | .join d, .part index choice =>
    (r.stepPart inner d index choice).map fun (next, cell) =>
      { r with pc := .join next, cell := cell }
  | .join d, .join index =>
    (takeSettled d index).map fun (part, rest) => r.joined inner rest part
  | .join d, .tick => if d.parts = [] then some (r.goto (.barrier d)) else none
  | .panicDrain d text, .part index choice =>
    (r.stepPart inner d index choice).map fun (next, cell) =>
      { r with pc := .panicDrain next text, cell := cell }
  | .panicDrain d text, .join index =>
    (takeSettled d index).map fun (part, rest) =>
      (r.log (.joined part.offset part.outcome)).goto (.panicDrain rest text)
  | .panicDrain d text, .tick => if d.parts = [] then some (r.settlePanic inner d text) else none
  | .barrier d, .tick => some (r.settleBarrier d)
  | .completeClaim total, .tick =>
    some (r.claim (.completeValidate total) (.exitCanceled total))
  | .completeValidate total, .check outcome =>
    match inner.direction, inner.uploadFileSnapshot, outcome with
    | .upload, some _, some e => some ((r.abort inner).goto (.exitFailed e.error total false))
    | _, _, _ => some (r.requestComplete total)
  | .completeCall total, .complete answer => some (r.completed inner total answer)
  | _, _ => none

def stepExit (r : Run) : Pc → Choice → Option Run
  | .release total payload, .check outcome =>
    match inner.direction, outcome with
    | .download, some e => some (r.sendFailed inner e.error total)
    | _, _ => some (r.sendCompleted inner total payload)
  | .exitCanceled total, .check outcome =>
    match inner.direction, outcome with
    | .download, some e => some (r.sendFailed inner e.error total)
    | _, _ => some (r.sendCanceled inner total)
  | .exitFailed e total settles, .tick => some (r.exitFailed inner e total settles)
  | _, _ => none

def step (r : Run) (choice : Choice) : Option Run :=
  match r.pc with
  | .prepCheck _ _ | .prepCall _ _ | .prepFailed _ _ _ | .prepForce _ _ _ | .prepBackoff _ _ =>
    r.stepPrepare inner r.pc choice
  | .serialHead _ _ | .serialClaim _ _ | .serialChunk _ _ _ _ | .serialDone _ _
  | .serialFinish _ _ => r.stepSerial inner r.pc choice
  | .totalClaim _ | .totalValidate _ | .join _ | .panicDrain _ _ | .barrier _
  | .completeClaim _ | .completeValidate _ | .completeCall _ =>
    r.stepParallel inner r.pc choice
  | .release _ _ | .exitCanceled _ | .exitFailed _ _ _ | .finished =>
    r.stepExit inner r.pc choice

/-- The steps of a run, one constructor for each thing a step can do. -/
inductive Step (r : Run) : Pc → Choice → Run → Prop where
  | prepInterrupted {pc : Pc} {attempt start : Nat} (seen : r.token = true)
      (waiting : pc = .prepCheck attempt start ∨ pc = .prepBackoff attempt start) :
      Step r pc .tick (r.goto (.exitCanceled inner.totalSize))
  | prepRequest {attempt start : Nat} (live : r.token = false) :
      Step r (.prepCheck attempt start) .tick
        ((r.log (.requested (.prepare start))).goto (.prepCall attempt start))
  | prepOk {attempt start : Nat} {answer : PrepareAnswer} {call : Call PrepareOutcome}
      {v : PrepareOutcome} (called : prepareCall inner start answer = some call)
      (result : call.result = .ok v) :
      Step r (.prepCall attempt start) (.prepare answer)
        (prepared inner { r with cell := r.cell.returnCall (.prepare start) call } v)
  | prepError {attempt start : Nat} {answer : PrepareAnswer} {call : Call PrepareOutcome}
      {e : MeowError} (called : prepareCall inner start answer = some call)
      (result : call.result = .error e) :
      Step r (.prepCall attempt start) (.prepare answer)
        { r with
          pc := .prepFailed attempt start e
          cell := r.cell.returnCall (.prepare start) call }
  | prepMasked {attempt start : Nat} {e : MeowError} (seen : r.token = true)
      (can : cancellationCanMask e = true) (free : ¬ r.cell.life.abortRequired = true) :
      Step r (.prepFailed attempt start e) .tick (r.goto (.exitCanceled inner.totalSize))
  | prepUnmasked {attempt start : Nat} {e : MeowError}
      (plain : ¬ (r.token = true ∧ cancellationCanMask e = true ∧
        ¬ r.cell.life.abortRequired = true)) :
      Step r (.prepFailed attempt start e) .tick (r.goto (.prepForce attempt start e))
  | prepGiveUp {attempt start : Nat} {e : MeowError} :
      Step r (.prepForce attempt start e) .tick (r.goto (.exitFailed e inner.totalSize true))
  | prepDelay {attempt start : Nat} {e : MeowError} (free : ¬ r.cell.life.abortRequired = true)
      (more : attempt < maxPrepRetries inner) :
      Step r (.prepForce attempt start e) .tick (r.goto (.prepBackoff attempt start))
  | prepWake {attempt start : Nat} :
      Step r (.prepBackoff attempt start) .wake (r.goto (.prepCheck (attempt + 1) start))
  | serialInterrupted {offset total : Nat} (seen : r.token = true) :
      Step r (.serialHead offset total) .tick (r.goto (.exitCanceled total))
  | serialLast {offset total : Nat} (live : r.token = false)
      (last : isTerminalChunk inner offset total = true) :
      Step r (.serialHead offset total) .tick (r.goto (.serialClaim offset total))
  | serialNext {offset total : Nat} (live : r.token = false)
      (more : isTerminalChunk inner offset total = false) :
      Step r (.serialHead offset total) .tick
        (r.goto (.serialChunk offset total false (.check 0)))
  | serialClaim {offset total : Nat} :
      Step r (.serialClaim offset total) .tick
        (r.claim (.serialChunk offset total true (.check 0)) (.exitCanceled total))
  | serialRetry {offset total : Nat} {claimed : Bool} {retry next : Retry} {cell : TaskCell}
      {choice : RetryChoice}
      (moved : Retry.Step { inner := inner, mode := .whole, offset := offset, token := r.token }
        r.cell choice retry next cell) :
      Step r (.serialChunk offset total claimed retry) (.chunk choice)
        { r with pc := .serialChunk offset total claimed next, cell := cell }
  | serialOutcome {offset total : Nat} {claimed : Bool} {outcome : ChunkOutcome} :
      Step r (.serialChunk offset total claimed (.settled (.done outcome))) .tick
        (r.chunkDone inner total claimed outcome)
  | serialCancelled {offset total : Nat} {claimed : Bool} :
      Step r (.serialChunk offset total claimed (.settled .cancelled)) .tick
        (r.goto (.exitCanceled total))
  | serialFailed {offset total : Nat} {claimed : Bool} {e : MeowError} :
      Step r (.serialChunk offset total claimed (.settled (.failed e))) .tick
        (r.goto (.exitFailed e total true))
  | serialAck {total : Nat} {payload : Option String} :
      Step r (.serialDone total payload) .tick
        { r with
          pc := .release total payload
          cell := r.cell.setTerminal r.cell.life.terminal.acknowledgeCompletion }
  | serialFinish {offset total : Nat} :
      Step r (.serialFinish offset total) .tick
        { r with
          pc :=
            if r.cell.life.terminal.finishIncompleteCompletion.2.isSome then .exitCanceled total
            else .serialHead offset total
          cell := r.cell.finishIncomplete }
  | totalDownload {total : Nat} (download : inner.direction = .download) :
      Step r (.totalClaim total) .tick (r.claim (.completeValidate total) (.exitCanceled total))
  | totalUpload {total : Nat} (upload : inner.direction = .upload) :
      Step r (.totalClaim total) .tick (r.claim (.totalValidate total) (.exitCanceled total))
  | totalInvalid {total : Nat} {e : LocalError} :
      Step r (.totalValidate total) (.check (some e))
        { r with
          pc := .exitFailed e.error total true
          cell := { r.cell with life := r.cell.life.requireAbort } }
  | totalValid {total : Nat} {outcome : Option LocalError} :
      Step r (.totalValidate total) (.check outcome) (r.sendCompleted inner total none)
  | part {d : Driver} {index : Nat} {choice : PartChoice} {part next : Part} {cell : TaskCell}
      (here : d.parts[index]? = some part)
      (moved : Part.Step inner d.window.total r.token r.cell choice part next cell) :
      Step r (.join d) (.part index choice)
        { r with pc := .join { d with parts := d.parts.set index next }, cell := cell }
  | joined {d : Driver} {index : Nat} {part : Part} (here : d.parts[index]? = some part)
      (settled : part.settled = true) :
      Step r (.join d) (.join index)
        (r.joined inner { d with parts := d.parts.eraseIdx index } part)
  | drained {d : Driver} (empty : d.parts = []) : Step r (.join d) .tick (r.goto (.barrier d))
  | panicPart {d : Driver} {text : String} {index : Nat} {choice : PartChoice}
      {part next : Part} {cell : TaskCell} (here : d.parts[index]? = some part)
      (moved : Part.Step inner d.window.total r.token r.cell choice part next cell) :
      Step r (.panicDrain d text) (.part index choice)
        { r with pc := .panicDrain { d with parts := d.parts.set index next } text, cell := cell }
  | panicJoined {d : Driver} {text : String} {index : Nat} {part : Part}
      (here : d.parts[index]? = some part) (settled : part.settled = true) :
      Step r (.panicDrain d text) (.join index)
        ((r.log (.joined part.offset part.outcome)).goto
          (.panicDrain { d with parts := d.parts.eraseIdx index } text))
  | panicDrained {d : Driver} {text : String} (empty : d.parts = []) :
      Step r (.panicDrain d text) .tick (r.settlePanic inner d text)
  | barrier {d : Driver} : Step r (.barrier d) .tick (r.settleBarrier d)
  | completeClaim {total : Nat} :
      Step r (.completeClaim total) .tick
        (r.claim (.completeValidate total) (.exitCanceled total))
  | completeInvalid {total : Nat} {e : LocalError} (upload : inner.direction = .upload) :
      Step r (.completeValidate total) (.check (some e))
        ((r.abort inner).goto (.exitFailed e.error total false))
  | completeRequest {total : Nat} {outcome : Option LocalError} :
      Step r (.completeValidate total) (.check outcome) (r.requestComplete total)
  | completeReturned {total : Nat} {answer : Except MeowError (Option String)} :
      Step r (.completeCall total) (.complete answer) (r.completed inner total answer)
  | releaseFailed {total : Nat} {payload : Option String} {e : LocalError}
      (download : inner.direction = .download) :
      Step r (.release total payload) (.check (some e)) (r.sendFailed inner e.error total)
  | released {total : Nat} {payload : Option String} {outcome : Option LocalError} :
      Step r (.release total payload) (.check outcome) (r.sendCompleted inner total payload)
  | cleanupFailed {total : Nat} {e : LocalError} (download : inner.direction = .download) :
      Step r (.exitCanceled total) (.check (some e)) (r.sendFailed inner e.error total)
  | canceled {total : Nat} {outcome : Option LocalError} :
      Step r (.exitCanceled total) (.check outcome) (r.sendCanceled inner total)
  | failed {e : MeowError} {total : Nat} {settles : Bool} :
      Step r (.exitFailed e total settles) .tick (r.exitFailed inner e total settles)

end Steps

section StepCases

variable {inner : InnerTask} {r s : Run} {pc : Pc} {choice : Choice}

theorem stepPrepare_cases (taken : r.stepPrepare inner pc choice = some s) :
    Step inner r pc choice s := by
  rw [stepPrepare.eq_def] at taken
  split at taken
  · split at taken
    · rename_i seen
      cases taken
      exact .prepInterrupted seen (Or.inl rfl)
    · rename_i live
      cases taken
      exact .prepRequest (by simpa using live)
  · simp only [Option.map_eq_some_iff] at taken
    obtain ⟨call, called, rfl⟩ := taken
    split
    · rename_i v result
      exact .prepOk called result
    · rename_i e result
      exact .prepError called result
  · split at taken
    · rename_i seen
      cases taken
      exact .prepMasked seen.1 seen.2.1 seen.2.2
    · rename_i plain
      cases taken
      exact .prepUnmasked plain
  · dsimp only at taken
    split at taken
    · cases taken
      exact .prepGiveUp
    · rename_i again
      cases taken
      exact .prepDelay (fun required => again (Or.inl (Or.inl required))) (by omega)
  · simp only [Option.ite_none_right_eq_some, Option.some.injEq] at taken
    obtain ⟨seen, rfl⟩ := taken
    exact .prepInterrupted seen (Or.inr rfl)
  · cases taken
    exact .prepWake
  · cases taken

theorem stepSerial_cases (taken : r.stepSerial inner pc choice = some s) :
    Step inner r pc choice s := by
  rw [stepSerial.eq_def] at taken
  split at taken
  · split at taken
    · rename_i seen
      cases taken
      exact .serialInterrupted seen
    · rename_i live
      have live : r.token = false := by simpa using live
      split at taken
      · rename_i last
        cases taken
        exact .serialLast live last
      · rename_i more
        cases taken
        exact .serialNext live (by simpa using more)
  · cases taken
    exact .serialClaim
  · split at taken
    · cases taken
      exact .serialOutcome
    · cases taken
      exact .serialCancelled
    · cases taken
      exact .serialFailed
  · simp only [Option.map_eq_some_iff, Prod.exists] at taken
    obtain ⟨next, cell, moved, rfl⟩ := taken
    exact .serialRetry (Retry.step_cases moved)
  · cases taken
    exact .serialAck
  · cases taken
    exact .serialFinish
  · cases taken

theorem stepPart_eq_some {d next : Driver} {index : Nat} {partChoice : PartChoice}
    {cell : TaskCell} (taken : r.stepPart inner d index partChoice = some (next, cell)) :
    ∃ part after, d.parts[index]? = some part ∧ next = { d with parts := d.parts.set index after } ∧
      Part.Step inner d.window.total r.token r.cell partChoice part after cell := by
  simp only [stepPart, Option.bind_eq_some_iff, Option.map_eq_some_iff, Prod.exists,
    Prod.mk.injEq] at taken
  obtain ⟨part, here, after, cell, moved, rfl, rfl⟩ := taken
  exact ⟨part, after, here, rfl, Part.step_cases moved⟩

theorem takeSettled_eq_some {d rest : Driver} {index : Nat} {part : Part}
    (taken : takeSettled d index = some (part, rest)) :
    d.parts[index]? = some part ∧ part.settled = true ∧
      rest = { d with parts := d.parts.eraseIdx index } := by
  simp only [takeSettled, Option.bind_eq_some_iff, Option.ite_none_right_eq_some,
    Option.some.injEq, Prod.mk.injEq] at taken
  obtain ⟨part, here, settled, rfl, rfl⟩ := taken
  exact ⟨here, settled, rfl⟩

theorem stepParallel_cases (taken : r.stepParallel inner pc choice = some s) :
    Step inner r pc choice s := by
  rw [stepParallel.eq_def] at taken
  split at taken
  · split at taken
    · rename_i download
      cases taken
      exact .totalDownload download
    · rename_i upload
      cases taken
      exact .totalUpload upload
  · split at taken
    · cases taken
      exact .totalInvalid
    · cases taken
      exact .totalValid
  · simp only [Option.map_eq_some_iff, Prod.exists] at taken
    obtain ⟨next, cell, moved, rfl⟩ := taken
    obtain ⟨part, after, here, rfl, stepped⟩ := stepPart_eq_some moved
    exact .part here stepped
  · simp only [Option.map_eq_some_iff, Prod.exists] at taken
    obtain ⟨part, rest, joined, rfl⟩ := taken
    obtain ⟨here, settled, rfl⟩ := takeSettled_eq_some joined
    exact .joined here settled
  · simp only [Option.ite_none_right_eq_some, Option.some.injEq] at taken
    obtain ⟨empty, rfl⟩ := taken
    exact .drained empty
  · simp only [Option.map_eq_some_iff, Prod.exists] at taken
    obtain ⟨next, cell, moved, rfl⟩ := taken
    obtain ⟨part, after, here, rfl, stepped⟩ := stepPart_eq_some moved
    exact .panicPart here stepped
  · simp only [Option.map_eq_some_iff, Prod.exists] at taken
    obtain ⟨part, rest, joined, rfl⟩ := taken
    obtain ⟨here, settled, rfl⟩ := takeSettled_eq_some joined
    exact .panicJoined here settled
  · simp only [Option.ite_none_right_eq_some, Option.some.injEq] at taken
    obtain ⟨empty, rfl⟩ := taken
    exact .panicDrained empty
  · cases taken
    exact .barrier
  · cases taken
    exact .completeClaim
  · split at taken
    · rename_i upload _
      cases taken
      exact .completeInvalid upload
    · cases taken
      exact .completeRequest
  · cases taken
    exact .completeReturned
  · cases taken

theorem stepExit_cases (taken : r.stepExit inner pc choice = some s) :
    Step inner r pc choice s := by
  rw [stepExit.eq_def] at taken
  split at taken
  · split at taken
    · rename_i download
      cases taken
      exact .releaseFailed download
    · cases taken
      exact .released
  · split at taken
    · rename_i download
      cases taken
      exact .cleanupFailed download
    · cases taken
      exact .canceled
  · cases taken
    exact .failed
  · cases taken

theorem step_cases (taken : r.step inner choice = some s) : Step inner r r.pc choice s := by
  rw [step.eq_def] at taken
  split at taken
  all_goals first
    | exact stepPrepare_cases taken
    | exact stepSerial_cases taken
    | exact stepParallel_cases taken
    | exact stepExit_cases taken

end StepCases

end Run

end RustyCat
