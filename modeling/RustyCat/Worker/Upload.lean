import RustyCat.Task

/-!
# Upload requests

The upload side of `default_http_transfer.rs` and
`default_http_transfer_chunks.rs`: what the executor makes of the answers of a
breakpoint-upload protocol.  The answers, and the outcomes of the checks of the
local source, are parameters.  A call may ask for a later provider abort and
leaves notes of what the protocol said.
-/

namespace RustyCat

/-- The codes of errors of the local file, its checkpoint or its lock. -/
inductive LocalCode where
  | checksumMismatch
  | fileNotFound
  | invalidRange
  | invalidTaskState
  | ioError
  | localFileRemoved
  | lockPoisoned
  | diskFull
  deriving DecidableEq, Repr

def LocalCode.code : LocalCode → InnerErrorCode
  | checksumMismatch => .checksumMismatch
  | fileNotFound => .fileNotFound
  | invalidRange => .invalidRange
  | invalidTaskState => .invalidTaskState
  | ioError => .ioError
  | localFileRemoved => .localFileRemoved
  | lockPoisoned => .lockPoisoned
  | diskFull => .diskFull

structure LocalError where
  code : LocalCode
  msg : String
  deriving DecidableEq, Repr

def LocalError.error (e : LocalError) : MeowError := .fromCode e.code.code e.msg

structure UploadResumeInfo where
  completedFileId : Option String
  nextByte : Option Nat
  deriving DecidableEq, Repr

structure PrepareOutcome where
  nextOffset : Nat
  totalSize : Nat
  totalSize_le : totalSize ≤ u64Max

instance : DecidableEq PrepareOutcome := fun a b =>
  decidable_of_iff (a.nextOffset = b.nextOffset ∧ a.totalSize = b.totalSize)
    (by cases a; cases b; simp)

structure ChunkOutcome where
  nextOffset : Nat
  totalSize : Nat
  done : Bool
  completionPayload : Option String
  deriving DecidableEq, Repr

/-- The result of a call into the executor, whether it asked for an abort once the
worker is quiescent, and what the protocol said on the way. -/
structure Call (α : Type) where
  result : Except MeowError α
  abortRequired : Bool
  notes : List TaskEvent

namespace Call

variable {α β : Type}

def ok (a : α) : Call α := { result := .ok a, abortRequired := false, notes := [] }

def fail (e : MeowError) : Call α := { result := .error e, abortRequired := false, notes := [] }

/-- `require_upload_abort` and then the error. -/
def failAbort (e : MeowError) : Call α := { result := .error e, abortRequired := true, notes := [] }

def note (events : List TaskEvent) (c : Call α) : Call α := { c with notes := events ++ c.notes }

def andThen (c : Call α) (next : α → Call β) : Call β :=
  match c.result with
  | .error e => { result := .error e, abortRequired := c.abortRequired, notes := c.notes }
  | .ok a =>
    { result := (next a).result
      abortRequired := c.abortRequired || (next a).abortRequired
      notes := c.notes ++ (next a).notes }

end Call

/-- `completed_file_id = Some` is noted. -/
def UploadResumeInfo.notes (info : UploadResumeInfo) : List TaskEvent :=
  if info.completedFileId.isSome then [.completedFileId] else []

/-- `validate_generation` of the snapshot of a file source. -/
def validateGeneration (inner : InnerTask) (outcome : Option LocalError) : Call Unit :=
  match inner.uploadFileSnapshot, outcome with
  | some _, some e => .failAbort e.error
  | _, _ => .ok ()

def protocolCall (answer : Except MeowError UploadResumeInfo) : Call UploadResumeInfo :=
  match answer with
  | .error e => .fail e
  | .ok info => (Call.ok info).note info.notes

def completeUpload (answer : Except MeowError (Option String)) : Call (Option String) :=
  match answer with
  | .error e => (Call.fail e).note [.completeUpload false]
  | .ok payload => (Call.ok payload).note [.completeUpload true]

def uploadPrepareOnce (inner : InnerTask) (localOffset : Nat) (source : Option LocalError)
    (answer : Except MeowError UploadResumeInfo) : Call PrepareOutcome :=
  (validateGeneration inner source).andThen fun _ =>
  (protocolCall answer).andThen fun info =>
    let total := inner.totalSize
    if info.completedFileId.isSome then
      .ok { nextOffset := total, totalSize := total, totalSize_le := inner.totalSize_le }
    else
      let serverOff := info.nextByte.getD 0
      if serverOff > total then
        .failAbort (.fromCode .invalidRange
          s!"upload prepare next offset exceeds total: next={serverOff} total={total}")
      else
        .ok
          { nextOffset := min (max localOffset serverOff) total
            totalSize := total
            totalSize_le := inner.totalSize_le }

/-- The length of the chunk at `offset`, or `none` at or past the end. -/
def readUploadChunk (inner : InnerTask) (offset chunkSize : Nat) (source : Option LocalError) :
    Call (Option Nat) :=
  if offset ≥ inner.totalSize then .ok none
  else if min chunkSize (inner.totalSize - offset) = 0 then .ok none
  else
    match source with
    | some e => .failAbort e.error
    | none => .ok (some (min chunkSize (inner.totalSize - offset)))

/-- The server may acknowledge a prefix of the chunk that is not empty. -/
def validateSerialUploadAck (offset uploadedEnd total : Nat) (nextByte : Option Nat) :
    Except MeowError Nat :=
  let next := nextByte.getD uploadedEnd
  if next > total then
    .error (.fromCode .invalidRange
      s!"upload next offset exceeds total: next={next} total={total}")
  else if next ≤ offset then
    .error (.fromCode .invalidRange
      s!"upload next offset did not advance: offset={offset} next={next}")
  else if next > uploadedEnd then
    .error (.fromCode .invalidRange
      s!"upload next offset exceeds sent chunk: next={next} uploaded_end={uploadedEnd}")
  else .ok next

def validateSerialUploadBeforeLastPart (inner : InnerTask) (offset len : Nat)
    (outcome : Option LocalError) : Call Unit :=
  match Word.checkedAdd 64 offset len with
  | none => .fail (.fromCode .invalidRange "upload part end overflow")
  | some partEnd =>
    if partEnd ≥ inner.totalSize then validateGeneration inner outcome else .ok ()

/-- The outcomes of the checks and the answers of the protocol in one chunk call. -/
structure UploadAnswer where
  source : Option LocalError
  beforeLast : Option LocalError
  chunk : Except MeowError UploadResumeInfo
  afterTerminal : Option LocalError
  complete : Except MeowError (Option String)
  deriving DecidableEq

def uploadOneChunkPart (inner : InnerTask) (offset chunkSize : Nat) (answer : UploadAnswer) :
    Call ChunkOutcome :=
  let total := inner.totalSize
  (readUploadChunk inner offset chunkSize answer.source).andThen fun
  | none =>
    .ok { nextOffset := offset, totalSize := total, done := true, completionPayload := none }
  | some len =>
    match Word.checkedAdd 64 offset len with
    | none => .fail (.fromCode .invalidRange "upload part end overflow")
    | some uploadedEnd =>
      (protocolCall answer.chunk).andThen fun info =>
        let next := min (info.nextByte.getD uploadedEnd) total
        .ok
          { nextOffset := next
            totalSize := total
            done := next ≥ total
            completionPayload := none }

/-- The end of a serial chunk whose cursor was accepted: the last one finalizes. -/
def finishSerialChunk (total next : Nat) (answer : UploadAnswer) : Call ChunkOutcome :=
  if next ≥ total then
    (completeUpload answer.complete).andThen fun payload =>
      .ok { nextOffset := next, totalSize := total, done := true, completionPayload := payload }
  else .ok { nextOffset := next, totalSize := total, done := false, completionPayload := none }

/-- What follows the answer to a serial `upload_chunk`. -/
def settleSerialChunk (inner : InnerTask) (offset uploadedEnd : Nat) (info : UploadResumeInfo)
    (answer : UploadAnswer) : Call ChunkOutcome :=
  let total := inner.totalSize
  match info.completedFileId with
  | some id =>
    (validateGeneration inner answer.afterTerminal).andThen fun _ =>
      .ok { nextOffset := total, totalSize := total, done := true, completionPayload := some id }
  | none =>
    match validateSerialUploadAck offset uploadedEnd total info.nextByte with
    | .error e => .failAbort e
    | .ok next =>
      if next ≥ total then
        (validateGeneration inner answer.afterTerminal).andThen fun _ =>
          finishSerialChunk total next answer
      else finishSerialChunk total next answer

def uploadOneChunk (inner : InnerTask) (offset chunkSize : Nat) (answer : UploadAnswer) :
    Call ChunkOutcome :=
  let total := inner.totalSize
  (readUploadChunk inner offset chunkSize answer.source).andThen fun
  | none =>
    (validateGeneration inner answer.afterTerminal).andThen fun _ =>
      .ok { nextOffset := offset, totalSize := total, done := true, completionPayload := none }
  | some len =>
    (validateSerialUploadBeforeLastPart inner offset len answer.beforeLast).andThen fun _ =>
      match Word.checkedAdd 64 offset len with
      | none => .fail (.fromCode .invalidRange "upload chunk end overflow")
      | some uploadedEnd =>
        (protocolCall answer.chunk).andThen fun info =>
          settleSerialChunk inner offset uploadedEnd info answer

/-- What holds of every call into the executor: it leaves only notes of what the
protocol said, it asks for an abort only together with an error that ends the run,
and `TaskCanceled` is always an answer of the protocol. -/
structure Call.Sound {α : Type} (raised : List MeowError) (c : Call α) : Prop where
  noted : ∀ e ∈ c.notes, e.isAnswer = true
  aborts : c.abortRequired = true → ∃ e, c.result = .error e ∧ isPermanent e = true
  cancels : ∀ e, c.result = .error e → isTaskCanceled e = true → e ∈ raised

theorem Call.Sound.plain {α : Type} {raised : List MeowError} {c : Call α} (sound : c.Sound raised) :
    ∀ e ∈ c.notes, e.isNote = true :=
  fun e member => TaskEvent.isNote_of_isAnswer (sound.noted e member)

def errorOf {α : Type} : Except MeowError α → List MeowError
  | .error e => [e]
  | .ok _ => []

theorem mem_errorOf {α : Type} {answer : Except MeowError α} {e : MeowError} :
    e ∈ errorOf answer ↔ answer = .error e := by
  cases answer <;> simp [errorOf, eq_comm]

def UploadAnswer.raised (answer : UploadAnswer) : List MeowError :=
  errorOf answer.chunk ++ errorOf answer.complete

theorem LocalError.isPermanent_error (e : LocalError) : isPermanent e.error = true := by
  obtain ⟨code, msg⟩ := e
  cases code <;> rfl

section Sound

variable {α β : Type} {inner : InnerTask} {raised : List MeowError}

theorem Call.ok_sound (a : α) : (Call.ok a).Sound raised where
  noted := by simp [Call.ok]
  aborts := by simp [Call.ok]
  cancels := by simp [Call.ok]

theorem Call.fail_sound {e : MeowError} (said : isTaskCanceled e = true → e ∈ raised) :
    (Call.fail e : Call α).Sound raised where
  noted := by simp [Call.fail]
  aborts := by simp [Call.fail]
  cancels := by
    intro e' same canceled
    cases same
    exact said canceled

theorem Call.failAbort_sound {e : MeowError} (permanent : isPermanent e = true) :
    (Call.failAbort e : Call α).Sound raised where
  noted := by simp [Call.failAbort]
  aborts := fun _ => ⟨e, rfl, permanent⟩
  cancels := by
    intro e' same canceled
    cases same
    rw [not_isTaskCanceled_of_isPermanent permanent] at canceled
    cases canceled

theorem Call.note_sound {c : Call α} {events : List TaskEvent} (sound : c.Sound raised)
    (plain : ∀ e ∈ events, e.isAnswer = true) : (c.note events).Sound raised where
  noted := by
    intro e member
    rcases List.mem_append.mp member with here | here
    · exact plain e here
    · exact sound.noted e here
  aborts := sound.aborts
  cancels := sound.cancels

theorem Call.andThen_sound {c : Call α} {next : α → Call β} (first : c.Sound raised)
    (second : ∀ a, (next a).Sound raised) : (c.andThen next).Sound raised := by
  simp only [Call.andThen]
  split
  · rename_i e failed
    refine ⟨first.noted, fun required => ?_, fun e' same canceled => ?_⟩
    · obtain ⟨e', result, permanent⟩ := first.aborts required
      rw [failed] at result
      cases result
      exact ⟨e, rfl, permanent⟩
    · cases same
      exact first.cancels e failed canceled
  · rename_i a answered
    -- a call that answered has not asked for an abort
    have calm : c.abortRequired = false := by
      rw [← Bool.not_eq_true]
      intro required
      obtain ⟨e, result, _⟩ := first.aborts required
      rw [answered] at result
      cases result
    refine ⟨fun e member => ?_, fun required => ?_, (second a).cancels⟩
    · rcases List.mem_append.mp member with here | here
      · exact first.noted e here
      · exact (second a).noted e here
    · simp only [calm, Bool.false_or] at required
      exact (second a).aborts required

theorem validateGeneration_sound (outcome : Option LocalError) :
    (validateGeneration inner outcome).Sound raised := by
  simp only [validateGeneration]
  split
  · exact Call.failAbort_sound (LocalError.isPermanent_error _)
  · exact Call.ok_sound _

theorem protocolCall_sound {answer : Except MeowError UploadResumeInfo}
    (said : ∀ e, answer = .error e → e ∈ raised) : (protocolCall answer).Sound raised := by
  cases answer with
  | error e => exact Call.fail_sound fun _ => said e rfl
  | ok info =>
    refine Call.note_sound (Call.ok_sound _) fun e member => ?_
    simp only [UploadResumeInfo.notes] at member
    split at member
    · rw [List.mem_singleton.mp member]
      rfl
    · cases member

theorem completeUpload_sound {answer : Except MeowError (Option String)}
    (said : ∀ e, answer = .error e → e ∈ raised) : (completeUpload answer).Sound raised := by
  cases answer with
  | error e =>
    refine Call.note_sound (Call.fail_sound fun _ => said e rfl) fun e member => ?_
    rw [List.mem_singleton.mp member]
    rfl
  | ok payload =>
    refine Call.note_sound (Call.ok_sound _) fun e member => ?_
    rw [List.mem_singleton.mp member]
    rfl

theorem uploadPrepareOnce_sound (localOffset : Nat) (source : Option LocalError)
    (answer : Except MeowError UploadResumeInfo) :
    (uploadPrepareOnce inner localOffset source answer).Sound (errorOf answer) := by
  apply Call.andThen_sound (validateGeneration_sound _)
  intro _
  apply Call.andThen_sound (protocolCall_sound fun _ said => mem_errorOf.mpr said)
  intro info
  dsimp only
  split
  · exact Call.ok_sound _
  split
  · exact Call.failAbort_sound rfl
  · exact Call.ok_sound _

theorem readUploadChunk_sound (offset chunkSize : Nat) (source : Option LocalError) :
    (readUploadChunk inner offset chunkSize source).Sound raised := by
  simp only [readUploadChunk]
  split
  · exact Call.ok_sound _
  split
  · exact Call.ok_sound _
  split
  · exact Call.failAbort_sound (LocalError.isPermanent_error _)
  · exact Call.ok_sound _

theorem uploadOneChunkPart_sound (offset chunkSize : Nat) (answer : UploadAnswer) :
    (uploadOneChunkPart inner offset chunkSize answer).Sound answer.raised := by
  apply Call.andThen_sound (readUploadChunk_sound _ _ _)
  intro read
  split
  · exact Call.ok_sound _
  split
  · exact Call.fail_sound (by simp [isTaskCanceled, InnerErrorCode.asI32])
  apply Call.andThen_sound (protocolCall_sound fun _ said =>
  List.mem_append_left _ (mem_errorOf.mpr said))
  intro info
  exact Call.ok_sound _

theorem finishSerialChunk_sound (total next : Nat) (answer : UploadAnswer) :
    (finishSerialChunk total next answer).Sound answer.raised := by
  simp only [finishSerialChunk]
  split
  · apply Call.andThen_sound (completeUpload_sound fun _ said =>
      List.mem_append_right _ (mem_errorOf.mpr said))
    intro payload
    exact Call.ok_sound _
  · exact Call.ok_sound _

theorem validateSerialUploadAck_permanent {offset uploadedEnd total : Nat} {nextByte : Option Nat}
    {e : MeowError} (refused : validateSerialUploadAck offset uploadedEnd total nextByte = .error e) :
    isPermanent e = true := by
  simp only [validateSerialUploadAck] at refused
  split at refused
  · cases refused
    rfl
  · split at refused
    · cases refused
      rfl
    · split at refused
      · cases refused
        rfl
      · cases refused

theorem settleSerialChunk_sound (offset uploadedEnd : Nat) (info : UploadResumeInfo)
    (answer : UploadAnswer) :
    (settleSerialChunk inner offset uploadedEnd info answer).Sound answer.raised := by
  simp only [settleSerialChunk]
  split
  · exact Call.andThen_sound (validateGeneration_sound _) fun _ => Call.ok_sound _
  split
  · rename_i refused
    exact Call.failAbort_sound (validateSerialUploadAck_permanent refused)
  · split
    · exact Call.andThen_sound (validateGeneration_sound _)
        fun _ => finishSerialChunk_sound _ _ _
    · exact finishSerialChunk_sound _ _ _

theorem uploadOneChunk_sound (offset chunkSize : Nat) (answer : UploadAnswer) :
    (uploadOneChunk inner offset chunkSize answer).Sound answer.raised := by
  apply Call.andThen_sound (readUploadChunk_sound _ _ _)
  intro read
  split
  · exact Call.andThen_sound (validateGeneration_sound _) fun _ => Call.ok_sound _
  apply Call.andThen_sound
  · simp only [validateSerialUploadBeforeLastPart]
    split
    · exact Call.fail_sound (by simp [isTaskCanceled, InnerErrorCode.asI32])
    split
    · exact validateGeneration_sound _
    · exact Call.ok_sound _
  intro _
  split
  · exact Call.fail_sound (by simp [isTaskCanceled, InnerErrorCode.asI32])
  apply Call.andThen_sound (protocolCall_sound fun _ said =>
  List.mem_append_left _ (mem_errorOf.mpr said))
  intro info
  exact settleSerialChunk_sound _ _ _ _

end Sound

end RustyCat
