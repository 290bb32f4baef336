import RustyCat.UploadFile.Model

/-!
# The requests of a file upload

`upload_prepare_once`, `upload_one_chunk`, `upload_one_chunk_part` and `complete`
of the default transfer, for a task whose source is a file.
-/

namespace RustyCat

open Interaction Interaction.Attempt

namespace UploadFile

structure ChunkOutcome where
  nextOffset : Nat
  totalSize : Nat
  done : Bool
  completionPayload : Option String
  deriving DecidableEq

structure UploadTask (Digest : Type) where
  snapshot : UploadFileSnapshot Digest
  totalSize : Nat
  chunkSize : Nat

def validateSerialUploadAck (offset uploadedEnd total : Nat) (nextByte : Option Nat) :
    Except MeowError Nat :=
  let next := nextByte.getD uploadedEnd
  if next > total then
    .error (.fromCode .invalidRange
      s!"upload next offset exceeds total: next={next} total={total}")
  else if next ≤ offset then
    .error (.fromCode .invalidRange
      s!"upload next offset did not advance: offset={offset} next={next}")
  else if next > uploadedEnd then
    .error (.fromCode .invalidRange
      s!"upload next offset exceeds sent chunk: next={next} uploaded_end={uploadedEnd}")
  else .ok next

/-- Runs the program and asks for an abort if it fails. -/
def abortOnError {α : Type} (x : Task α) : Task α := do
  match ← ExceptT.lift x.run with
  | .ok value => pure value
  | .error error => do
    let _ ← tell .requireAbort
    throw error

namespace UploadTask

variable {Digest : Type} [DecidableEq Digest] (sha256 : List UInt8 → Digest)
  (task : UploadTask Digest)

def uploadPrepareOnce (localOffset : Nat) : Task Nat := do
  abortOnError do
    ExceptT.mk (pure (task.snapshot.validateTotalSize task.totalSize))
    task.snapshot.validateGeneration sha256 false
  let info ← ask (.prepare localOffset) id
  if info.completedFileId.isSome then pure task.totalSize
  else
    let serverOff := info.nextByte.getD 0
    if serverOff > task.totalSize then do
      let _ ← tell .requireAbort
      throw (.fromCode .invalidRange
        s!"upload prepare next offset exceeds total: next={serverOff} total={task.totalSize}")
    else pure (min (max localOffset serverOff) task.totalSize)

/-- `read_upload_chunk` for a file source. -/
def readUploadChunk (offset chunkSize : Nat) : Task (Option (List UInt8)) :=
  let readLen := min chunkSize (task.totalSize - offset)
  if offset ≥ task.totalSize ∨ readLen = 0 then pure none
  else do
    task.snapshot.validateGeneration sha256 false
    let chunk ← task.snapshot.readExactAt sha256 offset readLen
    pure (some chunk)

def validateBeforeLastPart (offset len : Nat) : Task Unit :=
  if offset + len ≥ task.totalSize then
    abortOnError (task.snapshot.validateGeneration sha256 true)
  else pure ()

/-- `upload_one_chunk_part`: one part of a parallel upload, which never finalizes. -/
def uploadOneChunkPart (offset : Nat) : Task ChunkOutcome := do
  match ← abortOnError (task.readUploadChunk sha256 offset task.chunkSize) with
  | none =>
    pure
      { nextOffset := offset
        totalSize := task.totalSize
        done := true
        completionPayload := none }
  | some chunk => do
    let info ← ask (.uploadChunk offset chunk) id
    let next := min (info.nextByte.getD (offset + chunk.length)) task.totalSize
    pure
      { nextOffset := next
        totalSize := task.totalSize
        done := next ≥ task.totalSize
        completionPayload := none }

/-- What `upload_one_chunk` does with the answer to its chunk. -/
def settleChunk (offset uploadedEnd : Nat) (info : UploadResumeInfo) : Task ChunkOutcome := do
  match info.completedFileId with
  | some id => do
    abortOnError (task.snapshot.validateGeneration sha256 true)
    pure
      { nextOffset := task.totalSize
        totalSize := task.totalSize
        done := true
        completionPayload := some id }
  | none => do
    let next ← abortOnError
      (ExceptT.mk (pure (validateSerialUploadAck offset uploadedEnd task.totalSize info.nextByte)))
    if next ≥ task.totalSize then do
      abortOnError (task.snapshot.validateGeneration sha256 true)
      let payload ← ask .completeUpload id
      pure
        { nextOffset := next
          totalSize := task.totalSize
          done := true
          completionPayload := payload }
    else
      pure
        { nextOffset := next
          totalSize := task.totalSize
          done := false
          completionPayload := none }

/-- `upload_one_chunk`: one chunk of a serial upload, and the end of the upload after
the last one. -/
def uploadOneChunk (offset : Nat) : Task ChunkOutcome := do
  match ← abortOnError (task.readUploadChunk sha256 offset task.chunkSize) with
  | none => do
    abortOnError (task.snapshot.validateGeneration sha256 true)
    pure
      { nextOffset := offset
        totalSize := task.totalSize
        done := true
        completionPayload := none }
  | some chunk => do
    task.validateBeforeLastPart sha256 offset chunk.length
    let info ← ask (.uploadChunk offset chunk) id
    task.settleChunk sha256 offset (offset + chunk.length) info

def complete : Task (Option String) := do
  match ← ExceptT.lift (task.snapshot.validateGeneration sha256 true).run with
  | .ok _ => ask .completeUpload id
  | .error error => do
    let first : Bool ← tell .beginAbort
    if first then do
      let _ ← tell .abortUpload
      throw error
    else throw error

end UploadTask

end UploadFile

end RustyCat
