import RustyCat.Error
import RustyCat.Lib.Interaction

/-!
# The source of a file upload

`upload_file.rs` and the upload half of `default_http_transfer_chunks.rs`.  Every
call into the file system, the shared handle slot or the upload protocol is a
call of a program, and its answer is open: between any two calls the file may be
written, truncated or replaced, and another part of the same task may run.

A read that is interrupted is issued again by its loop, so the answer of a read
here is the first one that is not an interruption.  Allocation failures, a
poisoned lock and a lost blocking worker only add failing branches and are left
out.  Hashers are kept as the bytes they were fed.
-/

namespace RustyCat

open Interaction Interaction.Attempt

namespace UploadFile

abbrev Handle := Nat

/-- What the source looks at in an `io::Error`. -/
inductive IoErrorKind where
  | notFound
  | unexpectedEof
  | invalidInput
  | diskFull
  | other
  deriving DecidableEq, Repr

/-- `MeowError::from_io` with `classify_io_error`. -/
def fromIo (context : String) : IoErrorKind → MeowError
  | .diskFull => .fromCode .diskFull context
  | .notFound => .fromCode .localFileRemoved context
  | .unexpectedEof | .invalidInput | .other => .fromCode .ioError context

structure FileGeneration where
  len : Nat
  readonly : Bool
  modified : Option Nat
  created : Option Nat
  dev : Nat
  ino : Nat
  mtimeNsec : Int
  ctime : Int
  ctimeNsec : Int
  deriving DecidableEq

structure Metadata where
  isFile : Bool
  generation : FileGeneration

/-- What the protocol answers to a prepare or a chunk. -/
structure UploadResumeInfo where
  completedFileId : Option String
  nextByte : Option Nat

inductive Op where
  /-- `File::open` on the path of the task -/
  | open
  /-- `File::metadata` -/
  | stat (file : Handle)
  /-- `std::fs::metadata` on the path of the task -/
  | statPath
  | readAt (file : Handle) (offset len : Nat)
  /-- Locks the slot and looks at its handle. -/
  | lock
  | unlock
  /-- Fills the locked slot and unlocks it. -/
  | publish (file : Handle) (generation : FileGeneration)
  /-- The two accepted generations of the slot. -/
  | accepted
  | acceptHandle (generation : FileGeneration)
  | acceptPath (generation : FileGeneration)
  /-- `require_upload_abort` -/
  | requireAbort
  /-- `begin_upload_abort` -/
  | beginAbort
  | abortUpload
  | prepare (localOffset : Nat)
  | uploadChunk (offset : Nat) (chunk : List UInt8)
  | completeUpload
  deriving DecidableEq

/-- A read returns at most as many bytes as it was asked for. -/
def Answer : Op → Type
  | .open => Except IoErrorKind Handle
  | .stat _ => Except IoErrorKind Metadata
  | .statPath => Except IoErrorKind FileGeneration
  | .readAt _ _ len => Except IoErrorKind { data : List UInt8 // data.length ≤ len }
  | .lock => Option Handle
  | .accepted => Option FileGeneration × Option FileGeneration
  | .beginAbort => Bool
  | .prepare _ | .uploadChunk _ _ => Except MeowError UploadResumeInfo
  | .completeUpload => Except MeowError (Option String)
  | .unlock | .publish _ _ | .acceptHandle _ | .acceptPath _ | .requireAbort | .abortUpload =>
    Unit

abbrev Task := Interaction.Attempt Op Answer MeowError

abbrev IoResult := Interaction.Attempt Op Answer IoErrorKind

def tell {ε : Type} (op : Op) : Interaction.Attempt Op Answer ε (Answer op) :=
  ask op Except.ok

/-- The first error of a call into the file system, with its context. -/
def failing {α : Type} (change : IoErrorKind → MeowError) (answer : Except IoErrorKind α) :
    Except MeowError α :=
  answer.mapError change

/-! ## Reading a file -/

def hashBufferBytes : Nat := 1024 * 1024

def maxUploadDigestBlocks : Nat := 1000000

/-- The loop of `read_exact_at`; every turn reads a byte at least, so `fuel` turns
are enough for `fuel` bytes. -/
def readLoop (file : Handle) (offset len : Nat) : Nat → List UInt8 → IoResult (List UInt8)
  | 0, filled => pure filled
  | fuel + 1, filled =>
    if filled.length < len then do
      let data ← ask (.readAt file (offset + filled.length) (len - filled.length)) id
      if data.val = [] then throw .unexpectedEof
      else readLoop file offset len fuel (filled ++ data.val)
    else pure filled

def readExactAt (file : Handle) (offset len : Nat) : IoResult (List UInt8) :=
  readLoop file offset len len []

section Scan

variable {Digest : Type} (sha256 : List UInt8 → Digest)

/-- The bytes of the block that is being hashed and the digests of the blocks before. -/
structure BlockHasher (Digest : Type) where
  block : List UInt8
  digests : List Digest

/-- The inner loop of `scan_file_at` over one buffer.  Every turn takes a byte. -/
def absorbBuffer (blockBytes : Nat) :
    Nat → BlockHasher Digest → List UInt8 → BlockHasher Digest
  | 0, hasher, _ => hasher
  | fuel + 1, hasher, data =>
    if data = [] then hasher
    else
      let take := min (blockBytes - hasher.block.length) data.length
      let block := hasher.block ++ data.take take
      let next : BlockHasher Digest :=
        if block.length = blockBytes then
          { block := [], digests := hasher.digests ++ [sha256 block] }
        else { block := block, digests := hasher.digests }
      absorbBuffer blockBytes fuel next (data.drop take)

structure ContentScan (Digest : Type) where
  sha256 : Digest
  blockSha256 : List Digest
  deriving DecidableEq

/-- The outer loop of `scan_file_at`, with everything read so far. -/
def scanLoop (file : Handle) (len blockBytes : Nat) :
    Nat → List UInt8 → BlockHasher Digest → IoResult (List UInt8 × BlockHasher Digest)
  | 0, full, hasher => pure (full, hasher)
  | fuel + 1, full, hasher =>
    if full.length < len then do
      let want := min (len - full.length) hashBufferBytes
      let buffer ← readExactAt file full.length want
      scanLoop file len blockBytes fuel (full ++ buffer)
        (absorbBuffer sha256 blockBytes buffer.length hasher buffer)
    else pure (full, hasher)

def scanFileAt (file : Handle) (len blockBytes : Nat) : IoResult (ContentScan Digest) :=
  if blockBytes = 0 ∨ blockBytes > hashBufferBytes then throw .invalidInput
  else if (len + blockBytes - 1) / blockBytes > maxUploadDigestBlocks then throw .invalidInput
  else do
    let (full, hasher) ← scanLoop sha256 file len blockBytes len [] { block := [], digests := [] }
    pure
      { sha256 := sha256 full
        blockSha256 :=
          if hasher.block = [] then hasher.digests
          else hasher.digests ++ [sha256 hasher.block] }

end Scan

structure ContentIdentity (Digest : Type) where
  sha256 : Digest
  verificationBlockBytes : Nat
  blockSha256 : List Digest

/-- The slot the parts of a task share. -/
structure UploadFileState where
  file : Option Handle
  acceptedHandleGeneration : Option FileGeneration
  acceptedPathGeneration : Option FileGeneration
  deriving DecidableEq

def UploadFileState.empty : UploadFileState where
  file := none
  acceptedHandleGeneration := none
  acceptedPathGeneration := none

/-- `UploadFileSnapshot` without the slot, which the parts share. -/
structure UploadFileSnapshot (Digest : Type) where
  path : String
  generation : FileGeneration
  content : ContentIdentity Digest

def sourceChangedError (path detail : String) : MeowError :=
  .fromCode .localFileRemoved s!"upload source changed: path={path} ({detail})"

def contentChangedError (path detail : String) : MeowError :=
  .fromCode .checksumMismatch s!"upload source content changed: path={path} ({detail})"

def mapSourceIoError (path context : String) (error : IoErrorKind) : MeowError :=
  if error = .unexpectedEof then
    sourceChangedError path s!"source truncated during I/O: {context}"
  else fromIo context error

def openError (missing : InnerErrorCode) (context : String) (error : IoErrorKind) : MeowError :=
  if error = .notFound then .fromCode missing context else .fromCode .ioError context

section Snapshot

variable {Digest : Type} [DecidableEq Digest] (sha256 : List UInt8 → Digest)

def ContentIdentity.matches (content : ContentIdentity Digest) (scan : ContentScan Digest) :
    Bool :=
  content.sha256 = scan.sha256 ∧ content.blockSha256 = scan.blockSha256

def scanFileStably (file : Handle) (len blockBytes : Nat) (path description : String) :
    Task (ContentScan Digest) := do
  let before ← ask (.stat file)
    (failing (fromIo s!"stat {description} upload source failed: {path}"))
  if before.generation.len ≠ len then
    throw (sourceChangedError path s!"{description} source length changed before content validation")
  else do
    let scan ← mapError
      (mapSourceIoError path s!"hash {description} upload source failed: {path}")
      (scanFileAt sha256 file len blockBytes)
    let after ← ask (.stat file)
      (failing (fromIo s!"re-stat {description} upload source failed: {path}"))
    if after.generation ≠ before.generation then
      throw (sourceChangedError path
        s!"{description} source metadata changed while validating content")
    else pure scan

def verifyVisiblePathContent (path : String) (expectedLen : Nat)
    (content : ContentIdentity Digest) (initialScan : Bool) : Task Unit := do
  let missing : InnerErrorCode := if initialScan then .fileNotFound else .localFileRemoved
  let file ← ask .open
    (failing (openError missing s!"open visible upload source failed: {path}"))
  let metadata ← ask (.stat file)
    (failing (fromIo s!"stat visible upload source failed: {path}"))
  if ¬ metadata.isFile then
    throw (sourceChangedError path "visible upload source is not a regular file")
  else if metadata.generation.len ≠ expectedLen then
    throw (sourceChangedError path
      s!"visible upload source length changed: expected={expectedLen} actual={metadata.generation.len}")
  else do
    let scan ← scanFileStably sha256 file expectedLen content.verificationBlockBytes path "visible"
    if ¬ content.matches scan then
      throw (contentChangedError path "visible upload source has different content")
    else pure ()

/-- `open_and_hash_blocking`: the initial scan of the file. -/
def openAndHashBlocking (path : String) (blockBytes : Nat) : Task (UploadFileSnapshot Digest) := do
  let file ← ask .open
    (failing (openError .fileNotFound s!"open upload source failed: {path}"))
  let before ← ask (.stat file) (failing (fromIo s!"stat upload source failed: {path}"))
  if ¬ before.isFile then
    throw (.fromCode .ioError s!"upload source is not a regular file: {path}")
  else do
    let scan ← mapError
      (mapSourceIoError path s!"calculate upload source signature failed: {path}")
      (scanFileAt sha256 file before.generation.len blockBytes)
    let after ← ask (.stat file)
      (failing (fromIo s!"re-stat upload source failed: {path}"))
    if after.generation ≠ before.generation then
      throw (sourceChangedError path "metadata changed while calculating signature")
    else do
      let content : ContentIdentity Digest :=
        { sha256 := scan.sha256
          verificationBlockBytes := blockBytes
          blockSha256 := scan.blockSha256 }
      let visible ← ask .statPath
        (failing (fromIo s!"stat upload source path failed: {path}"))
      if visible ≠ before.generation then
        verifyVisiblePathContent sha256 path before.generation.len content true
      else pure ()
      pure { path := path, generation := before.generation, content := content }

/-- The block size is the chunk size, within the buffer. -/
def openAndHash (path : String) (chunkSize : Nat) : Task (UploadFileSnapshot Digest) :=
  openAndHashBlocking sha256 path (min (max chunkSize 1) hashBufferBytes)

namespace UploadFileSnapshot

variable (snapshot : UploadFileSnapshot Digest)

def validateTotalSize (expectedLen : Nat) : Except MeowError Unit :=
  if snapshot.generation.len > expectedLen then
    .error (sourceChangedError snapshot.path
      s!"source grew since task construction: expected={expectedLen} actual={snapshot.generation.len}")
  else .ok ()

/-- What `opened_file_blocking` does when the slot is empty. -/
def reopen : Task (Handle × FileGeneration) := do
  let file ← ask .open
    (failing (openError .localFileRemoved s!"reopen upload source failed: {snapshot.path}"))
  let opened ← ask (.stat file)
    (failing (fromIo s!"stat reopened upload source failed: {snapshot.path}"))
  if ¬ opened.isFile ∨ opened.generation.len ≠ snapshot.generation.len then
    throw (sourceChangedError snapshot.path "reopened source length or type changed")
  else do
    let scan ← mapError
      (mapSourceIoError snapshot.path s!"re-hash reopened upload source failed: {snapshot.path}")
      (scanFileAt sha256 file snapshot.generation.len snapshot.content.verificationBlockBytes)
    let after ← ask (.stat file)
      (failing (fromIo s!"re-stat reopened upload source failed: {snapshot.path}"))
    if after.generation ≠ opened.generation then
      throw (sourceChangedError snapshot.path
        "metadata changed while re-hashing the reopened source")
    else if ¬ snapshot.content.matches scan then
      throw (contentChangedError snapshot.path
        "reopened source content no longer matches its SHA-256 identity")
    else pure (file, opened.generation)

def openedFileBlocking : Task Handle := do
  match ← tell .lock with
  | some file => do
    let _ ← tell .unlock
    pure file
  | none =>
    -- The guard is dropped on every way out.
    match ← ExceptT.lift (reopen sha256 snapshot).run with
    | .ok (file, generation) => do
      let _ ← tell (.publish file generation)
      pure file
    | .error error => do
      let _ ← tell .unlock
      throw error

/-- The loop of `read_verified_range_blocking` over the digest blocks. -/
def readBlocks (file : Handle) (offset len : Nat) :
    List Nat → List UInt8 → Task (List UInt8)
  | [], output => pure output
  | blockIndex :: rest, output => do
    let blockBytes := snapshot.content.verificationBlockBytes
    let blockStart := blockIndex * blockBytes
    let blockLen := min (snapshot.generation.len - blockStart) blockBytes
    let scratch ← mapError
      (mapSourceIoError snapshot.path
        s!"positioned upload read failed: path={snapshot.path} offset={offset} len={len}")
      (readExactAt file blockStart blockLen)
    match snapshot.content.blockSha256[blockIndex]? with
    | none =>
      throw (.fromCode .invalidTaskState "upload content identity is missing a digest block")
    | some expected =>
      if sha256 scratch ≠ expected then
        throw (contentChangedError snapshot.path
          s!"positioned read no longer matches digest block {blockIndex}")
      else
        let copyStart := max offset blockStart - blockStart
        let copyEnd := min (offset + len) (blockStart + blockLen) - blockStart
        readBlocks file offset len rest
          (output ++ (scratch.drop copyStart).take (copyEnd - copyStart))

def readVerifiedRangeBlocking (file : Handle) (offset len : Nat) : Task (List UInt8) :=
  if len = 0 then pure []
  else
    let blockBytes := snapshot.content.verificationBlockBytes
    let firstBlock := offset / blockBytes
    let lastBlock := (offset + len - 1) / blockBytes
    snapshot.readBlocks sha256 file offset len
      (List.range' firstBlock (lastBlock + 1 - firstBlock)) []

def readExactAt (offset len : Nat) : Task (List UInt8) :=
  if offset + len > snapshot.generation.len then
    throw (sourceChangedError snapshot.path
      s!"upload read exceeds hashed source generation: offset={offset} len={len} total={snapshot.generation.len}")
  else do
    let file ← snapshot.openedFileBlocking sha256
    snapshot.readVerifiedRangeBlocking sha256 file offset len

def visiblePathRequiresHash (verifyContent : Bool) (pathGeneration handleGeneration : FileGeneration)
    (acceptedPath : Option FileGeneration) : Bool :=
  verifyContent ∨ (pathGeneration ≠ handleGeneration ∧ acceptedPath ≠ some pathGeneration)

/-- The first half of `validate_generation_blocking`: the opened file. -/
def validateHandle (verifyContent : Bool) (file : Handle) (handleGeneration : FileGeneration)
    (acceptedHandle : Option FileGeneration) : Task Unit :=
  if verifyContent ∨ acceptedHandle ≠ some handleGeneration then do
    let current ← scanFileStably sha256 file snapshot.generation.len
      snapshot.content.verificationBlockBytes snapshot.path "opened"
    if ¬ snapshot.content.matches current then
      throw (contentChangedError snapshot.path
        (if verifyContent then "upload source content changed before completion"
        else "opened source content changed after its metadata changed"))
    else do
      let _ ← tell (.acceptHandle handleGeneration)
      pure ()
  else pure ()

/-- The second half: the visible path. -/
def validatePath (verifyContent : Bool) (handleGeneration pathGeneration : FileGeneration)
    (acceptedPath : Option FileGeneration) : Task Unit :=
  if visiblePathRequiresHash verifyContent pathGeneration handleGeneration acceptedPath then do
    verifyVisiblePathContent sha256 snapshot.path snapshot.generation.len snapshot.content false
    let _ ← tell (.acceptPath pathGeneration)
    pure ()
  else if pathGeneration = handleGeneration ∧ acceptedPath ≠ some pathGeneration then do
    let _ ← tell (.acceptPath pathGeneration)
    pure ()
  else pure ()

def validateGeneration (verifyContent : Bool) : Task Unit := do
  let file ← snapshot.openedFileBlocking sha256
  let handle ← ask (.stat file)
    (failing (fromIo s!"stat opened upload source failed: {snapshot.path}"))
  let pathGeneration ← ask .statPath (failing fun _ =>
    .fromCode .localFileRemoved s!"upload source path disappeared: {snapshot.path}")
  let (acceptedHandle, acceptedPath) ← tell .accepted
  snapshot.validateHandle sha256 verifyContent file handle.generation acceptedHandle
  snapshot.validatePath sha256 verifyContent handle.generation pathGeneration acceptedPath

end UploadFileSnapshot

end Snapshot

end UploadFile

end RustyCat
