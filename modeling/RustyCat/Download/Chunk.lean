import RustyCat.Download.Programs

/-!
# Downloading one part

`build_download_range_request`, `download_one_chunk` and
`download_one_chunk_part_positioned` of `default_http_transfer_chunks.rs`.  Hashers are
kept as the bytes they were fed.
-/

namespace RustyCat.Download

open Interaction Interaction.Attempt

open UploadFile (IoErrorKind fromIo)

structure ChunkOutcome where
  nextOffset : Nat
  totalSize : Nat
  done : Bool
  deriving DecidableEq

/-! ## The request -/

/-- The value of `expected_if_match_header` for a latched validator. -/
def expectedIfMatchHeader (latched : Option Text) : Except MeowError (Option HeaderValue) :=
  match latched with
  | none => .ok none
  | some validator =>
    match fromStr validator with
    | some value => .ok (some value)
    | none => .error (.fromCode .invalidRange
        "invalid stored download validator: failed to parse header value")

def ensureExpectedIfMatchPreserved (headers : HeaderMap) (expected : HeaderValue) :
    Except MeowError Unit :=
  if HeaderMap.getAll headers "if-match" = [expected] then .ok ()
  else .error (.fromCode .invalidRange
    "download protocol must preserve the executor-owned If-Match header exactly")

def rangeRequestBase (base : HeaderMap) (expectedIfMatch : Option HeaderValue) : HeaderMap :=
  match expectedIfMatch with
  | some value => HeaderMap.insert (setAcceptEncodingIdentity base) "if-match" value
  | none => setAcceptEncodingIdentity base

def checkRangeRequest (headers : HeaderMap) (expectedIfMatch : Option HeaderValue) :
    Except MeowError Unit := do
  match expectedIfMatch with
  | some expected => ensureExpectedIfMatchPreserved headers expected
  | none => .ok ()
  ensureAcceptEncodingIdentity headers "download Range request"

def buildDownloadRangeRequest (rangeValue : Text) (base : HeaderMap) :
    Action (String × HeaderMap) := do
  let latched ← tell .readLatch
  let expectedIfMatch ← known (expectedIfMatchHeader latched)
  let headers ← ask
    (.mergeRangeGetHeaders rangeValue (rangeRequestBase base expectedIfMatch)) id
  let rangeUrl ← tell .rangeUrl
  known (checkRangeRequest headers expectedIfMatch)
  pure (rangeUrl, headers)

/-- `insert_header`, which leaves an invalid value out. -/
def insertHeader (headers : HeaderMap) (name : String) (value : Text) : HeaderMap :=
  match fromStr value with
  | some bytes => HeaderMap.insert headers name bytes
  | none => headers

/-- The default `merge_range_get_headers` of `BreakpointDownload`. -/
def standardRangeGetHeaders (accept rangeValue : Text) (base : HeaderMap) : HeaderMap :=
  insertHeader (insertHeader base "range" rangeValue) "accept" accept

/-! ## The serial path -/

/-- `rollback_download_file`; its failures are only logged. -/
def rollbackDownloadFile (offset : Nat) : Action Unit := do
  let _ ← tell (.setLen offset)
  let _ ← tell (.seek offset)
  pure ()

def ensureDownloadFilePresent (task : DownloadTask) (expectedMinLen : Nat) : Action Unit := do
  let handleLen ← ask .handleLen
    (failing s!"stat opened download file failed: {task.filePath}")
  let visibleLen ← ask .pathLen
    (failing s!"download file missing during transfer: path={task.filePath}")
  if visibleLen ≥ expectedMinLen ∧ handleLen ≥ expectedMinLen then pure ()
  else throw (.fromCode .localFileRemoved
    (s!"download file truncated during transfer: path={task.filePath} " ++
      s!"expected_len>={expectedMinLen} visible_len={visibleLen} handle_len={handleLen}"))

/-- The loop over the body; `fed` is what was written so far. -/
def serialLoop (task : DownloadTask) (offset expectedLen : Nat) (failure : Option MeowError) :
    List (List UInt8) → List UInt8 → Action (List UInt8)
  | [], fed =>
    match failure with
    | some e => do
      if fed.length > 0 then rollbackDownloadFile offset else pure ()
      throw e
    | none => pure fed
  | chunk :: rest, fed =>
    if chunk.isEmpty then serialLoop task offset expectedLen failure rest fed
    else
      match Word.checkedAdd 64 fed.length chunk.length with
      | none => throw (.fromCode .invalidRange "range body length overflow")
      | some nextWritten =>
        if nextWritten > expectedLen then do
          rollbackDownloadFile offset
          throw (.fromCode .invalidRange
            (s!"download body length mismatch: expected {expectedLen}, " ++
              s!"got at least {nextWritten}"))
        else do
          let written : Except IoErrorKind Unit ← tell (.write chunk)
          match written with
          | .error e => do
            rollbackDownloadFile offset
            throw (fromIo s!"write download file failed: path={task.filePath}" e)
          | .ok _ => serialLoop task offset expectedLen failure rest (fed ++ chunk)

/-- The write of a whole body, under the lock of the handle slot; the bytes are returned for
their digest. -/
def serialWrite (task : DownloadTask) (offset expectedLen : Nat) (response : Response) :
    Action (List UInt8) := do
  ask (.seek offset)
    (failing s!"seek download file failed: offset={offset} path={task.filePath}")
  let fed ← serialLoop task offset expectedLen response.failure response.chunks []
  if fed.length = 0 then throw (.fromCode .invalidRange "download chunk empty body")
  else if fed.length ≠ expectedLen then do
    rollbackDownloadFile offset
    throw (.fromCode .invalidRange
      s!"download body length mismatch: expected {expectedLen}, got {fed.length}")
  else do
    let next ← known (match Word.checkedAdd 64 offset fed.length with
      | some next => .ok next
      | none => .error (.fromCode .invalidRange "download offset overflow"))
    let flushed : Except IoErrorKind Unit ← tell .flush
    match flushed with
    | .error e => do
      rollbackDownloadFile offset
      throw (fromIo s!"flush download file failed: path={task.filePath}" e)
    | .ok _ => do
      ensureDownloadFilePresent task next
      pure fed

/-- `download_one_chunk` from the response on. -/
def serialReceive (sha : List UInt8 → Digest) (task : DownloadTask) (part : RangePart)
    (response : Response) : Action ChunkOutcome := do
  let expectedLen ← known (serialHead part response)
  ask (.latch (downloadGenerationValidator response.headers)
    (part.total > part.chunkSize) "serial") id
  let fed ← withFile "locked download target missing during serial write"
    (serialWrite task part.offset expectedLen response)
  let next := part.offset + fed.length
  stageSerialDownloadPart part.offset (sha fed)
  if next ≥ part.total then finalizeDownloadContent task part.total else pure ()
  pure ⟨next, part.total, next ≥ part.total⟩

def downloadOneChunk (sha : List UInt8 → Digest) (task : DownloadTask) (part : RangePart) :
    Action ChunkOutcome :=
  if part.offset ≥ part.total then do
    finalizeDownloadContent task part.total
    pure ⟨part.offset, part.total, true⟩
  else do
    let alreadyDone : Bool ← tell (.isDone part.offset)
    if alreadyDone then do
      let next := min (Word.saturatingAdd 64 part.offset part.chunkSize) part.total
      if next ≥ part.total then finalizeDownloadContent task part.total else pure ()
      pure ⟨next, part.total, next ≥ part.total⟩
    else do
      let (rangeUrl, headers) ← buildDownloadRangeRequest (rangeSpec part) task.headers
      let response ← ask (.send rangeUrl headers) id
      serialReceive sha task part response

/-! ## The positioned path -/

/-- The loop over the body; `body` is what was received so far. -/
def positionedLoop (expectedLen : Nat) (failure : Option MeowError) :
    List (List UInt8) → List UInt8 → Except MeowError (List UInt8)
  | [], body =>
    match failure with
    | some e => .error e
    | none => .ok body
  | chunk :: rest, body =>
    if chunk.isEmpty then positionedLoop expectedLen failure rest body
    else
      match Word.checkedAdd 64 body.length chunk.length with
      | none => .error (.fromCode .invalidRange "range body length overflow")
      | some nextWritten =>
        if nextWritten > expectedLen then
          .error (.fromCode .invalidRange
            s!"range body too long: expected {expectedLen}, got >= {nextWritten}")
        else positionedLoop expectedLen failure rest (body ++ chunk)

/-- `download_one_chunk_part_positioned` from the response on. -/
def positionedReceive (sha : List UInt8 → Digest) (task : DownloadTask) (part : RangePart)
    (response : Response) : Action ChunkOutcome := do
  let expectedLen ← known (positionedHead part response)
  ask (.latch (downloadGenerationValidator response.headers)
    (part.total > part.chunkSize) "parallel") id
  let partEnd ← known (match Word.checkedAdd 64 part.offset expectedLen with
    | some partEnd => .ok partEnd
    | none => .error (.fromCode .invalidRange "download part end overflow"))
  let unreserved : Option String ← tell (.reserve expectedLen)
  match unreserved with
  | some error =>
    throw (.fromCode .ioError s!"cannot allocate parallel download part: {error}")
  | none => do
    let body ← known (positionedLoop expectedLen response.failure response.chunks [])
    if body.length ≠ expectedLen then
      throw (.fromCode .invalidRange
        s!"range body short: expected {expectedLen}, got {body.length}")
    else do
      writeAndStageDownloadPart task part.offset body (sha body)
      pure ⟨min partEnd part.total, part.total, partEnd ≥ part.total⟩

def downloadOneChunkPartPositioned (sha : List UInt8 → Digest) (task : DownloadTask)
    (part : RangePart) : Action ChunkOutcome :=
  if part.offset ≥ part.total then pure ⟨part.offset, part.total, true⟩
  else do
    let (rangeUrl, headers) ← buildDownloadRangeRequest (rangeSpec part) task.headers
    let response ← ask (.send rangeUrl headers) id
    positionedReceive sha task part response

end RustyCat.Download
