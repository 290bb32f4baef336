import Mathlib.Data.Finset.Insert
import Mathlib.Data.List.Sort
import RustyCat.Lib.Base64
import RustyCat.Provider.Body
import RustyCat.Provider.Xml

/-!
# Azure block uploads

`azure-blob-direct/upload.rs` and `azure-blob-direct/xml.rs`: the calls of
`AzureBlobDirectUpload` on the session it keeps, and the service, which keeps the last
body of each block id of a blob and puts the named blocks together on a block list.
-/

namespace RustyCat

open Function

def maxAzureBlocks : Nat := 50000

def maxAzureBlockBytes : Nat := 4000 * 1024 * 1024

def azureReservedQueryKeys : List String := ["comp", "blockid", "blocklisttype"]

structure AzureBlock where
  index : Nat
  size : Nat
  deriving DecidableEq

/-- The session; the blocks are a `BTreeSet`. -/
structure PutBlockSession where
  targetUrl : Option String
  uploadedBlocks : Finset Nat
  deriving DecidableEq

structure AzureEnv where
  parseUrl : String → Except String ProviderUrl
  parseDocument : String → XmlBody
  sanitizeUrl : String → String

/-! ## Block ids -/

/-- The bytes of `format!("\x7bidx:08\x7d")`. -/
def eightDigits (index : Nat) : List UInt8 :=
  ((Nat.toDigits 10 index).leftpad 8 '0').map fun c => UInt8.ofNat c.toNat

def blockIdByIndex (index : Nat) : String := String.ofList (Base64.encode (eightDigits index))

def parseCanonicalBlockIndex (encoded : String) : Except String Nat :=
  match Base64.decode encoded.toList with
  | none => .error "Azure block id is not valid base64"
  | some raw =>
    if Base64.encode raw ≠ encoded.toList then .error "Azure block id is not canonical base64"
    else
      match fromUtf8 raw with
      | none => .error "Azure block id is not UTF-8"
      | some decoded =>
        if raw.length ≠ 8 ∨ ¬ raw.all fun byte => 48 ≤ byte ∧ byte ≤ 57 then
          .error "Azure block id is not an eight-digit decimal index"
        else
          match parseU64 decoded with
          | none => .error "Azure block index overflow"
          | some index =>
            if eightDigits index ≠ raw then .error "Azure block id is not canonical" else .ok index

/-! ## The block listing -/

def blockEntry (block : XmlElement) : Except String AzureBlock := do
  let encoded ← block.exactlyOneNonemptyText "Name"
  let index ← parseCanonicalBlockIndex encoded
  match parseU64 (← block.exactlyOneNonemptyText "Size") with
  | none => .error "invalid Azure block Size"
  | some size =>
    if size = 0 then .error "Azure block size must be non-zero"
    else .ok { index := index, size := size }

def listingBlocks : List Nat → List XmlElement → Except String (List AzureBlock)
  | _, [] => .ok []
  | seen, block :: rest => do
    let entry ← blockEntry block
    if entry.index ∈ seen then .error "duplicate Azure block id"
    else return entry :: (← listingBlocks (entry.index :: seen) rest)

def parseBlockEntriesFromBlockList (xml : XmlBody) : Except String (List AzureBlock) := do
  let root ← XmlElement.documentRoot (← xml) "BlockList"
  match ← root.childElements "UncommittedBlocks" 2 with
  | [] => .ok []
  | [uncommitted] =>
    let blocks ← uncommitted.childElements "Block" maxAzureBlocks
    return (← listingBlocks [] blocks).insertionSort fun a b => a.index ≤ b.index
  | _ => .error "duplicate UncommittedBlocks section"

/-! ## The checks -/

namespace AzureEnv

variable (env : AzureEnv)

def validateAzureTask (task : UploadTask) : Except MeowError Unit :=
  match env.parseUrl task.url with
  | .error text => .error (.fromCode .parameterEmpty s!"invalid azure blob URL: {text}")
  | .ok url => do
    rejectReservedQueryKeys url azureReservedQueryKeys "Azure Blob"
    if task.chunkSize > maxAzureBlockBytes then
      .error (.fromCode .invalidRange
        s!"Azure block size {task.chunkSize} exceeds max {maxAzureBlockBytes}")
    else if task.totalChunks > maxAzureBlocks then
      .error (.fromCode .invalidRange
        (s!"Azure block blob supports at most {maxAzureBlocks} blocks; " ++
          s!"task requires {task.totalChunks}"))
    else .ok ()

def checkAbortUrl (task : UploadTask) : Except MeowError Unit :=
  match env.parseUrl task.url with
  | .error text =>
    .error (.fromCode .parameterEmpty
      s!"invalid azure blob url: {env.sanitizeUrl task.url} ({text})")
  | .ok url => rejectReservedQueryKeys url azureReservedQueryKeys "Azure Blob"

/-- `list_uncommitted_blocks`; a `404` comes back without a body. -/
def listUncommittedBlocks (answer : Except MeowError (Option String)) :
    Except MeowError (List AzureBlock) :=
  match answer with
  | .error e => .error e
  | .ok none => .ok []
  | .ok (some body) =>
    match parseBlockEntriesFromBlockList (env.parseDocument body) with
    | .error reason =>
      .error (.fromCode .responseParseError s!"azure list block list XML rejected: {reason}")
    | .ok blocks => .ok blocks

end AzureEnv

def validateAzureResumeOffset (task : UploadTask) (localOffset : Nat) : Except MeowError Unit :=
  resumeOffsetCheck "Azure block upload" task localOffset

def expectedBlockSize (totalSize chunkSize blockIndex : Nat) : Except MeowError Nat :=
  expectedSize "Azure block" totalSize chunkSize blockIndex

def validateAllBlocksPresent (expectedBlocks : Nat) (uploadedBlocks : Finset Nat) :
    Except MeowError Unit :=
  (List.range expectedBlocks).forM fun index =>
    if index ∉ uploadedBlocks then
      .error (.fromCode .invalidTaskState
        s!"remote Azure block list is missing block index {index}")
    else .ok ()

def validateRemoteBlocksForResume (task : UploadTask) (localOffset : Nat)
    (uploadedBlocks : Finset Nat) : Except MeowError Unit :=
  validateAllBlocksPresent
    (if localOffset = task.totalSize then task.totalChunks else localOffset / task.chunkSize)
    uploadedBlocks

def validateRemoteBlock (task : UploadTask) (block : AzureBlock) : Except MeowError Unit :=
  if block.index ≥ task.totalChunks then
    .error (.fromCode .invalidTaskState
      (s!"remote Azure block index {block.index} is outside the task plan of " ++
        s!"{task.totalChunks} blocks"))
  else do
    let expectedSize ← expectedBlockSize task.totalSize task.chunkSize block.index
    if block.size ≠ expectedSize then
      .error (.fromCode .invalidTaskState
        s!"remote Azure block {block.index} has size {block.size}, expected {expectedSize}")
    else .ok ()

def blockIndices (blocks : List AzureBlock) : Finset Nat := (blocks.map AzureBlock.index).toFinset

def validateRemoteBlockEntries (task : UploadTask) (localOffset : Nat)
    (blocks : List AzureBlock) : Except MeowError Unit := do
  blocks.forM (validateRemoteBlock task)
  validateRemoteBlocksForResume task localOffset (blockIndices blocks)

/-! ## The calls -/

namespace AzureEnv

variable (env : AzureEnv)

def retarget (task : UploadTask) (session : PutBlockSession) : PutBlockSession :=
  if session.targetUrl = some task.url then session
  else { targetUrl := some task.url, uploadedBlocks := ∅ }

/-- The branch of `prepare` that asks for the uncommitted blocks. -/
def resumeFromListing (task : UploadTask) (localOffset : Nat)
    (listing : Except MeowError (Option String)) (session : PutBlockSession) :
    PutBlockSession × Except MeowError Unit :=
  match env.listUncommittedBlocks listing with
  | .error e => (session, .error e)
  | .ok blocks =>
    match validateRemoteBlockEntries task localOffset blocks with
    | .error e => (session, .error e)
    | .ok () =>
      let uploadedBlocks := session.uploadedBlocks ∪ blockIndices blocks
      ({ session with uploadedBlocks := uploadedBlocks },
        validateRemoteBlocksForResume task localOffset uploadedBlocks)

/-- `prepare` after the checks of the task, at an offset that is not zero. -/
def resume (task : UploadTask) (localOffset : Nat)
    (listing : Except MeowError (Option String)) (session : PutBlockSession) :
    PutBlockSession × Except MeowError Unit :=
  match validateAzureResumeOffset task localOffset with
  | .error e => (session, .error e)
  | .ok () =>
    if session.uploadedBlocks ≠ ∅ then
      (session, validateRemoteBlocksForResume task localOffset session.uploadedBlocks)
    else env.resumeFromListing task localOffset listing session

def prepare (task : UploadTask) (localOffset : Nat) (listing : Except MeowError (Option String))
    (session : PutBlockSession) : PutBlockSession × Except MeowError UploadResumeInfo :=
  match env.validateAzureTask task with
  | .error e => (session, .error e)
  | .ok () =>
    if localOffset = 0 then
      ({ retarget task session with uploadedBlocks := ∅ },
        .ok { completedFileId := none, nextByte := some 0 })
    else
      let (session, answer) := env.resume task localOffset listing (retarget task session)
      (session, answer.map fun _ => { completedFileId := none, nextByte := some localOffset })

def chunkIndex (task : UploadTask) (offset : Nat) : Except MeowError Nat := do
  env.validateAzureTask task
  let length := (task.chunkAt offset).length
  if length > maxAzureBlockBytes then
    .error (.fromCode .invalidRange s!"Azure block size {length} exceeds max {maxAzureBlockBytes}")
  else
    let index := offset / task.chunkSize
    if index ≥ maxAzureBlocks then
      .error (.fromCode .invalidRange
        s!"Azure block index {index} exceeds max index {maxAzureBlocks - 1}")
    else .ok index

/-- Everything of `complete_upload` before the request: the block list. -/
def blockList (task : UploadTask) (session : PutBlockSession) : Except MeowError (List String) := do
  env.validateAzureTask task
  validateAllBlocksPresent task.totalChunks session.uploadedBlocks
  .ok ((List.range task.totalChunks).map blockIdByIndex)

end AzureEnv

/-! ## The service -/

structure AzureServer where
  /-- The last body of each block id of a blob. -/
  blocks : String → String → Option Bytes
  blobs : String → Option Bytes

namespace AzureServer

def putBlock (server : AzureServer) (url blockId : String) (body : Bytes) : AzureServer :=
  { server with
    blocks := update server.blocks url
      (update (server.blocks url) blockId (some body)) }

/-- A list that names an unknown block is refused. -/
def putBlockList (server : AzureServer) (url : String) (blockIds : List String) :
    Option AzureServer :=
  (blockIds.mapM (server.blocks url)).map fun bodies =>
    { server with blobs := update server.blobs url (some bodies.flatten) }

def deleteBlob (server : AzureServer) (url : String) : AzureServer where
  blocks := update server.blocks url fun _ => none
  blobs := update server.blobs url none

end AzureServer

structure AzureTask extends UploadTask where
  taskId : Nat

/-- What is known of a block: a task put it, or the listing for a task reported it. -/
inductive BlockEvidence where
  | put (taskId index : Nat)
  | reported (taskId index size : Nat)
  deriving DecidableEq

/-- The session of an instance, the service, and a record of what is known of blocks. -/
structure AzureState where
  session : PutBlockSession
  server : AzureServer
  evidence : List BlockEvidence

namespace AzureEnv

variable (env : AzureEnv)

def asks (task : UploadTask) (localOffset : Nat) (session : PutBlockSession) : Bool :=
  env.validateAzureTask task = .ok () ∧ localOffset ≠ 0 ∧
    validateAzureResumeOffset task localOffset = .ok () ∧ (retarget task session).uploadedBlocks = ∅

def reports (task : AzureTask) (listing : Except MeowError (Option String)) : List BlockEvidence :=
  match env.listUncommittedBlocks listing with
  | .error _ => []
  | .ok blocks => blocks.map fun block => .reported task.taskId block.index block.size

def uploadChunk (task : AzureTask) (offset : Nat) (fate : Delivery Unit) (s : AzureState) :
    AzureState × Except MeowError UploadResumeInfo :=
  match env.chunkIndex task.toUploadTask offset with
  | .error e => (s, .error e)
  | .ok index =>
    let body := task.chunkAt offset
    let (server, answer) := fate.deliver s.server
      (some (s.server.putBlock task.url (blockIdByIndex index) body))
    match answer with
    | .error e => ({ s with server := server }, .error e)
    | .ok () =>
      ({ session := { s.session with uploadedBlocks := insert index s.session.uploadedBlocks }
         server := server
         evidence := .put task.taskId index :: s.evidence },
        .ok { completedFileId := none, nextByte := some (offset + body.length) })

def completeUpload (task : AzureTask) (fate : Delivery Unit) (s : AzureState) :
    AzureState × Except MeowError (Option String) :=
  match env.blockList task.toUploadTask s.session with
  | .error e => (s, .error e)
  | .ok blockIds =>
    let (server, answer) := fate.deliver s.server (s.server.putBlockList task.url blockIds)
    match answer with
    | .error e => ({ s with server := server }, .error e)
    | .ok () =>
      ({ s with session := { s.session with uploadedBlocks := ∅ }, server := server }, .ok none)

/-- A `404` counts as a success. -/
def abortUpload (task : AzureTask) (fate : Delivery Unit) (s : AzureState) :
    AzureState × Except MeowError Unit :=
  match env.checkAbortUrl task.toUploadTask with
  | .error e => (s, .error e)
  | .ok () =>
    let (server, answer) := fate.deliver s.server (some (s.server.deleteBlob task.url))
    match answer with
    | .error e => ({ s with server := server }, .error e)
    | .ok () =>
      ({ s with session := { s.session with uploadedBlocks := ∅ }, server := server }, .ok ())

/-- The calls on the session together with what they do to the service. -/
def protocol : UploadProtocol AzureState AzureTask (Except MeowError (Option String))
    (Delivery Unit) (Delivery Unit) (Delivery Unit) where
  totalSize task := task.totalSize
  chunkSize task := task.chunkSize
  prepare task localOffset listing s :=
    let (session, answer) := env.prepare task.toUploadTask localOffset listing s.session
    let reported :=
      if env.asks task.toUploadTask localOffset s.session then env.reports task listing else []
    ({ s with session := session, evidence := reported ++ s.evidence }, answer)
  uploadChunk := env.uploadChunk
  completeUpload := env.completeUpload
  abortUpload := env.abortUpload

end AzureEnv

end RustyCat
