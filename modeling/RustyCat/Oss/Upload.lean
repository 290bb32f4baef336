import Mathlib.Logic.Function.Basic
import RustyCat.Oss.Listing

/-!
# OSS multipart uploads

The calls of `AliOssDirectUpload` in `aliyun-oss-direct/upload.rs` on the session it
keeps, and what the service on the other side does with the requests: it keeps, for
each upload id, the last body of each part number, and completing an upload
concatenates its parts by number.
-/

namespace RustyCat

structure MultipartSession where
  targetUrl : Option String
  uploadId : Option String
  deriving DecidableEq

/-- The id that a call for the URL would use without a request. -/
def MultipartSession.cached (s : MultipartSession) (url : String) : Option String :=
  if s.targetUrl = some url then s.uploadId else none

/-- What comes back for the requests of `prepare`. -/
structure OssPrepareAnswers where
  uploads : PageAnswers
  parts : PageAnswers
  initiate : Except MeowError String

namespace OssEnv

variable (env : OssEnv)

def initiateMultipartUpload (answer : Except MeowError String) : Except MeowError String :=
  match answer with
  | .error e => .error e
  | .ok body =>
    match extractXmlTag (env.parseDocument body) "UploadId" with
    | some uploadId => .ok uploadId
    | none =>
      .error (.fromCode .responseParseError
        s!"oss initiate multipart missing UploadId: {env.redactSecrets body}")

/-- The branch of `prepare` that looks for a session of an earlier process. -/
def adoptUploadId (task : UploadTask) (localOffset : Nat) (answers : OssPrepareAnswers) :
    Except MeowError String := do
  validateResumeOffset task localOffset
  match ← (env.tryAdoptUploadIdFromList task answers.uploads).2 with
  | some uploadId =>
    let uploadedParts ← (env.listUploadedParts answers.parts).2
    validateRemotePartsForResume task localOffset uploadedParts
    .ok uploadId
  | none =>
    .error (.fromCode .invalidTaskState
      "local offset > 0 but no OSS multipart session found; cannot safely resume")

/-- `prepare` where the session has no id for the task. -/
def openSession (task : UploadTask) (localOffset : Nat) (answers : OssPrepareAnswers) :
    Except MeowError String :=
  if localOffset > 0 then env.adoptUploadId task localOffset answers
  else env.initiateMultipartUpload answers.initiate

def prepare (task : UploadTask) (localOffset : Nat) (answers : OssPrepareAnswers)
    (session : MultipartSession) : MultipartSession × Except MeowError UploadResumeInfo :=
  match env.validateOssTask task with
  | .error e => (session, .error e)
  | .ok () =>
    match session.cached task.url with
    | some _ =>
      (session, do
        validateResumeOffset task localOffset
        .ok { completedFileId := none, nextByte := some localOffset })
    | none =>
      match env.openSession task localOffset answers with
      | .error e => ({ targetUrl := some task.url, uploadId := none }, .error e)
      | .ok uploadId =>
        ({ targetUrl := some task.url, uploadId := some uploadId },
          .ok { completedFileId := none, nextByte := some localOffset })

/-- Everything of `upload_chunk` before the request: the upload id and the part number. -/
def chunkRequest (task : UploadTask) (offset : Nat) (session : MultipartSession) :
    Except MeowError (String × Nat) := do
  env.validateOssTask task
  match session.uploadId with
  | none =>
    .error (.fromCode .invalidTaskState "multipart upload_id missing; call prepare first")
  | some uploadId =>
    let partNumber := offset / task.chunkSize + 1
    if partNumber > maxOssPartNumber then
      .error (.fromCode .invalidRange s!"partNumber out of range: {partNumber}")
    else .ok (uploadId, partNumber)

end OssEnv

/-- `upload_chunk` after a success status: the answer has to carry an ETag. -/
def chunkResponse (task : UploadTask) (offset : Nat) (etag : Option String) :
    Except MeowError UploadResumeInfo :=
  if etag.any fun value => trimText value ≠ "" then
    .ok { completedFileId := none, nextByte := some (offset + (task.chunkAt offset).length) }
  else
    .error (.fromCode .responseParseError "oss upload part success but missing ETag header")

/-! ## The service -/

/-- The service: the parts of the open uploads, in the order of their numbers, and the
objects. -/
structure OssServer where
  uploads : String → Option (List (Nat × Bytes))
  objects : String → Option Bytes
  ascending : ∀ uploadId parts, uploads uploadId = some parts → Sorted.Ascending Prod.fst parts

namespace OssServer

def setUpload (server : OssServer) (uploadId : String) (parts : Option (List (Nat × Bytes)))
    (ascending : ∀ kept, parts = some kept → Sorted.Ascending Prod.fst kept) : OssServer where
  uploads := Function.update server.uploads uploadId parts
  objects := server.objects
  ascending other kept known := by
    by_cases same : other = uploadId
    · subst same
      rw [Function.update_self] at known
      exact ascending kept known
    · rw [Function.update_of_ne same] at known
      exact server.ascending other kept known

def initiate (server : OssServer) (uploadId : String) : OssServer :=
  server.setUpload uploadId (some []) fun _ known => by cases known; exact .nil

/-- The service after a request to initiate an upload, if the request reached it. -/
def issue (server : OssServer) : Option String → OssServer
  | some uploadId => server.initiate uploadId
  | none => server

def putPart (server : OssServer) (uploadId : String) (partNumber : Nat) (body : Bytes) :
    Option OssServer :=
  match known : server.uploads uploadId with
  | none => none
  | some parts =>
    some (server.setUpload uploadId (some (Sorted.insert Prod.fst (partNumber, body) parts))
      fun _ same => by
        cases same
        exact Sorted.ascending_insert (server.ascending uploadId parts known) _)

def abort (server : OssServer) (uploadId : String) : OssServer :=
  server.setUpload uploadId none nofun

def completeAll (server : OssServer) (url uploadId : String) : Option OssServer :=
  (server.uploads uploadId).map fun parts =>
    { server.abort uploadId with
      objects := Function.update server.objects url (some (parts.flatMap Prod.snd)) }

end OssServer

structure OssState where
  session : MultipartSession
  server : OssServer

/-- What comes back during `prepare`, and the id that the service gives out if the
request to initiate an upload reaches it. -/
structure OssPrepareInput (env : OssEnv) where
  answers : OssPrepareAnswers
  issued : Option String
  issued_of_ok : ∀ uploadId,
    env.initiateMultipartUpload answers.initiate = .ok uploadId → issued = some uploadId

namespace OssEnv

variable (env : OssEnv)

def initiates (task : UploadTask) (localOffset : Nat) (session : MultipartSession) : Bool :=
  env.validateOssTask task = .ok () ∧ session.cached task.url = none ∧ localOffset = 0

def completeUpload (task : UploadTask) (fate : Delivery Unit) (s : OssState) :
    OssState × Except MeowError (Option String) :=
  match env.validateOssTask task with
  | .error e => (s, .error e)
  | .ok () =>
    match s.session.uploadId with
    | none => (s, .ok none)
    | some uploadId =>
      let (server, answer) := fate.deliver s.server (s.server.completeAll task.url uploadId)
      match answer with
      | .error e => ({ s with server := server }, .error e)
      | .ok () => ({ session := { s.session with uploadId := none }, server := server }, .ok none)

/-- A `404` counts as a success, so the service refuses nothing here. -/
def abortUpload (task : UploadTask) (fate : Delivery Unit) (s : OssState) :
    OssState × Except MeowError Unit :=
  match s.session.uploadId with
  | none => (s, .ok ())
  | some uploadId =>
    match env.checkTaskUrl task with
    | .error e => (s, .error e)
    | .ok () =>
      let server := if fate.reached then s.server.abort uploadId else s.server
      match fate.answer with
      | .error e => ({ s with server := server }, .error e)
      | .ok () => ({ session := { s.session with uploadId := none }, server := server }, .ok ())

/-- The calls on the session together with what they do to the service. -/
def protocol : UploadProtocol OssState UploadTask (OssPrepareInput env)
    (Delivery (Option String)) (Delivery Unit) (Delivery Unit) where
  totalSize := UploadTask.totalSize
  chunkSize := UploadTask.chunkSize
  prepare task localOffset input s :=
    let server :=
      if env.initiates task localOffset s.session then s.server.issue input.issued else s.server
    let (session, answer) := env.prepare task localOffset input.answers s.session
    ({ session := session, server := server }, answer)
  uploadChunk task offset fate s :=
    match env.chunkRequest task offset s.session with
    | .error e => (s, .error e)
    | .ok (uploadId, partNumber) =>
      let (server, answer) :=
        fate.deliver s.server (s.server.putPart uploadId partNumber (task.chunkAt offset))
      match answer with
      | .error e => ({ s with server := server }, .error e)
      | .ok etag => ({ s with server := server }, chunkResponse task offset etag)
  completeUpload := env.completeUpload
  abortUpload := env.abortUpload

end OssEnv

end RustyCat
