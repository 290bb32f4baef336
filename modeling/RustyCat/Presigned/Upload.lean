import Mathlib.Data.List.Destutter
import Mathlib.Data.List.Sort
import RustyCat.Lib.Sorted
import RustyCat.Provider.Drive

/-!
# Presigned multipart uploads

`multipart_upload_plan.rs` and `multipart_upload.rs`: the upload plan, the parts a
previous process left, and the protocol that uploads the parts of the plan.  The
clock, the URL refresher and the network are parameters of the calls.
-/

namespace RustyCat

structure PresignedUploadPart where
  partNumber : Nat
  offset : Nat
  size : Nat
  providerPartId : Option String
  expiresAtUnixSecs : Option Nat
  deriving DecidableEq

structure PresignedUploadedPart where
  partNumber : Nat
  providerPartId : Option String
  offset : Nat
  size : Nat
  etag : Option String
  deriving DecidableEq

structure CompletionRequest where
  body : Option String

structure PresignedMultipartUploadPlan where
  totalSize : Nat
  chunkSize : Nat
  parts : List PresignedUploadPart
  uploadId : Option String
  completeRequest : Option CompletionRequest
  abortRequest : Option CompletionRequest
  completeBodyBuilder : Option (List PresignedUploadedPart → Except MeowError String)
  refreshBeforeSecs : Nat

namespace PresignedMultipartUploadPlan

variable (plan : PresignedMultipartUploadPlan)

/-- The checks of the parts; `offsets` are those of the parts before. -/
def validateParts (totalSize : Nat) :
    List Nat → List PresignedUploadPart → Except MeowError Unit
  | _, [] => .ok ()
  | offsets, part :: rest =>
    if part.size = 0 then
      .error (.fromCode .invalidRange s!"presigned part {part.partNumber} has zero size")
    else
      match Word.checkedAdd 64 part.offset part.size with
      | none =>
        .error (.fromCode .invalidRange s!"presigned part {part.partNumber} range overflow")
      | some partEnd =>
        if partEnd > totalSize then
          .error (.fromCode .invalidRange
            s!"presigned part {part.partNumber} out of range: end={partEnd} total={totalSize}")
        else if part.offset ∈ offsets then
          .error (.fromCode .invalidRange s!"duplicate presigned part offset: {part.offset}")
        else validateParts totalSize (part.offset :: offsets) rest

def validate : Except MeowError Unit :=
  if plan.chunkSize = 0 then
    .error (.fromCode .parameterEmpty "presigned plan chunk_size must be greater than zero")
  else if plan.totalSize > 0 ∧ plan.parts = [] then
    .error (.fromCode .parameterEmpty
      "presigned plan parts must not be empty for non-empty upload")
  else validateParts plan.totalSize [] plan.parts

def partForOffset (offset : Nat) : Option PresignedUploadPart :=
  plan.parts.find? (·.offset = offset)

end PresignedMultipartUploadPlan

/-- A protocol instance without its uploaded parts, which are its state. -/
structure PresignedMultipartUpload where
  plan : PresignedMultipartUploadPlan
  resumedPartsError : Option MeowError
  urlRefresher : Bool

/-- The uploaded parts, and as a ghost every successful upload, oldest first. -/
structure PresignedState where
  uploadedParts : List PresignedUploadedPart
  uploads : List PresignedUploadedPart
  deriving DecidableEq

namespace PresignedMultipartUpload

variable (u : PresignedMultipartUpload)

def validateResumedPart (part : PresignedUploadedPart) : Except MeowError Unit :=
  match u.plan.partForOffset part.offset with
  | none =>
    .error (.fromCode .invalidTaskState
      s!"resumed presigned part is outside the plan: part={part.partNumber} offset={part.offset}")
  | some planPart =>
    if part.partNumber ≠ planPart.partNumber ∨ part.size ≠ planPart.size then
      .error (.fromCode .invalidTaskState
        s!"resumed presigned part does not match plan identity at offset {part.offset}")
    else if planPart.providerPartId.isSome ∧ part.providerPartId ≠ planPart.providerPartId then
      .error (.fromCode .invalidTaskState
        s!"resumed presigned part does not match bound provider identity at offset {part.offset}")
    else
      match Word.checkedAdd 64 part.offset part.size with
      | none =>
        .error (.fromCode .invalidTaskState
          s!"resumed presigned part range overflow at offset {part.offset}")
      | some _ => .ok ()

def insertByOffset (part : PresignedUploadedPart) (parts : List PresignedUploadedPart) :
    List PresignedUploadedPart :=
  Sorted.insert PresignedUploadedPart.offset part parts

/-- The first thing wrong with a resumed part. -/
def resumedPartError (byOffset : List PresignedUploadedPart) (part : PresignedUploadedPart) :
    Option MeowError :=
  match u.validateResumedPart part with
  | .error e => some e
  | .ok _ =>
    match byOffset.find? (·.offset = part.offset) with
    | some existing =>
      if existing ≠ part then
        some (.fromCode .invalidTaskState
          s!"conflicting resumed presigned parts for offset {part.offset}")
      else none
    | none => none

/-- `with_resumed_parts`: the instance with its verdict, and the parts by offset. -/
def withResumedParts (parts : List PresignedUploadedPart) :
    PresignedMultipartUpload × List PresignedUploadedPart :=
  let (error, byOffset) := parts.foldl
    (fun (error, byOffset) part =>
      (error.or (u.resumedPartError byOffset part), insertByOffset part byOffset))
    (none, [])
  ({ u with resumedPartsError := error }, byOffset)

/-- The loop of `resumed_offset_from` over the sorted parts. -/
def resumedLoop (running : Nat) : List PresignedUploadedPart → Nat
  | [] => running
  | part :: rest =>
    if part.offset ≠ running then running
    else
      match u.validateResumedPart part, Word.checkedAdd 64 running part.size with
      | .ok _, some next => resumedLoop next rest
      | _, _ => running

def sortByOffset (parts : List PresignedUploadedPart) : List PresignedUploadedPart :=
  parts.insertionSort fun a b => a.offset ≤ b.offset

def resumedOffsetFrom (parts : List PresignedUploadedPart) : Nat :=
  u.resumedLoop 0 (sortByOffset parts)

def validateUploaded : List PresignedUploadedPart → Except MeowError Unit
  | [] => .ok ()
  | part :: rest =>
    match u.validateResumedPart part with
    | .error e => .error e
    | .ok _ => validateUploaded rest

def prepare (task : UploadTask) (localOffset : Nat) (s : PresignedState) :
    PresignedState × Except MeowError UploadResumeInfo :=
  match u.plan.validate, u.resumedPartsError with
  | .error e, _ => (s, .error e)
  | .ok _, some e => (s, .error e)
  | .ok _, none =>
    if u.plan.totalSize ≠ task.totalSize then
      (s, .error (.fromCode .invalidTaskState
        s!"presigned plan total_size mismatch: plan={u.plan.totalSize} task={task.totalSize}"))
    else if u.plan.chunkSize ≠ task.chunkSize then
      (s, .error (.fromCode .invalidTaskState
        s!"presigned plan chunk_size mismatch: plan={u.plan.chunkSize} task={task.chunkSize}"))
    else
      match u.validateUploaded s.uploadedParts with
      | .error e => (s, .error e)
      | .ok _ =>
        let parts := sortByOffset s.uploadedParts
        let resumed := u.resumedOffsetFrom parts
        ({ s with uploadedParts := parts.filter (·.offset < resumed) },
          .ok { completedFileId := none, nextByte := some (max localOffset resumed) })

end PresignedMultipartUpload

/-- A response of the provider; `status` and `body` are also kept as they are printed. -/
structure HttpResponse where
  status : Nat
  statusText : String
  body : String
  etag : Option String
  deriving DecidableEq

def HttpResponse.isSuccess (r : HttpResponse) : Bool := 200 ≤ r.status ∧ r.status < 300

/-- What comes back while a part is uploaded: the clock as it is read for the
refresh and for the expiry, the refreshed part, whether a stop is requested then,
and the response. -/
structure PresignedChunkInput where
  refreshClock : Except MeowError Nat
  expiryClock : Except MeowError Nat
  refreshed : Except MeowError PresignedUploadPart
  stopRequested : Bool
  response : Except MeowError HttpResponse
  deriving DecidableEq

namespace PresignedMultipartUpload

variable (u : PresignedMultipartUpload)

def isExpired (clock : Except MeowError Nat) (part : PresignedUploadPart) :
    Except MeowError Bool :=
  match part.expiresAtUnixSecs with
  | none => .ok false
  | some expiresAt => clock.map fun now => decide (now ≥ expiresAt)

def shouldRefreshPart (clock : Except MeowError Nat) (part : PresignedUploadPart) :
    Except MeowError Bool :=
  match part.expiresAtUnixSecs with
  | none => .ok false
  | some expiresAt => clock.map fun now =>
      decide (Word.saturatingAdd 64 now u.plan.refreshBeforeSecs ≥ expiresAt)

/-- A part whose URL is about to expire, without a refresher. -/
def unrefreshedPart (part : PresignedUploadPart) (input : PresignedChunkInput) :
    Except MeowError PresignedUploadPart :=
  match isExpired input.expiryClock part with
  | .error e => .error e
  | .ok true =>
    .error (.fromCode .invalidTaskState
      s!"presigned upload part {part.partNumber} URL expired and no refresher is configured")
  | .ok false => .ok part

/-- The refresher may change the URL of a part and nothing else. -/
def refreshedPart (part : PresignedUploadPart) (input : PresignedChunkInput) :
    Except MeowError PresignedUploadPart :=
  match input.refreshed with
  | .error e => .error e
  | .ok refreshed =>
    if refreshed.partNumber ≠ part.partNumber ∨ refreshed.offset ≠ part.offset ∨
        refreshed.size ≠ part.size ∨
        (part.providerPartId.isSome ∧ refreshed.providerPartId ≠ part.providerPartId) then
      .error (.fromCode .invalidTaskState
        s!"refreshed presigned part mismatch: old=({part.partNumber}, {part.offset}, {part.size}) new=({refreshed.partNumber}, {refreshed.offset}, {refreshed.size})")
    else
      match isExpired input.expiryClock refreshed with
      | .error e => .error e
      | .ok true =>
        .error (.fromCode .invalidTaskState
          s!"refreshed presigned upload part {part.partNumber} URL is already expired")
      | .ok false => .ok refreshed

def partForUpload (offset : Nat) (input : PresignedChunkInput) :
    Except MeowError PresignedUploadPart :=
  match u.plan.partForOffset offset with
  | none =>
    .error (.fromCode .invalidRange s!"missing presigned upload part for offset {offset}")
  | some part =>
    match u.shouldRefreshPart input.refreshClock part with
    | .error e => .error e
    | .ok false => .ok part
    | .ok true => if u.urlRefresher then refreshedPart part input else unrefreshedPart part input

/-- The first part with the same offset is replaced in its place, else the part is
added at the end. -/
def recordPart (uploaded : PresignedUploadedPart) :
    List PresignedUploadedPart → List PresignedUploadedPart
  | [] => [uploaded]
  | first :: rest =>
    if first.offset = uploaded.offset then uploaded :: rest else first :: recordPart uploaded rest

def uploadChunk (task : UploadTask) (offset : Nat) (input : PresignedChunkInput)
    (s : PresignedState) : PresignedState × Except MeowError UploadResumeInfo :=
  let chunk := task.chunkAt offset
  match u.partForUpload offset input with
  | .error e => (s, .error e)
  | .ok part =>
    if input.stopRequested then
      (s, .error (.fromCode .taskCanceled "presigned upload stopped while refreshing part URL"))
    else if part.size ≠ chunk.length then
      (s, .error (.fromCode .invalidRange
        s!"presigned part size mismatch: part={part.size} chunk={chunk.length}"))
    else
      match input.response with
      | .error e => (s, .error e)
      | .ok response =>
        if ¬ response.isSuccess then
          (s, .error ((MeowError.fromCode .responseStatusError
            s!"presigned upload part failed: {response.statusText}, body: {response.body}").withHttpStatus
              response.status))
        else
          let uploaded : PresignedUploadedPart :=
            { partNumber := part.partNumber
              providerPartId := part.providerPartId
              offset := part.offset
              size := part.size
              etag := response.etag }
          ({ uploadedParts := recordPart uploaded s.uploadedParts
             uploads := s.uploads ++ [uploaded] },
            .ok { completedFileId := none, nextByte := some (offset + chunk.length) })

def sortDedupCompletionParts (parts : List PresignedUploadedPart) : List PresignedUploadedPart :=
  let sorted := parts.insertionSort fun a b =>
    a.offset < b.offset ∨ a.offset = b.offset ∧ a.partNumber ≤ b.partNumber
  (sorted.destutter fun a b => a.offset ≠ b.offset).insertionSort fun a b =>
    a.partNumber ≤ b.partNumber

inductive CompletionBody where
  | fixed (body : String)
  | built (body : String)
  | json (uploadId : Option String) (totalSize chunkSize : Nat)
      (parts : List PresignedUploadedPart)

def completionBody (req : CompletionRequest) (parts : List PresignedUploadedPart) :
    Except MeowError CompletionBody :=
  match req.body, u.plan.completeBodyBuilder with
  | some body, _ => .ok (.fixed body)
  | none, some builder => (builder parts).map .built
  | none, none => .ok (.json u.plan.uploadId u.plan.totalSize u.plan.chunkSize parts)

/-- `callback` is what the completion callback makes of a body. -/
def completeUpload (callback : CompletionBody → Except MeowError (Option String))
    (s : PresignedState) : PresignedState × Except MeowError (Option String) :=
  match u.plan.completeRequest with
  | none => (s, .ok none)
  | some req =>
    match u.completionBody req (sortDedupCompletionParts s.uploadedParts) with
    | .error e => (s, .error e)
    | .ok body => (s, callback body)

def abortUpload (callback : Except MeowError (Option String)) (s : PresignedState) :
    PresignedState × Except MeowError Unit :=
  match u.plan.abortRequest with
  | none => (s, .ok ())
  | some _ => (s, callback.map fun _ => ())

def protocol : UploadProtocol PresignedState UploadTask Unit PresignedChunkInput
    (CompletionBody → Except MeowError (Option String)) (Except MeowError (Option String)) where
  totalSize := UploadTask.totalSize
  chunkSize := UploadTask.chunkSize
  prepare := fun task localOffset _ s => u.prepare task localOffset s
  uploadChunk := fun task offset input s => u.uploadChunk task offset input s
  completeUpload := fun _ callback s => u.completeUpload callback s
  abortUpload := fun _ callback s => u.abortUpload callback s

end PresignedMultipartUpload

end RustyCat
