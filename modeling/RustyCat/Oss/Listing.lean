import Mathlib.Data.List.Sort
import RustyCat.Lib.Sorted
import RustyCat.Provider.Body
import RustyCat.Provider.Xml

/-!
# Listings of an OSS multipart session

`aliyun-oss-direct/xml.rs` and the part of `aliyun-oss-direct/upload.rs` that looks
for a multipart session it can go on with: the pages of the two listings, and the
checks of what they name.  The URL parser, the XML parser and the redaction of
secrets are parameters; so is what comes back for each request.
-/

namespace RustyCat

structure OssEnv where
  /-- `Url::parse`, or the text of its error. -/
  parseUrl : String → Except String ProviderUrl
  /-- `parse_document`. -/
  parseDocument : String → XmlBody
  redactSecrets : String → String

structure OssPart where
  partNumber : Nat
  size : Nat
  deriving DecidableEq

structure OssUploadPage where
  uploadIdsForKey : List String
  nextMarkers : Option (String × String)
  deriving DecidableEq

structure OssPartPage where
  parts : List OssPart
  nextPartNumberMarker : Option Nat
  deriving DecidableEq

def maxOssPartNumber : Nat := 10000

def maxOssPaginationRequests : Nat := maxOssPartNumber

def maxOssListEntries : Nat := 1000

def ossReservedQueryKeys : List String :=
  ["uploads", "uploadId", "partNumber", "prefix", "max-uploads", "max-parts", "encoding-type",
    "key-marker", "upload-id-marker", "part-number-marker"]

/-- `hex_value` and `decode_hex`, which are the same function. -/
def hexValue (byte : UInt8) : Option UInt8 :=
  if 48 ≤ byte ∧ byte ≤ 57 then some (byte - 48)
  else if 97 ≤ byte ∧ byte ≤ 102 then some (byte - 97 + 10)
  else if 65 ≤ byte ∧ byte ≤ 70 then some (byte - 65 + 10)
  else none

/-! ## The fields of a page -/

namespace XmlElement

def listingIsTruncated (root : XmlElement) : Except String Bool := do
  match ← root.childElements "IsTruncated" 2 with
  | [] => .ok false
  | [element] =>
    let text ← element.elementText
    if text.toLower = "false" then .ok false
    else if text.toLower = "true" then .ok true
    else .error "invalid IsTruncated value"
  | _ => .error "duplicate IsTruncated field"

def listingUsesUrlEncoding (root : XmlElement) : Except String Bool := do
  match ← root.childElements "EncodingType" 2 with
  | [] => .ok false
  | [element] =>
    let text ← element.elementText
    if text.toLower = "url" then .ok true else .error "unsupported EncodingType value"
  | _ => .error "duplicate EncodingType field"

end XmlElement

def decodeUrlEncodedBytes : List UInt8 → Except String (List UInt8)
  | [] => .ok []
  | 37 :: high :: low :: rest => do
    match hexValue high, hexValue low with
    | some h, some l => return (h <<< 4 ||| l) :: (← decodeUrlEncodedBytes rest)
    | _, _ => .error "invalid URL escape in OSS XML"
  | 37 :: _ => .error "truncated URL escape in OSS XML"
  | byte :: rest => return byte :: (← decodeUrlEncodedBytes rest)

def decodeUrlEncodedText (value : String) : Except String String := do
  match fromUtf8 (← decodeUrlEncodedBytes (utf8Bytes value)) with
  | some text => .ok text
  | none => .error "URL-encoded OSS XML field is not valid UTF-8"

/-- A field of a listing, whose encoding the listing names. -/
def listingText (urlEncoded : Bool) (value : String) : Except String String :=
  if urlEncoded then decodeUrlEncodedText value else .ok value

def uploadEntry (urlEncoded : Bool) (block : XmlElement) : Except String (String × String) := do
  let itemKey ← block.exactlyOneNonemptyText "Key"
  let itemKey ← listingText urlEncoded itemKey
  let uploadId ← block.exactlyOneNonemptyText "UploadId"
  .ok (itemKey, uploadId)

def uploadIdsForKey (urlEncoded : Bool) (key : String) :
    List (String × String) → List XmlElement → Except String (List String)
  | _, [] => .ok []
  | seen, block :: rest => do
    let entry ← uploadEntry urlEncoded block
    if entry ∈ seen then .error "duplicate multipart upload entry"
    else
      let ids ← uploadIdsForKey urlEncoded key (entry :: seen) rest
      .ok (if entry.1 = key then entry.2 :: ids else ids)

def parseUploadPageForKey (xml : XmlBody) (key : String) : Except String OssUploadPage := do
  let root ← XmlElement.documentRoot (← xml) "ListMultipartUploadsResult"
  let urlEncoded ← root.listingUsesUrlEncoding
  let blocks ← root.childElements "Upload" maxOssListEntries
  let ids ← uploadIdsForKey urlEncoded key [] blocks
  if ← root.listingIsTruncated then
    let keyMarker ← root.exactlyOneNonemptyText "NextKeyMarker"
    let keyMarker ← listingText urlEncoded keyMarker
    let uploadIdMarker ← root.exactlyOneText "NextUploadIdMarker"
    .ok { uploadIdsForKey := ids, nextMarkers := some (keyMarker, uploadIdMarker) }
  else .ok { uploadIdsForKey := ids, nextMarkers := none }

def partEntry (block : XmlElement) : Except String OssPart := do
  match parseU64 (← block.exactlyOneNonemptyText "PartNumber") with
  | none => .error "invalid OSS PartNumber"
  | some partNumber =>
    match parseU64 (← block.exactlyOneNonemptyText "Size") with
    | none => .error "invalid OSS part Size"
    | some size =>
      if partNumber = 0 ∨ size = 0 then .error "OSS part number and size must be non-zero"
      else .ok { partNumber := partNumber, size := size }

/-- The parts of a page in document order; `seen` are the numbers before. -/
def pageParts : List Nat → List XmlElement → Except String (List OssPart)
  | _, [] => .ok []
  | seen, block :: rest => do
    let part ← partEntry block
    if part.partNumber ∈ seen then .error "duplicate OSS PartNumber"
    else return part :: (← pageParts (part.partNumber :: seen) rest)

def parsePartPage (xml : XmlBody) : Except String OssPartPage := do
  let root ← XmlElement.documentRoot (← xml) "ListPartsResult"
  let blocks ← root.childElements "Part" maxOssListEntries
  let parts ← pageParts [] blocks
  let parts := parts.insertionSort fun a b => a.partNumber ≤ b.partNumber
  if ← root.listingIsTruncated then
    match parseU64 (← root.exactlyOneNonemptyText "NextPartNumberMarker") with
    | none => .error "invalid OSS NextPartNumberMarker"
    | some marker =>
      if marker = 0 then .error "OSS NextPartNumberMarker must be non-zero"
      else .ok { parts := parts, nextPartNumberMarker := some marker }
  else .ok { parts := parts, nextPartNumberMarker := none }

def extractXmlTag (xml : XmlBody) (tag : String) : Option String :=
  (do
    let root ← XmlElement.documentRoot (← xml) "InitiateMultipartUploadResult"
    root.exactlyOneNonemptyText tag).toOption

/-! ## The checks of a task -/

def paramError (text : String) : MeowError := .fromCode .parameterEmpty text

def decodeObjectKeyBytes : List UInt8 → List UInt8
  | 37 :: high :: low :: rest =>
    match hexValue high, hexValue low with
    | some h, some l => (h <<< 4 ||| l) :: decodeObjectKeyBytes rest
    | _, _ => 37 :: decodeObjectKeyBytes (high :: low :: rest)
  | byte :: rest => byte :: decodeObjectKeyBytes rest
  | [] => []

def decodeObjectKey (encodedPath : String) : Except MeowError String :=
  match fromUtf8 (decodeObjectKeyBytes (utf8Bytes encodedPath)) with
  | some key => .ok key
  | none => .error (.fromCode .parameterEmpty "OSS object key path is not valid UTF-8")

def validateResumeOffset (task : UploadTask) (localOffset : Nat) : Except MeowError Unit :=
  resumeOffsetCheck "OSS multipart upload" task localOffset

def expectedPartSize (totalSize chunkSize partIndex : Nat) : Except MeowError Nat :=
  expectedSize "OSS part" totalSize chunkSize partIndex

def validateRemotePart (task : UploadTask) (part : OssPart) : Except MeowError Unit :=
  if part.partNumber > task.totalChunks then
    .error (.fromCode .invalidTaskState
      (s!"remote OSS part {part.partNumber} is outside the task plan of " ++
        s!"{task.totalChunks} parts"))
  else
    match Word.checkedSub part.partNumber 1 with
    | none => .error (.fromCode .invalidTaskState "remote OSS part number must be non-zero")
    | some partIndex => do
      let expectedSize ← expectedPartSize task.totalSize task.chunkSize partIndex
      if part.size ≠ expectedSize then
        .error (.fromCode .invalidTaskState
          s!"remote OSS part {part.partNumber} has size {part.size}, expected {expectedSize}")
      else .ok ()

def expectedParts (task : UploadTask) (localOffset : Nat) : Nat :=
  if localOffset = task.totalSize then task.totalChunks else localOffset / task.chunkSize

def validateRemotePartsForResume (task : UploadTask) (localOffset : Nat)
    (uploadedParts : List OssPart) : Except MeowError Unit := do
  uploadedParts.forM (validateRemotePart task)
  (List.range' 1 (expectedParts task localOffset)).forM fun partNumber =>
    if (Sorted.binarySearch OssPart.partNumber uploadedParts partNumber).isNone then
      .error (.fromCode .invalidTaskState
        (s!"local offset {localOffset} requires OSS part {partNumber}, but remote multipart " ++
          "session is missing it"))
    else .ok ()

/-! ## The two listings -/

def foundIds (safeObjectKey : String) : List String → List String → Except MeowError (List String)
  | found, [] => .ok found
  | found, uploadId :: rest =>
    if uploadId ∈ found then
      .error (.fromCode .responseParseError
        "oss list multipart uploads repeated an entry across pages")
    else if (found ++ [uploadId]).length > 1 then
      .error (.fromCode .invalidTaskState
        s!"found multiple multipart sessions for object '{safeObjectKey}'")
    else foundIds safeObjectKey (found ++ [uploadId]) rest

def markerLe (a b : String × String) : Bool := a.1 < b.1 ∨ a.1 = b.1 ∧ ¬ b.2 < a.2

def insertParts (marker : Option Nat) :
    List OssPart → List OssPart → Except MeowError (List OssPart)
  | parts, [] => .ok parts
  | parts, part :: rest =>
    if marker.any (part.partNumber ≤ ·) ∨ parts.any (·.partNumber = part.partNumber) then
      .error (.fromCode .responseParseError
        "oss list parts repeated or rewound an entry across pages")
    else if (Sorted.insert OssPart.partNumber part parts).length > maxOssPartNumber then
      .error (.fromCode .responseParseError "oss list parts exceeded the provider part limit")
    else insertParts marker (Sorted.insert OssPart.partNumber part parts) rest

/-- What comes back for the requests of a listing, in the order they are sent. -/
abbrev PageAnswers := Nat → Except MeowError String

namespace OssEnv

variable (env : OssEnv)

def checkTaskUrl (task : UploadTask) : Except MeowError Unit :=
  match env.parseUrl task.url with
  | .error text => .error (paramError text)
  | .ok url => rejectReservedQueryKeys url ossReservedQueryKeys "Aliyun OSS"

def validateOssTask (task : UploadTask) : Except MeowError Unit := do
  env.checkTaskUrl task
  if task.totalChunks > maxOssPartNumber then
    .error (.fromCode .invalidRange
      (s!"OSS multipart upload supports at most {maxOssPartNumber} parts; " ++
        s!"task requires {task.totalChunks}"))
  else .ok ()

def objectKeyFromTaskUrl (task : UploadTask) : Except MeowError String :=
  match env.parseUrl task.url with
  | .error text => .error (paramError text)
  | .ok url => decodeObjectKey (String.ofList (url.path.toList.dropWhile (· = '/')))

/-- One page of the upload listing: the ids found so far, and where to go on. -/
def uploadPage (objectKey : String) (marker : Option (String × String)) (found : List String)
    (body : String) : Except MeowError (List String × Option (String × String)) :=
  match parseUploadPageForKey (env.parseDocument body) objectKey with
  | .error reason =>
    .error (.fromCode .responseParseError s!"oss list multipart uploads XML rejected: {reason}")
  | .ok page => do
    let found ← foundIds (env.redactSecrets objectKey) found page.uploadIdsForKey
    match page.nextMarkers with
    | none => .ok (found, none)
    | some nextMarker =>
      if nextMarker.1 < objectKey then
        .error (.fromCode .responseParseError
          "oss upload-list pagination marker precedes the requested object key")
      else if objectKey < nextMarker.1 then .ok (found, none)
      else if nextMarker.2 = "" ∨ marker.any (markerLe nextMarker ·) then
        .error (.fromCode .responseParseError "oss upload-list pagination marker did not advance")
      else .ok (found, some nextMarker)

/-- The requests of the upload listing; the bodies fetched are kept. -/
def uploadPages (objectKey : String) (answers : PageAnswers) :
    Nat → Nat → Option (String × String) → List String →
      List String × Except MeowError (Option String)
  | 0, _, _, _ =>
    ([], .error (.fromCode .responseParseError
      "oss upload-list pagination exceeded its bounded request limit"))
  | fuel + 1, request, marker, found =>
    match answers request with
    | .error e => ([], .error e)
    | .ok body =>
      match env.uploadPage objectKey marker found body with
      | .error e => ([body], .error e)
      | .ok (found, none) => ([body], .ok found.head?)
      | .ok (found, some nextMarker) =>
        let (pages, result) :=
          uploadPages objectKey answers fuel (request + 1) (some nextMarker) found
        (body :: pages, result)

def tryAdoptUploadIdFromList (task : UploadTask) (answers : PageAnswers) :
    List String × Except MeowError (Option String) :=
  match env.objectKeyFromTaskUrl task with
  | .error e => ([], .error e)
  | .ok objectKey => env.uploadPages objectKey answers maxOssPaginationRequests 0 none []

/-- One page of the part listing: the parts so far, and where to go on. -/
def partPage (marker : Option Nat) (parts : List OssPart) (body : String) :
    Except MeowError (List OssPart × Option Nat) :=
  match parsePartPage (env.parseDocument body) with
  | .error reason =>
    .error (.fromCode .responseParseError s!"oss list parts XML rejected: {reason}")
  | .ok page => do
    let pageLast := page.parts.getLast?.map OssPart.partNumber
    let parts ← insertParts marker parts page.parts
    match page.nextPartNumberMarker with
    | none => .ok (parts, none)
    | some nextMarker =>
      if nextMarker > maxOssPartNumber ∨ nextMarker ≤ marker.getD 0 ∨
          pageLast ≠ some nextMarker then
        .error (.fromCode .responseParseError
          "oss part-list pagination marker did not advance exactly to the page tail")
      else .ok (parts, some nextMarker)

def partPages (answers : PageAnswers) :
    Nat → Nat → Option Nat → List OssPart → List String × Except MeowError (List OssPart)
  | 0, _, _, _ =>
    ([], .error (.fromCode .responseParseError
      "oss part-list pagination exceeded its bounded request limit"))
  | fuel + 1, request, marker, parts =>
    match answers request with
    | .error e => ([], .error e)
    | .ok body =>
      match env.partPage marker parts body with
      | .error e => ([body], .error e)
      | .ok (parts, none) => ([body], .ok parts)
      | .ok (parts, some nextMarker) =>
        let (pages, result) := partPages answers fuel (request + 1) (some nextMarker) parts
        (body :: pages, result)

def listUploadedParts (answers : PageAnswers) :
    List String × Except MeowError (List OssPart) :=
  env.partPages answers maxOssPaginationRequests 0 none []

end OssEnv

end RustyCat
