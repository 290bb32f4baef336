import RustyCat.UploadFile.Verified

/-!
# What the requests of an upload hand to the protocol

For a snapshot that describes a content: every chunk handed to `upload_chunk` is
the slice of the content at its offset, and `complete_upload` is called only after
the opened file and the visible path were read back as the content.
-/

namespace RustyCat

open Interaction Interaction.Attempt Blocks

namespace UploadFile

variable {Digest : Type} [DecidableEq Digest] {sha256 : List UInt8 → Digest}
  {snapshot : UploadFileSnapshot Digest} {content : List UInt8} {events : Trace}

/-! ## Full validations -/

/-- The opened file and the file at the visible path were both read in full, and the
bytes read were the content. -/
structure ReadInFull (content : List UInt8) (events : Trace) : Prop where
  opened : ∃ file before reads after, events = before ++ reads ++ after ∧
    heldSlot events = some file ∧ ReadBack file 0 content reads
  visible : ∃ file before between reads after,
    events = before ++ (⟨.open, .ok file⟩ :: (between ++ reads ++ after)) ∧
    ReadBack file 0 content reads

theorem ask_returns {change : IoErrorKind → MeowError} {file : Handle}
    (returned : Program.Returns (ask Op.open (failing change)).run events (.ok file)) :
    events = [⟨.open, .ok file⟩] := by
  obtain ⟨answer, rfl, ok⟩ := returns_ask.mp returned
  cases answer with
  | error error => cases ok
  | ok value =>
    cases ok
    rfl

omit [DecidableEq Digest] in
theorem scanFileStably_returns {file : Handle} {len size : Nat} {path description : String}
    {scan : ContentScan Digest}
    (returned : Program.Returns (scanFileStably sha256 file len size path description).run events
      (.ok scan)) :
    ∃ other before reads after, events = before ++ reads ++ after ∧
      ReadBack file 0 other reads ∧ scan = contentScan sha256 size other := by
  simp only [scanFileStably] at returned
  obtain ⟨one, before, _, rfl, _, returned⟩ := returns_bind_ok.mp returned
  split at returned
  · exact absurd returned not_returns_throw
  obtain ⟨reads, found, last, rfl, scanned, returned⟩ := returns_bind_ok.mp returned
  obtain ⟨_, other, _, read, rfl⟩ := scanFileAt_returns (returns_mapError.mp scanned)
  obtain ⟨two, after, three, rfl, _, returned⟩ := returns_bind_ok.mp returned
  split at returned
  · exact absurd returned not_returns_throw
  · obtain ⟨rfl, rfl⟩ := returns_pure.mp returned
    exact ⟨other, one, reads, two ++ [], (List.append_assoc ..).symm, read, rfl⟩

section Validation

variable (collisionFree : Function.Injective sha256)

include collisionFree

theorem verifyVisiblePathContent_returns {path : String} {len : Nat}
    {identity : ContentIdentity Digest} (whole : identity.sha256 = sha256 content)
    {initialScan : Bool}
    (returned : Program.Returns
      (verifyVisiblePathContent sha256 path len identity initialScan).run events (.ok ())) :
    ∃ file between reads after, events = ⟨.open, .ok file⟩ :: (between ++ reads ++ after) ∧
      ReadBack file 0 content reads := by
  simp only [verifyVisiblePathContent] at returned
  obtain ⟨_, file, _, rfl, opened, returned⟩ := returns_bind_ok.mp returned
  have first := ask_returns opened
  obtain ⟨stat, metadata, _, rfl, _, returned⟩ := returns_bind_ok.mp returned
  split at returned
  · exact absurd returned not_returns_throw
  split at returned
  · exact absurd returned not_returns_throw
  obtain ⟨scanned, scan, last, rfl, scans, returned⟩ := returns_bind_ok.mp returned
  obtain ⟨other, before, reads, after, rfl, read, rfl⟩ := scanFileStably_returns scans
  split at returned
  · exact absurd returned not_returns_throw
  rename_i same
  obtain ⟨rfl, _⟩ := returns_pure.mp returned
  obtain rfl := eq_of_matches collisionFree whole (not_not.mp same)
  refine ⟨file, stat ++ before, reads, after, ?_, read⟩
  simp only [first, List.append_assoc, List.append_nil, List.singleton_append]

variable (describes : Describes sha256 snapshot content)

include describes

theorem validateHandle_returns {file : Handle} {generation : FileGeneration}
    {accepted : Option FileGeneration}
    (returned : Program.Returns
      (snapshot.validateHandle sha256 true file generation accepted).run events (.ok ())) :
    ∃ before reads after, events = before ++ reads ++ after ∧ ReadBack file 0 content reads := by
  simp only [UploadFileSnapshot.validateHandle, true_or, if_true] at returned
  obtain ⟨scanned, scan, last, rfl, scans, returned⟩ := returns_bind_ok.mp returned
  obtain ⟨other, before, reads, after, rfl, read, rfl⟩ := scanFileStably_returns scans
  split at returned
  · exact absurd returned not_returns_throw
  rename_i same
  obtain rfl := eq_of_matches collisionFree describes.whole (not_not.mp same)
  exact ⟨before, reads, after ++ last, List.append_assoc .., read⟩

theorem validatePath_returns {handle path : FileGeneration} {accepted : Option FileGeneration}
    (returned : Program.Returns
      (snapshot.validatePath sha256 true handle path accepted).run events (.ok ())) :
    ∃ file between reads after, events = ⟨.open, .ok file⟩ :: (between ++ reads ++ after) ∧
      ReadBack file 0 content reads := by
  simp only [UploadFileSnapshot.validatePath, UploadFileSnapshot.visiblePathRequiresHash,
    true_or, decide_true, if_true] at returned
  obtain ⟨first, _, last, rfl, verified, _⟩ := returns_bind_ok.mp returned
  obtain ⟨file, between, reads, after, rfl, read⟩ :=
    verifyVisiblePathContent_returns collisionFree describes.whole verified
  refine ⟨file, between, reads, after ++ last, ?_, read⟩
  simp only [List.append_assoc, List.cons_append]

theorem validateGeneration_returns
    (returned : Program.Returns (snapshot.validateGeneration sha256 true).run events (.ok ())) :
    ReadInFull content events := by
  simp only [UploadFileSnapshot.validateGeneration] at returned
  obtain ⟨opening, file, _, rfl, opened, returned⟩ := returns_bind_ok.mp returned
  have held := openedFile_returns opened
  obtain ⟨stat, handle, _, rfl, statted, returned⟩ := returns_bind_ok.mp returned
  obtain ⟨statPath, path, _, rfl, pathStatted, returned⟩ := returns_bind_ok.mp returned
  obtain ⟨look, accepted, _, rfl, looked, returned⟩ := returns_bind_ok.mp returned
  obtain ⟨first, _, second, rfl, handleOk, pathOk⟩ := returns_bind_ok.mp returned
  obtain ⟨before, reads, after, one, read⟩ :=
    validateHandle_returns collisionFree describes handleOk
  obtain ⟨visible, between, readsPath, afterPath, two, readPath⟩ :=
    validatePath_returns collisionFree describes pathOk
  have later : heldSlot (opening ++ (stat ++ (statPath ++ (look ++ (first ++ second))))) =
      some file := by
    rw [heldSlot_looks, held]
    intro event member
    simp only [List.mem_append] at member
    obtain member | member | member | member | member := member
    · exact (only_ask (P := fun op => op.looks = true) rfl).of_run statted event member
    · exact (only_ask (P := fun op => op.looks = true) rfl).of_run pathStatted event member
    · exact (only_ask (P := fun op => op.looks = true) rfl).of_run looked event member
    · exact (validateHandle_looks snapshot _ _ _ _).of_run handleOk event member
    · exact (validatePath_looks snapshot _ _ _ _).of_run pathOk event member
  constructor
  · refine ⟨file, opening ++ stat ++ statPath ++ look ++ before, reads, after ++ second, ?_,
      later, read⟩
    simp only [one, List.append_assoc]
  · refine ⟨visible, opening ++ stat ++ statPath ++ look ++ first, between, readsPath, afterPath,
      ?_, readPath⟩
    simp only [two, List.append_assoc]

end Validation

/-! ## Calls that do not reach the protocol -/

def Op.isLocal : Op → Bool
  | .prepare _ | .uploadChunk _ _ | .completeUpload | .abortUpload => false
  | _ => true

abbrev Local {α : Type} (p : Program Op Answer α) : Prop :=
  Program.Only (fun op => op.isLocal = true) p

variable {α : Type} {start : Nat}

theorem local_of_looks {p : Program Op Answer α} (looks : Looks p) : Local p := by
  refine ⟨fun events op called => ?_⟩
  have plain := looks.calls events op called
  cases op <;> first | rfl | cases plain

variable (snapshot) in
theorem openedFile_local : Local (snapshot.openedFileBlocking sha256).run := by
  simp only [UploadFileSnapshot.openedFileBlocking]
  refine only_bind (only_ask rfl) fun held => ?_
  split
  · exact only_bind (only_ask rfl) fun _ => only_pure _
  refine only_bind (only_lift (local_of_looks (reopen_looks snapshot)))
    fun result => ?_
  split
  · exact only_bind (only_ask rfl) fun _ => only_pure _
  · exact only_bind (only_ask rfl) fun _ => only_throw _

variable (snapshot) in
theorem validateGeneration_local (verifyContent : Bool) :
    Local (snapshot.validateGeneration sha256 verifyContent).run := by
  simp only [UploadFileSnapshot.validateGeneration]
  refine only_bind (openedFile_local snapshot) fun file => ?_
  refine only_bind (only_ask rfl) fun handle => ?_
  refine only_bind (only_ask rfl) fun path => ?_
  refine only_bind (only_ask rfl) fun accepted => ?_
  exact only_bind (local_of_looks (validateHandle_looks snapshot ..)) fun _ =>
    local_of_looks (validatePath_looks snapshot ..)

theorem abortOnError_local {x : Task α} (inner : Local x.run) :
    Local (abortOnError x).run := by
  simp only [abortOnError]
  refine only_bind (only_lift inner) fun result => ?_
  split
  · exact only_pure _
  · exact only_bind (only_ask rfl) fun _ => only_throw _

theorem abortOnError_returns {x : Task α} {value : α}
    (returned : Program.Returns (abortOnError x).run events (.ok value)) :
    Program.Returns x.run events (.ok value) := by
  simp only [abortOnError] at returned
  obtain ⟨first, result, rest, rfl, ran, returned⟩ := returns_bind_ok.mp returned
  have ran := returns_lift.mp ran
  split at returned
  · obtain ⟨rfl, rfl⟩ := returns_pure.mp returned
    rw [List.append_nil]
    exact ran
  · obtain ⟨_, _, _, _, _, failed⟩ := returns_bind_ok.mp returned
    exact absurd failed not_returns_throw

/-! ## Chunks -/

variable {task : UploadTask Digest} {offset : Nat}

variable (task) in
theorem readUploadChunk_local (offset chunkSize : Nat) :
    Local (task.readUploadChunk sha256 offset chunkSize).run := by
  simp only [UploadTask.readUploadChunk]
  split
  · exact only_pure _
  refine only_bind (validateGeneration_local task.snapshot false) fun _ => ?_
  refine only_bind ?_ fun chunk => only_pure _
  simp only [UploadFileSnapshot.readExactAt]
  split
  · exact only_throw _
  · exact only_bind (openedFile_local task.snapshot) fun file =>
      local_of_looks (readVerifiedRange_looks task.snapshot ..)

structure IsSlice (content : List UInt8) (offset : Nat) (chunk : List UInt8) : Prop where
  inside : offset + chunk.length ≤ content.length
  bytes : chunk = slice content offset (offset + chunk.length)

theorem readUploadChunk_returns (collisionFree : Function.Injective sha256)
    (describes : Describes sha256 task.snapshot content) {chunkSize : Nat} {chunk : List UInt8}
    (returned : Program.Returns (task.readUploadChunk sha256 offset chunkSize).run events
      (.ok (some chunk))) :
    IsSlice content offset chunk ∧ offset < task.totalSize ∧
      chunk.length = min chunkSize (task.totalSize - offset) := by
  simp only [UploadTask.readUploadChunk] at returned
  split at returned
  · obtain ⟨_, none⟩ := returns_pure.mp returned
    cases none
  · rename_i room
    obtain ⟨_, _, _, rfl, _, returned⟩ := returns_bind_ok.mp returned
    obtain ⟨_, bytes, _, rfl, read, returned⟩ := returns_bind_ok.mp returned
    obtain ⟨rfl, same⟩ := returns_pure.mp returned
    cases same
    simp only [UploadFileSnapshot.readExactAt] at read
    split at read
    · exact absurd read not_returns_throw
    rename_i inside
    rw [describes.len] at inside
    obtain ⟨_, file, _, rfl, _, read⟩ := returns_bind_ok.mp read
    have range := readVerifiedRange_returns collisionFree describes (by omega) read
    have length : chunk.length = min chunkSize (task.totalSize - offset) := by
      rw [range, length_slice (by omega)]
      omega
    refine ⟨⟨by omega, ?_⟩, by omega, length⟩
    rw [length]
    exact range

/-- What a call hands to the protocol, when it hands it a chunk. -/
def Op.Sends (content : List UInt8) (offset : Nat) : Op → Prop
  | .uploadChunk start chunk => start = offset ∧ IsSlice content offset chunk
  | op => op.isLocal = true

theorem sends_of_local {op : Op} (plain : op.isLocal = true) : op.Sends content offset := by
  cases op <;> first | exact plain | cases plain

/-- The bytes a range of the log covers: a chunk that was answered acknowledges its
bytes, in a serial upload those before the offset the answer names. -/
def acknowledges (serial : Bool) (index : Nat) : Event Op Answer → Prop
  | ⟨.uploadChunk offset chunk, answer⟩ =>
    match (answer : Except MeowError UploadResumeInfo) with
    | .error _ => False
    | .ok info =>
      offset ≤ index ∧ index < offset + chunk.length ∧
        (serial = true → index < info.nextByte.getD (offset + chunk.length))
  | _ => False

/-- Every byte of the range is acknowledged in the log. -/
structure Covers (serial : Bool) (log : Trace) (start stop : Nat) : Prop where
  acknowledged : ∀ index, start ≤ index → index < stop →
    ∃ event ∈ log, acknowledges serial index event

theorem Covers.empty (serial : Bool) (log : Trace) (start : Nat) :
    Covers serial log start start :=
  ⟨fun index low high => absurd high (by omega)⟩

theorem Covers.mono {serial : Bool} {log : Trace} {stop : Nat}
    (covers : Covers serial log start stop) (more : Trace) :
    Covers serial (log ++ more) start stop := by
  refine ⟨fun index low high => ?_⟩
  obtain ⟨event, member, acknowledged⟩ := covers.acknowledged index low high
  exact ⟨event, List.mem_append_left _ member, acknowledged⟩

theorem Covers.extend {serial : Bool} {log : Trace} {middle stop : Nat} {event : Event Op Answer}
    (covers : Covers serial log start middle) (member : event ∈ log)
    (acknowledged : ∀ index, middle ≤ index → index < stop → acknowledges serial index event) :
    Covers serial log start stop := by
  refine ⟨fun index low high => ?_⟩
  obtain before | after := Nat.lt_or_ge index middle
  · exact covers.acknowledged index low before
  · exact ⟨event, member, acknowledged index after high⟩

section Chunks

variable (collisionFree : Function.Injective sha256)
  (describes : Describes sha256 task.snapshot content)

include collisionFree describes

/-! ## Parts -/

theorem uploadOneChunkPart_only :
    Program.Only (Op.Sends content offset) (task.uploadOneChunkPart sha256 offset).run := by
  simp only [UploadTask.uploadOneChunkPart]
  refine ⟨fun events op called => ?_⟩
  obtain called | ⟨first, found, rest, rfl, read, called⟩ := calls_bind_ok.mp called
  · exact sends_of_local
      ((abortOnError_local (readUploadChunk_local task _ _)).calls _ _ called)
  · cases found with
    | none => exact absurd called Program.not_calls_done
    | some chunk =>
      obtain called | ⟨_, _, _, _, _, called⟩ := calls_bind_ok.mp called
      · obtain ⟨_, rfl⟩ := calls_ask.mp called
        have part := readUploadChunk_returns collisionFree describes (abortOnError_returns read)
        exact ⟨rfl, part.1⟩
      · exact absurd called Program.not_calls_done

theorem uploadOneChunkPart_returns {outcome : ChunkOutcome} (positive : 0 < task.chunkSize)
    (room : offset < task.totalSize)
    (returned : Program.Returns (task.uploadOneChunkPart sha256 offset).run events
      (.ok outcome)) :
    ∃ event ∈ events, ∀ index, offset ≤ index →
      index < offset + min task.chunkSize (task.totalSize - offset) →
      acknowledges false index event := by
  simp only [UploadTask.uploadOneChunkPart] at returned
  obtain ⟨first, found, rest, rfl, read, returned⟩ := returns_bind_ok.mp returned
  have read := abortOnError_returns read
  cases found with
  | none =>
    simp only [UploadTask.readUploadChunk] at read
    rw [if_neg (by omega)] at read
    obtain ⟨_, _, _, _, _, read⟩ := returns_bind_ok.mp read
    obtain ⟨_, _, _, _, _, read⟩ := returns_bind_ok.mp read
    obtain ⟨_, same⟩ := returns_pure.mp read
    cases same
  | some chunk =>
    have part := readUploadChunk_returns collisionFree describes read
    obtain ⟨_, info, _, rfl, asked, _⟩ := returns_bind_ok.mp returned
    obtain ⟨answer, rfl, ok⟩ := returns_ask.mp asked
    obtain rfl : answer = .ok info := ok
    refine ⟨⟨.uploadChunk offset chunk, .ok info⟩, by simp, fun index low high => ?_⟩
    refine ⟨low, by rw [part.2.2]; exact high, nofun⟩

/-! ## Serial chunks -/

omit collisionFree describes in
theorem validateSerialUploadAck_ok {uploadedEnd total next : Nat} {nextByte : Option Nat}
    (valid : validateSerialUploadAck offset uploadedEnd total nextByte = .ok next) :
    next = nextByte.getD uploadedEnd ∧ offset < next ∧ next ≤ uploadedEnd := by
  simp only [validateSerialUploadAck] at valid
  split_ifs at valid
  cases valid
  omega

omit collisionFree describes in
theorem validateBeforeLastPart_local (len : Nat) :
    Local (task.validateBeforeLastPart sha256 offset len).run := by
  simp only [UploadTask.validateBeforeLastPart]
  split
  · exact abortOnError_local (validateGeneration_local task.snapshot true)
  · exact only_pure _

/-- The answer to a chunk that left the upload unfinished. -/
structure Answered (offset next : Nat) (event : Event Op Answer) : Prop where
  advanced : offset < next
  acknowledged : ∀ index, offset ≤ index → index < next → acknowledges true index event

omit [DecidableEq Digest] collisionFree describes in
theorem answered {chunk : List UInt8} {info : UploadResumeInfo} {total next : Nat}
    (valid : validateSerialUploadAck offset (offset + chunk.length) total info.nextByte =
      .ok next) :
    Answered offset next ⟨.uploadChunk offset chunk, .ok info⟩ := by
  obtain ⟨rfl, advanced, bounded⟩ := validateSerialUploadAck_ok valid
  exact ⟨advanced, fun index low high => ⟨low, by omega, fun _ => high⟩⟩

variable {op : Op}

theorem settleChunk_calls {uploadedEnd : Nat} {info : UploadResumeInfo}
    (called : Program.Calls (task.settleChunk sha256 offset uploadedEnd info).run events op) :
    op.isLocal = true ∨ op = .completeUpload ∧ ReadInFull content events ∧
      (∀ event ∈ events, event.op.isLocal = true) ∧ ∃ next, task.totalSize ≤ next ∧
      validateSerialUploadAck offset uploadedEnd task.totalSize info.nextByte = .ok next := by
  have validates : Local (abortOnError (task.snapshot.validateGeneration sha256 true)).run :=
    abortOnError_local (validateGeneration_local task.snapshot true)
  simp only [UploadTask.settleChunk] at called
  split at called
  · left
    exact (only_bind validates fun _ => only_pure _).calls _ _ called
  · obtain called | ⟨_, next, rest, rfl, checked, settles⟩ := calls_bind_ok.mp called
    · exact .inl ((abortOnError_local (only_result _)).calls _ _ called)
    · obtain ⟨rfl, valid⟩ := returns_result.mp (abortOnError_returns checked)
      split at settles
      · rename_i reached
        obtain settles | ⟨first, _, last, rfl, validated, ends⟩ :=
          calls_bind_ok.mp settles
        · exact .inl (validates.calls _ _ settles)
        · obtain called | ⟨_, _, _, _, _, called⟩ := calls_bind_ok.mp ends
          · obtain ⟨rfl, rfl⟩ := calls_ask.mp called
            refine .inr ⟨rfl, ?_, ?_, next, reached, valid⟩
            · rw [List.append_nil]
              exact validateGeneration_returns collisionFree describes
                (abortOnError_returns validated)
            · rw [List.append_nil]
              exact validates.of_run validated
          · exact absurd called Program.not_calls_done
      · exact absurd settles Program.not_calls_done

theorem uploadOneChunk_calls
    (called : Program.Calls (task.uploadOneChunk sha256 offset).run events op) :
    op.Sends content offset ∨ op = .completeUpload ∧ offset < task.totalSize ∧
      ∃ before event after next, events = before ++ event :: after ∧
        Answered offset next event ∧ task.totalSize ≤ next ∧ ReadInFull content after ∧
        ∀ event ∈ after, event.op.isLocal = true := by
  simp only [UploadTask.uploadOneChunk] at called
  obtain called | ⟨first, found, rest, rfl, read, called⟩ := calls_bind_ok.mp called
  · exact .inl (sends_of_local
      ((abortOnError_local (readUploadChunk_local task _ _)).calls _ _ called))
  · cases found with
    | none =>
      exact .inl (sends_of_local ((only_bind
        (abortOnError_local (validateGeneration_local task.snapshot true))
        fun _ => only_pure _).calls _ _ called))
    | some chunk =>
      obtain ⟨part, room, _⟩ :=
        readUploadChunk_returns collisionFree describes (abortOnError_returns read)
      obtain called | ⟨second, _, rest, rfl, validated, called⟩ :=
        calls_bind_ok.mp called
      · exact .inl (sends_of_local ((validateBeforeLastPart_local _).calls _ _ called))
      · obtain called | ⟨_, info, rest, rfl, asked, settles⟩ := calls_bind_ok.mp called
        · obtain ⟨_, rfl⟩ := calls_ask.mp called
          exact .inl ⟨rfl, part⟩
        · obtain ⟨answer, rfl, ok⟩ := returns_ask.mp asked
          obtain rfl : answer = .ok info := ok
          obtain plain | ⟨rfl, full, plain, next, reached, valid⟩ :=
            settleChunk_calls collisionFree describes settles
          · exact .inl (sends_of_local plain)
          · refine .inr ⟨rfl, room, first ++ second, _, rest, next, ?_, answered valid, reached,
              full, plain⟩
            simp only [List.append_assoc, List.singleton_append]

omit collisionFree describes in
theorem uploadOneChunk_returns {outcome : ChunkOutcome}
    (returned : Program.Returns (task.uploadOneChunk sha256 offset).run events (.ok outcome))
    (unfinished : outcome.done = false) :
    ∃ event ∈ events, Answered offset outcome.nextOffset event := by
  simp only [UploadTask.uploadOneChunk] at returned
  obtain ⟨first, found, rest, rfl, read, returned⟩ := returns_bind_ok.mp returned
  cases found with
  | none =>
    obtain ⟨_, _, _, _, _, returned⟩ := returns_bind_ok.mp returned
    obtain ⟨_, rfl⟩ := returns_pure.mp returned
    cases unfinished
  | some chunk =>
    obtain ⟨second, _, _, rfl, _, returned⟩ := returns_bind_ok.mp returned
    obtain ⟨_, info, last, rfl, asked, settled⟩ := returns_bind_ok.mp returned
    obtain ⟨answer, rfl, ok⟩ := returns_ask.mp asked
    obtain rfl : answer = .ok info := ok
    refine ⟨⟨.uploadChunk offset chunk, .ok info⟩, by simp, ?_⟩
    simp only [UploadTask.settleChunk] at settled
    split at settled
    · obtain ⟨_, _, _, _, _, ended⟩ := returns_bind_ok.mp settled
      obtain ⟨_, rfl⟩ := returns_pure.mp ended
      cases unfinished
    · obtain ⟨_, next, _, rfl, checked, ended⟩ := returns_bind_ok.mp settled
      obtain ⟨_, valid⟩ := returns_result.mp (abortOnError_returns checked)
      split at ended
      · obtain ⟨_, _, _, _, _, ended⟩ := returns_bind_ok.mp ended
        obtain ⟨_, _, _, _, _, ended⟩ := returns_bind_ok.mp ended
        obtain ⟨_, rfl⟩ := returns_pure.mp ended
        cases unfinished
      · obtain ⟨_, rfl⟩ := returns_pure.mp ended
        exact answered valid

/-! ## The ends of an upload -/

theorem complete_calls (called : Program.Calls (task.complete sha256).run events op) :
    op.isLocal = true ∨ op = .abortUpload ∨ op = .completeUpload ∧ ReadInFull content events ∧
      ∀ event ∈ events, event.op.isLocal = true := by
  have validates : Local (task.snapshot.validateGeneration sha256 true).run :=
    validateGeneration_local task.snapshot true
  simp only [UploadTask.complete] at called
  obtain called | ⟨first, result, rest, rfl, validated, called⟩ :=
    calls_bind_ok.mp called
  · exact .inl (validates.calls _ _ (calls_lift.mp called))
  · have validated := returns_lift.mp validated
    cases result with
    | ok value =>
      obtain ⟨rfl, rfl⟩ := calls_ask.mp called
      rw [List.append_nil]
      exact .inr (.inr ⟨rfl, validateGeneration_returns collisionFree describes validated,
        validates.of_run validated⟩)
    | error error =>
      obtain called | ⟨_, first, _, rfl, _, called⟩ := calls_bind_ok.mp called
      · obtain ⟨_, rfl⟩ := calls_ask.mp called
        exact .inl rfl
      · split at called
        · obtain called | ⟨_, _, _, _, _, called⟩ := calls_bind_ok.mp called
          · obtain ⟨_, rfl⟩ := calls_ask.mp called
            exact .inr (.inl rfl)
          · exact absurd called Program.not_calls_done
        · exact absurd called Program.not_calls_done

end Chunks

variable (task) in
theorem uploadPrepareOnce_only (localOffset : Nat) :
    Program.Only (fun op => op.isLocal = true ∨ op = .prepare localOffset)
      (task.uploadPrepareOnce sha256 localOffset).run := by
  have checks : Local (abortOnError do
      ExceptT.mk (pure (task.snapshot.validateTotalSize task.totalSize))
      task.snapshot.validateGeneration sha256 false).run :=
    abortOnError_local (only_bind (only_result _) fun _ =>
      validateGeneration_local task.snapshot false)
  simp only [UploadTask.uploadPrepareOnce]
  refine only_bind ⟨fun events op called => .inl (checks.calls events op called)⟩
    fun _ => ?_
  refine only_bind (only_ask (.inr rfl)) fun info => ?_
  split
  · exact only_pure _
  split
  · exact only_bind (only_ask (.inl rfl)) fun _ => only_throw _
  · exact only_pure _

theorem uploadPrepareOnce_returns (describes : Describes sha256 task.snapshot content)
    {localOffset : Nat}
    (returned : Program.Returns (task.uploadPrepareOnce sha256 localOffset).run events
      (.ok start)) :
    content.length ≤ task.totalSize := by
  simp only [UploadTask.uploadPrepareOnce] at returned
  obtain ⟨first, _, _, rfl, checked, _⟩ := returns_bind_ok.mp returned
  obtain ⟨_, _, _, rfl, sized, _⟩ := returns_bind_ok.mp (abortOnError_returns checked)
  obtain ⟨_, sized⟩ := returns_result.mp sized
  simp only [UploadFileSnapshot.validateTotalSize] at sized
  split_ifs at sized with grown
  rw [← describes.len]
  omega

end UploadFile

end RustyCat
