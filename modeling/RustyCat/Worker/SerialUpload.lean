import RustyCat.Lib.Machine
import RustyCat.Lib.Trace
import RustyCat.Worker.Run

/-!
# The serial upload loop

The serial path of `run_group` for an upload, from the prepared offset on, with
everything that can happen around it.  The ghost fields are the chunks that were
handed to `upload_chunk` and the outcomes of the chunk calls that succeeded.  The
answers of the server are arbitrary, so what is sent is controlled by
`validate_serial_upload_ack` alone.
-/

namespace RustyCat

/-- A call of `upload_chunk`: the range of its bytes and the answers of the whole
chunk call it belongs to. -/
structure SentChunk where
  offset : Nat
  stop : Nat
  answer : UploadAnswer

/-- The call of `upload_chunk` that a chunk call makes: none when there is nothing
to read or a check of the source fails before. -/
def sentChunk (inner : InnerTask) (offset : Nat) (answer : UploadAnswer) : Option SentChunk :=
  match (readUploadChunk inner offset inner.chunkSize answer.source).result with
  | .ok (some len) =>
    match (validateSerialUploadBeforeLastPart inner offset len answer.beforeLast).result,
        Word.checkedAdd 64 offset len with
    | .ok (), some uploadedEnd => some { offset := offset, stop := uploadedEnd, answer := answer }
    | _, _ => none
  | _ => none

namespace SentChunk

variable (inner : InnerTask) (c : SentChunk)

def result : Except MeowError ChunkOutcome :=
  (uploadOneChunk inner c.offset inner.chunkSize c.answer).result

/-- The server answered with `completed_file_id`. -/
def Completes : Prop := ∃ info, c.answer.chunk = .ok info ∧ info.completedFileId.isSome = true

/-- The server acknowledged something else than a prefix of the chunk that is not
empty. -/
def Outside : Prop :=
  ∃ info, c.answer.chunk = .ok info ∧ info.completedFileId = none ∧
    ¬ (c.offset < info.nextByte.getD c.stop ∧ info.nextByte.getD c.stop ≤ c.stop)

/-- The loop may send another chunk after this one. -/
def GoesOn : Prop :=
  match c.result inner with
  | .ok v => v.done = false
  | .error e => isTransportRetryable e = true

end SentChunk

/-- The offset of the loop after the chunks: where the last success put it. -/
def uploadCursor (inner : InnerTask) (start : Nat) (sent : List SentChunk) : Nat :=
  sent.foldl
    (fun offset c =>
      match c.result inner with
      | .ok v => v.nextOffset
      | .error _ => offset)
    start

/-- Every byte of `[start, stop)` is in one of the chunks. -/
def Covered (start stop : Nat) (sent : List SentChunk) : Prop :=
  ∀ byte, start ≤ byte → byte < stop → ∃ c ∈ sent, c.offset ≤ byte ∧ byte < c.stop

section Calls

variable {inner : InnerTask} {offset : Nat} {answer : UploadAnswer}

@[simp] theorem Call.andThen_result_ok {α β : Type} {c : Call α} {next : α → Call β} {a : α}
    (answered : c.result = .ok a) : (c.andThen next).result = (next a).result := by
  simp only [Call.andThen, answered]

theorem Call.andThen_result_eq_ok {α β : Type} {c : Call α} {next : α → Call β} {b : β}
    (answered : (c.andThen next).result = .ok b) :
    ∃ a, c.result = .ok a ∧ (next a).result = .ok b := by
  cases result : c.result with
  | error e => simp [Call.andThen, result] at answered
  | ok a => exact ⟨a, rfl, by rwa [Call.andThen_result_ok result] at answered⟩

theorem readUploadChunk_some {len : Nat} {source : Option LocalError}
    (read : (readUploadChunk inner offset inner.chunkSize source).result = .ok (some len)) :
    offset < inner.totalSize ∧ offset + len = min (offset + inner.chunkSize) inner.totalSize := by
  simp only [readUploadChunk] at read
  split at read
  · cases read
  rename_i inside
  split at read
  · cases read
  split at read
  · cases read
  · cases read
    omega

theorem readUploadChunk_none {source : Option LocalError}
    (read : (readUploadChunk inner offset inner.chunkSize source).result = .ok none) :
    inner.totalSize ≤ offset := by
  have positive := inner.chunkSize_pos
  simp only [readUploadChunk] at read
  split at read
  · assumption
  · split at read
    · omega
    · split at read <;> cases read

variable {c : SentChunk} {stop : Nat} {v : ChunkOutcome}

theorem sentChunk_eq_some (sent : sentChunk inner offset answer = some c) :
    offset < inner.totalSize ∧
      c = ⟨offset, min (offset + inner.chunkSize) inner.totalSize, answer⟩ := by
  simp only [sentChunk] at sent
  split at sent
  · rename_i len read
    obtain ⟨inside, length⟩ := readUploadChunk_some read
    split at sent
    · rename_i uploadedEnd _ added
      obtain ⟨-, rfl⟩ := Word.checkedAdd_eq_some.mp added
      cases sent
      exact ⟨inside, by rw [length]⟩
    · cases sent
  · cases sent

theorem protocolCall_ok {said : Except MeowError UploadResumeInfo} {info : UploadResumeInfo}
    (answered : (protocolCall said).result = .ok info) : said = .ok info := by
  cases said with
  | error e => cases answered
  | ok given =>
    cases answered
    rfl

theorem validateSerialUploadAck_ok {total next : Nat} {nextByte : Option Nat}
    (accepted : validateSerialUploadAck offset stop total nextByte = .ok next) :
    next = nextByte.getD stop ∧ offset < next ∧ next ≤ stop := by
  simp only [validateSerialUploadAck] at accepted
  split at accepted
  · cases accepted
  split at accepted
  · cases accepted
  split at accepted
  · cases accepted
  · cases accepted
    omega

theorem validateSerialUploadAck_error (total : Nat) {nextByte : Option Nat}
    (outside : ¬ (offset < nextByte.getD stop ∧ nextByte.getD stop ≤ stop)) :
    ∃ e, validateSerialUploadAck offset stop total nextByte = .error e ∧
      e.code = InnerErrorCode.invalidRange.asI32 := by
  simp only [validateSerialUploadAck]
  split
  · exact ⟨_, rfl, rfl⟩
  split
  · exact ⟨_, rfl, rfl⟩
  split
  · exact ⟨_, rfl, rfl⟩
  · omega

theorem finishSerialChunk_ok {total next : Nat}
    (answered : (finishSerialChunk total next answer).result = .ok v) :
    v.nextOffset = next ∧ v.totalSize = total ∧ (v.done = true ↔ total ≤ next) := by
  simp only [finishSerialChunk] at answered
  split at answered
  · rename_i last
    obtain ⟨payload, -, answered⟩ := Call.andThen_result_eq_ok answered
    cases answered
    exact ⟨rfl, rfl, by simpa using last⟩
  · rename_i more
    cases answered
    exact ⟨rfl, rfl, by simpa using more⟩

theorem settleSerialChunk_ok {info : UploadResumeInfo}
    (answered : (settleSerialChunk inner offset stop info answer).result = .ok v) :
    v.totalSize = inner.totalSize ∧
      ((info.completedFileId.isSome = true ∧ v.nextOffset = inner.totalSize ∧ v.done = true) ∨
        (offset < v.nextOffset ∧ v.nextOffset ≤ stop ∧
          (v.done = true ↔ inner.totalSize ≤ v.nextOffset))) := by
  simp only [settleSerialChunk] at answered
  split at answered
  · rename_i id completed
    obtain ⟨-, -, answered⟩ := Call.andThen_result_eq_ok answered
    cases answered
    exact ⟨rfl, .inl ⟨by rw [completed]; rfl, rfl, rfl⟩⟩
  · split at answered
    · cases answered
    · rename_i next accepted
      obtain ⟨-, advances, inside⟩ := validateSerialUploadAck_ok accepted
      have finished : (finishSerialChunk inner.totalSize next answer).result = .ok v := by
        split at answered
        · exact (Call.andThen_result_eq_ok answered).choose_spec.2
        · exact answered
      obtain ⟨rfl, total, done⟩ := finishSerialChunk_ok finished
      exact ⟨total, .inr ⟨advances, inside, done⟩⟩

theorem uploadOneChunk_sent (sent : sentChunk inner offset answer = some c) :
    (uploadOneChunk inner offset inner.chunkSize answer).result =
      ((protocolCall answer.chunk).andThen fun info =>
        settleSerialChunk inner offset c.stop info answer).result := by
  simp only [sentChunk] at sent
  split at sent
  · rename_i len read
    split at sent
    · rename_i uploadedEnd valid added
      cases sent
      rw [uploadOneChunk, Call.andThen_result_ok read]
      dsimp only
      rw [Call.andThen_result_ok valid, added]
    · cases sent
  · cases sent

theorem uploadOneChunk_ok
    (answered : (uploadOneChunk inner offset inner.chunkSize answer).result = .ok v) :
    v.totalSize = inner.totalSize ∧
      ((inner.totalSize ≤ offset ∧ sentChunk inner offset answer = none ∧
          v.nextOffset = offset ∧ v.done = true) ∨
        ∃ c, sentChunk inner offset answer = some c ∧
          ((c.Completes ∧ v.nextOffset = inner.totalSize ∧ v.done = true) ∨
            (offset < v.nextOffset ∧ v.nextOffset ≤ c.stop ∧
              (v.done = true ↔ inner.totalSize ≤ v.nextOffset)))) := by
  cases sent : sentChunk inner offset answer with
  | some c =>
    rw [uploadOneChunk_sent sent] at answered
    obtain ⟨info, said, answered⟩ := Call.andThen_result_eq_ok answered
    obtain ⟨total, outcome⟩ := settleSerialChunk_ok answered
    refine ⟨total, .inr ⟨c, rfl, outcome.imp_left fun completed => ⟨⟨info, ?_, completed.1⟩, completed.2⟩⟩⟩
    rw [(sentChunk_eq_some sent).2]
    exact protocolCall_ok said
  | none =>
    obtain ⟨read, isRead, answered⟩ := Call.andThen_result_eq_ok answered
    cases read with
    | none =>
      obtain ⟨-, -, answered⟩ := Call.andThen_result_eq_ok answered
      cases answered
      exact ⟨rfl, .inl ⟨readUploadChunk_none isRead, rfl, rfl, rfl⟩⟩
    | some len =>
      -- a chunk that was read and passed its check is sent
      obtain ⟨checked, valid, settled⟩ := Call.andThen_result_eq_ok answered
      cases added : Word.checkedAdd 64 offset len with
      | none =>
        rw [added] at settled
        cases settled
      | some uploadedEnd => simp [sentChunk, isRead, valid, added] at sent

theorem uploadOneChunk_outside (sent : sentChunk inner offset answer = some c)
    (outside : c.Outside) :
    ∃ e, (uploadOneChunk inner offset inner.chunkSize answer).result = .error e ∧
      e.code = InnerErrorCode.invalidRange.asI32 ∧ isPermanent e = true := by
  obtain ⟨info, said, plain, refused⟩ := outside
  rw [(sentChunk_eq_some sent).2] at said refused
  obtain ⟨e, error, code⟩ := validateSerialUploadAck_error inner.totalSize refused
  refine ⟨e, ?_, code, validateSerialUploadAck_permanent error⟩
  have answered : (protocolCall answer.chunk).result = .ok info := by
    rw [show answer.chunk = .ok info from said]
    rfl
  rw [uploadOneChunk_sent sent, Call.andThen_result_ok answered, settleSerialChunk, plain]
  dsimp only
  rw [(sentChunk_eq_some sent).2, error]
  rfl

end Calls

variable {sent : List SentChunk} {start : Nat}

theorem Covered.append {stop : Nat} (covered : Covered start stop sent) (more : List SentChunk) :
    Covered start stop (sent ++ more) := by
  intro byte low high
  obtain ⟨c, member, inside⟩ := covered byte low high
  exact ⟨c, List.mem_append_left _ member, inside⟩

theorem Covered.extend {stop : Nat} {c : SentChunk} (covered : Covered start c.offset sent)
    (inside : stop ≤ c.stop) : Covered start stop (sent ++ [c]) := by
  intro byte low high
  rcases Nat.lt_or_ge byte c.offset with old | new
  · exact covered.append [c] byte low old
  · exact ⟨c, by simp, new, Nat.lt_of_lt_of_le high inside⟩

theorem uploadCursor_append {inner : InnerTask} (c : SentChunk) :
    uploadCursor inner start (sent ++ [c]) =
      match c.result inner with
      | .ok v => v.nextOffset
      | .error _ => uploadCursor inner start sent := by
  rw [uploadCursor, List.foldl_append]
  rfl

/-- The loop with its ghost fields. -/
structure SerialUpload where
  run : Run
  sent : List SentChunk
  outcomes : List ChunkOutcome

inductive SerialInput where
  | worker (choice : Choice)
  | pause
  | cancel
  /-- The token is cancelled. -/
  | interrupt

/-- The chunk call of an upload that returns with the choice. -/
def Pc.uploadReturn : Pc → Choice → Option (Nat × UploadAnswer)
  | .serialChunk offset _ _ (.call _), .chunk (.answer (.upload answer)) => some (offset, answer)
  | _, _ => none

/-- A chunk that may be sent after the others: it starts where they ended, and
each of them let the loop go on. -/
def Sends (inner : InnerTask) (start : Nat) (before : List SentChunk) (c : SentChunk) : Prop :=
  sentChunk inner c.offset c.answer = some c ∧ c.offset = uploadCursor inner start before ∧
    ∀ d ∈ before, d.GoesOn inner

namespace SerialUpload

/-- The loop is entered at the prepared offset, which was reported. -/
def prepared (inner : InnerTask) (start : Nat) (token : Bool) (cell : TaskCell) : SerialUpload where
  run :=
    { pc := .serialHead start inner.totalSize
      outbox := [.progress inner.dedupeKey start inner.totalSize]
      token := token
      cell := cell }
  sent := []
  outcomes := []

variable (inner : InnerTask)

/-- The ghost fields after a step of the worker. -/
def worker (s : SerialUpload) (choice : Choice) (run : Run) : SerialUpload where
  run := run
  sent := s.sent ++
    ((s.run.pc.uploadReturn choice).bind fun (offset, answer) =>
      sentChunk inner offset answer).toList
  outcomes := s.outcomes ++
    ((s.run.pc.uploadReturn choice).bind fun (offset, answer) =>
      (uploadOneChunk inner offset inner.chunkSize answer).result.toOption).toList

def step (s : SerialUpload) : SerialInput → Option SerialUpload
  | .worker choice => (s.run.step inner choice).map (s.worker inner choice)
  | .pause =>
    some { s with run.cell := s.run.cell.setTerminal s.run.cell.life.terminal.beginPause.1 }
  | .cancel =>
    some { s with run.cell := s.run.cell.setTerminal s.run.cell.life.terminal.beginCancel.1 }
  | .interrupt => some { s with run.token := true }

variable (start : Nat)

/-- Every byte up to `stop` was sent, or the server has the whole file. -/
def Claimed (stop : Nat) (sent : List SentChunk) : Prop :=
  (stop = inner.totalSize ∧ ∃ c ∈ sent, c.Completes) ∨ Covered start stop sent

/-- What an event of the worker says about the bytes. -/
def Reported (sent : List SentChunk) : WorkerEvent → Prop
  | .progress _ offset _ => Claimed inner start offset sent
  | .completed _ _ _ => Claimed inner start inner.totalSize sent
  | .failed _ _ _ | .canceled _ _ => True

structure Stand (sent : List SentChunk) (outcomes : List ChunkOutcome) (offset : Nat) : Prop where
  cursor : uploadCursor inner start sent = offset
  low : start ≤ offset
  count : outcomes.length ≤ offset - start
  room : offset < inner.totalSize ∨ (offset = start ∧ outcomes = [])
  covered : Covered start offset sent

def AllGoOn (sent : List SentChunk) : Prop := ∀ c ∈ sent, c.GoesOn inner

def Sane (sent : List SentChunk) : Prop :=
  ∀ c ∈ sent, ∀ e, c.result inner = .error e → isPermanent e = false

def Failing (sent : List SentChunk) (e : MeowError) : Prop :=
  ∃ earlier, AllGoOn inner earlier ∧
    (sent = earlier ∨ ∃ c, sent = earlier ++ [c] ∧ c.result inner = .error e)

/-- What the loop knows inside of a chunk. -/
def RetryPlace (sent : List SentChunk) (outcomes : List ChunkOutcome) (offset : Nat) :
    Retry → Prop
  | .check _ | .call _ | .backoff _ => Stand inner start sent outcomes offset ∧ AllGoOn inner sent
  | .failed _ e | .failedToken _ e => Stand inner start sent outcomes offset ∧ Failing inner sent e
  | .settleClaim | .settled .cancelled => Sane inner sent
  | .settled (.failed e) => Failing inner sent e
  | .settled (.done v) =>
    v.totalSize = inner.totalSize ∧
      if v.done then
        Sane inner sent ∧ Claimed inner start v.nextOffset sent ∧ Claimed inner start inner.totalSize sent
      else Stand inner start sent outcomes v.nextOffset ∧ AllGoOn inner sent

/-- What the event that ends a run says about the chunks. -/
def Verdict (sent : List SentChunk) : WorkerEvent → Prop
  | .failed _ e _ => Failing inner sent e
  | .progress _ _ _ | .completed _ _ _ | .canceled _ _ => Sane inner sent

def Place (s : SerialUpload) : Prop :=
  match s.run.pc with
  | .serialHead offset total | .serialClaim offset total | .serialFinish offset total =>
    total = inner.totalSize ∧ Stand inner start s.sent s.outcomes offset ∧ AllGoOn inner s.sent
  | .serialChunk offset total _ retry =>
    total = inner.totalSize ∧ RetryPlace inner start s.sent s.outcomes offset retry
  | .serialDone _ _ | .release _ _ => Sane inner s.sent ∧ Claimed inner start inner.totalSize s.sent
  | .exitCanceled _ => Sane inner s.sent
  | .exitFailed e _ _ => Failing inner s.sent e
  | .finished =>
    ∃ event, s.run.outbox.getLast? = some event ∧ Verdict inner s.sent event
  | _ => False

structure Law (s : SerialUpload) : Prop where
  sends : Trace.Always (Sends inner start) s.sent
  count : s.outcomes.length ≤ max 1 (inner.totalSize - start)
  reports : ∀ event ∈ s.run.outbox, Reported inner start s.sent event
  /-- The event that ends the run is the last one. -/
  ends : ∀ event ∈ s.run.outbox, event.mayChangeSchedulerReadiness = true →
    s.run.pc = .finished ∧ s.run.outbox.getLast? = some event
  place : s.Place inner start

section Facts

variable {inner start} {sent : List SentChunk} {outcomes : List ChunkOutcome} {e : MeowError}

theorem AllGoOn.sane (all : AllGoOn inner sent) : Sane inner sent := by
  intro c member e failed
  have goes := all c member
  simp only [SentChunk.GoesOn, failed] at goes
  simp [isPermanent, goes]

theorem AllGoOn.failing (all : AllGoOn inner sent) (e : MeowError) : Failing inner sent e :=
  ⟨sent, all, .inl rfl⟩

variable {c : SentChunk}

theorem AllGoOn.concat (all : AllGoOn inner sent) (goes : c.GoesOn inner) :
    AllGoOn inner (sent ++ [c]) := by
  intro d member
  rcases List.mem_append.mp member with old | new
  · exact all d old
  · rw [List.mem_singleton.mp new]
    exact goes

theorem Failing.goesOn (failing : Failing inner sent e) (again : isTransportRetryable e = true) :
    AllGoOn inner sent := by
  obtain ⟨earlier, all, rfl | ⟨c, rfl, failed⟩⟩ := failing
  · exact all
  · refine all.concat ?_
    rw [SentChunk.GoesOn, failed]
    exact again

theorem Failing.sane (failing : Failing inner sent e) (passing : isPermanent e = false) :
    Sane inner sent := by
  obtain ⟨earlier, all, rfl | ⟨c, rfl, failed⟩⟩ := failing
  · exact all.sane
  · intro d member other error
    rcases List.mem_append.mp member with old | new
    · exact all.sane d old other error
    · rw [List.mem_singleton.mp new, failed] at error
      cases error
      exact passing

theorem Failing.last {other : MeowError} (failing : Failing inner sent e) (member : c ∈ sent)
    (error : c.result inner = .error other) (permanent : isPermanent other = true) :
    other = e := by
  obtain ⟨earlier, all, rfl | ⟨d, rfl, failed⟩⟩ := failing
  · rw [all.sane c member other error] at permanent
    cases permanent
  · rcases List.mem_append.mp member with old | new
    · rw [all.sane c old other error] at permanent
      cases permanent
    · rw [List.mem_singleton.mp new, failed] at error
      exact (Except.error.inj error).symm

theorem Claimed.append {stop : Nat} (claimed : Claimed inner start stop sent) (more : List SentChunk) :
    Claimed inner start stop (sent ++ more) := by
  rcases claimed with ⟨whole, c, member, completes⟩ | covered
  · exact .inl ⟨whole, c, List.mem_append_left _ member, completes⟩
  · exact .inr (covered.append more)

theorem Reported.append {event : WorkerEvent} (reported : Reported inner start sent event)
    (more : List SentChunk) : Reported inner start (sent ++ more) event := by
  cases event with
  | progress | completed => exact Claimed.append reported more
  | failed => trivial
  | canceled => trivial

theorem AllGoOn.sane_concat {v : ChunkOutcome} (all : AllGoOn inner sent)
    (answered : c.result inner = .ok v) : Sane inner (sent ++ [c]) := by
  intro d member e failed
  rcases List.mem_append.mp member with old | new
  · exact all.sane d old e failed
  · rw [List.mem_singleton.mp new, answered] at failed
    cases failed

theorem Stand.count_succ {offset : Nat} (stand : Stand inner start sent outcomes offset) :
    outcomes.length + 1 ≤ max 1 (inner.totalSize - start) := by
  have count := stand.count
  have low := stand.low
  rcases stand.room with inside | ⟨-, none⟩
  · omega
  · rw [none, List.length_nil]
    omega

section Return

variable {offset : Nat} {answer : UploadAnswer}

variable (stand : Stand inner start sent outcomes offset) (all : AllGoOn inner sent)
include stand all

theorem Stand.error
    (failed : (uploadOneChunk inner offset inner.chunkSize answer).result = .error e) :
    Stand inner start (sent ++ (sentChunk inner offset answer).toList) outcomes offset ∧
      Failing inner (sent ++ (sentChunk inner offset answer).toList) e := by
  cases reached : sentChunk inner offset answer with
  | none =>
    rw [Option.toList_none, List.append_nil]
    exact ⟨stand, all.failing e⟩
  | some c =>
    rw [Option.toList_some]
    obtain ⟨-, rfl⟩ := sentChunk_eq_some reached
    refine ⟨⟨?_, stand.low, stand.count, stand.room, stand.covered.append _⟩,
      sent, all, .inr ⟨_, rfl, failed⟩⟩
    rw [uploadCursor_append, SentChunk.result, failed]
    exact stand.cursor

theorem Stand.ok {v : ChunkOutcome}
    (answered : (uploadOneChunk inner offset inner.chunkSize answer).result = .ok v) :
    RetryPlace inner start (sent ++ (sentChunk inner offset answer).toList) (outcomes ++ [v])
      offset (.settled (.done v)) := by
  obtain ⟨total, ⟨past, unsent, next, done⟩ | ⟨c, reached, outcome⟩⟩ := uploadOneChunk_ok answered
  · refine ⟨total, ?_⟩
    rw [if_pos done, unsent, Option.toList_none, List.append_nil, next]
    exact ⟨all.sane, .inr stand.covered, .inr fun byte low high =>
      stand.covered byte low (Nat.lt_of_lt_of_le high past)⟩
  · rw [reached, Option.toList_some]
    obtain ⟨inside, rfl⟩ := sentChunk_eq_some reached
    refine ⟨total, ?_⟩
    obtain ⟨completes, whole, done⟩ | ⟨advances, acknowledged, done⟩ := outcome
    · rw [if_pos done]
      exact ⟨all.sane_concat answered, .inl ⟨whole, _, by simp, completes⟩,
        .inl ⟨rfl, _, by simp, completes⟩⟩
    · have covered := stand.covered.extend acknowledged
      cases last : v.done with
      | true =>
        have whole : inner.totalSize ≤ v.nextOffset := done.mp last
        rw [if_pos rfl]
        exact ⟨all.sane_concat answered, .inr covered, .inr fun byte low high =>
          covered byte low (Nat.lt_of_lt_of_le high whole)⟩
      | false =>
        have more : v.nextOffset < inner.totalSize := by
          by_contra whole
          rw [done.mpr (Nat.le_of_not_lt whole)] at last
          cases last
        have low := stand.low
        have count := stand.count
        rw [if_neg Bool.false_ne_true]
        refine ⟨⟨?_, by omega, ?_, .inl more, covered⟩, all.concat ?_⟩
        · rw [uploadCursor_append, SentChunk.result, answered]
        · rw [List.length_append, List.length_singleton]
          omega
        · rw [SentChunk.GoesOn, SentChunk.result, answered]
          exact last

theorem Stand.sends (before : Trace.Always (Sends inner start) sent) :
    Trace.Always (Sends inner start) (sent ++ (sentChunk inner offset answer).toList) := by
  cases reached : sentChunk inner offset answer with
  | none => rwa [Option.toList_none, List.append_nil]
  | some c =>
    obtain ⟨-, rfl⟩ := sentChunk_eq_some reached
    exact Trace.always_append_singleton.mpr ⟨before, reached, stand.cursor.symm, all⟩

end Return

end Facts

section Steps

variable {inner start} {s : SerialUpload} {run : Run} {choice : Choice}

theorem law_prepared (token : Bool) (cell : TaskCell) :
    Law inner start (prepared inner start token cell) where
  sends := Trace.always_nil _
  count := Nat.zero_le _
  reports := by
    intro event member
    rw [List.mem_singleton.mp member]
    exact .inr fun byte low high => absurd high (Nat.not_lt.mpr low)
  ends := by
    intro event member terminal
    rw [List.mem_singleton.mp member] at terminal
    cases terminal
  place := ⟨rfl, ⟨rfl, le_rfl, Nat.zero_le _, .inr ⟨rfl, rfl⟩,
    fun _ low high => absurd high (Nat.not_lt.mpr low)⟩, fun _ member => absurd member List.not_mem_nil⟩

theorem worker_silent (silent : s.run.pc.uploadReturn choice = none) :
    s.worker inner choice run = { s with run := run } := by
  simp [worker, silent]

section

variable (law : Law inner start s) (busy : s.run.pc ≠ .finished)
include law busy

theorem Law.move (outbox : run.outbox = s.run.outbox)
    (place : Place inner start { s with run := run }) :
    Law inner start { s with run := run } where
  sends := law.sends
  count := law.count
  reports := by
    rw [outbox]
    exact law.reports
  ends := by
    rw [outbox]
    exact fun event member terminal => absurd (law.ends event member terminal).1 busy
  place := place

theorem Law.send {event : WorkerEvent} (outbox : run.outbox = s.run.outbox ++ [event])
    (reported : Reported inner start s.sent event)
    (ends : event.mayChangeSchedulerReadiness = true → run.pc = .finished)
    (place : Place inner start { s with run := run }) : Law inner start { s with run := run } where
  sends := law.sends
  count := law.count
  reports := by
    intro other member
    rw [outbox] at member
    rcases List.mem_append.mp member with old | new
    · exact law.reports other old
    · rw [List.mem_singleton.mp new]
      exact reported
  ends := by
    intro other member terminal
    rw [outbox] at member
    rcases List.mem_append.mp member with old | new
    · exact absurd (law.ends other old terminal).1 busy
    · rw [List.mem_singleton.mp new] at terminal ⊢
      refine ⟨ends terminal, ?_⟩
      rw [outbox]
      exact List.getLast?_concat
  place := place

theorem Law.finish {event : WorkerEvent} (pc : run.pc = .finished)
    (outbox : run.outbox = s.run.outbox ++ [event]) (reported : Reported inner start s.sent event)
    (verdict : Verdict inner s.sent event) :
    Law inner start { s with run := run } := by
  refine law.send busy outbox reported (fun _ => pc) ?_
  rw [Place, pc]
  exact ⟨event, by rw [outbox]; exact List.getLast?_concat, verdict⟩

end

theorem Law.retry {offset total : Nat} {claimed token : Bool} {before next : Retry}
    {old cell : TaskCell} {choice : RetryChoice} {outbox : List WorkerEvent}
    {sent : List SentChunk} {outcomes : List ChunkOutcome} (upload : inner.direction = .upload)
    (law : Law inner start ⟨⟨.serialChunk offset total claimed before, outbox, token, old⟩,
      sent, outcomes⟩)
    (moved : Retry.Step { inner := inner, mode := .whole, offset := offset, token := token }
      old choice before next cell) :
    Law inner start (worker inner
      ⟨⟨.serialChunk offset total claimed before, outbox, token, old⟩, sent, outcomes⟩
      (.chunk choice) ⟨.serialChunk offset total claimed next, outbox, token, cell⟩) := by
  obtain ⟨same, place⟩ := law.place
  cases moved with
  | headInterrupted | backoffInterrupted =>
    rw [worker_silent rfl]
    exact law.move (by simp) rfl ⟨same, place.2.sane⟩
  | request | inspect | settle | wake =>
    rw [worker_silent rfl]
    exact law.move (by simp) rfl ⟨same, place⟩
  | @returned attempt answer transfer called =>
    obtain ⟨stand, all⟩ := place
    simp only [transferChunk, upload] at called
    cases answer with
    | download result => cases called
    | upload answer =>
      cases called
      have reports := fun event member => (law.reports event member).append
        (sentChunk inner offset answer).toList
      have unended : ∀ event ∈ outbox, ¬ event.mayChangeSchedulerReadiness = true :=
        fun event member terminal => by simpa using (law.ends event member terminal).1
      cases result : (uploadOneChunk inner offset inner.chunkSize answer).result with
      | error e =>
        simp only [worker, Pc.uploadReturn, Option.bind_some, result, Except.toOption,
          Option.toList_none, List.append_nil]
        exact ⟨stand.sends all law.sends, law.count, reports,
          fun event member terminal => absurd terminal (unended event member), same, stand.error all result⟩
      | ok v =>
        simp only [worker, Pc.uploadReturn, Option.bind_some, result, Except.toOption,
          Option.toList_some]
        refine ⟨stand.sends all law.sends, ?_, reports,
          fun event member terminal => absurd terminal (unended event member), same, stand.ok all result⟩
        rw [List.length_append, List.length_singleton]
        exact stand.count_succ
  | @stopped attempt e canceled requested =>
    rw [worker_silent rfl]
    refine law.move (by simp) rfl ⟨same, place.2.sane ?_⟩
    simp [isPermanent, cancellationCanMask_of_isTaskCanceled canceled]
  | masked seen can =>
    rw [worker_silent rfl]
    refine law.move (by simp) rfl ⟨same, place.2.sane ?_⟩
    simp [isPermanent, can]
  | giveUp =>
    rw [worker_silent rfl]
    exact law.move (by simp) rfl ⟨same, place.2⟩
  | delay again more =>
    rw [worker_silent rfl]
    exact law.move (by simp) rfl ⟨same, place.1, place.2.goesOn again⟩

theorem Law.chunkDone {offset total : Nat} {claimed token : Bool} {cell : TaskCell}
    {outbox : List WorkerEvent} {sent : List SentChunk} {outcomes : List ChunkOutcome}
    {outcome : ChunkOutcome}
    (law : Law inner start
      ⟨⟨.serialChunk offset total claimed (.settled (.done outcome)), outbox, token, cell⟩,
        sent, outcomes⟩) :
    Law inner start
      ⟨Run.chunkDone inner
        ⟨.serialChunk offset total claimed (.settled (.done outcome)), outbox, token, cell⟩
        total claimed outcome, sent, outcomes⟩ := by
  obtain ⟨rfl, size, place⟩ := law.place
  have known : (if outcome.totalSize > 0 then outcome.totalSize else inner.totalSize) =
      inner.totalSize := by
    rw [size]
    split <;> rfl
  have sends : (Run.chunkDone inner ⟨.serialChunk offset inner.totalSize claimed
      (.settled (.done outcome)), outbox, token, cell⟩ inner.totalSize claimed outcome).outbox =
        outbox ++ [.progress inner.dedupeKey outcome.nextOffset inner.totalSize] := by
    simp only [Run.chunkDone, known]
    split
    · rfl
    · split <;> rfl
  cases done : outcome.done with
  | true =>
    rw [done, if_pos rfl] at place
    obtain ⟨sane, reached, whole⟩ := place
    refine law.send nofun sends reached nofun ?_
    simp only [Run.chunkDone, known, done, if_true]
    exact ⟨sane, whole⟩
  | false =>
    rw [done, if_neg Bool.false_ne_true] at place
    obtain ⟨stand, all⟩ := place
    refine law.send nofun sends (.inr stand.covered) nofun ?_
    simp only [Run.chunkDone, known, done, Bool.false_eq_true, if_false]
    cases claimed with
    | true => exact ⟨rfl, stand, all⟩
    | false => exact ⟨rfl, stand, all⟩

theorem Law.worker (upload : inner.direction = .upload) (law : Law inner start s)
    (taken : s.run.step inner choice = some run) :
    Law inner start (s.worker inner choice run) := by
  have moved := Run.step_cases taken
  have place := law.place
  obtain ⟨⟨pc, outbox, token, cell⟩, sent, outcomes⟩ := s
  dsimp only at moved
  cases moved with
  | serialInterrupted seen =>
    rw [worker_silent rfl]
    exact law.move nofun rfl place.2.2.sane
  | serialLast | serialNext | serialAck =>
    rw [worker_silent rfl]
    exact law.move nofun rfl place
  | serialClaim =>
    rw [worker_silent rfl]
    refine law.move nofun rfl ?_
    simp only [Run.claim, Place]
    cases cell.life.terminal.beginCompletion.2 with
    | true => exact ⟨place.1, place.2⟩
    | false => exact place.2.2.sane
  | serialRetry moved => exact law.retry upload moved
  | serialOutcome =>
    rw [worker_silent rfl]
    exact law.chunkDone
  | serialCancelled | serialFailed =>
    rw [worker_silent rfl]
    exact law.move nofun rfl place.2
  | serialFinish =>
    rw [worker_silent rfl]
    refine law.move nofun rfl ?_
    simp only [Place]
    cases cell.life.terminal.finishIncompleteCompletion.2.isSome with
    | true => exact place.2.2.sane
    | false => exact place
  | releaseFailed download | cleanupFailed download => cases upload.symm.trans download
  | released =>
    rw [worker_silent rfl]
    exact law.finish nofun rfl rfl place.2 place.1
  | canceled =>
    rw [worker_silent rfl]
    exact law.finish nofun rfl rfl trivial place
  | @failed e total settles =>
    rw [worker_silent rfl]
    have sends : (Run.exitFailed inner ⟨.exitFailed e total settles, outbox, token, cell⟩
        e total settles).outbox = outbox ++ [.failed inner.dedupeKey e total] := by
      simp only [Run.exitFailed]
      split <;> rfl
    exact law.finish nofun rfl sends trivial place
  | prepInterrupted seen waiting => obtain rfl | rfl := waiting <;> exact place.elim
  | _ => exact place.elim

theorem Law.step {input : SerialInput} {next : SerialUpload} (upload : inner.direction = .upload)
    (law : Law inner start s) (taken : s.step inner input = some next) : Law inner start next := by
  cases input with
  | worker choice =>
    simp only [SerialUpload.step, Option.map_eq_some_iff] at taken
    obtain ⟨run, moved, rfl⟩ := taken
    exact law.worker upload moved
  | pause | cancel | interrupt =>
    cases taken
    exact ⟨law.sends, law.count, law.reports, law.ends, law.place⟩

end Steps

/-- The run is failing, or has failed, with the error. -/
def FailsWith (s : SerialUpload) (e : MeowError) : Prop :=
  match s.run.pc with
  | .serialChunk _ _ _ (.failed _ error) | .serialChunk _ _ _ (.failedToken _ error)
  | .serialChunk _ _ _ (.settled (.failed error)) | .exitFailed error _ _ => error = e
  | .finished => ∃ key total, s.run.outbox.getLast? = some (.failed key e total)
  | _ => False

section Results

variable {inner start} {s : SerialUpload} {c : SentChunk} {e : MeowError}

theorem Law.failsWith (law : Law inner start s) (member : c ∈ s.sent)
    (failed : c.result inner = .error e) (permanent : isPermanent e = true) : s.FailsWith e := by
  have insane : ¬ Sane inner s.sent := fun sane =>
    Bool.false_ne_true ((sane c member e failed).symm.trans permanent)
  have same : ∀ {other}, Failing inner s.sent other → other = e := fun failing =>
    (failing.last member failed permanent).symm
  have place := law.place
  simp only [Place] at place
  simp only [FailsWith]
  split at place
  · exact absurd place.2.2.sane insane
  · exact absurd place.2.2.sane insane
  · exact absurd place.2.2.sane insane
  · rename_i retry here
    rw [here]
    have inside := place.2
    cases retry with
    | check | call | backoff => exact absurd inside.2.sane insane
    | failed | failedToken => exact same inside.2
    | settleClaim => exact absurd inside insane
    | settled result =>
      cases result with
      | cancelled => exact absurd inside insane
      | failed error => exact same inside
      | done v =>
        obtain ⟨-, inside⟩ := inside
        split at inside
        · exact absurd inside.1 insane
        · exact absurd inside.2.sane insane
  · exact absurd place.1 insane
  · exact absurd place.1 insane
  · exact absurd place insane
  · rename_i here
    rw [here]
    exact same place
  · rename_i here
    rw [here]
    obtain ⟨event, last, verdict⟩ := place
    cases event with
    | failed key error total =>
      rw [same verdict] at last
      exact ⟨key, total, last⟩
    | progress | completed | canceled => exact absurd verdict insane
  · exact place.elim

/-- Some steps of the worker alone end the run with the error. -/
def EndsWith (inner : InnerTask) (s : SerialUpload) (e : MeowError) : Prop :=
  ∃ (choices : List Choice) (t : SerialUpload),
    Machine.exec (SerialUpload.step inner) s (choices.map .worker) = some t ∧
      t.run.pc = .finished ∧ t.FailsWith e

theorem EndsWith.cons (run : Run) (choice : Choice)
    (silent : s.run.pc.uploadReturn choice = none) (taken : s.run.step inner choice = some run)
    (ends : EndsWith inner { s with run := run } e) : EndsWith inner s e := by
  obtain ⟨choices, last, executed, finished⟩ := ends
  refine ⟨choice :: choices, last, ?_, finished⟩
  rw [List.map_cons, Machine.exec_cons, SerialUpload.step, taken, Option.map_some,
    worker_silent silent]
  exact executed

section Ends

variable {offset total attempt : Nat} {claimed settles : Bool}

theorem endsWith_exitFailed (here : s.run.pc = .exitFailed e total settles) :
    EndsWith inner s e := by
  have taken : s.run.step inner .tick = some (s.run.exitFailed inner e total settles) := by
    simp only [Run.step, here, Run.stepExit]
  refine .cons _ .tick (by rw [here]; rfl) taken ⟨[], _, rfl, rfl, inner.dedupeKey, total, ?_⟩
  simp only [Run.exitFailed]
  split <;> exact List.getLast?_concat

theorem endsWith_settled (here : s.run.pc = .serialChunk offset total claimed (.settled (.failed e))) :
    EndsWith inner s e := by
  have taken : s.run.step inner .tick = some (s.run.goto (.exitFailed e total true)) := by
    simp only [Run.step, here, Run.stepSerial]
  exact .cons _ .tick (by rw [here]; rfl) taken (endsWith_exitFailed rfl)

theorem endsWith_failedToken (permanent : isPermanent e = true)
    (here : s.run.pc = .serialChunk offset total claimed (.failedToken attempt e)) :
    EndsWith inner s e := by
  have kept : cancellationCanMask e = false ∧ isTransportRetryable e = false := by
    simpa [isPermanent] using permanent
  have taken : s.run.step inner (.chunk .tick) =
      some (s.run.goto (.serialChunk offset total claimed (.settled (.failed e)))) := by
    simp [Run.step, here, Run.stepSerial, Retry.step, kept, Run.goto]
  exact .cons _ (.chunk .tick) (by rw [here]; rfl) taken (endsWith_settled rfl)

theorem endsWith_failed (permanent : isPermanent e = true)
    (here : s.run.pc = .serialChunk offset total claimed (.failed attempt e)) :
    EndsWith inner s e := by
  have taken : s.run.step inner (.chunk .tick) =
      some (s.run.goto (.serialChunk offset total claimed (.failedToken attempt e))) := by
    simp [Run.step, here, Run.stepSerial, Retry.step,
      not_isTaskCanceled_of_isPermanent permanent, Run.goto]
  exact .cons _ (.chunk .tick) (by rw [here]; rfl) taken (endsWith_failedToken permanent rfl)

end Ends

theorem FailsWith.endsWith (fails : s.FailsWith e) (permanent : isPermanent e = true) :
    EndsWith inner s e := by
  have stays := fails
  simp only [FailsWith] at fails
  split at fails
  · rename_i here
    exact endsWith_failed permanent (fails ▸ here)
  · rename_i here
    exact endsWith_failedToken permanent (fails ▸ here)
  · rename_i here
    exact endsWith_settled (fails ▸ here)
  · rename_i here
    exact endsWith_exitFailed (fails ▸ here)
  · rename_i here
    exact ⟨[], s, rfl, here, stays⟩
  · exact fails.elim

/-- Every chunk that is sent starts where the loop stands, and an accepted answer moves the
loop forward inside of the chunk.  A reported offset has only sent bytes before it, unless
it is the end of the file that the server answered with a file id for.  An answer outside of
the chunk ends the run with its error. -/
theorem serial_upload_coverage {token : Bool} {cell : TaskCell} (upload : inner.direction = .upload)
    (reached : Machine.Reachable (step inner) (prepared inner start token cell) s) :
    Trace.Always
        (fun before c =>
          c.offset = uploadCursor inner start before ∧
            c.stop = min (c.offset + inner.chunkSize) inner.totalSize ∧ c.offset < c.stop ∧
            ∀ d ∈ before, d.GoesOn inner)
        s.sent ∧
      (∀ c ∈ s.sent, ∀ v, c.result inner = .ok v → ¬ c.Completes →
        c.offset < v.nextOffset ∧ v.nextOffset ≤ c.stop) ∧
      (∀ key offset total, .progress key offset total ∈ s.run.outbox →
        (offset = inner.totalSize ∧ ∃ c ∈ s.sent, c.Completes) ∨ Covered start offset s.sent) ∧
      s.outcomes.length ≤ max 1 (inner.totalSize - start) ∧
      (∀ key total payload, .completed key total payload ∈ s.run.outbox →
        (∀ c ∈ s.sent, ¬ c.Completes) → Covered start inner.totalSize s.sent) ∧
      ∀ before c after, s.sent = before ++ c :: after → c.Outside →
        after = [] ∧ ∃ e, c.result inner = .error e ∧
          e.code = InnerErrorCode.invalidRange.asI32 ∧ s.FailsWith e ∧ EndsWith inner s e ∧
          ∀ event ∈ s.run.outbox, event.mayChangeSchedulerReadiness = true →
            ∃ key total, event = .failed key e total := by
  have law : Law inner start s := reached.invariant (Law inner start) (law_prepared token cell)
    fun _ _ _ law _ taken => law.step upload taken
  have sent : ∀ c ∈ s.sent, sentChunk inner c.offset c.answer = some c := by
    intro c member
    obtain ⟨before, after, split⟩ := List.append_of_mem member
    exact (law.sends before c after split).1
  refine ⟨fun before c after split => ?_, fun c member v answered incomplete => ?_,
    fun key offset total reported => law.reports _ reported, law.count,
    fun key total payload reported incomplete => ?_, fun before c after split outside => ?_⟩
  · obtain ⟨reached, cursor, all⟩ := law.sends before c after split
    obtain ⟨inside, shape⟩ := sentChunk_eq_some reached
    have stop := congrArg SentChunk.stop shape
    have positive := inner.chunkSize_pos
    exact ⟨cursor, stop, by rw [stop]; dsimp only; omega, all⟩
  · obtain ⟨-, ⟨-, unsent, -⟩ | ⟨d, reached, outcome⟩⟩ := uploadOneChunk_ok answered
    · cases unsent.symm.trans (sent c member)
    · cases reached.symm.trans (sent c member)
      obtain ⟨completes, -⟩ | ⟨advances, inside, -⟩ := outcome
      · exact absurd completes incomplete
      · exact ⟨advances, inside⟩
  · obtain ⟨-, c, member, completes⟩ | covered := law.reports _ reported
    · exact absurd completes (incomplete c member)
    · exact covered
  · have member : c ∈ s.sent := by
      rw [split]
      simp
    obtain ⟨e, failed, code, permanent⟩ := uploadOneChunk_outside (sent c member) outside
    have fails := law.failsWith member failed permanent
    refine ⟨?_, e, failed, code, fails, fails.endsWith permanent, ?_⟩
    · cases after with
      | nil => rfl
      | cons d rest =>
        -- the next chunk was sent although this one does not let the loop go on
        have goes := (law.sends (before ++ [c]) d rest (by rw [split]; simp)).2.2 c (by simp)
        simp only [SentChunk.GoesOn, SentChunk.result, failed] at goes
        simp [isPermanent, goes] at permanent
    · intro event member terminal
      obtain ⟨finished, last⟩ := law.ends event member terminal
      simp only [FailsWith, finished] at fails
      obtain ⟨key, total, same⟩ := fails
      exact ⟨key, total, Option.some.inj (last.symm.trans same)⟩

end Results

section Samples

def sampleTask : InnerTask where
  taskId := 1
  fileSign := "a"
  fileName := "a"
  uploadFileSnapshot := none
  direction := .upload
  totalSize := 8
  chunkSize := 4
  url := "u"
  maxChunkRetries := 1
  maxUploadPrepareRetries := 1
  maxPartsInFlight := 1
  supportsParallelParts := false
  totalSize_le := sample_total
  chunkSize_pos := sample_chunk

def sampleAnswer (info : UploadResumeInfo) : SerialInput :=
  .worker (.chunk (.answer (.upload
    { source := none, beforeLast := none, chunk := .ok info, afterTerminal := none,
      complete := .ok none })))

/-- The server takes three bytes of the first chunk and then claims more than the
second one had. -/
theorem serial_upload_coverage_sample : ∃ s,
    Machine.Reachable (step sampleTask) (prepared sampleTask 0 false TaskCell.new) s ∧
      s.sent.map (fun c => (c.offset, c.stop)) = [(0, 4), (3, 7)] ∧
      s.run.outbox = [.progress (.upload, "a") 0 8, .progress (.upload, "a") 3 8] ∧
      s.outcomes.length ≤ 8 := by
  have reached : Machine.Reachable (step sampleTask)
      (prepared sampleTask 0 false TaskCell.new) _ :=
    Machine.reachable_of_exec (show Machine.exec (step sampleTask) _
      [.worker .tick, .worker (.chunk .tick), sampleAnswer ⟨none, some 3⟩, .worker .tick,
       .worker .tick, .worker (.chunk .tick), sampleAnswer ⟨none, some 9⟩] = some _ from rfl)
  exact ⟨_, reached, rfl, rfl, (serial_upload_coverage rfl reached).2.2.2.1⟩

/-- The server reports a file id for the first chunk: the end of the file is
reported although only four bytes were sent. -/
theorem completed_file_id_uncovered : ∃ s,
    Machine.Reachable (step sampleTask) (prepared sampleTask 0 false TaskCell.new) s ∧
      .progress (.upload, "a") 8 8 ∈ s.run.outbox ∧
      s.sent.map (fun c => (c.offset, c.stop)) = [(0, 4)] ∧ ¬ Covered 0 8 s.sent := by
  have reached : Machine.Reachable (step sampleTask)
      (prepared sampleTask 0 false TaskCell.new) _ :=
    Machine.reachable_of_exec (show Machine.exec (step sampleTask) _
      [.worker .tick, .worker (.chunk .tick), sampleAnswer ⟨some "f", none⟩,
       .worker .tick] = some _ from rfl)
  refine ⟨_, reached, by decide, rfl, fun covered => ?_⟩
  obtain ⟨c, member, -, below⟩ := covered 4 (by decide) (by decide)
  rw [List.mem_singleton.mp member] at below
  exact absurd below (by decide)

end Samples

end SerialUpload

end RustyCat
