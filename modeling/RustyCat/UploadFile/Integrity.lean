import RustyCat.UploadFile.Invariant

/-!
# What an upload sends, and when it is finalized

Every chunk is a slice of the content the first scan read, and `complete_upload` is
called by the only request that runs, after every byte was acknowledged and the
opened file and the visible path were read back as the content.
-/

namespace RustyCat

open Interaction Interaction.Attempt Blocks

namespace UploadFile

variable {Digest : Type} [DecidableEq Digest] {sha256 : List UInt8 → Digest}
  {upload : Upload Digest} {content : List UInt8} {s : Session} {t : Thread}

/-! ## What the protocol sees -/

theorem acknowledged_inside {serial : Bool} {index : Nat} {event : Event Op Answer}
    (sent : ∀ offset chunk, event.op = .uploadChunk offset chunk → IsSlice content offset chunk)
    (acknowledged : acknowledges serial index event) : index < content.length := by
  obtain ⟨op, answer⟩ := event
  cases op with
  | uploadChunk offset chunk =>
    have part := sent offset chunk rfl
    simp only [acknowledges] at acknowledged
    split at acknowledged
    · exact acknowledged.elim
    · exact Nat.lt_of_lt_of_le acknowledged.2.1 part.inside
  | _ => exact acknowledged.elim

/-- The state in which `complete_upload` is called: nothing else runs, every byte
from the prepared offset on was acknowledged, and after that, with no other call of
the protocol, the file in the slot and the visible path were read back. -/
structure Finalizing (upload : Upload Digest) (content : List UInt8) (s : Session) (t : Thread) :
    Prop where
  only : s.running = [t]
  whole : upload.totalSize = content.length
  validated : ∃ start early late, s.stage.start = some start ∧ s.log = early ++ late ∧
    Covers (!upload.parallel) early start upload.totalSize ∧
    (∀ event ∈ late, event.op.isLocal = true) ∧ ReadInFull content late ∧
    heldSlot late = s.slot.file

omit [DecidableEq Digest] in
theorem Alone.opened {serial : Bool} {start edge : Nat} {before late : Trace}
    (alone : Alone serial s t start edge) (trace : t.trace = before ++ late)
    (full : ReadInFull content late) : heldSlot late = s.slot.file := by
  obtain ⟨file, _, _, _, _, held, _⟩ := full.opened
  rw [held]
  exact (alone.held file (by rw [trace]; exact heldSlot_append held)).symm

theorem Sound.finalizing (collisionFree : Function.Injective sha256)
    (describes : Describes sha256 upload.snapshot content)
    (sound : Sound sha256 upload content s) (member : t ∈ s.running)
    (waiting : t.awaits .completeUpload) : Finalizing upload content s t := by
  have called : Program.Calls (upload.program sha256 t.request) t.trace .completeUpload := by
    obtain ⟨after, same⟩ := waiting
    exact ⟨after, same ▸ sound.ran t member⟩
  have finalizes := calls_completeUpload collisionFree describes called
  have fits := sound.fits
  have only := sound.alone member finalizes
  cases stage : s.stage with
  | idle =>
    rw [stage] at fits
    rw [show s.running = [] from fits] at member
    cases member
  | preparing =>
    rw [stage] at fits
    obtain ⟨localOffset, same⟩ := fits t member
    rw [same] at finalizes
    cases finalizes
  | serial start cursor =>
    rw [stage] at fits
    obtain ⟨serial, sized, here⟩ := fits
    obtain ⟨request, alone⟩ := here t member
    rw [request] at called
    obtain sends | ⟨_, room, before, event, after, last, trace, answered, reached, full, quiet⟩ :=
      uploadOneChunk_calls collisionFree describes (calls_bind_pure.mp called)
    · cases sends
    · obtain ⟨earlier, log, covers⟩ := alone.began
      have logged : event ∈ s.log := by simp [log, trace]
      have inside := acknowledged_inside (sound.sent event logged)
        (answered.acknowledged (upload.totalSize - 1) (by omega) (by omega))
      have split : t.trace = before ++ [event] ++ after := by simp [trace]
      have last : event ∈ earlier ++ (before ++ [event]) := by simp
      refine ⟨only, by omega, start, earlier ++ (before ++ [event]), after, by rw [stage]; rfl,
        ?_, ?_, quiet, full, alone.opened split full⟩
      · simp [log, trace]
      · rw [serial]
        exact (covers.mono _).extend last
          fun index low high => answered.acknowledged index low (by omega)
  | parallel start window =>
    rw [stage] at fits
    obtain ⟨offset, same, _⟩ := fits.2.2.2.2.2.2 t member
    rw [same] at finalizes
    cases finalizes
  | atTotal | settling =>
    rw [stage] at fits
    rw [fits t member] at finalizes
    cases finalizes
  | finishing start =>
    rw [stage] at fits
    obtain ⟨parallel, sized, room, here⟩ := fits
    obtain ⟨request, alone⟩ := here t member
    rw [request] at called
    obtain plain | aborts | ⟨_, full, quiet⟩ :=
      complete_calls collisionFree describes (calls_bind_pure.mp called)
    · cases plain
    · cases aborts
    · obtain ⟨earlier, log, covers⟩ := alone.began
      obtain ⟨event, logged, acknowledged⟩ :=
        covers.acknowledged (upload.totalSize - 1) (by omega) (by omega)
      have inside := acknowledged_inside
        (sound.sent event (log ▸ List.mem_append_left _ logged)) acknowledged
      refine ⟨only, by omega, start, earlier, t.trace, by rw [stage]; rfl, log, ?_, quiet, full,
        alone.opened (List.nil_append _).symm full⟩
      rw [parallel]
      exact covers

/-! ## The first scan -/

theorem openAndHash_returns {path : String} {blockBytes : Nat} {events : Trace}
    {snapshot : UploadFileSnapshot Digest}
    (returned : Program.Returns (openAndHashBlocking sha256 path blockBytes).run events
      (.ok snapshot)) :
    ∃ file metadata content reads rest,
      events = ⟨.open, .ok file⟩ :: ⟨.stat file, .ok metadata⟩ :: (reads ++ rest) ∧
      ReadBack file 0 content reads ∧ snapshot.content.verificationBlockBytes = blockBytes ∧
      Describes sha256 snapshot content := by
  simp only [openAndHashBlocking] at returned
  obtain ⟨_, file, _, rfl, opened, scans⟩ := returns_bind_ok.mp returned
  have first := ask_returns opened
  obtain ⟨_, metadata, _, rfl, statted, scans⟩ := returns_bind_ok.mp scans
  obtain ⟨answer, second, ok⟩ := returns_ask.mp statted
  have stat : answer = .ok metadata := by
    cases answer with
    | error error => cases ok
    | ok value =>
      cases ok
      rfl
  split at scans
  · exact absurd scans not_returns_throw
  obtain ⟨reads, scan, _, rfl, scanned, checks⟩ := returns_bind_ok.mp scans
  obtain ⟨positive, content, length, read, rfl⟩ :=
    scanFileAt_returns (returns_mapError.mp scanned)
  obtain ⟨_, after, _, rfl, _, checks⟩ := returns_bind_ok.mp checks
  split at checks
  · exact absurd checks not_returns_throw
  obtain ⟨_, visible, _, rfl, _, checks⟩ := returns_bind_ok.mp checks
  refine ⟨file, metadata, content, reads, _, by rw [first, second, stat]; rfl, read, ?_⟩
  split at checks
  · obtain ⟨_, _, _, _, _, ends⟩ := returns_bind_ok.mp checks
    obtain ⟨_, rfl⟩ := returns_pure.mp ends
    exact ⟨rfl, length.symm, rfl, rfl, positive⟩
  · obtain ⟨_, rfl⟩ := returns_pure.mp checks
    exact ⟨rfl, length.symm, rfl, rfl, positive⟩

/-- For every behaviour of the file and of the protocol: the snapshot holds the digests of
the content that the first scan read, every chunk is a slice of it, and `complete_upload` is
called only once everything was acknowledged and read back. -/
theorem upload_source_integrity (collisionFree : Function.Injective sha256) {path : String}
    {blockBytes : Nat} {scan : Trace} {snapshot : UploadFileSnapshot Digest}
    (scanned : Program.Returns (openAndHashBlocking sha256 path blockBytes).run scan
      (.ok snapshot)) :
    ∃ file metadata content reads rest,
      scan = ⟨.open, .ok file⟩ :: ⟨.stat file, .ok metadata⟩ :: (reads ++ rest) ∧
      ReadBack file 0 content reads ∧
      snapshot.content.blockSha256 = blockDigests sha256 blockBytes content ∧
      ∀ upload : Upload Digest, upload.snapshot = snapshot →
        ∀ s, Machine.Reachable (upload.step sha256) .initial s → ∀ t ∈ s.running,
          (∀ offset chunk, t.awaits (.uploadChunk offset chunk) →
            IsSlice content offset chunk) ∧
          (t.awaits .completeUpload → Finalizing upload content s t) := by
  obtain ⟨file, metadata, content, reads, rest, events, read, same, describes⟩ :=
    openAndHash_returns scanned
  refine ⟨file, metadata, content, reads, rest, events, read, same ▸ describes.blocks, ?_⟩
  rintro upload rfl s reached t member
  have sound : Sound sha256 upload content s :=
    reached.invariant (Sound sha256 upload content) sound_initial
      fun _ _ _ sound _ taken => sound.step collisionFree describes taken
  refine ⟨fun offset chunk waiting => ?_, sound.finalizing collisionFree describes member⟩
  obtain ⟨after, same⟩ := waiting
  exact calls_uploadChunk collisionFree describes ⟨after, same ▸ sound.ran t member⟩

/-! A file of three bytes that does not change, read a byte at a time. -/

section Sample

def sampleGeneration : FileGeneration where
  len := 3
  readonly := false
  modified := none
  created := none
  dev := 0
  ino := 0
  mtimeNsec := 0
  ctime := 0
  ctimeNsec := 0

theorem length_sampleRead (offset len : Nat) :
    ((([7, 8, 9] : List UInt8).drop offset).take (min 1 len)).length ≤ len := by
  rw [List.length_take]
  omega

def sampleAnswer (slot : UploadFileState) : (op : Op) → Answer op
  | .open => .ok (0 : Handle)
  | .stat _ => .ok { isFile := true, generation := sampleGeneration }
  | .statPath => .ok sampleGeneration
  | .readAt _ offset len => .ok
      ⟨(([7, 8, 9] : List UInt8).drop offset).take (min 1 len), length_sampleRead offset len⟩
  | .lock => slot.file
  | .accepted => (slot.acceptedHandleGeneration, slot.acceptedPathGeneration)
  | .beginAbort => true
  | .prepare _ | .uploadChunk _ _ => .ok { completedFileId := none, nextByte := none }
  | .completeUpload => .ok none
  | .unlock | .publish _ _ | .acceptHandle _ | .acceptPath _ | .requireAbort | .abortUpload => ()

def sampleUpload : Upload (List UInt8) where
  snapshot :=
    { path := "f"
      generation := sampleGeneration
      content :=
        { sha256 := [7, 8, 9], verificationBlockBytes := 2, blockSha256 := [[7, 8], [9]] } }
  totalSize := 3
  chunkSize := 2
  parallel := false
  maxPartsInFlight := 1
  chunk_pos := by decide
  total_le := by decide

/-- The next label of a run in which every call is answered. -/
def sampleLabel (s : Session) : Label :=
  match s.running with
  | [] => .begin 0
  | t :: _ =>
    match t.program with
    | .done _ => .join 0 false
    | .call op _ => .perform 0 ⟨op, sampleAnswer s.slot op⟩

def sampleRun : Nat → Session → Option Session
  | 0, s => some s
  | steps + 1, s => (sampleUpload.step id s (sampleLabel s)).bind (sampleRun steps)

theorem sampleRun_reachable {steps : Nat} {s next : Session}
    (ran : sampleRun steps s = some next) : Machine.Reachable (sampleUpload.step id) s next := by
  induction steps generalizing s with
  | zero =>
    cases ran
    exact .start
  | succ steps ih =>
    simp only [sampleRun, Option.bind_eq_some_iff] at ran
    obtain ⟨middle, taken, ran⟩ := ran
    exact Machine.Run.trans (.next .start trivial taken) (ih ran)

def Session.completes (s : Session) : Bool :=
  match s.running with
  | { program := .call .completeUpload _, .. } :: _ => true
  | _ => false

theorem Session.exists_of_completes (completes : s.completes = true) :
    ∃ t ∈ s.running, t.awaits .completeUpload := by
  simp only [Session.completes] at completes
  split at completes
  · rename_i request trace after rest running
    exact ⟨_, running ▸ List.mem_cons_self, after, rfl⟩
  · cases completes

theorem upload_source_integrity_sample :
    ∃ content s t, Machine.Reachable (sampleUpload.step id) .initial s ∧ t ∈ s.running ∧
      t.awaits .completeUpload ∧ Finalizing sampleUpload content s t := by
  have ends : (sampleRun 72 .initial).any Session.completes = true := by decide +kernel
  obtain ⟨s, ran, completes⟩ := Option.any_eq_true _ _ |>.mp ends
  obtain ⟨t, member, waiting⟩ := Session.exists_of_completes completes
  have scanned : Program.Returns (openAndHashBlocking id "f" 2).run _ (.ok sampleUpload.snapshot) :=
    Program.run_drive (sampleAnswer .empty) 7 (openAndHashBlocking (id : List UInt8 → _) "f" 2).run
  obtain ⟨_, _, content, _, _, _, _, _, runs⟩ :=
    upload_source_integrity Function.injective_id scanned
  have reached := sampleRun_reachable ran
  exact ⟨content, s, t, reached, member, waiting, (runs sampleUpload rfl s reached t member).2 waiting⟩

end Sample

end UploadFile

end RustyCat
