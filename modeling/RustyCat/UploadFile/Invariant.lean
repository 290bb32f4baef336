import RustyCat.UploadFile.Requests
import RustyCat.UploadFile.Session

/-!
# The invariant of the runs of an upload

What every run keeps: the requests follow their programs, what was sent is a slice
of the content, and a request that can finalize the upload runs alone, after what
comes before its offset was acknowledged.
-/

namespace RustyCat

open Interaction Interaction.Attempt Blocks

namespace UploadFile

variable {Digest : Type} [DecidableEq Digest] {sha256 : List UInt8 → Digest}
  {upload : Upload Digest} {content : List UInt8} {s next : Session} {t : Thread}

/-! ## The invariant -/

def PartDone (upload : Upload Digest) (log : Trace) (offset : Nat) : Prop :=
  ∃ event ∈ log, ∀ index, offset ≤ index →
    index < offset + min upload.chunkSize (upload.totalSize - offset) →
    acknowledges false index event

/-- The only request that runs; what was sent before it is acknowledged up to the edge. -/
structure Alone (serial : Bool) (s : Session) (t : Thread) (start edge : Nat) : Prop where
  only : s.running = [t]
  began : ∃ earlier, s.log = earlier ++ t.trace ∧ Covers serial earlier start edge
  held : ∀ file, heldSlot t.trace = some file → s.slot.file = some file

/-- The requests that can call `complete_upload`. -/
def Request.finalizes : Request → Bool
  | .whole _ | .complete => true
  | .prepare _ | .part _ | .validate => false

/-- What runs in a stage, and what it can rely on. -/
def Stage.Fits (upload : Upload Digest) (content : List UInt8) (s : Session) : Stage → Prop
  | .idle => s.running = []
  | .preparing => ∀ t ∈ s.running, ∃ localOffset, t.request = .prepare localOffset
  | .serial start cursor =>
    upload.parallel = false ∧ content.length ≤ upload.totalSize ∧
      ∀ t ∈ s.running, t.request = .whole cursor ∧ Alone true s t start cursor
  | .parallel start window =>
    upload.parallel = true ∧ content.length ≤ upload.totalSize ∧ start < upload.totalSize ∧
      window.chunk = upload.chunkSize ∧ window.total = upload.totalSize ∧
      window.Tracks start (PartDone upload s.log) ∧
      ∀ t ∈ s.running, ∃ offset, t.request = .part offset ∧ offset < upload.totalSize
  | .atTotal => ∀ t ∈ s.running, t.request = .validate
  | .finishing start =>
    upload.parallel = true ∧ content.length ≤ upload.totalSize ∧ start < upload.totalSize ∧
      ∀ t ∈ s.running, t.request = .complete ∧ Alone false s t start upload.totalSize
  | .settling => ∀ t ∈ s.running, t.request.finalizes = false

structure Sound (sha256 : List UInt8 → Digest) (upload : Upload Digest) (content : List UInt8)
    (s : Session) : Prop where
  ran : ∀ t ∈ s.running, Program.Run (upload.program sha256 t.request) t.trace t.program
  logged : ∀ t ∈ s.running, ∀ event ∈ t.trace, event ∈ s.log
  sent : ∀ event ∈ s.log, ∀ offset chunk, event.op = .uploadChunk offset chunk →
    IsSlice content offset chunk
  fits : s.stage.Fits upload content s

/-! ## Threads -/

variable {event : Event Op Answer} {edge start : Nat} {serial : Bool}

theorem perform_cases {t' : Thread} (performed : t.perform event = some t') :
    t'.request = t.request ∧ t'.trace = t.trace ++ [event] ∧
      (∃ after, t.program = .call event.op after) ∧
      ∀ p, Program.Run p t.trace t.program → Program.Run p t'.trace t'.program := by
  simp only [Thread.perform] at performed
  split at performed
  · cases performed
  rename_i op after waiting
  split_ifs at performed with same
  cases performed
  subst same
  refine ⟨rfl, rfl, ⟨after, waiting⟩, fun p run => ?_⟩
  rw [waiting] at run
  exact run.snoc event.answer

section Calls

variable (collisionFree : Function.Injective sha256)
  (describes : Describes sha256 upload.snapshot content)

include collisionFree describes

theorem calls_uploadChunk {request : Request} {events : Trace} {offset : Nat}
    {chunk : List UInt8}
    (called : Program.Calls (upload.program sha256 request) events (.uploadChunk offset chunk)) :
    IsSlice content offset chunk := by
  cases request with
  | prepare localOffset =>
    obtain plain | same := (uploadPrepareOnce_only upload.toUploadTask localOffset).calls _ _
      (calls_bind_pure.mp called)
    · cases plain
    · cases same
  | whole cursor =>
    obtain ⟨rfl, part⟩ | ⟨same, _⟩ :=
      uploadOneChunk_calls collisionFree describes (calls_bind_pure.mp called)
    · exact part
    · cases same
  | part start =>
    obtain ⟨rfl, part⟩ := (uploadOneChunkPart_only collisionFree describes).calls _ _
      (calls_bind_pure.mp called)
    exact part
  | complete =>
    obtain plain | same | ⟨same, _⟩ :=
      complete_calls collisionFree describes (calls_bind_pure.mp called)
    · cases plain
    · cases same
    · cases same
  | validate =>
    have plain := (validateGeneration_local upload.snapshot true).calls _ _
      (calls_bind_pure.mp called)
    cases plain

theorem calls_completeUpload {request : Request} {events : Trace}
    (called : Program.Calls (upload.program sha256 request) events .completeUpload) :
    request.finalizes = true := by
  cases request with
  | prepare localOffset =>
    obtain plain | same := (uploadPrepareOnce_only upload.toUploadTask localOffset).calls _ _
      (calls_bind_pure.mp called)
    · cases plain
    · cases same
  | whole cursor => rfl
  | part start =>
    have plain := (uploadOneChunkPart_only collisionFree describes).calls _ _
      (calls_bind_pure.mp called)
    cases plain
  | complete => rfl
  | validate =>
    have plain := (validateGeneration_local upload.snapshot true).calls _ _
      (calls_bind_pure.mp called)
    cases plain

end Calls

/-! ## Steps -/

variable (sha256 upload) in
theorem Alone.spawn {request : Request} (only : s.running = [upload.spawn sha256 request])
    (covers : Covers serial s.log start edge) :
    Alone serial s (upload.spawn sha256 request) start edge where
  only := only
  began := ⟨s.log, (List.append_nil _).symm, covers⟩
  held := nofun

theorem Alone.covers (alone : Alone serial s t start edge) :
    Covers serial s.log start edge := by
  obtain ⟨earlier, log, covers⟩ := alone.began
  rw [log]
  exact covers.mono _

theorem answers_held {slot slot' : UploadFileState} {events : Trace}
    (answered : slot.answers event = some slot')
    (held : ∀ file, heldSlot events = some file → slot.file = some file) :
    ∀ file, heldSlot (events ++ [event]) = some file → slot'.file = some file := by
  rw [heldSlot_snoc]
  obtain ⟨op, answer⟩ := event
  cases op with
  | lock =>
    simp only [UploadFileState.answers, UploadFileState.showing] at answered
    split_ifs at answered with same
    cases answered
    intro file seen
    exact same.trans seen
  | accepted =>
    simp only [UploadFileState.answers, UploadFileState.showing] at answered
    split_ifs at answered
    cases answered
    exact held
  | publish file generation =>
    cases answered
    exact fun _ seen => seen
  | _ =>
    cases answered
    exact held

theorem Alone.perform {index : Nat} {t' old : Thread} {slot : UploadFileState}
    (alone : Alone serial s old start edge) (found : s.running[index]? = some t)
    (performed : t.perform event = some t') (answered : s.slot.answers event = some slot) :
    Alone serial
      { s with slot := slot, running := s.running.set index t', log := s.log ++ [event] }
      t' start edge := by
  rw [alone.only] at found
  obtain ⟨rfl, rfl⟩ : index = 0 ∧ old = t := by
    cases index with
    | zero => exact ⟨rfl, by simpa using found⟩
    | succ index => simp at found
  obtain ⟨_, trace, _, _⟩ := perform_cases performed
  obtain ⟨earlier, log, covers⟩ := alone.began
  refine ⟨?_, ⟨earlier, ?_, covers⟩, ?_⟩
  · simp only [alone.only, List.set_cons_zero]
  · simp only [log, trace, List.append_assoc]
  · rw [trace]
    exact answers_held answered alone.held

omit [DecidableEq Digest] in
theorem PartDone.mono {log : Trace} {offset : Nat} (done : PartDone upload log offset)
    (more : Trace) : PartDone upload (log ++ more) offset := by
  obtain ⟨event, member, acknowledged⟩ := done
  exact ⟨event, List.mem_append_left _ member, acknowledged⟩

theorem Sound.reassign (sound : Sound sha256 upload content s) (log : next.log = s.log)
    (threads : ∀ t ∈ next.running, t ∈ s.running ∨ ∃ request, t = upload.spawn sha256 request)
    (fits : next.stage.Fits upload content next) : Sound sha256 upload content next where
  ran := by
    intro t member
    obtain old | ⟨request, rfl⟩ := threads t member
    · exact sound.ran t old
    · exact .start _
  logged := by
    intro t member event traced
    rw [log]
    obtain old | ⟨request, rfl⟩ := threads t member
    · exact sound.logged t old event traced
    · cases traced
  sent := log ▸ sound.sent
  fits := fits

theorem sound_initial : Sound sha256 upload content .initial where
  ran _ member := absurd member List.not_mem_nil
  logged _ member := absurd member List.not_mem_nil
  sent _ member := absurd member List.not_mem_nil
  fits := rfl

section Steps

variable (collisionFree : Function.Injective sha256)
  (describes : Describes sha256 upload.snapshot content)
  (sound : Sound sha256 upload content s)

include collisionFree describes sound

theorem sound_perform {index : Nat} {event : Event Op Answer}
    (taken : upload.step sha256 s (.perform index event) = some next) :
    Sound sha256 upload content next := by
  simp only [Upload.step, Option.bind_eq_bind, Option.bind_eq_some_iff, Option.some.injEq] at taken
  obtain ⟨t, found, t', performed, slot, answered, rfl⟩ := taken
  have member := List.mem_of_getElem? found
  obtain ⟨request, trace, ⟨after, waiting⟩, runs⟩ := perform_cases performed
  have threads : ∀ other ∈ s.running.set index t', other ∈ s.running ∨ other = t' :=
    fun other old => List.mem_or_eq_of_mem_set old
  constructor
  · intro other old
    obtain old | rfl := threads other old
    · exact sound.ran other old
    · rw [request]
      exact runs _ (sound.ran t member)
  · intro other old earlier traced
    obtain old | rfl := threads other old
    · exact List.mem_append_left _ (sound.logged other old earlier traced)
    · rw [trace] at traced
      obtain traced | traced := List.mem_append.mp traced
      · exact List.mem_append_left _ (sound.logged t member earlier traced)
      · exact List.mem_append_right _ traced
  · intro other logged offset chunk same
    obtain old | now := List.mem_append.mp logged
    · exact sound.sent other old offset chunk same
    · obtain rfl := List.mem_singleton.mp now
      have called : Program.Calls (upload.program sha256 t.request) t.trace other.op :=
        ⟨after, waiting ▸ sound.ran t member⟩
      rw [same] at called
      exact calls_uploadChunk collisionFree describes called
  · have fits := sound.fits
    obtain ⟨stage, slot₀, running, log⟩ := s
    cases stage with
    | idle =>
      obtain rfl : running = [] := fits
      cases member
    | preparing | atTotal | settling =>
      intro other old
      obtain old | rfl := threads other old
      · exact fits other old
      · rw [request]
        exact fits t member
    | serial start cursor =>
      obtain ⟨serial, sized, alone⟩ := fits
      refine ⟨serial, sized, fun other old => ?_⟩
      have here := (alone t member).2.perform found performed answered
      obtain rfl := List.mem_singleton.mp (here.only ▸ old)
      exact ⟨request ▸ (alone t member).1, here⟩
    | parallel start window =>
      obtain ⟨parallel, sized, room, chunk, total, tracks, parts⟩ := fits
      refine ⟨parallel, sized, room, chunk, total, tracks.mono fun p done => done.mono _, ?_⟩
      intro other old
      obtain old | rfl := threads other old
      · exact parts other old
      · rw [request]
        exact parts t member
    | finishing start =>
      obtain ⟨parallel, sized, room, alone⟩ := fits
      refine ⟨parallel, sized, room, fun other old => ?_⟩
      have here := (alone t member).2.perform found performed answered
      obtain rfl := List.mem_singleton.mp (here.only ▸ old)
      exact ⟨request ▸ (alone t member).1, here⟩

end Steps

section Joins

variable (sound : Sound sha256 upload content s)

include sound

theorem Sound.alone (member : t ∈ s.running) (finalizes : t.request.finalizes = true) :
    s.running = [t] := by
  have fits := sound.fits
  obtain ⟨stage, slot, running, log⟩ := s
  cases stage with
  | idle =>
    obtain rfl : running = [] := fits
    cases member
  | preparing =>
    obtain ⟨localOffset, same⟩ := fits t member
    rw [same] at finalizes
    cases finalizes
  | serial start cursor => exact (fits.2.2 t member).2.only
  | parallel start window =>
    obtain ⟨offset, same, _⟩ := fits.2.2.2.2.2.2 t member
    rw [same] at finalizes
    cases finalizes
  | atTotal | settling =>
    rw [fits t member] at finalizes
    cases finalizes
  | finishing start => exact (fits.2.2.2 t member).2.only

variable {index : Nat}

theorem Sound.rest (found : s.running[index]? = some t) :
    ∀ other ∈ s.running.eraseIdx index, other.request.finalizes = false := by
  intro other rest
  by_contra finalizes
  have only := sound.alone (List.mem_of_mem_eraseIdx rest) (by simpa using finalizes)
  rw [only] at found rest
  cases index with
  | zero => cases rest
  | succ index => cases found

theorem Sound.settle (found : s.running[index]? = some t) :
    Sound sha256 upload content
      { s with stage := .settling, running := s.running.eraseIdx index } :=
  sound.reassign rfl (fun _ member => .inl (List.mem_of_mem_eraseIdx member)) (sound.rest found)

theorem Sound.again (found : s.running[index]? = some t) :
    Sound sha256 upload content
      { s with running := s.running.set index (upload.spawn sha256 t.request) } := by
  have member := List.mem_of_getElem? found
  have threads : ∀ other ∈ s.running.set index (upload.spawn sha256 t.request),
      other ∈ s.running ∨ other = upload.spawn sha256 t.request :=
    fun other old => List.mem_or_eq_of_mem_set old
  refine sound.reassign rfl (fun other old => (threads other old).imp_right fun same => ⟨_, same⟩) ?_
  have alone : t.request.finalizes = true →
      s.running.set index (upload.spawn sha256 t.request) = [upload.spawn sha256 t.request] := by
    intro finalizes
    have only := sound.alone member finalizes
    rw [only] at found ⊢
    cases index with
    | zero => rfl
    | succ index => cases found
  have fits := sound.fits
  obtain ⟨stage, slot, running, log⟩ := s
  cases stage with
  | idle =>
    obtain rfl : running = [] := fits
    cases member
  | preparing | atTotal | settling =>
    intro other old
    obtain old | rfl := threads other old
    · exact fits other old
    · exact fits t member
  | serial start cursor =>
    obtain ⟨serial, sized, here⟩ := fits
    obtain ⟨request, was⟩ := here t member
    have only := alone (by rw [request]; rfl)
    refine ⟨serial, sized, fun other old => ?_⟩
    obtain rfl := List.mem_singleton.mp (only ▸ old)
    exact ⟨request, .spawn sha256 upload only was.covers⟩
  | parallel start window =>
    obtain ⟨parallel, sized, room, chunk, total, tracks, parts⟩ := fits
    refine ⟨parallel, sized, room, chunk, total, tracks, fun other old => ?_⟩
    obtain old | rfl := threads other old
    · exact parts other old
    · exact parts t member
  | finishing start =>
    obtain ⟨parallel, sized, room, here⟩ := fits
    obtain ⟨request, was⟩ := here t member
    have only := alone (by rw [request]; rfl)
    refine ⟨parallel, sized, room, fun other old => ?_⟩
    obtain rfl := List.mem_singleton.mp (only ▸ old)
    exact ⟨request, .spawn sha256 upload only was.covers⟩

theorem Sound.prepared (describes : Describes sha256 upload.snapshot content) {start : Nat}
    {events : Trace} {localOffset : Nat}
    (returned : Program.Returns (upload.program sha256 (.prepare localOffset)) events
      (.ok (.prepared start))) :
    Sound sha256 upload content (upload.prepared sha256 s start) := by
  obtain ⟨value, same, returned⟩ := returns_bind_pure.mp returned
  have sized := uploadPrepareOnce_returns describes returned
  simp only [Upload.prepared]
  split
  · rename_i parallel
    split
    · refine sound.reassign rfl (fun other old => .inr ⟨_, List.mem_singleton.mp old⟩) ?_
      intro other old
      rw [List.mem_singleton.mp old]
      rfl
    · rename_i room
      refine sound.reassign rfl (fun other old => absurd old List.not_mem_nil) ?_
      refine ⟨parallel, sized, by omega, Nat.max_eq_left upload.chunk_pos, rfl, ?_,
        fun other old => absurd old List.not_mem_nil⟩
      exact .new upload.total_le (by omega) _
  · rename_i serial
    refine sound.reassign rfl (fun other old => .inr ⟨_, List.mem_singleton.mp old⟩) ?_
    refine ⟨by simpa using serial, sized, fun other old => ?_⟩
    rw [List.mem_singleton.mp old]
    exact ⟨rfl, .spawn sha256 upload rfl (.empty ..)⟩

variable (collisionFree : Function.Injective sha256)
  (describes : Describes sha256 upload.snapshot content)

include collisionFree describes

theorem Sound.joined {reply : Reply} (found : s.running[index]? = some t)
    (returned : t.program = .done (.ok reply)) :
    Sound sha256 upload content
      (upload.joined sha256 s (s.running.eraseIdx index) t.request reply) := by
  have member := List.mem_of_getElem? found
  have ran : Program.Returns (upload.program sha256 t.request) t.trace (.ok reply) := by
    have run := sound.ran t member
    rw [returned] at run
    exact run
  have fits := sound.fits
  simp only [Upload.joined]
  split
  · rename_i start stage
    rw [stage] at fits
    obtain ⟨localOffset, request⟩ := fits t member
    rw [request] at ran
    exact sound.prepared describes ran
  · rename_i start cursor outcome stage
    rw [stage] at fits
    obtain ⟨serial, sized, here⟩ := fits
    obtain ⟨request, was⟩ := here t member
    split
    · exact sound.reassign rfl (fun other old => absurd old List.not_mem_nil)
        fun other old => absurd old List.not_mem_nil
    · rename_i unfinished
      rw [request] at ran
      obtain ⟨_, same, ran⟩ := returns_bind_pure.mp ran
      cases same
      obtain ⟨event, traced, answered⟩ := uploadOneChunk_returns ran (by simpa using unfinished)
      have covers := was.covers.extend (sound.logged t member event traced) answered.acknowledged
      refine sound.reassign rfl (fun other old => .inr ⟨_, List.mem_singleton.mp old⟩) ?_
      refine ⟨serial, sized, fun other old => ?_⟩
      rw [List.mem_singleton.mp old]
      exact ⟨rfl, .spawn sha256 upload rfl covers⟩
  · rename_i start window offset outcome stage request
    rw [stage] at fits
    obtain ⟨parallel, sized, room, chunk, total, tracks, parts⟩ := fits
    obtain ⟨point, same, inside⟩ := parts t member
    obtain rfl : offset = point := Request.part.inj (request.symm.trans same)
    rw [request] at ran
    obtain ⟨_, _, ran⟩ := returns_bind_pure.mp ran
    have done : PartDone upload s.log offset := by
      obtain ⟨event, traced, acknowledged⟩ :=
        uploadOneChunkPart_returns collisionFree describes upload.chunk_pos inside ran
      exact ⟨event, sound.logged t member event traced, acknowledged⟩
    split
    · rename_i after moved settled
      obtain ⟨tracks, keptChunk, keptTotal, _⟩ := tracks.onDone done settled
      refine sound.reassign rfl (fun _ old => .inl (List.mem_of_mem_eraseIdx old)) ?_
      exact ⟨parallel, sized, room, keptChunk.trans chunk, keptTotal.trans total, tracks,
        fun other old => parts other (List.mem_of_mem_eraseIdx old)⟩
    · exact sound.settle found
  · exact sound.settle found

omit collisionFree describes in
theorem Sound.dispatch (taken : upload.step sha256 s .dispatch = some next) :
    Sound sha256 upload content next := by
  have fits := sound.fits
  simp only [Upload.step] at taken
  split at taken
  · rename_i start window stage
    rw [stage] at fits
    obtain ⟨parallel, sized, room, chunk, total, tracks, parts⟩ := fits
    simp only [Option.bind_eq_bind, Option.bind_eq_some_iff, Option.some.injEq] at taken
    obtain ⟨⟨offset, after⟩, given, rfl⟩ := taken
    obtain ⟨tracks, point⟩ := tracks.takeDispatch given
    have frame : after.chunk = window.chunk ∧ after.total = window.total := by
      simp only [PartWindow.takeDispatch, Option.ite_none_left_eq_some, Option.some.injEq,
        Prod.mk.injEq] at given
      obtain ⟨_, _, rfl⟩ := given
      exact ⟨rfl, rfl⟩
    have threads : ∀ other ∈ s.running ++ [upload.spawn sha256 (.part offset)],
        other ∈ s.running ∨ other = upload.spawn sha256 (.part offset) := by
      intro other old
      exact (List.mem_append.mp old).imp_right List.mem_singleton.mp
    refine sound.reassign rfl (fun other old => (threads other old).imp_right fun same => ⟨_, same⟩)
      ⟨parallel, sized, room, frame.1.trans chunk, frame.2.trans total, tracks, ?_⟩
    intro other old
    obtain old | rfl := threads other old
    · exact parts other old
    · exact ⟨offset, rfl, total ▸ point.1⟩
  · cases taken

omit [DecidableEq Digest] sound collisionFree describes in
/-- When every part is done, every byte is acknowledged. -/
theorem covers_of_complete {window : PartWindow} {start : Nat} {log : Trace}
    (chunk : window.chunk = upload.chunkSize) (total : window.total = upload.totalSize)
    (tracks : window.Tracks start (PartDone upload log)) (complete : window.isComplete = true) :
    Covers false log start upload.totalSize := by
  refine ⟨fun index low high => ?_⟩
  obtain ⟨offset, point, before, after⟩ :=
    Grid.exists_point upload.chunk_pos low high
  obtain ⟨event, member, acknowledged⟩ :=
    tracks.all_done complete offset (by rw [chunk, total]; exact point)
  refine ⟨event, member, acknowledged index before ?_⟩
  simp only [Grid.next] at after
  omega

omit collisionFree describes in
theorem Sound.complete (taken : upload.step sha256 s .complete = some next) :
    Sound sha256 upload content next := by
  have fits := sound.fits
  simp only [Upload.step] at taken
  split at taken
  · rename_i start window stage
    rw [stage] at fits
    obtain ⟨parallel, sized, room, chunk, total, tracks, parts⟩ := fits
    split_ifs at taken with ready
    cases taken
    rw [Bool.and_eq_true] at ready
    refine sound.reassign rfl (fun other old => .inr ⟨_, List.mem_singleton.mp old⟩)
      ⟨parallel, sized, room, fun other old => ?_⟩
    rw [List.mem_singleton.mp old]
    exact ⟨rfl, .spawn sha256 upload rfl (covers_of_complete chunk total tracks ready.2)⟩
  · cases taken

theorem Sound.step {label : Label} (taken : upload.step sha256 s label = some next) :
    Sound sha256 upload content next := by
  cases label with
  | begin localOffset =>
    simp only [Upload.step] at taken
    split at taken
    · cases taken
      refine sound.reassign rfl (fun other old => .inr ⟨_, List.mem_singleton.mp old⟩) ?_
      intro other old
      rw [List.mem_singleton.mp old]
      exact ⟨localOffset, rfl⟩
    · cases taken
  | perform index event => exact sound_perform collisionFree describes sound taken
  | join index again =>
    simp only [Upload.step, Option.bind_eq_bind, Option.bind_eq_some_iff] at taken
    obtain ⟨t, found, taken⟩ := taken
    split at taken
    · cases taken
    · rename_i reply returned
      cases taken
      exact sound.joined collisionFree describes found returned
    · split_ifs at taken with repeats
      · cases taken
        exact sound.again found
      · cases taken
        exact sound.settle found
  | cancel index =>
    simp only [Upload.step, Option.bind_eq_bind, Option.bind_eq_some_iff] at taken
    obtain ⟨t, found, taken⟩ := taken
    split_ifs at taken
    cases taken
    exact sound.settle found
  | dispatch => exact sound.dispatch taken
  | complete => exact sound.complete taken
  | stop =>
    simp only [Upload.step] at taken
    split_ifs at taken with none
    cases taken
    rw [List.isEmpty_iff] at none
    refine sound.reassign rfl (fun _ old => .inl old) ?_
    intro other old
    rw [none] at old
    cases old
  | release =>
    simp only [Upload.step] at taken
    split at taken
    · split_ifs at taken with none
      cases taken
      exact sound.reassign rfl (fun _ old => .inl old) (List.isEmpty_iff.mp none)
    · cases taken

end Joins

end UploadFile

end RustyCat
