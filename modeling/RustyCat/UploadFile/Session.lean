import RustyCat.Lib.Machine
import RustyCat.UploadFile.Transfer
import RustyCat.Worker.PartWindow

/-!
# The runs of an upload

How the worker drives the requests of an upload of a file: `run_group` and
`run_group_parallel`, over any number of pauses and resumes.  The calls of all
requests that run are interleaved, and the slot of the opened file is the only
thing they share; every other answer is open, so the file may change between any
two calls.

A part that reopens the file keeps the slot locked meanwhile.  Nothing here needs
that, and other parts may look at the slot then as well.
-/

namespace RustyCat

open Interaction

namespace UploadFile

inductive Request where
  | prepare (localOffset : Nat)
  | whole (offset : Nat)
  | part (offset : Nat)
  | complete
  | validate
  deriving DecidableEq

inductive Reply where
  | prepared (start : Nat)
  | chunk (outcome : ChunkOutcome)
  | completed (payload : Option String)
  | validated

def Request.retried : Request → Bool
  | .prepare _ | .whole _ | .part _ => true
  | .complete | .validate => false

structure Thread where
  request : Request
  trace : List (Event Op Answer)
  program : Program Op Answer (Except MeowError Reply)

/-- The thread after a call and its answer. -/
def Thread.perform (t : Thread) (event : Event Op Answer) : Option Thread :=
  match t.program with
  | .done _ => none
  | .call op next =>
    if same : event.op = op then
      some { t with trace := t.trace ++ [event], program := next (same ▸ event.answer) }
    else none

def Thread.awaits (t : Thread) (op : Op) : Prop :=
  ∃ next, t.program = .call op next

/-- The slot, if the answer is the value it has. -/
def UploadFileState.showing {α : Type} [DecidableEq α] (slot : UploadFileState)
    (value answer : α) : Option UploadFileState :=
  if value = answer then some slot else none

/-- The slot after a call, if the answer is the slot's. -/
def UploadFileState.answers (slot : UploadFileState) : Event Op Answer → Option UploadFileState
  | ⟨.lock, held⟩ => slot.showing slot.file held
  | ⟨.accepted, accepted⟩ =>
    slot.showing (slot.acceptedHandleGeneration, slot.acceptedPathGeneration) accepted
  | ⟨.publish file generation, _⟩ =>
    some
      { file := some file
        acceptedHandleGeneration := some generation
        acceptedPathGeneration := some generation }
  | ⟨.acceptHandle generation, _⟩ => some { slot with acceptedHandleGeneration := some generation }
  | ⟨.acceptPath generation, _⟩ => some { slot with acceptedPathGeneration := some generation }
  | _ => some slot

/-- Where the worker is in its run; `start` is the offset the prepare answered. -/
inductive Stage where
  | idle
  | preparing
  | serial (start cursor : Nat)
  | parallel (start : Nat) (window : PartWindow)
  /-- A parallel upload that was complete when it was prepared. -/
  | atTotal
  | finishing (start : Nat)
  /-- The run ended; the parts that are left are joined. -/
  | settling

def Stage.start : Stage → Option Nat
  | .serial start _ | .parallel start _ | .finishing start => some start
  | _ => none

structure Session where
  stage : Stage
  slot : UploadFileState
  running : List Thread
  log : List (Event Op Answer)

def Session.initial : Session where
  stage := .idle
  slot := .empty
  running := []
  log := []

structure Upload (Digest : Type) extends UploadTask Digest where
  parallel : Bool
  maxPartsInFlight : Nat
  chunk_pos : 0 < chunkSize
  total_le : totalSize ≤ u64Max

inductive Label where
  /-- The task is started or resumed. -/
  | begin (localOffset : Nat)
  | perform (index : Nat) (event : Event Op Answer)
  /-- A request returned; one that failed may be made again. -/
  | join (index : Nat) (again : Bool)
  /-- A pause or cancel found the request before its next attempt. -/
  | cancel (index : Nat)
  | dispatch
  | complete
  /-- The run ends between two requests. -/
  | stop
  /-- The end of the run closes the file. -/
  | release

namespace Upload

variable {Digest : Type} [DecidableEq Digest] (sha256 : List UInt8 → Digest)
  (upload : Upload Digest)

def program : Request → Program Op Answer (Except MeowError Reply)
  | .prepare localOffset =>
    (upload.uploadPrepareOnce sha256 localOffset >>= fun start => pure (.prepared start)).run
  | .whole offset =>
    (upload.uploadOneChunk sha256 offset >>= fun outcome => pure (.chunk outcome)).run
  | .part offset =>
    (upload.uploadOneChunkPart sha256 offset >>= fun outcome => pure (.chunk outcome)).run
  | .complete => (upload.complete sha256 >>= fun payload => pure (.completed payload)).run
  | .validate =>
    (upload.snapshot.validateGeneration sha256 true >>= fun _ => pure .validated).run

def spawn (request : Request) : Thread where
  request := request
  trace := []
  program := upload.program sha256 request

/-- What the worker does when a prepare succeeded. -/
def prepared (s : Session) (start : Nat) : Session :=
  if upload.parallel then
    if start ≥ upload.totalSize then
      { s with stage := .atTotal, running := [upload.spawn sha256 .validate] }
    else
      { s with
        stage := .parallel start
          (.new start upload.chunkSize upload.totalSize upload.maxPartsInFlight upload.total_le)
        running := [] }
  else
    { s with stage := .serial start start, running := [upload.spawn sha256 (.whole start)] }

/-- What the worker does with a reply; `rest` are the other requests. -/
def joined (s : Session) (rest : List Thread) (request : Request) (reply : Reply) : Session :=
  match s.stage, request, reply with
  | .preparing, _, .prepared start => upload.prepared sha256 s start
  | .serial start _, _, .chunk outcome =>
    if outcome.done then { s with stage := .settling, running := [] }
    else
      { s with
        stage := .serial start outcome.nextOffset
        running := [upload.spawn sha256 (.whole outcome.nextOffset)] }
  | .parallel start window, .part offset, .chunk _ =>
    match window.onDone offset with
    | .ok (next, _) => { s with stage := .parallel start next, running := rest }
    | .error _ => { s with stage := .settling, running := rest }
  | _, _, _ => { s with stage := .settling, running := rest }

def step (s : Session) : Label → Option Session
  | .begin localOffset =>
    match s.stage with
    | .idle =>
      some { s with stage := .preparing, running := [upload.spawn sha256 (.prepare localOffset)] }
    | _ => none
  | .perform index event => do
    let thread ← s.running[index]?
    let next ← thread.perform event
    let slot ← s.slot.answers event
    some { s with slot := slot, running := s.running.set index next, log := s.log ++ [event] }
  | .join index again => do
    let thread ← s.running[index]?
    match thread.program with
    | .call _ _ => none
    | .done (.ok reply) =>
      some (upload.joined sha256 s (s.running.eraseIdx index) thread.request reply)
    | .done (.error _) =>
      if again && thread.request.retried then
        some { s with running := s.running.set index (upload.spawn sha256 thread.request) }
      else some { s with stage := .settling, running := s.running.eraseIdx index }
  | .cancel index => do
    let thread ← s.running[index]?
    if thread.trace.isEmpty && thread.request.retried then
      some { s with stage := .settling, running := s.running.eraseIdx index }
    else none
  | .dispatch =>
    match s.stage with
    | .parallel start window => do
      let (offset, next) ← window.takeDispatch
      some
        { s with
          stage := .parallel start next
          running := s.running ++ [upload.spawn sha256 (.part offset)] }
    | _ => none
  | .complete =>
    match s.stage with
    | .parallel start window =>
      if s.running.isEmpty && window.isComplete then
        some { s with stage := .finishing start, running := [upload.spawn sha256 .complete] }
      else none
    | _ => none
  | .stop =>
    if s.running.isEmpty then some { s with stage := .settling } else none
  | .release =>
    match s.stage with
    | .settling =>
      if s.running.isEmpty then some { s with stage := .idle, slot := .empty } else none
    | _ => none

end Upload

end UploadFile

end RustyCat
