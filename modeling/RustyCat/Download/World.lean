import RustyCat.Download.Chunk
import RustyCat.Download.Sidecar

/-!
# What the calls of a download act on

The shared progress, the target file behind the one locked handle, and the visible
sidecar.  Where the environment decides, every outcome is possible: calls can fail, a
write that failed or was not confirmed leaves anything at its place, and a checkpoint
that fails may have replaced the sidecar already.  The hooks of the protocol, the network
and the lengths that a stat reports are open altogether.
-/

namespace RustyCat.Download

open Interaction ByteFile

open UploadFile (IoErrorKind fromIo)

/-- A call of the staging function, with what the target held. -/
structure Staged where
  offset : Nat
  digest : Digest
  content : List UInt8

structure World where
  progress : Option DownloadProgress
  target : Handle UInt8
  sidecar : Option (List UInt8)
  /-- Ghost: the staging calls so far. -/
  staged : List Staged

/-- `commit_checkpoint_after_data_sync` when it succeeds. -/
def DownloadProgress.committed (p : DownloadProgress) : DownloadProgress :=
  if p.pending.isEmpty then p else p.adopt p.nextSnapshot

def DownloadProgress.published (p : DownloadProgress) (old : Option (List UInt8)) :
    Option (List UInt8) :=
  if p.pending.isEmpty then old else some (encodeSnapshot p.layout p.nextSnapshot)

/-- `validate_committed_content`: the length, and every committed part by its digest. -/
def DownloadProgress.validatesContent (sha : List UInt8 → Digest) (p : DownloadProgress)
    (content : List UInt8) : Bool :=
  content.length = p.layout.total ∧
    (List.range p.layout.partCount).all fun index =>
      (p.snapshot.view index).all fun digest =>
        digest = sha (Blocks.slice content (p.layout.partStart index) (p.layout.partEnd index))

namespace World

/-- The handle after accepted writes came to an end, well or not. -/
def Settles (w : World) (data : List UInt8) (w' : World) : Prop :=
  ∃ content cursor, w.target.Torn 0 data content ∧
    w' = { w with target := ⟨content, cursor, []⟩ }

/-- `stage_done_with_digest_deferred` on the shared slot. -/
def stage (w : World) (offset : Nat) (digest : Digest) (elapsed : Bool) :
    Except MeowError StageDoneOutcome × World :=
  let called := { w with staged := w.staged ++ [⟨offset, digest, w.target.content⟩] }
  match w.progress with
  | none => (.error (.fromCode .invalidTaskState "download checkpoint state missing"), called)
  | some p =>
    match p.stageDoneWithDigestDeferred offset digest elapsed with
    | .ok (outcome, p') => (.ok outcome, { called with progress := some p' })
    | .error e => (.error (fromIo "stage .rcdl checkpoint failed" e), called)

/-- What an answered call does. -/
def Acts (sha : List UInt8 → Digest) (w : World) (event : Event Op Answer) (w' : World) : Prop :=
  match event with
  | ⟨.readLatch, answer⟩ => answer = w.progress.bind (·.expectedValidator) ∧ w' = w
  | ⟨.isDone offset, answer⟩ => answer = w.progress.any (·.isDone offset) ∧ w' = w
  | ⟨.latch actual required mode, answer⟩ =>
    match validateOrLatchRangeValidator w.progress actual required mode with
    | .ok p => answer = .ok () ∧ w' = { w with progress := some p }
    | .error e => answer = .error e ∧ w' = w
  | ⟨.seek offset, .ok _⟩ =>
    ∃ after, w.Settles [] after ∧ w' = { after with target.cursor := offset }
  | ⟨.seek _, .error _⟩ => w.Settles [] w'
  | ⟨.write data, .ok _⟩ => w' = { w with target := w.target.accept data }
  | ⟨.write data, .error _⟩ => w.Settles data w'
  | ⟨.flush, .ok _⟩ => w' = { w with target := w.target.flush 0 }
  | ⟨.flush, .error _⟩ => w.Settles [] w'
  | ⟨.setLen len, .ok _⟩ =>
    ∃ after, w.Settles [] after ∧
      w' = { after with target.content := resize 0 after.target.content len }
  | ⟨.setLen _, .error _⟩ => w.Settles [] w'
  | ⟨.syncData, _⟩ => w.Settles [] w'
  | ⟨.stage offset digest, answer⟩ => ∃ elapsed, (answer, w') = w.stage offset digest elapsed
  | ⟨.beginCheckpoint, answer⟩ =>
    match w.progress with
    | none => answer = false ∧ w' = w
    | some p =>
      answer = p.beginExternalCheckpoint.1 ∧
        w' = { w with progress := some p.beginExternalCheckpoint.2 }
  | ⟨.commit, .ok _⟩ =>
    w' = { w with
      progress := w.progress.map DownloadProgress.committed
      sidecar := w.progress.elim w.sidecar (·.published w.sidecar) }
  | ⟨.commit, .error _⟩ =>
    w' = w ∨ w' = { w with sidecar := w.progress.elim w.sidecar (·.published w.sidecar) }
  | ⟨.takeValidated, .ok taken⟩ =>
    taken = w.progress ∧ (∀ p ∈ taken, p.validatesContent sha w.target.content = true) ∧
      w' = { w with progress := none }
  | ⟨.deleteSidecar, _⟩ => w' = w ∨ w' = { w with sidecar := none }
  | ⟨.takeValidated, .error _⟩ | ⟨.mergeRangeGetHeaders _ _, _⟩ | ⟨.rangeUrl, _⟩ | ⟨.send _ _, _⟩
  | ⟨.lockFile, _⟩ | ⟨.unlockFile, _⟩ | ⟨.handleLen, _⟩ | ⟨.pathLen, _⟩ | ⟨.reserve _, _⟩
  | ⟨.lockBarrier, _⟩ | ⟨.unlockBarrier, _⟩ | ⟨.armTimer, _⟩ | ⟨.releaseFile, _⟩
  | ⟨.releaseLease, _⟩ => w' = w

end World

end RustyCat.Download
