import RustyCat.Download.Progress
import RustyCat.Download.Range
import RustyCat.Lib.ByteFile
import RustyCat.Lib.Hoare

/-!
# Target writes, staging and finalization

The download methods of `transfer_task.rs` as programs.  A call is one access to the
shared progress slot, to the one locked target handle, to the checkpoint barrier or to
the network; everything between two calls is computed by the task alone.  A poisoned
lock and a lost blocking worker only add failing branches and are left out.
-/

namespace RustyCat.Download

open Interaction Interaction.Attempt

open UploadFile (IoErrorKind fromIo)

structure DownloadTask where
  filePath : String
  headers : HeaderMap

inductive Op where
  /-- Reads `expected_validator` under the progress lock. -/
  | readLatch
  /-- The protocol hook `merge_range_get_headers`. -/
  | mergeRangeGetHeaders (rangeValue : Text) (base : HeaderMap)
  /-- The protocol hook `range_url`. -/
  | rangeUrl
  /-- The GET request. -/
  | send (url : String) (headers : HeaderMap)
  /-- `is_done` under the progress lock, `false` without progress. -/
  | isDone (offset : Nat)
  /-- `validate_or_latch_range_validator` -/
  | latch (actual : Option Text) (required : Bool) (mode : String)
  /-- Locks the handle slot and tells whether it holds a handle. -/
  | lockFile
  | unlockFile
  | seek (offset : Nat)
  | write (data : List UInt8)
  | flush
  | setLen (len : Nat)
  | syncData
  /-- The length of the file behind the handle. -/
  | handleLen
  /-- The length of the file at the path. -/
  | pathLen
  /-- `try_reserve_exact`, with the error text when it fails. -/
  | reserve (len : Nat)
  /-- Locks `download_checkpoint_barrier`. -/
  | lockBarrier
  | unlockBarrier
  /-- `stage_done_with_digest_deferred` under the progress lock. -/
  | stage (offset : Nat) (digest : Digest)
  | armTimer
  /-- `begin_external_checkpoint`, `false` without progress. -/
  | beginCheckpoint
  /-- `commit_checkpoint_after_data_sync`, done at once without progress. -/
  | commit
  /-- `take_download_progress_after_checkpoint` -/
  | takeValidated
  /-- `DownloadProgress::delete`, whose failure is only logged. -/
  | deleteSidecar
  /-- `release_download_target_file_lock` -/
  | releaseFile
  /-- `release_download_target_lease` -/
  | releaseLease

def Answer : Op → Type
  | .readLatch => Option Text
  | .mergeRangeGetHeaders _ _ => Except MeowError HeaderMap
  | .rangeUrl => String
  | .send _ _ => Except MeowError Response
  | .isDone _ | .lockFile | .beginCheckpoint => Bool
  | .latch _ _ _ | .releaseFile | .releaseLease => Except MeowError Unit
  | .unlockFile | .lockBarrier | .unlockBarrier | .armTimer | .deleteSidecar => Unit
  | .seek _ | .write _ | .flush | .setLen _ | .syncData | .commit => Except IoErrorKind Unit
  | .handleLen | .pathLen => Except IoErrorKind Nat
  | .reserve _ => Option String
  | .stage _ _ => Except MeowError StageDoneOutcome
  | .takeValidated => Except MeowError (Option DownloadProgress)

abbrev Action := Interaction.Attempt Op Answer MeowError

def call (op : Op) : Program Op Answer (Answer op) := Program.perform op

def tell (op : Op) : Action (Answer op) := ask op Except.ok

def known {α : Type} (result : Except MeowError α) : Action α := ExceptT.mk (pure result)

/-- A call into the file system with the context of its error. -/
def failing {α : Type} (context : String) (answer : Except IoErrorKind α) : Except MeowError α :=
  answer.mapError (fromIo context)

/-- Runs the body while the barrier is held. -/
def withBarrier {α : Type} (body : Action α) : Action α :=
  ExceptT.mk do
    let _ ← call .lockBarrier
    let result ← body.run
    let _ ← call .unlockBarrier
    pure result

/-- Runs the body while the handle slot is locked; the handle has to be there. -/
def withFile {α : Type} (missing : String) (body : Action α) : Action α :=
  ExceptT.mk do
    let present : Bool ← call .lockFile
    let result ← (if present = true then body
      else throw (.fromCode .invalidTaskState missing) : Action α).run
    let _ ← call .unlockFile
    pure result

/-! ## Checkpoints -/

/-- `checkpoint_locked_download_target`, under the barrier. -/
def checkpointLockedDownloadTarget : Action Unit := do
  let checkpointDue : Bool ← tell .beginCheckpoint
  if checkpointDue then do
    withFile "locked download target missing during checkpoint" do
      ask .syncData (failing "sync download checkpoint data failed")
    ask .commit (failing "commit .rcdl checkpoint failed")
  else pure ()

def forceDownloadCheckpoint : Action Unit := withBarrier checkpointLockedDownloadTarget

/-- `stage_download_part_digest_locked`, under the barrier. -/
def stageDownloadPartDigestLocked (offset : Nat) (digest : Digest) : Action Unit := do
  let outcome ← ask (.stage offset digest) id
  if outcome.checkpointDue then checkpointLockedDownloadTarget
  else if outcome.armTimer then do
    let _ ← tell .armTimer
    pure ()
  else pure ()

def stageSerialDownloadPart (offset : Nat) (digest : Digest) : Action Unit :=
  withBarrier (stageDownloadPartDigestLocked offset digest)

/-! ## Positioned writes -/

def statLockedFailed (task : DownloadTask) : String :=
  s!"stat locked download target failed: {task.filePath}"

/-- `write_and_stage_download_part`; a body fits into 64 bits. -/
def writeAndStageDownloadPart (task : DownloadTask) (offset : Nat) (body : List UInt8)
    (digest : Digest) : Action Unit :=
  withBarrier do
    let partEnd ← known (match Word.checkedAdd 64 offset body.length with
      | some partEnd => .ok partEnd
      | none => .error (.fromCode .invalidRange "parallel download part end overflow"))
    withFile "locked download target missing during positioned write" do
      let fileLen ← ask .handleLen (failing (statLockedFailed task))
      if fileLen < partEnd then
        throw (.fromCode .localFileRemoved
          (s!"download target was truncated before positioned write: len={fileLen} " ++
            s!"need>={partEnd}"))
      else do
        ask (.seek offset)
          (failing s!"seek locked download target failed: offset={offset}")
        ask (.write body)
          (failing s!"write locked download target failed: offset={offset}")
        ask .flush (failing s!"flush locked download target failed: offset={offset}")
    stageDownloadPartDigestLocked offset digest

/-! ## Finalization -/

/-- The block of `finalize_download_content` before the locks are released. -/
def finalizeChecks (task : DownloadTask) (expectedTotal : Nat) : Action Unit := do
  checkpointLockedDownloadTarget
  let visibleLen ← ask .pathLen
    (failing s!"stat completed download failed: {task.filePath}")
  if visibleLen ≠ expectedTotal then
    throw (.fromCode .localFileRemoved
      (s!"download length changed before complete: expected={expectedTotal} " ++
        s!"actual={visibleLen}"))
  else do
    match ← ask .takeValidated id with
    | none => throw (.fromCode .invalidTaskState
        "download progress missing during final validation")
    | some progress =>
      if progress.layout.total ≠ expectedTotal then
        throw (.fromCode .invalidRange
          (s!"download progress total mismatch: expected={expectedTotal} " ++
            s!"progress={progress.layout.total}"))
      else if !progress.allDone then
        throw (.fromCode .invalidRange
          "download complete called before all parts recorded done")
      else do
        let _ ← tell .deleteSidecar
        pure ()

/-- `finalize_download_content`: both releases are tried, and the first error of the three
stages is the answer. -/
def finalizeDownloadContent (task : DownloadTask) (expectedTotal : Nat) : Action Unit :=
  withBarrier (ExceptT.mk do
    let finalization ← (finalizeChecks task expectedTotal).run
    let fileRelease : Except MeowError Unit ← call .releaseFile
    let leaseRelease : Except MeowError Unit ← call .releaseLease
    pure (do
      finalization
      fileRelease
      leaseRelease))

end RustyCat.Download
