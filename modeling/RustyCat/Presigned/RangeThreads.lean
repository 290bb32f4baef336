import RustyCat.Lib.Machine
import RustyCat.Presigned.RangeDownload

/-!
# Threads that share one presigned range download

Every thread builds requests, or calls single hooks, through clones of one
`PresignedRangeDownload`.  While a thread is inside the user's refresher, that code may
call the hooks again (a nested call) or use other downloads, whose entries replace what
the thread-local slots hold.
-/

namespace RustyCat.Presigned

open Interaction Function

open Download (Text HeaderMap HeaderValue)

abbrev RangeEvent := Event RangeOp RangeAnswer

/-- The calls of a thread, or the nested calls from inside its refresher. -/
structure Lane (n : Nat) where
  thread : Fin n
  nested : Bool
  deriving DecidableEq

/-- What the calls read and write.  `relocked`, `history` and `trace` are no data of the
program: whether a thread locked the gate that it held, the plans published so far, and
the events of the current call of each lane. -/
structure Shared (n : Nat) where
  plan : RangePlan
  gate : Option (Fin n)
  resolved : Nat → Option Nat
  /-- `ACTIVE_RANGE_REFRESH` of the thread contains the key of this download. -/
  active : Fin n → Bool
  /-- `PENDING_HEAD_SNAPSHOT`; an entry of another download counts as none. -/
  headSlot : Fin n → Option HeadSnapshot
  /-- `PENDING_RANGE_URL` -/
  rangeSlot : Fin n → Option String
  relocked : Bool
  history : List RangePlan
  trace : Lane n → List RangeEvent

structure Env where
  stopped : Bool
  now : Except MeowError Nat
  outcome : Option (Except MeowError RangePlan)

namespace Shared

variable {n : Nat}

/-- A call by a thread.  Locking the gate waits while another thread holds it; a thread
that holds it itself would wait forever, which `relocked` notes. -/
def perform (s : Shared n) (i : Fin n) (env : Env) :
    (op : RangeOp) → Option (RangeAnswer op × Shared n)
  | .stopRequested _ => some (env.stopped, s)
  | .resolvedTotal task => some (s.resolved task, s)
  | .readPlan => some (s.plan, s)
  | .publish plan => some ((), { s with plan := plan, history := plan :: s.history })
  | .now => some (env.now, s)
  | .lockGate =>
    match s.gate with
    | none => some ((), { s with gate := some i })
    | some owner => if owner = i then some ((), { s with relocked := true }) else none
  | .unlockGate => some ((), { s with gate := none })
  | .activeContains => some (s.active i, s)
  | .enterActive => some (!s.active i, { s with active := update s.active i true })
  | .leaveActive => some ((), { s with active := update s.active i false })
  | .refreshBegin _ => some ((), s)
  | .refreshEnd => some (env.outcome, s)
  | .rememberHead snapshot =>
    some ((), { s with headSlot := update s.headSlot i (some snapshot) })
  | .takeHead => some (s.headSlot i, { s with headSlot := update s.headSlot i none })
  | .rememberRange url =>
    some ((), { s with rangeSlot := update s.rangeSlot i (some url) })
  | .takeRange => some (s.rangeSlot i, { s with rangeSlot := update s.rangeSlot i none })

def record (s : Shared n) (lane : Lane n) (event : RangeEvent) : Shared n :=
  { s with trace := update s.trace lane (s.trace lane ++ [event]) }

def Acts (lane : Lane n) (s : Shared n) (event : RangeEvent) (t : Shared n) : Prop :=
  ∃ env u, s.perform lane.thread env event.op = some (event.answer, u) ∧ t = u.record lane event

end Shared

/-! ## Calls -/

abbrev Request := String × HeaderMap

inductive Job where
  /-- `build_download_head_request` -/
  | head
  /-- `build_download_range_request` -/
  | range (expectedIfMatch : Option HeaderValue) (rangeValue : Text)
  | headUrl
  | mergeHeadHeaders (base : HeaderMap)
  | mergeRangeGetHeaders (rangeValue : Text) (base : HeaderMap)
  | rangeUrl

/-- Only a hook can be called from inside the refresher. -/
def Job.isHook : Job → Bool
  | .head | .range _ _ => false
  | _ => true

/-- A call through one clone of the download, which may or may not have the refresher. -/
structure Call where
  refresher : Bool
  task : TaskView
  job : Job

/-- The program of a call; a builder returns its request. -/
def Call.program (call : Call) : Hook (Option Request) :=
  match call.job with
  | .head => do
    let request ← RangeDownload.buildHead call.refresher call.task
    pure (some request)
  | .range expectedIfMatch rangeValue => do
    let request ← RangeDownload.buildRange call.refresher call.task expectedIfMatch rangeValue
    pure (some request)
  | .headUrl => do
    let _ ← RangeDownload.headUrl call.refresher call.task
    pure none
  | .mergeHeadHeaders base => do
    let _ ← RangeDownload.mergeHeadHeaders call.refresher call.task base
    pure none
  | .mergeRangeGetHeaders rangeValue base => do
    let _ ← RangeDownload.mergeRangeGetHeaders call.refresher call.task rangeValue base
    pure none
  | .rangeUrl => do
    let _ ← RangeDownload.rangeUrl
    pure none

structure Frame where
  call : Call
  rest : Program RangeOp RangeAnswer (Except MeowError (Option Request))

def Frame.inRefresher (frame : Frame) : Bool :=
  match frame.rest with
  | .call .refreshEnd _ => true
  | _ => false

/-- A request that was built, with the events of its call. -/
structure Built where
  call : Call
  request : Request
  events : List RangeEvent

structure RangeSystem (n : Nat) where
  shared : Shared n
  frames : Lane n → Option Frame
  built : List Built

namespace RangeSystem

variable {n : Nat}

inductive Label (n : Nat) where
  | start (lane : Lane n) (call : Call)
  | act (lane : Lane n) (env : Env)
  | finish (lane : Lane n)
  /-- `freeze_resolved_download_total` -/
  | freeze (task total : Nat)
  /-- Another download uses the slots of the thread. -/
  | foreign (thread : Fin n)

/-- The thread runs code of the user: it is idle, or inside the refresher and in no nested
call. -/
def outside (s : RangeSystem n) (thread : Fin n) : Bool :=
  (s.frames ⟨thread, true⟩).isNone && (s.frames ⟨thread, false⟩).all Frame.inRefresher

def mayStart (s : RangeSystem n) (lane : Lane n) (call : Call) : Bool :=
  if lane.nested then
    (s.frames lane).isNone && call.job.isHook &&
      (s.frames ⟨lane.thread, false⟩).any Frame.inRefresher
  else (s.frames lane).isNone

def taskIdle (s : RangeSystem n) (task : Nat) : Prop :=
  ∀ thread nested, ((s.frames ⟨thread, nested⟩).all fun frame => frame.call.task.id ≠ task) = true

instance (s : RangeSystem n) (task : Nat) : Decidable (s.taskIdle task) :=
  inferInstanceAs (Decidable (∀ _ _, _ = true))

/-- A step of the system.  `download_prepare` freezes the total of its own run, after its
HEAD request and before its range requests, so no call of the task is in progress then. -/
def step (s : RangeSystem n) : Label n → Option (RangeSystem n)
  | .start lane call =>
    if s.mayStart lane call then
      some { s with
        shared := { s.shared with trace := update s.shared.trace lane [] }
        frames := update s.frames lane (some ⟨call, call.program.run⟩) }
    else none
  | .act lane env =>
    match s.frames lane with
    | some ⟨call, .call op next⟩ =>
      if lane.nested = false ∧ (s.frames ⟨lane.thread, true⟩).isSome then none
      else
        match s.shared.perform lane.thread env op with
        | none => none
        | some (answer, shared) => some { s with
            shared := shared.record lane ⟨op, answer⟩
            frames := update s.frames lane (some ⟨call, next answer⟩) }
    | _ => none
  | .finish lane =>
    match s.frames lane with
    | some ⟨call, .done result⟩ => some { s with
        frames := update s.frames lane none
        built :=
          match result with
          | .ok (some request) => ⟨call, request, s.shared.trace lane⟩ :: s.built
          | _ => s.built }
    | _ => none
  | .freeze task total =>
    if s.taskIdle task ∧ s.shared.resolved task = none then
      some { s with shared := { s.shared with
        resolved := update s.shared.resolved task (some total) } }
    else none
  | .foreign thread =>
    if s.outside thread then
      some { s with shared := { s.shared with
        headSlot := update s.shared.headSlot thread none
        rangeSlot := update s.shared.rangeSlot thread none } }
    else none

/-- The plan that the download was created with is the only one so far, and no call has
started. -/
def initial (plan : RangePlan) : RangeSystem n where
  shared :=
    { plan, gate := none, resolved := fun _ => none, active := fun _ => false
      headSlot := fun _ => none, rangeSlot := fun _ => none
      relocked := false, history := [plan], trace := fun _ => [] }
  frames := fun _ => none
  built := []

end RangeSystem

end RustyCat.Presigned
