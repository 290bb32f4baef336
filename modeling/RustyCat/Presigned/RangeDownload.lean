import RustyCat.Download.Chunk
import RustyCat.Lib.Rely

/-!
# Presigned range downloads

`presigned/range_download.rs` with the two request builders of the default backend.  A
call is one access to what threads share (the published plan, the refresh gate, the flags
of the task, the clock), to the thread-local state, or to the user's refresher; the
refresher is entered and left in two calls, for the code in between may call the hooks
again.  The plan's write lock only makes readers wait, so storing the plan is one call.
Locks are never poisoned: a panic of the refresher is caught.
-/

namespace RustyCat.Presigned

open Interaction

open Download (Text HeaderMap HeaderValue)

structure RangePlan where
  totalSize : Option Nat
  headUrl : Option String
  rangeUrl : String
  rangeExpiresAtUnixSecs : Option Nat
  refreshBeforeSecs : Nat
  headHeaders : HeaderMap
  rangeHeaders : HeaderMap
  deriving DecidableEq

/-- What the hooks read of a `TransferTask`. -/
structure TaskView where
  id : Nat
  url : String
  headers : HeaderMap

/-- The result that `head_url` leaves for `merge_head_headers`. -/
abbrev HeadSnapshot := Except MeowError RangePlan

inductive RangeOp where
  /-- `stop_requested` of the task. -/
  | stopRequested (task : Nat)
  /-- `resolved_download_total` of the task. -/
  | resolvedTotal (task : Nat)
  | readPlan
  | publish (plan : RangePlan)
  /-- `now_unix_secs` -/
  | now
  | lockGate
  | unlockGate
  /-- `ACTIVE_RANGE_REFRESH` of the thread contains this download. -/
  | activeContains
  /-- `ActiveRefreshGuard::enter`, `false` when the key is there already. -/
  | enterActive
  | leaveActive
  /-- The refresher is called for the plan. -/
  | refreshBegin (plan : RangePlan)
  /-- The refresher returns, or panics with `none`. -/
  | refreshEnd
  | rememberHead (snapshot : HeadSnapshot)
  | takeHead
  | rememberRange (url : String)
  | takeRange

@[reducible] def RangeAnswer : RangeOp → Type
  | .stopRequested _ | .activeContains | .enterActive => Bool
  | .resolvedTotal _ => Option Nat
  | .readPlan => RangePlan
  | .now => Except MeowError Nat
  | .publish _ | .lockGate | .unlockGate | .leaveActive | .refreshBegin _ | .rememberHead _
  | .rememberRange _ => Unit
  | .refreshEnd => Option (Except MeowError RangePlan)
  | .takeHead => Option HeadSnapshot
  | .takeRange => Option String

abbrev Hook := Interaction.Attempt RangeOp RangeAnswer MeowError

namespace RangeDownload

def call (op : RangeOp) : Program RangeOp RangeAnswer (RangeAnswer op) := Program.perform op

def tell (op : RangeOp) : Hook (RangeAnswer op) := Attempt.ask op Except.ok

def known {α : Type} (result : Except MeowError α) : Hook α := ExceptT.mk (pure result)

def mergeHeaders (target extra : HeaderMap) : HeaderMap :=
  extra.foldl (fun headers line => HeaderMap.insert headers line.1 line.2) target

/-! ## Freshness -/

def shouldRefreshPlan (plan : RangePlan) : Hook Bool :=
  match plan.rangeExpiresAtUnixSecs with
  | none => pure false
  | some expiresAt => do
    let now ← Attempt.ask .now id
    pure (Word.saturatingAdd 64 now plan.refreshBeforeSecs ≥ expiresAt)

def expiredAt (plan : RangePlan) (now : Nat) : Bool :=
  plan.rangeExpiresAtUnixSecs.any fun expiresAt => now ≥ expiresAt

def isPlanExpired (plan : RangePlan) : Hook Bool :=
  match plan.rangeExpiresAtUnixSecs with
  | none => pure false
  | some expiresAt => do
    let now ← Attempt.ask .now id
    pure (now ≥ expiresAt)

def ensureTaskActive (task : TaskView) : Hook Unit :=
  Attempt.ask (.stopRequested task.id) fun stopped : Bool =>
    if stopped then
      .error (.fromCode .taskCanceled "presigned range download stopped during URL refresh")
    else .ok ()

/-- Two totals that are both known have to be the same. -/
def checkTotals (what : String) (expected observed : Option Nat) : Except MeowError Unit :=
  match expected, observed with
  | some expected, some observed =>
    if expected = observed then .ok ()
    else .error (.fromCode .invalidTaskState
      s!"{what} total_size mismatch: expected={expected} observed={observed}")
  | _, _ => .ok ()

def ensureTaskTotalMatchesSnapshot (task : TaskView) (plan : RangePlan) : Hook Unit := do
  let expected ← tell (.resolvedTotal task.id)
  known (checkTotals "presigned range" expected plan.totalSize)

def reentered : MeowError :=
  .fromCode .invalidTaskState "presigned range URL refresher re-entered the same download"

def withGate {α : Type} (body : Hook α) : Hook α :=
  ExceptT.mk do
    let _ ← call .lockGate
    let result ← body.run
    let _ ← call .unlockGate
    pure result

def withActive {α : Type} (body : Hook α) : Hook α := do
  let entered : Bool ← tell .enterActive
  if entered then
    ExceptT.mk do
      let result ← body.run
      let _ ← call .leaveActive
      pure result
  else throw reentered

/-- The refresher's plan is checked and published. -/
def adoptRefreshed (task : TaskView) (plan refreshed : RangePlan) : Hook RangePlan := do
  ensureTaskActive task
  let expired ← isPlanExpired refreshed
  if expired then
    throw (.fromCode .invalidTaskState "refreshed presigned range URL is already expired")
  else do
    let resolved : Option Nat ← tell (.resolvedTotal task.id)
    known (checkTotals "refreshed range" (resolved.or plan.totalSize) refreshed.totalSize)
    let filled := { refreshed with totalSize := refreshed.totalSize.or plan.totalSize }
    ensureTaskActive task
    let _ ← tell (.publish filled)
    pure filled

/-- The call of the refresher, under the gate and the active guard. -/
def callRefresher (task : TaskView) (plan : RangePlan) : Hook RangePlan := do
  let _ ← tell (.refreshBegin plan)
  let outcome : Option (Except MeowError RangePlan) ← tell .refreshEnd
  match outcome with
  | none => throw (.fromCode .invalidTaskState "presigned range URL refresher panicked")
  | some (.error e) => throw e
  | some (.ok refreshed) => adoptRefreshed task plan refreshed

/-- The part of `ensure_fresh_snapshot` under the gate. -/
def refreshUnderGate (task : TaskView) : Hook RangePlan := do
  ensureTaskActive task
  let plan ← tell .readPlan
  ensureTaskTotalMatchesSnapshot task plan
  let stale ← shouldRefreshPlan plan
  if stale then withActive (callRefresher task plan)
  else do
    ensureTaskActive task
    pure plan

/-- `ensure_fresh_snapshot`; `refresher` tells whether one is configured. -/
def ensureFreshSnapshot (refresher : Bool) (task : TaskView) : Hook RangePlan := do
  ensureTaskActive task
  let plan ← tell .readPlan
  ensureTaskTotalMatchesSnapshot task plan
  let stale ← shouldRefreshPlan plan
  if !stale then do
    ensureTaskActive task
    pure plan
  else if !refresher then do
    let expired ← isPlanExpired plan
    if expired then
      throw (.fromCode .invalidTaskState
        "presigned range URL expired and no refresher is configured")
    else do
      ensureTaskActive task
      pure plan
  else do
    let active : Bool ← tell .activeContains
    if active then throw reentered else withGate (refreshUnderGate task)

/-! ## The hooks -/

def headUrlOf (plan : RangePlan) : String := plan.headUrl.getD plan.rangeUrl

def headUrl (refresher : Bool) (task : TaskView) : Hook String := do
  let snapshot ← ExceptT.lift (ensureFreshSnapshot refresher task).run
  let _ ← tell (.rememberHead snapshot)
  pure (match snapshot with
    | .ok plan => headUrlOf plan
    | .error _ => task.url)

def mergeHeadHeaders (refresher : Bool) (task : TaskView) (base : HeaderMap) :
    Hook HeaderMap := do
  let remembered : Option HeadSnapshot ← tell .takeHead
  let plan ← match remembered with
    | some snapshot => known snapshot
    | none => ensureFreshSnapshot refresher task
  ensureTaskActive task
  pure (mergeHeaders base plan.headHeaders)

def defaultRangeAccept : Text := "application/octet-stream".toList

def rangeHeadersOf (plan : RangePlan) (range : HeaderValue) (base : HeaderMap) : HeaderMap :=
  let ranged := HeaderMap.insert base "range" range
  let accepting :=
    if (HeaderMap.get ranged "accept").isSome then ranged
    else HeaderMap.insert ranged "accept" (defaultRangeAccept.map fun c => UInt8.ofNat c.toNat)
  mergeHeaders accepting plan.rangeHeaders

def requestFromFreshSnapshot (refresher : Bool) (task : TaskView) (rangeValue : Text)
    (base : HeaderMap) : Hook (String × HeaderMap) := do
  let plan ← ensureFreshSnapshot refresher task
  match Download.fromStr rangeValue with
  | none => throw (.fromCode .parameterEmpty
      (s!"invalid range header value '{String.ofList rangeValue}': " ++
        "failed to parse header value"))
  | some range => do
    ensureTaskActive task
    pure (plan.rangeUrl, rangeHeadersOf plan range base)

def mergeRangeGetHeaders (refresher : Bool) (task : TaskView) (rangeValue : Text)
    (base : HeaderMap) : Hook HeaderMap := do
  let (url, headers) ← requestFromFreshSnapshot refresher task rangeValue base
  let _ ← tell (.rememberRange url)
  pure headers

def rangeUrl : Hook String := do
  let remembered : Option String ← tell .takeRange
  match remembered with
  | some url => pure url
  | none => do
    let plan : RangePlan ← tell .readPlan
    pure plan.rangeUrl

/-! ## The builders -/

def buildHead (refresher : Bool) (task : TaskView) : Hook (String × HeaderMap) := do
  let url ← headUrl refresher task
  let headers ← mergeHeadHeaders refresher task task.headers
  pure (url, headers)

/-- The closure of `build_download_range_request`, with the `If-Match` value it has read. -/
def buildRange (refresher : Bool) (task : TaskView) (expectedIfMatch : Option HeaderValue)
    (rangeValue : Text) : Hook (String × HeaderMap) := do
  let headers ← mergeRangeGetHeaders refresher task rangeValue
    (Download.rangeRequestBase task.headers expectedIfMatch)
  let url ← rangeUrl
  known (Download.checkRangeRequest headers expectedIfMatch)
  pure (url, headers)

end RangeDownload

end RustyCat.Presigned
