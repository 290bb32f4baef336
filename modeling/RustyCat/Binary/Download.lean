import RustyCat.Error
import RustyCat.Lib.Word
import Mathlib.Data.List.Basic

/-!
# Binary downloads

The retry loop of `binary/download.rs` over attempts that answer and break off as they
like, the buffer of the body, and the redirects that an attempt follows.  Buffered bytes
and reserved capacity stay within the limit, and a result is the body of one attempt.
-/

namespace RustyCat.BinaryDownload

/-! ## Redirects -/

structure Url where
  scheme : String
  username : String
  password : Option String

def rejectRedirect (previous : List Url) (next : Url) (redirectLimit : Nat) : Option String :=
  if previous.length > redirectLimit then some "binary redirect limit exceeded"
  else if next.scheme ∉ ["http", "https"] ∨ next.username ≠ "" ∨ next.password ≠ none then
    some "unsafe binary redirect target"
  else if ∃ url ∈ previous.getLast?, url.scheme = "https" ∧ next.scheme = "http" then
    some "HTTPS redirect downgrade rejected"
  else none

/-- The URLs an attempt asks for, the first one and the redirects that are followed. -/
inductive Followed (redirectLimit : Nat) : List Url → Prop where
  | start (url : Url) : Followed redirectLimit [url]
  | redirect {previous : List Url} {next : Url} (chain : Followed redirectLimit previous)
      (accepted : rejectRedirect previous next redirectLimit = none) :
      Followed redirectLimit (previous ++ [next])

structure SafeChain (redirectLimit : Nat) (chain : List Url) : Prop where
  count : chain.length ≤ redirectLimit + 1
  targets : ∀ url ∈ chain.tail,
    url.scheme ∈ ["http", "https"] ∧ url.username = "" ∧ url.password = none
  secure : chain.Pairwise fun a b => a.scheme = "https" → b.scheme = "https"

theorem Followed.safeChain {redirectLimit : Nat} {chain : List Url}
    (followed : Followed redirectLimit chain) :
    SafeChain redirectLimit chain ∧
      ∃ last, chain.getLast? = some last ∧ ∀ url ∈ chain, url.scheme = "https" → last.scheme = "https" := by
  induction followed with
  | start url => exact ⟨⟨by simp, by simp, by simp⟩, url, by simp⟩
  | @redirect previous next _ accepted ih =>
    obtain ⟨⟨-, targets, secure⟩, last, final, reaches⟩ := ih
    simp only [rejectRedirect] at accepted
    split_ifs at accepted with long unsafe_ downgrade
    simp only [ne_eq, not_or, not_not] at unsafe_
    obtain ⟨scheme, username, password⟩ := unsafe_
    -- what was secure is so at the last hop, and the rule compares with that one
    have goesOn (url : Url) (member : url ∈ previous) (https : url.scheme = "https") :
        next.scheme = "https" :=
      (List.mem_pair.mp scheme).resolve_left fun http => downgrade ⟨last, final, reaches url member https, http⟩
    refine ⟨⟨by simp; omega, fun url member => ?_, ?_⟩, next, by simp, fun url member https => ?_⟩
    · obtain ⟨first, rest, rfl⟩ := List.exists_cons_of_ne_nil
        (List.getLast?_isSome.mp (by rw [final]; rfl))
      obtain old | new := List.mem_append.mp member
      · exact targets url old
      · rw [List.mem_singleton.mp new]
        exact ⟨scheme, username, password⟩
    · exact List.pairwise_append.mpr ⟨secure, List.pairwise_singleton _ _, fun url member other here =>
        List.mem_singleton.mp here ▸ goesOn url member⟩
    · obtain old | new := List.mem_append.mp member
      · exact goesOn url old https
      · exact List.mem_singleton.mp new ▸ https

/-! ## One attempt -/

def initialBodyReserveLimit : Nat := 1024 * 1024

def unknownBodyInitialReserve : Nat := 64 * 1024

def taskCanceled : MeowError := .fromCode .taskCanceled "binary task was canceled"

def bodyTooLarge (maxBodyBytes : Nat) : MeowError :=
  .fromCode .binaryBodyTooLarge s!"binary response exceeded {maxBodyBytes} bytes"

def allocationFailed (error : String) : MeowError :=
  .fromCode .ioError s!"binary response buffer allocation failed: {error}"

inductive AttemptFailure where
  | retryable (error : MeowError)
  | terminal (error : MeowError)

inductive BodyEnd where
  | finished
  | failed
  /-- The `select!` saw the cancelled token. -/
  | cancelled

structure Response where
  status : Nat
  contentLength : Option Nat
  contentType : Option (List UInt8)
  chunks : List (List UInt8)
  ending : BodyEnd

inductive Sent where
  | cancelled
  | failed (isTimeout isRedirect : Bool)
  | answered (response : Response)

/-- What an attempt and the delay after it meet. -/
structure Attempt where
  sent : Sent
  /-- The text of the error if a buffer of this capacity cannot be allocated. -/
  refused : Nat → Option String
  cancelledInDelay : Bool

/-- The task's own limit goes before the one of the configuration. -/
def effectiveMaxBodyBytes (taskMax : Option Nat) (globalMax : Nat) : Nat := taskMax.getD globalMax

structure Buffer where
  body : List UInt8
  capacity : Nat
  total : Nat

namespace Buffer

/-- `try_reserve_exact` when it succeeds, with no more than was asked for. -/
def tryReserveExact (b : Buffer) (additional : Nat) : Buffer :=
  { b with capacity := max b.capacity (b.body.length + additional) }

/-- The vector grows by itself where the chunk does not fit. -/
def extendFromSlice (b : Buffer) (chunk : List UInt8) : Buffer :=
  { b with
    body := b.body ++ chunk
    capacity :=
      if b.body.length + chunk.length ≤ b.capacity then b.capacity
      else max (b.capacity * 2) (b.body.length + chunk.length) }

end Buffer

section Attempts

variable (usizeMax maxBodyBytes : Nat)

def boundedInitialCapacity (contentLength : Option Nat) : Except MeowError Nat :=
  let wanted := min (min (contentLength.getD 0) maxBodyBytes) initialBodyReserveLimit
  if wanted ≤ usizeMax then .ok wanted else .error (bodyTooLarge maxBodyBytes)

def push (refused : Nat → Option String) (b : Buffer) (chunk : List UInt8) :
    Except AttemptFailure Buffer :=
  match Word.checkedAdd 64 b.total chunk.length with
  | none => .error (.terminal (bodyTooLarge maxBodyBytes))
  | some total =>
    if total > maxBodyBytes then .error (.terminal (bodyTooLarge maxBodyBytes))
    else if total > usizeMax then .error (.terminal (bodyTooLarge maxBodyBytes))
    else if total > b.capacity then
      let maxCapacity := min maxBodyBytes usizeMax
      let doubled := min (min (max b.capacity unknownBodyInitialReserve * 2) usizeMax) maxCapacity
      let target := min (max total doubled) maxCapacity
      match refused target with
      | some error => .error (.terminal (allocationFailed error))
      | none =>
        .ok { (b.tryReserveExact (target - b.body.length)).extendFromSlice chunk with total := total }
    else .ok { b.extendFromSlice chunk with total := total }

/-- The buffers the loop goes through, and how it ends. -/
def receive (refused : Nat → Option String) (ending : BodyEnd) :
    Buffer → List (List UInt8) → List Buffer × Except AttemptFailure Buffer
  | b, [] =>
    match ending with
    | .finished => ([], .ok b)
    | .failed =>
      ([], .error (.retryable (.fromCode .httpError "binary response body read failed")))
    | .cancelled => ([], .error (.terminal taskCanceled))
  | b, chunk :: chunks =>
    match push usizeMax maxBodyBytes refused b chunk with
    | .error failure => ([], .error failure)
    | .ok next =>
      let (moments, result) := receive refused ending next chunks
      (next :: moments, result)

structure Output where
  bytes : List UInt8
  contentType : Option (List UInt8)

def downloadOnce (attempt : Attempt) : List Buffer × Except AttemptFailure Output :=
  match attempt.sent with
  | .cancelled => ([], .error (.terminal taskCanceled))
  | .failed isTimeout isRedirect =>
    let mapped := .fromCode .httpError
      (if isTimeout then "binary HTTP attempt timed out"
      else if isRedirect then "binary HTTP redirect was rejected"
      else "binary HTTP request failed")
    ([], .error (if isRedirect then .terminal mapped else .retryable mapped))
  | .answered response =>
    if ¬ (200 ≤ response.status ∧ response.status < 300) then
      ([], .error (.terminal ((MeowError.fromCode .responseStatusError
        s!"binary HTTP response status was {response.status}").withHttpStatus response.status)))
    else if ∃ length ∈ response.contentLength, length > maxBodyBytes then
      ([], .error (.terminal (bodyTooLarge maxBodyBytes)))
    else
      match boundedInitialCapacity usizeMax maxBodyBytes response.contentLength with
      | .error error => ([], .error (.terminal error))
      | .ok initialCapacity =>
        match attempt.refused initialCapacity with
        | some error => ([], .error (.terminal (allocationFailed error)))
        | none =>
          let start := Buffer.tryReserveExact ⟨[], 0, 0⟩ initialCapacity
          let (moments, result) :=
            receive usizeMax maxBodyBytes attempt.refused response.ending start response.chunks
          (start :: moments, result.map fun b => ⟨b.body, response.contentType⟩)

/-- The attempts that `download_with_retry` makes from this one on, with the delays still
to come, and its result. -/
def downloadWithRetry (env : Nat → Attempt) (attemptIndex : Nat) (retryDelays : List Nat) :
    List Attempt × Except MeowError Output :=
  let attempt := env attemptIndex
  match (downloadOnce usizeMax maxBodyBytes attempt).2 with
  | .ok output => ([attempt], .ok output)
  | .error (.terminal error) => ([attempt], .error error)
  | .error (.retryable error) =>
    match retryDelays with
    | [] => ([attempt], .error error)
    | _ :: delays =>
      if attempt.cancelledInDelay then ([attempt], .error taskCanceled)
      else
        let (later, result) := downloadWithRetry env (attemptIndex + 1) delays
        (attempt :: later, result)

end Attempts

/-! ## Bounds -/

section Bounds

variable {maxBodyBytes : Nat} {b : Buffer}

structure Buffer.Fits (maxBodyBytes : Nat) (b : Buffer) : Prop where
  counted : b.total = b.body.length
  held : b.body.length ≤ b.capacity
  bounded : b.capacity ≤ maxBodyBytes

theorem extendFromSlice_fits {chunk : List UInt8}
    (room : b.body.length + chunk.length ≤ b.capacity) (bounded : b.capacity ≤ maxBodyBytes) :
    Buffer.Fits maxBodyBytes
      { b.extendFromSlice chunk with total := b.body.length + chunk.length } := by
  simp only [Buffer.extendFromSlice, if_pos room]
  exact ⟨List.length_append.symm, by rwa [List.length_append], bounded⟩

theorem push_cases (usizeMax : Nat) (refused : Nat → Option String) (fits : b.Fits maxBodyBytes)
    (chunk : List UInt8) :
    (∃ next, push usizeMax maxBodyBytes refused b chunk = .ok next ∧ next.Fits maxBodyBytes ∧
      next.body = b.body ++ chunk) ∨
    ∃ error, push usizeMax maxBodyBytes refused b chunk = .error (.terminal error) := by
  obtain ⟨counted, held, bounded⟩ := fits
  unfold push
  cases added : Word.checkedAdd 64 b.total chunk.length with
  | none => exact .inr ⟨_, rfl⟩
  | some total =>
    obtain ⟨-, rfl⟩ := Word.checkedAdd_eq_some.mp added
    dsimp only
    rw [counted]
    split_ifs with large wide full
    · exact .inr ⟨_, rfl⟩
    · exact .inr ⟨_, rfl⟩
    · split
      · exact .inr ⟨_, rfl⟩
      · refine .inl ⟨_, rfl, extendFromSlice_fits ?_ ?_, rfl⟩
        · simp only [Buffer.tryReserveExact]
          omega
        · simp only [Buffer.tryReserveExact]
          omega
    · exact .inl ⟨_, rfl, extendFromSlice_fits (by omega) bounded, rfl⟩

theorem receive_spec (usizeMax : Nat) (refused : Nat → Option String) (ending : BodyEnd)
    (chunks : List (List UInt8)) (fits : b.Fits maxBodyBytes) :
    (∀ moment ∈ (receive usizeMax maxBodyBytes refused ending b chunks).1,
      moment.Fits maxBodyBytes) ∧
    (∀ last, (receive usizeMax maxBodyBytes refused ending b chunks).2 = .ok last →
      ending = .finished ∧ last.Fits maxBodyBytes ∧ last.body = b.body ++ chunks.flatten) ∧
    (ending = .cancelled → ∃ error,
      (receive usizeMax maxBodyBytes refused ending b chunks).2 = .error (.terminal error)) := by
  induction chunks generalizing b with
  | nil => cases ending <;> simp [receive, fits]
  | cons chunk chunks ih =>
    simp only [receive]
    obtain ⟨next, pushed, fits, body⟩ | ⟨error, pushed⟩ := push_cases usizeMax refused fits chunk
    · obtain ⟨moments, result, cancelled⟩ := ih fits
      simp only [pushed, List.flatten_cons, ← List.append_assoc, ← body]
      exact ⟨List.forall_mem_cons.mpr ⟨fits, moments⟩, result, cancelled⟩
    · simp [pushed]

/-- The `select!` of the request or one of those of the body saw the cancelled token. -/
def Attempt.Cancelled (attempt : Attempt) : Prop :=
  match attempt.sent with
  | .cancelled => True
  | .failed _ _ => False
  | .answered response => response.ending = .cancelled

/-- The output is the whole body of the attempt. -/
def Attempt.Delivers (attempt : Attempt) (bytes : List UInt8) : Prop :=
  ∃ response, attempt.sent = .answered response ∧ response.ending = .finished ∧
    bytes = response.chunks.flatten

theorem downloadOnce_spec (usizeMax maxBodyBytes : Nat) (attempt : Attempt) :
    (∀ moment ∈ (downloadOnce usizeMax maxBodyBytes attempt).1, moment.Fits maxBodyBytes) ∧
    (∀ output, (downloadOnce usizeMax maxBodyBytes attempt).2 = .ok output →
      attempt.Delivers output.bytes ∧ output.bytes.length ≤ maxBodyBytes) ∧
    (attempt.Cancelled →
      ∃ error, (downloadOnce usizeMax maxBodyBytes attempt).2 = .error (.terminal error)) := by
  cases sent : attempt.sent with
  | cancelled => simp [downloadOnce, sent]
  | failed isTimeout isRedirect => simp [downloadOnce, sent, Attempt.Cancelled]
  | answered response =>
    simp only [downloadOnce, sent]
    split
    · simp
    split
    · simp
    split
    · simp
    rename_i initialCapacity initial
    split
    · simp
    have small : initialCapacity ≤ maxBodyBytes := by
      simp only [boundedInitialCapacity] at initial
      split_ifs at initial
      cases initial
      omega
    have start : Buffer.Fits maxBodyBytes (.tryReserveExact ⟨[], 0, 0⟩ initialCapacity) :=
      ⟨rfl, Nat.zero_le _, by simpa [Buffer.tryReserveExact] using small⟩
    obtain ⟨moments, result, cancelled⟩ :=
      receive_spec usizeMax attempt.refused response.ending response.chunks start
    refine ⟨List.forall_mem_cons.mpr ⟨start, moments⟩, ?_, ?_⟩
    · dsimp only
      generalize (receive _ _ _ _ _ _).2 = received at result
      intro output answered
      cases received with
      | error failure => cases answered
      | ok last =>
        cases answered
        obtain ⟨finished, fits, body⟩ := result last rfl
        exact ⟨⟨response, sent, finished, body⟩, Nat.le_trans fits.held fits.bounded⟩
    · intro seen
      simp only [Attempt.Cancelled, sent] at seen
      obtain ⟨error, failed⟩ := cancelled seen
      exact ⟨error, by rw [failed]; rfl⟩

/-- What is known of the attempts and the result of a download. -/
structure Lawful (usizeMax maxBodyBytes allowed : Nat)
    (run : List Attempt × Except MeowError Output) : Prop where
  delivers : ∀ output, run.2 = .ok output →
    ∃ attempt ∈ run.1, attempt.Delivers output.bytes ∧ output.bytes.length ≤ maxBodyBytes
  count : run.1.length ≤ allowed
  retried : ∀ attempt ∈ run.1.dropLast, ¬ attempt.Cancelled ∧ attempt.cancelledInDelay = false ∧
    ∃ error, (downloadOnce usizeMax maxBodyBytes attempt).2 = .error (.retryable error)

theorem lawful_of_error (usizeMax maxBodyBytes : Nat) (attempt : Attempt) (error : MeowError)
    (delays : Nat) : Lawful usizeMax maxBodyBytes (1 + delays) ([attempt], .error error) :=
  ⟨nofun, Nat.le_add_right _ _, nofun⟩

theorem downloadWithRetry_lawful (usizeMax maxBodyBytes : Nat) (env : Nat → Attempt)
    (attemptIndex : Nat) (retryDelays : List Nat) :
    Lawful usizeMax maxBodyBytes (1 + retryDelays.length)
      (downloadWithRetry usizeMax maxBodyBytes env attemptIndex retryDelays) := by
  fun_induction downloadWithRetry usizeMax maxBodyBytes env attemptIndex retryDelays with
  | case1 retryDelays attemptIndex attempt output answered =>
    refine ⟨fun _ same => ?_, Nat.le_add_right _ _, nofun⟩
    cases same
    exact ⟨attempt, List.mem_singleton_self _,
      (downloadOnce_spec usizeMax maxBodyBytes attempt).2.1 output answered⟩
  | case2 | case3 | case4 => exact lawful_of_error ..
  | case5 attemptIndex attempt error failed delay delays live later result same ih =>
    rw [same] at ih
    obtain ⟨delivers, count, retried⟩ := ih
    refine ⟨fun output answered => ?_, ?_, fun other member => ?_⟩
    · obtain ⟨other, member, delivered⟩ := delivers output answered
      exact ⟨other, List.mem_cons_of_mem _ member, delivered⟩
    · change later.length ≤ 1 + delays.length at count
      simp only [List.length_cons]
      omega
    · cases later with
      | nil => cases member
      | cons next later =>
        obtain rfl | old := List.mem_cons.mp member
        · refine ⟨fun seen => ?_, Bool.of_not_eq_true live, error, failed⟩
          obtain ⟨_, terminal⟩ := (downloadOnce_spec usizeMax maxBodyBytes attempt).2.2 seen
          cases failed.symm.trans terminal
        · exact retried other old

end Bounds

/-- Whatever the attempts meet: a result is the body of one attempt and within the limit, as
are the buffered bytes and the capacity at every moment; a further attempt follows only a
failure that may be repeated and a delay without cancellation; and the redirects that are
followed are counted, safe and never downgraded. -/
theorem binary_download_bounds (usizeMax globalMax : Nat) (taskMax : Option Nat)
    (env : Nat → Attempt) (retryDelays : List Nat) (redirectLimit : Nat) :
    let limit := effectiveMaxBodyBytes taskMax globalMax
    Lawful usizeMax limit (1 + retryDelays.length)
      (downloadWithRetry usizeMax limit env 0 retryDelays) ∧
    (∀ attempt, ∀ moment ∈ (downloadOnce usizeMax limit attempt).1,
      moment.body.length ≤ limit ∧ moment.capacity ≤ limit) ∧
    ∀ chain, Followed redirectLimit chain → SafeChain redirectLimit chain := by
  intro limit
  refine ⟨downloadWithRetry_lawful usizeMax limit env 0 retryDelays, fun attempt moment member => ?_,
    fun chain followed => followed.safeChain.1⟩
  have fits := (downloadOnce_spec usizeMax limit attempt).1 moment member
  exact ⟨Nat.le_trans fits.held fits.bounded, fits.bounded⟩

end RustyCat.BinaryDownload
