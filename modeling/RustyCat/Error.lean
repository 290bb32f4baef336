/-!
# Errors

`InnerErrorCode` and `MeowError` of `error.rs`.  A `MeowError` keeps its numeric
code, its message and the optional HTTP status that the retry layer reads; the
chained source error is only ever displayed and is left out.  The second half is
how `retry.rs` sorts errors.
-/

namespace RustyCat

inductive InnerErrorCode where
  | unknown
  | success
  | runtimeCreationFailedError
  | parameterEmpty
  | duplicateTaskError
  | enqueueError
  | ioError
  | httpError
  | clientClosed
  | taskNotFound
  | responseStatusError
  | missingOrInvalidContentLengthFromHead
  | commandSendFailed
  | commandResponseFailed
  | responseParseError
  | invalidRange
  | fileNotFound
  | checksumMismatch
  | invalidTaskState
  | lockPoisoned
  | httpClientBuildFailed
  | taskCanceled
  | diskFull
  | localFileRemoved
  | binaryTaskQueueFull
  | binaryBodyTooLarge
  deriving DecidableEq, Repr

/-- The discriminant, as `code as i32` reads it. -/
def InnerErrorCode.asI32 : InnerErrorCode → Int
  | unknown => -1
  | success => 0
  | runtimeCreationFailedError => 101
  | parameterEmpty => 102
  | duplicateTaskError => 103
  | enqueueError => 104
  | ioError => 105
  | httpError => 106
  | clientClosed => 107
  | taskNotFound => 108
  | responseStatusError => 109
  | missingOrInvalidContentLengthFromHead => 110
  | commandSendFailed => 111
  | commandResponseFailed => 112
  | responseParseError => 113
  | invalidRange => 114
  | fileNotFound => 115
  | checksumMismatch => 116
  | invalidTaskState => 117
  | lockPoisoned => 118
  | httpClientBuildFailed => 119
  | taskCanceled => 120
  | diskFull => 121
  | localFileRemoved => 122
  | binaryTaskQueueFull => 123
  | binaryBodyTooLarge => 124

structure MeowError where
  code : Int
  msg : String
  httpStatus : Option Nat
  deriving DecidableEq, Repr

namespace MeowError

/-- `MeowError::from_code`; `from_code_str` builds the same value from a borrowed text. -/
def fromCode (code : InnerErrorCode) (msg : String) : MeowError :=
  { code := code.asI32, msg := msg, httpStatus := none }

def fromCode1 (code : InnerErrorCode) : MeowError :=
  fromCode code ""

def withHttpStatus (e : MeowError) (status : Nat) : MeowError :=
  { e with httpStatus := some status }

@[simp] theorem fromCode_code (code : InnerErrorCode) (msg : String) :
    (fromCode code msg).code = code.asI32 := rfl

end MeowError

/-- Errors that aborting a request in flight can cause. -/
def cancellationCanMask (e : MeowError) : Bool :=
  e.code = InnerErrorCode.httpError.asI32 ∨ e.code = InnerErrorCode.taskCanceled.asI32

def isTaskCanceled (e : MeowError) : Bool :=
  e.code = InnerErrorCode.taskCanceled.asI32

def isRetryableHttpStatus (status : Nat) : Bool :=
  status = 408 ∨ status = 429 ∨ (500 ≤ status ∧ status ≤ 599)

def retryableChunkErrorCodes : List Int :=
  [InnerErrorCode.httpError.asI32, InnerErrorCode.responseStatusError.asI32]

def isTransportRetryable (e : MeowError) : Bool :=
  if e.code ∉ retryableChunkErrorCodes then false
  else if e.code = InnerErrorCode.responseStatusError.asI32 then
    match e.httpStatus with
    | some status => isRetryableHttpStatus status
    | none => true
  else true

def isConnectionLayerRetryable (e : MeowError) : Bool :=
  e.code = InnerErrorCode.httpError.asI32

/-- An error that neither a stop nor a retry hides. -/
def isPermanent (e : MeowError) : Bool :=
  !cancellationCanMask e && !isTransportRetryable e

theorem cancellationCanMask_of_isTaskCanceled {e : MeowError} (canceled : isTaskCanceled e = true) :
    cancellationCanMask e = true := by
  simp_all [isTaskCanceled, cancellationCanMask]

theorem not_isTaskCanceled_of_isPermanent {e : MeowError} (permanent : isPermanent e = true) :
    isTaskCanceled e = false := by
  rw [← Bool.not_eq_true]
  intro canceled
  simp [isPermanent, cancellationCanMask_of_isTaskCanceled canceled] at permanent

end RustyCat
