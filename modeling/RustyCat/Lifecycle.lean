/-!
# Terminal arbitration of one task

`TransferLifecycle` of `inner_task.rs`: the atomic that decides between the final
transfer request and a pause or a cancel, and the two flags of the provider
abort.  Scheduler and worker share one value per task.  A compare-exchange loop
of the source takes effect at its successful exchange, so each operation below
is one atomic step.
-/

namespace RustyCat

/-- The six values of the `terminal` atomic; `opened` is `TRANSFER_OPEN`. -/
inductive Terminal where
  | opened
  | completing
  | canceling
  | pausing
  | completingCancelPending
  | completingPausePending
  deriving DecidableEq, Repr

inductive StopRequestDisposition where
  | interruptNow
  | deferredUntilRequestReturns
  deriving DecidableEq, Repr

inductive DeferredStop where
  | pause
  | cancel
  deriving DecidableEq, Repr

structure TransferLifecycle where
  terminal : Terminal
  abortStarted : Bool
  abortRequired : Bool
  deriving DecidableEq, Repr

namespace Terminal

/-- The new value and whether the claim succeeded. -/
def beginCompletion : Terminal → Terminal × Bool
  | opened => (completing, true)
  | t => (t, false)

def acknowledgeCompletion (_ : Terminal) : Terminal := completing

def beginPause : Terminal → Terminal × StopRequestDisposition
  | opened => (pausing, .interruptNow)
  | completing => (completingPausePending, .deferredUntilRequestReturns)
  | completingPausePending => (completingPausePending, .deferredUntilRequestReturns)
  | completingCancelPending => (completingCancelPending, .deferredUntilRequestReturns)
  | pausing => (pausing, .interruptNow)
  | canceling => (canceling, .interruptNow)

def beginCancel : Terminal → Terminal × StopRequestDisposition
  | canceling => (canceling, .interruptNow)
  | completing => (completingCancelPending, .deferredUntilRequestReturns)
  | completingPausePending => (completingCancelPending, .deferredUntilRequestReturns)
  | completingCancelPending => (completingCancelPending, .deferredUntilRequestReturns)
  | opened => (canceling, .interruptNow)
  | pausing => (canceling, .interruptNow)

def resetPause : Terminal → Terminal
  | pausing => opened
  | t => t

def finishIncompleteCompletion : Terminal → Terminal × Option DeferredStop
  | completing => (opened, none)
  | completingPausePending => (pausing, some .pause)
  | completingCancelPending => (canceling, some .cancel)
  | t => (t, none)

def stopRequested : Terminal → Bool
  | canceling | pausing | completingCancelPending | completingPausePending => true
  | opened | completing => false

/-- A completion claim is held, with or without a stop pending behind it. -/
def claimed : Terminal → Bool
  | completing | completingCancelPending | completingPausePending => true
  | opened | canceling | pausing => false

def stopPending : Terminal → Bool
  | completingCancelPending | completingPausePending => true
  | opened | completing | canceling | pausing => false

def cancelRequested : Terminal → Bool
  | canceling | completingCancelPending => true
  | opened | completing | pausing | completingPausePending => false

section

variable (t : Terminal)

@[simp] theorem beginPause_stopRequested : (beginPause t).1.stopRequested = true := by
  cases t <;> rfl

@[simp] theorem beginCancel_stopRequested :
    (beginCancel t).1.stopRequested = true := by
  cases t <;> rfl

@[simp] theorem beginPause_claimed : (beginPause t).1.claimed = t.claimed := by
  cases t <;> rfl

@[simp] theorem beginCancel_claimed : (beginCancel t).1.claimed = t.claimed := by
  cases t <;> rfl

theorem beginPause_interruptNow_iff :
    (beginPause t).2 = .interruptNow ↔ t.claimed = false := by
  cases t <;> decide

theorem beginCancel_interruptNow_iff :
    (beginCancel t).2 = .interruptNow ↔ t.claimed = false := by
  cases t <;> decide

@[simp] theorem finishIncompleteCompletion_claimed :
    (finishIncompleteCompletion t).1.claimed = false := by
  cases t <;> rfl

@[simp] theorem finishIncompleteCompletion_stopRequested :
    (finishIncompleteCompletion t).1.stopRequested = t.stopRequested := by
  cases t <;> rfl

@[simp] theorem finishIncompleteCompletion_cancelRequested :
    (finishIncompleteCompletion t).1.cancelRequested = t.cancelRequested := by
  cases t <;> rfl

theorem finishIncompleteCompletion_isSome :
    (finishIncompleteCompletion t).2.isSome = t.stopPending := by
  cases t <;> rfl

@[simp] theorem beginPause_cancelRequested :
    (beginPause t).1.cancelRequested = t.cancelRequested := by
  cases t <;> rfl

theorem stopPending_eq : t.stopPending = (t.claimed && t.stopRequested) := by
  cases t <;> rfl

end

theorem stopRequested_of_unclaimed {t : Terminal} (free : t.claimed = false)
    (taken : t ≠ opened) : t.stopRequested = true := by
  cases t with
  | opened => exact absurd rfl taken
  | completing | completingCancelPending | completingPausePending => cases free
  | canceling | pausing => rfl

theorem eq_pausing {t : Terminal} (stop : t.stopRequested = true) (free : t.claimed = false)
    (pause : t.cancelRequested = false) : t = pausing := by
  cases t with
  | pausing => rfl
  | canceling => cases pause
  | opened => cases stop
  | completing | completingCancelPending | completingPausePending => cases free

end Terminal

namespace TransferLifecycle

def new : TransferLifecycle :=
  { terminal := .opened, abortStarted := false, abortRequired := false }

/-- The first caller wins; the flag never falls again. -/
def beginAbort (l : TransferLifecycle) : TransferLifecycle × Bool :=
  ({ l with abortStarted := true }, !l.abortStarted)

def requireAbort (l : TransferLifecycle) : TransferLifecycle :=
  { l with abortRequired := true }

def stopRequested (l : TransferLifecycle) : Bool :=
  l.terminal.stopRequested

end TransferLifecycle

end RustyCat
