import RustyCat.Lib.Trace
import RustyCat.Scheduler.Handlers
import RustyCat.Worker.Retry

/-!
# Reading a task's history

Summaries of the ghost history of a task, and the law every entry of it obeys
with respect to the entries before it.  The second half says what the operations
on a task cell do to the summaries.
-/

namespace RustyCat

namespace TaskEvent

def isRequested : TaskEvent → Bool
  | requested _ => true
  | _ => false

def isReturned : TaskEvent → Bool
  | returned _ => true
  | _ => false

def isCompleteRecord : TaskEvent → Bool
  | record r _ => r.status = .complete
  | _ => false

end TaskEvent

namespace History

/-- A stop was accepted since the last start of a worker. -/
def noteStop (seen : Bool) : TaskEvent → Bool
  | .started => false
  | .stopAccepted _ => true
  | _ => seen

def stopSince (h : List TaskEvent) : Bool := h.foldl noteStop false

/-- The current run gave up its claim in favour of a stop. -/
def noteYield (seen : Bool) : TaskEvent → Bool
  | .started => false
  | .incomplete (some _) => true
  | _ => seen

def yielded (h : List TaskEvent) : Bool := h.foldl noteYield false

def noteEnd (seen : Bool) : TaskEvent → Bool
  | .started => false
  | .sent event => seen || event.mayChangeSchedulerReadiness
  | _ => seen

def ended (h : List TaskEvent) : Bool := h.foldl noteEnd false

def requested (h : List TaskEvent) : Nat := h.countP TaskEvent.isRequested

def returned (h : List TaskEvent) : Nat := h.countP TaskEvent.isReturned

def aborts (h : List TaskEvent) : Nat := h.count .abortUpload

def completeRecords (h : List TaskEvent) : Nat := h.countP TaskEvent.isCompleteRecord

def cancelAccepted (h : List TaskEvent) : Prop := TaskEvent.stopAccepted .cancel ∈ h

/-- What an entry of the history of a task has behind it. -/
def Law (before : List TaskEvent) : TaskEvent → Prop
  | .requested _ => yielded before = false
  | .incomplete stop => stopSince before = true → stop.isSome = true
  | .sent (.canceled _ _) => stopSince before = true ∧ ended before = false
  | .sent (.completed _ _ _) => yielded before = false ∧ ended before = false
  | .sent (.failed _ _ _) => ended before = false
  | .abortUpload =>
    aborts before = 0 ∧ requested before = returned before ∧ completeRecords before = 0
  | .record r _ =>
    (r.status = .canceled →
      cancelAccepted before ∧ (r.direction = .upload → aborts before = 1)) ∧
    (r.status = .complete → aborts before = 0)
  | _ => True

section Append

variable (h : List TaskEvent) (e : TaskEvent)

@[simp] theorem stopSince_append : stopSince (h ++ [e]) = noteStop (stopSince h) e := by
  simp [stopSince]

@[simp] theorem yielded_append : yielded (h ++ [e]) = noteYield (yielded h) e := by
  simp [yielded]

@[simp] theorem ended_append : ended (h ++ [e]) = noteEnd (ended h) e := by
  simp [ended]

@[simp] theorem requested_append :
    requested (h ++ [e]) = requested h + if e.isRequested then 1 else 0 := by
  simp [requested, List.countP_append, List.countP_singleton]

@[simp] theorem returned_append :
    returned (h ++ [e]) = returned h + if e.isReturned then 1 else 0 := by
  simp [returned, List.countP_append, List.countP_singleton]

@[simp] theorem aborts_append :
    aborts (h ++ [e]) = aborts h + if e = .abortUpload then 1 else 0 := by
  simp [aborts, List.count_append, List.count_singleton]

@[simp] theorem completeRecords_append :
    completeRecords (h ++ [e]) = completeRecords h + if e.isCompleteRecord then 1 else 0 := by
  simp [completeRecords, List.countP_append, List.countP_singleton]

@[simp] theorem cancelAccepted_append :
    cancelAccepted (h ++ [e]) ↔ cancelAccepted h ∨ e = .stopAccepted .cancel := by
  simp [cancelAccepted, eq_comm]

end Append

/-- Notes leave every summary as it is. -/
structure SameSummary (h k : List TaskEvent) : Prop where
  stop : stopSince k = stopSince h
  yield : yielded k = yielded h
  ends : ended k = ended h
  requests : requested k = requested h
  returns : returned k = returned h
  abort : aborts k = aborts h
  complete : completeRecords k = completeRecords h
  cancel : cancelAccepted k ↔ cancelAccepted h

theorem sameSummary_note {h : List TaskEvent} {e : TaskEvent} (plain : e.isNote = true) :
    SameSummary h (h ++ [e]) := by
  cases e with
  | spawned | joined | completedFileId | completeUpload =>
    constructor <;> simp [noteStop, noteYield, noteEnd, TaskEvent.isRequested,
      TaskEvent.isReturned, TaskEvent.isCompleteRecord]
  | _ => cases plain

theorem sameSummary_notes {h events : List TaskEvent} (plain : ∀ e ∈ events, e.isNote = true) :
    SameSummary h (h ++ events) := by
  induction events generalizing h with
  | nil =>
    rw [List.append_nil]
    exact ⟨rfl, rfl, rfl, rfl, rfl, rfl, rfl, Iff.rfl⟩
  | cons e rest ih =>
    have first := sameSummary_note (h := h) (plain e (List.mem_cons_self ..))
    have others := ih (h := h ++ [e]) fun e member => plain e (List.mem_cons_of_mem _ member)
    rw [List.append_assoc, List.singleton_append] at others
    exact ⟨others.stop.trans first.stop, others.yield.trans first.yield,
      others.ends.trans first.ends, others.requests.trans first.requests,
      others.returns.trans first.returns, others.abort.trans first.abort,
      others.complete.trans first.complete, others.cancel.trans first.cancel⟩

theorem law_notes {h events : List TaskEvent} (law : Trace.Always Law h)
    (plain : ∀ e ∈ events, e.isNote = true) : Trace.Always Law (h ++ events) := by
  refine law.append fun before e member => ?_
  have noted := plain e member
  cases e <;> trivial

end History

namespace TaskCell

open History

attribute [local simp] noteStop noteYield noteEnd TaskEvent.isRequested TaskEvent.isReturned
  TaskEvent.isCompleteRecord

variable (cell : TaskCell)

section FinishIncomplete

theorem finishIncomplete_history : cell.finishIncomplete.history =
    if cell.life.terminal.claimed then
      cell.history ++ [.incomplete cell.life.terminal.finishIncompleteCompletion.2]
    else cell.history := by
  simp only [finishIncomplete]
  split <;> rfl

@[simp] theorem finishIncomplete_stopSince :
    stopSince cell.finishIncomplete.history = stopSince cell.history := by
  rw [finishIncomplete_history]
  split <;> simp

@[simp] theorem finishIncomplete_yielded : yielded cell.finishIncomplete.history =
    (yielded cell.history || cell.life.terminal.stopPending) := by
  rw [finishIncomplete_history]
  cases cell.life.terminal <;>
    simp [Terminal.claimed, Terminal.stopPending, Terminal.finishIncompleteCompletion]

@[simp] theorem finishIncomplete_ended :
    ended cell.finishIncomplete.history = ended cell.history := by
  rw [finishIncomplete_history]
  split <;> simp

@[simp] theorem finishIncomplete_requested :
    requested cell.finishIncomplete.history = requested cell.history := by
  rw [finishIncomplete_history]
  split <;> simp

@[simp] theorem finishIncomplete_returned :
    returned cell.finishIncomplete.history = returned cell.history := by
  rw [finishIncomplete_history]
  split <;> simp

@[simp] theorem finishIncomplete_aborts :
    aborts cell.finishIncomplete.history = aborts cell.history := by
  rw [finishIncomplete_history]
  split <;> simp

@[simp] theorem finishIncomplete_completeRecords :
    completeRecords cell.finishIncomplete.history = completeRecords cell.history := by
  rw [finishIncomplete_history]
  split <;> simp

@[simp] theorem finishIncomplete_cancelAccepted :
    cancelAccepted cell.finishIncomplete.history ↔ cancelAccepted cell.history := by
  rw [finishIncomplete_history]
  split <;> simp

theorem finishIncomplete_law {cell : TaskCell} (law : Trace.Always Law cell.history)
    (kept : cell.life.terminal.claimed = true → stopSince cell.history = true →
      cell.life.terminal.stopRequested = true) :
    Trace.Always Law cell.finishIncomplete.history := by
  rw [finishIncomplete_history]
  split
  · rename_i claimed
    refine Trace.always_append_singleton.mpr ⟨law, ?_⟩
    intro stop
    rw [Terminal.finishIncompleteCompletion_isSome, Terminal.stopPending_eq, claimed,
      kept claimed stop]
    rfl
  · exact law

end FinishIncomplete

section ReturnCall

variable {α : Type} (request : Request) (call : Call α)

@[simp] theorem returnCall_terminal :
    (cell.returnCall request call).life.terminal = cell.life.terminal := by
  simp only [returnCall]
  split <;> rfl

@[simp] theorem returnCall_abortStarted :
    (cell.returnCall request call).life.abortStarted = cell.life.abortStarted := by
  simp only [returnCall]
  split <;> rfl

@[simp] theorem returnCall_history :
    (cell.returnCall request call).history = cell.history ++ call.notes ++ [.returned request] :=
  rfl

end ReturnCall

section Abort

variable (direction : Direction)

@[simp] theorem executorCancel_terminal :
    (cell.executorCancel direction).life.terminal = cell.life.terminal := by
  cases direction with
  | download => rfl
  | upload =>
    simp only [executorCancel]
    split <;> rfl

@[simp] theorem executorCancel_abortStarted : (cell.executorCancel direction).life.abortStarted =
    (cell.life.abortStarted || direction = .upload) := by
  cases direction with
  | download => simp [executorCancel]
  | upload =>
    simp only [executorCancel]
    split <;> simp [TransferLifecycle.beginAbort]

theorem executorCancel_history : (cell.executorCancel direction).history =
    if direction = .upload ∧ cell.life.abortStarted = false then cell.history ++ [.abortUpload]
    else cell.history := by
  cases direction with
  | download => simp [executorCancel]
  | upload => cases started : cell.life.abortStarted <;>
      simp [executorCancel, TransferLifecycle.beginAbort, started]

@[simp] theorem executorCancel_stopSince :
    stopSince (cell.executorCancel direction).history = stopSince cell.history := by
  rw [executorCancel_history]
  split <;> simp

@[simp] theorem executorCancel_yielded :
    yielded (cell.executorCancel direction).history = yielded cell.history := by
  rw [executorCancel_history]
  split <;> simp

@[simp] theorem executorCancel_ended :
    ended (cell.executorCancel direction).history = ended cell.history := by
  rw [executorCancel_history]
  split <;> simp

@[simp] theorem executorCancel_requested :
    requested (cell.executorCancel direction).history = requested cell.history := by
  rw [executorCancel_history]
  split <;> simp

@[simp] theorem executorCancel_returned :
    returned (cell.executorCancel direction).history = returned cell.history := by
  rw [executorCancel_history]
  split <;> simp

@[simp] theorem executorCancel_completeRecords :
    completeRecords (cell.executorCancel direction).history = completeRecords cell.history := by
  rw [executorCancel_history]
  split <;> simp

@[simp] theorem executorCancel_cancelAccepted :
    cancelAccepted (cell.executorCancel direction).history ↔ cancelAccepted cell.history := by
  rw [executorCancel_history]
  split <;> simp

theorem executorCancel_law (law : Trace.Always Law cell.history)
    (counted : aborts cell.history = if cell.life.abortStarted then 1 else 0)
    (quiet : requested cell.history = returned cell.history)
    (incomplete : completeRecords cell.history = 0) :
    Trace.Always Law (cell.executorCancel direction).history := by
  rw [executorCancel_history]
  split
  · rename_i first
    rw [first.2] at counted
    exact Trace.always_append_singleton.mpr ⟨law, counted, quiet, incomplete⟩
  · exact law

theorem executorCancel_aborts
    (counted : aborts cell.history = if cell.life.abortStarted then 1 else 0) :
    aborts (cell.executorCancel direction).history =
      if cell.life.abortStarted = true ∨ direction = .upload then 1 else 0 := by
  rw [executorCancel_history]
  cases direction <;> cases started : cell.life.abortStarted <;> simp [counted, started]

end Abort

end TaskCell

namespace StopKind

variable (kind : StopKind) (t : Terminal)

@[simp] theorem begin_stopRequested : (kind.begin t).1.stopRequested = true := by
  cases kind <;> simp [StopKind.begin]

@[simp] theorem begin_claimed : (kind.begin t).1.claimed = t.claimed := by
  cases kind <;> simp [StopKind.begin]

theorem begin_interruptNow_iff : (kind.begin t).2 = .interruptNow ↔ t.claimed = false := by
  cases kind
  · exact t.beginPause_interruptNow_iff
  · exact t.beginCancel_interruptNow_iff
  · exact t.beginPause_interruptNow_iff

theorem begin_cancelRequested (requested : (kind.begin t).1.cancelRequested = true) :
    kind = .cancel ∨ t.cancelRequested = true := by
  cases kind <;> simp_all [StopKind.begin]

end StopKind

end RustyCat
