import Mathlib.Logic.Relation
import RustyCat.Lib.ListCount
import RustyCat.Worker.Run

/-!
# What a worker run does to its task

The arbitration between a run and the stops of the scheduler does not depend on
where exactly the run stands.  A `Stance` keeps of a run its mode, whether it
has seen a stop, how many requests are in flight, and what it shares with the
scheduler.  `Act` lists what a run can do in these terms, and every step of a
run is a sequence of acts.
-/

namespace RustyCat

inductive Mode where
  /-- No completion claim is held. -/
  | working
  /-- A completion claim is held. -/
  | claimed
  /-- The provider reported the end of the transfer. -/
  | answered
  /-- The transfer is complete. -/
  | finishing
  /-- The run ends because of a stop. -/
  | stopping
  /-- A part panicked and the others are drained. -/
  | draining
  | failing
  | finished
  deriving DecidableEq, Repr

structure Stance where
  mode : Mode
  sawStop : Bool
  calls : Nat
  token : Bool
  outbox : List WorkerEvent
  cell : TaskCell

namespace Stance

def onCell (a : Stance) (f : TaskCell → TaskCell) : Stance := { a with cell := f a.cell }

def send (a : Stance) (event : WorkerEvent) : Stance :=
  { a with outbox := a.outbox ++ [event], cell := a.cell.log (.sent event) }

def busy (a : Stance) : Prop := a.mode = .working ∨ a.mode = .claimed

end Stance

inductive Act (inner : InnerTask) : Stance → Stance → Prop where
  | request (a : Stance) (request : Request)
      (may : a.busy ∨ a.mode = .draining ∧ a.token = false) :
      Act inner a { a.onCell (·.log (.requested request)) with calls := a.calls + 1 }
  | returned {α : Type} (a : Stance) (request : Request) (call : Call α) (n : Nat)
      (inFlight : a.calls = n + 1) (plain : ∀ e ∈ call.notes, e.isNote = true) :
      Act inner a { a.onCell (·.returnCall request call) with calls := n }
  | note (a : Stance) (events : List TaskEvent)
      (plain : ∀ e ∈ events, e.isNote = true) :
      Act inner a (a.onCell (·.logAll events))
  | progress (a : Stance) (nextOffset total : Nat) (may : a.busy) :
      Act inner a (a.send (.progress inner.dedupeKey nextOffset total))
  | claim (a : Stance) (may : a.mode = .working) (opened : a.cell.life.terminal = .opened) :
      Act inner a { a.onCell (·.setTerminal .completing) with mode := .claimed }
  | refuse (a : Stance) (may : a.mode = .working) (taken : a.cell.life.terminal ≠ .opened) :
      Act inner a { a with mode := .stopping, sawStop := false }
  | sawToken (a : Stance) (may : a.busy) (seen : a.token = true) :
      Act inner a { a with sawStop := true }
  | sawRequest (a : Stance) (may : a.busy) (seen : a.cell.life.stopRequested = true) :
      Act inner a { a with sawStop := true }
  | forget (a : Stance) (may : a.busy) : Act inner a { a with sawStop := false }
  | stop (a : Stance) (may : a.busy)
      (seen : a.token = true ∨ a.mode = .working ∧ a.sawStop = true) :
      Act inner a { a with mode := .stopping, sawStop := false }
  | settlePart (a : Stance) (may : a.mode = .working ∨ a.mode = .draining) :
      Act inner a (a.onCell (·.finishIncomplete))
  | settleStop (a : Stance) (may : a.busy) (seen : a.sawStop = true) :
      Act inner a { a.onCell (·.finishIncomplete) with mode := .stopping, sawStop := false }
  | giveUpClaim (a : Stance) (may : a.mode = .claimed) (calm : a.sawStop = false)
      (nothing : a.cell.life.terminal.stopPending = false) :
      Act inner a { a.onCell (·.finishIncomplete) with mode := .working }
  | yieldClaim (a : Stance) (may : a.mode = .claimed)
      (pending : a.cell.life.terminal.stopPending = true) :
      Act inner a { a.onCell (·.finishIncomplete) with mode := .stopping, sawStop := false }
  | fail (a : Stance) (may : a.busy) : Act inner a { a with mode := .failing, sawStop := false }
  | requireAbort (a : Stance) (may : a.mode = .failing) :
      Act inner a (a.onCell fun cell => { cell with life := cell.life.requireAbort })
  | answer (a : Stance) (may : a.busy) : Act inner a { a with mode := .answered, sawStop := false }
  | acknowledge (a : Stance) (may : a.mode = .answered) :
      Act inner a { a.onCell (·.setTerminal .completing) with mode := .finishing }
  | complete (a : Stance) (may : a.mode = .claimed) :
      Act inner a { a with mode := .finishing, sawStop := false }
  | abort (a : Stance) (may : a.mode = .failing) (quiet : a.calls = 0) :
      Act inner a (a.onCell (·.executorCancel inner.direction))
  | sendCompleted (a : Stance) (total : Nat) (payload : Option String)
      (may : a.mode = .claimed ∨ a.mode = .finishing) (quiet : a.calls = 0) :
      Act inner a
        { a.send (.completed inner.dedupeKey total payload) with
          mode := .finished
          sawStop := false }
  | sendFailed (a : Stance) (error : MeowError) (total : Nat)
      (may : a.mode = .failing ∨ a.mode = .stopping ∨ a.mode = .finishing)
      (quiet : a.calls = 0) :
      Act inner a { a.send (.failed inner.dedupeKey error total) with mode := .finished }
  | sendCanceled (a : Stance) (total : Nat) (may : a.mode = .stopping) (quiet : a.calls = 0) :
      Act inner a { a.send (.canceled inner.dedupeKey total) with mode := .finished }
  | panic (a : Stance) (may : a.mode = .working) :
      Act inner a { a with mode := .draining, sawStop := false, token := true }
  | drained (a : Stance) (may : a.mode = .draining) : Act inner a { a with mode := .failing }

namespace Driver

def calls (d : Driver) : Nat := d.parts.countP Part.calling

def sawStop (d : Driver) : Bool := d.cancelled || decide (0 < d.parts.countP Part.sawStop)

end Driver

namespace Pc

def mode : Pc → Mode
  | prepCheck _ _ | prepCall _ _ | prepFailed _ _ _ | prepForce _ _ _ | prepBackoff _ _ => .working
  | serialHead _ _ | serialClaim _ _ => .working
  | serialChunk _ _ _ (.settled .cancelled) => .stopping
  | serialChunk _ _ claimed _ => if claimed then .claimed else .working
  | serialDone _ _ => .answered
  | serialFinish _ _ => .claimed
  | totalClaim _ | join _ | barrier _ | completeClaim _ => .working
  | totalValidate _ | completeValidate _ | completeCall _ => .claimed
  | release _ _ => .finishing
  | exitCanceled _ => .stopping
  | panicDrain _ _ => .draining
  | exitFailed _ _ _ => .failing
  | finished => .finished

def sawStop : Pc → Bool
  | serialChunk _ _ _ .settleClaim => true
  | join d => d.sawStop
  | barrier d => d.cancelled
  | _ => false

def calls : Pc → Nat
  | prepCall _ _ | completeCall _ => 1
  | serialChunk _ _ _ retry => if retry.calling then 1 else 0
  | join d | panicDrain d _ => d.calls
  | _ => 0

end Pc

def Run.stance (r : Run) : Stance where
  mode := r.pc.mode
  sawStop := r.pc.sawStop
  calls := r.pc.calls
  token := r.token
  outbox := r.outbox
  cell := r.cell

abbrev Acts (inner : InnerTask) : Stance → Stance → Prop := Relation.ReflTransGen (Act inner)

namespace Acts

variable {inner : InnerTask} {a b c : Stance}

theorem one (act : Act inner a b) : Acts inner a b := .single act

theorem none (same : b = a) : Acts inner a b := by
  rw [same]

theorem then_ (acts : Acts inner a b) (act : Act inner b c) : Acts inner a c := acts.tail act

theorem lower (may : a.busy) (flag : Bool) (only : flag = true → a.sawStop = true) :
    Acts inner a { a with sawStop := flag } := by
  cases flag with
  | false => exact one (.forget a may)
  | true =>
    apply none
    rw [← only rfl]

end Acts

namespace Run

variable {inner : InnerTask} {r s : Run} {outbox : List WorkerEvent} {token : Bool}
  {cell : TaskCell}

theorem claim_acts {won lost : Pc} (may : r.pc.mode = .working)
    (wonMode : won.mode = .claimed) (lostMode : lost.mode = .stopping)
    (calls : r.pc.calls = 0) (wonCalls : won.calls = 0) (lostCalls : lost.calls = 0)
    (calm : r.pc.sawStop = false) (wonCalm : won.sawStop = false)
    (lostCalm : lost.sawStop = false) :
    Acts inner r.stance (r.claim won lost).stance := by
  by_cases opened : r.cell.life.terminal = .opened
  · have act : Act inner r.stance _ := .claim r.stance may opened
    have same : (r.claim won lost).stance =
        { r.stance.onCell (·.setTerminal .completing) with mode := .claimed } := by
      simp [claim, stance, Stance.onCell, opened, Terminal.beginCompletion, wonMode, wonCalls,
        wonCalm, calls, calm]
    rw [same]
    exact .one act
  · have lostClaim : r.cell.life.terminal.beginCompletion = (r.cell.life.terminal, false) := by
      cases terminal : r.cell.life.terminal <;> simp_all [Terminal.beginCompletion]
    have act : Act inner r.stance _ := .refuse r.stance may opened
    have same : (r.claim won lost).stance = { r.stance with mode := .stopping, sawStop := false } := by
      simp [claim, stance, lostClaim, lostMode, lostCalls, lostCalm, calls, TaskCell.setTerminal]
    rw [same]
    exact .one act

variable {after : TaskCell} {total index : Nat} {d : Driver} {part next : Part}

theorem retry_acts {offset : Nat} {claimed : Bool} {choice : RetryChoice} {retry next : Retry}
    (moved : Retry.Step { inner := inner, mode := .whole, offset := offset, token := token }
      cell choice retry next after) :
    Acts inner (stance ⟨.serialChunk offset total claimed retry, outbox, token, cell⟩)
      (stance ⟨.serialChunk offset total claimed next, outbox, token, after⟩) := by
  have busy : ∀ retry : Retry, retry ≠ .settled .cancelled →
      (stance ⟨.serialChunk offset total claimed retry, outbox, token, cell⟩).busy := by
    intro retry open_
    have mode : (Pc.serialChunk offset total claimed retry).mode =
        if claimed then .claimed else .working := by
      cases retry with
      | settled result => cases result <;> first | rfl | exact absurd rfl open_
      | _ => rfl
    cases claimed with
    | true => exact Or.inr mode
    | false => exact Or.inl mode
  cases moved with
  | headInterrupted seen | masked seen _ | backoffInterrupted seen =>
    exact .one (.stop _ (busy _ (by simp)) (Or.inl seen))
  | request attempt live =>
    exact .one (.request _ _ (Or.inl (busy _ (by simp))))
  | returned attempt called =>
    rename_i answer transfer
    have act : Act inner _ _ := .returned
      (stance ⟨.serialChunk offset total claimed (.call attempt), outbox, token, cell⟩)
      (.chunk offset) transfer 0 rfl (transferChunk_sound called).plain
    refine (Acts.one act).trans (Acts.none ?_)
    cases result : transfer.result <;> rfl
  | stopped canceled requested =>
    exact .one (.sawRequest _ (busy _ (by simp)) requested)
  | inspect | giveUp | delay | wake => exact .refl
  | settle => exact .one (.settleStop _ (busy _ (by simp)) rfl)

theorem sawStop_of_mem (here : d.parts[index]? = some part)
    (raised : part.sawStop = true) : d.sawStop = true := by
  simp only [Driver.sawStop, Bool.or_eq_true, decide_eq_true_eq]
  exact Or.inr (List.countP_pos_iff.mpr ⟨part, List.mem_of_getElem? here, raised⟩)

theorem sawStop_set (here : d.parts[index]? = some part) (raised : next.sawStop = true) :
    Driver.sawStop { d with parts := d.parts.set index next } = true := by
  obtain ⟨bound, _⟩ := List.getElem?_eq_some_iff.mp here
  exact sawStop_of_mem (List.getElem?_set_self bound) raised

theorem sawStop_set_of_not (here : d.parts[index]? = some part) (lowered : next.sawStop = false)
    (flag : Driver.sawStop { d with parts := d.parts.set index next } = true) :
    d.sawStop = true := by
  have counted := ListCount.countP_set (p := Part.sawStop) here next
  simp only [lowered, Bool.false_eq_true, if_false] at counted
  simp only [Driver.sawStop, Bool.or_eq_true, decide_eq_true_eq] at flag ⊢
  rcases flag with old | some_
  · exact Or.inl old
  · right
    split at counted
    · omega
    · omega

section Calls

variable {d : Driver} {index : Nat} {part next : Part} (here : d.parts[index]? = some part)
include here

theorem calls_set_same (calls : next.calling = part.calling) :
    Driver.calls { d with parts := d.parts.set index next } = d.calls := by
  have counted := ListCount.countP_set (p := Part.calling) here next
  rw [calls] at counted
  exact Nat.add_right_cancel counted

theorem calls_set_more (idle : part.calling = false) (calling : next.calling = true) :
    Driver.calls { d with parts := d.parts.set index next } = d.calls + 1 := by
  simpa [Driver.calls, idle, calling] using ListCount.countP_set (p := Part.calling) here next

theorem calls_set_fewer (calling : part.calling = true) (idle : next.calling = false) :
    d.calls = Driver.calls { d with parts := d.parts.set index next } + 1 := by
  simpa [Driver.calls, idle, calling] using (ListCount.countP_set (p := Part.calling) here next).symm

end Calls

/-- What a step of a part does, whoever owns the part. -/
inductive PartEffect (token : Bool) (cell : TaskCell) (part next : Part) : TaskCell → Prop where
  | quiet (calls : next.calling = part.calling) (calm : next.sawStop = false) :
      PartEffect token cell part next cell
  | sawToken (calls : next.calling = part.calling) (seen : token = true) (raised : next.sawStop = true) :
      PartEffect token cell part next cell
  | sawRequest (calls : next.calling = part.calling) (seen : cell.life.stopRequested = true)
      (raised : next.sawStop = true) : PartEffect token cell part next cell
  | request (request : Request) (live : token = false) (idle : part.calling = false)
      (busy : next.calling = true) (calm : next.sawStop = false) :
      PartEffect token cell part next (cell.log (.requested request))
  | returned {α : Type} (request : Request) (call : Call α)
      (plain : ∀ e ∈ call.notes, e.isNote = true) (busy : part.calling = true)
      (idle : next.calling = false) (calm : next.sawStop = false) :
      PartEffect token cell part next (cell.returnCall request call)
  | settle (calls : next.calling = part.calling) (seen : part.sawStop = true)
      (raised : next.sawStop = true) : PartEffect token cell part next cell.finishIncomplete

theorem part_effect {choice : PartChoice}
    (moved : Part.Step inner total token cell choice part next after) :
    PartEffect token cell part next after := by
  cases moved with
  | refused refusal => exact .quiet rfl rfl
  | interrupted seen => exact .sawToken rfl seen rfl
  | granted live => exact .quiet rfl rfl
  | panickedIdle text running idle => exact .quiet idle.symm rfl
  | panickedCalling text busy =>
    have same : cell.log (.returned (.part part.offset)) =
        cell.returnCall (.part part.offset) (Call.ok ()) := by
      simp [TaskCell.returnCall, TaskCell.log, Call.ok]
    rw [same]
    exact .returned _ _ (by simp [Call.ok]) busy rfl rfl
  | retry moved =>
    cases moved with
    | headInterrupted seen | masked seen _ | backoffInterrupted seen =>
      exact .sawToken rfl seen rfl
    | request attempt live => exact .request _ live rfl rfl rfl
    | returned attempt called =>
      rename_i transfer
      refine .returned _ _ (transferChunk_sound called).plain rfl ?_ ?_
      · cases transfer.result <;> rfl
      · cases transfer.result <;> rfl
    | stopped canceled requested => exact .sawRequest rfl requested rfl
    | inspect | giveUp | delay | wake => exact .quiet rfl rfl
    | settle => exact .settle rfl rfl rfl

theorem part_acts (here : d.parts[index]? = some part)
    (effect : PartEffect token cell part next after) :
    Acts inner (stance ⟨.join d, outbox, token, cell⟩)
      (stance ⟨.join { d with parts := d.parts.set index next }, outbox, token, after⟩) := by
  have busy : (stance ⟨.join d, outbox, token, cell⟩).busy := Or.inl rfl
  have lowered : ∀ (calls : Nat) (after : TaskCell), next.sawStop = false →
      Acts inner ⟨.working, d.sawStop, calls, token, outbox, after⟩
        ⟨.working, Driver.sawStop { d with parts := d.parts.set index next }, calls, token,
          outbox, after⟩ := by
    intro calls after calm
    exact Acts.lower (Or.inl rfl) _ fun flag => sawStop_set_of_not here calm flag
  simp only [stance, Pc.mode, Pc.sawStop, Pc.calls] at busy ⊢
  cases effect with
  | quiet calls calm =>
    rw [calls_set_same here calls]
    exact lowered _ _ calm
  | sawToken calls seen raised =>
    rw [calls_set_same here calls, sawStop_set here raised]
    exact .one (.sawToken _ busy seen)
  | sawRequest calls seen raised =>
    rw [calls_set_same here calls, sawStop_set here raised]
    exact .one (.sawRequest _ busy seen)
  | request request live idle calling calm =>
    rw [calls_set_more here idle calling]
    exact (Acts.one (.request _ request (Or.inl busy))).trans (lowered _ _ calm)
  | returned request call plain calling idle calm =>
    exact (Acts.one (.returned (stance ⟨.join d, outbox, token, cell⟩) request call _
      (calls_set_fewer here calling idle) plain)).trans (lowered _ _ calm)
  | settle calls seen raised =>
    rw [calls_set_same here calls, sawStop_set here raised, sawStop_of_mem here seen]
    exact .one (.settlePart _ (Or.inl rfl))

theorem panicPart_acts {text : String} (here : d.parts[index]? = some part)
    (effect : PartEffect token cell part next after) :
    Acts inner (stance ⟨.panicDrain d text, outbox, token, cell⟩)
      (stance ⟨.panicDrain { d with parts := d.parts.set index next } text, outbox, token,
        after⟩) := by
  simp only [stance, Pc.mode, Pc.sawStop, Pc.calls]
  cases effect with
  | quiet calls | sawToken calls | sawRequest calls =>
    rw [calls_set_same here calls]
  | request request live idle calling =>
    rw [calls_set_more here idle calling]
    exact .one (.request _ request (Or.inr ⟨rfl, live⟩))
  | returned request call plain calling idle =>
    exact .one (.returned (stance ⟨.panicDrain d text, outbox, token, cell⟩) request call _
      (calls_set_fewer here calling idle) plain)
  | settle calls seen raised =>
    rw [calls_set_same here calls]
    exact .one (.settlePart _ (Or.inr rfl))

theorem countP_spawn (p : Part → Bool) (fresh : ∀ offset, p (Part.spawn offset) = false)
    (parts : List Part) (offsets : List Nat) :
    (parts ++ offsets.map Part.spawn).countP p = parts.countP p := by
  rw [List.countP_append, List.countP_map]
  have none_ : offsets.countP (p ∘ Part.spawn) = 0 := by
    rw [List.countP_eq_zero]
    intro offset _
    simp [fresh]
  omega

theorem fill_account (d : Driver) :
    d.fill.1.calls = d.calls ∧ d.fill.1.sawStop = d.sawStop := by
  have calling := countP_spawn Part.calling (fun _ => rfl) d.parts d.window.dispatchAll.2
  have saw := countP_spawn Part.sawStop (fun _ => rfl) d.parts d.window.dispatchAll.2
  constructor
  · exact calling
  · change (d.cancelled || decide (0 < (d.parts ++ d.window.dispatchAll.2.map Part.spawn).countP
      Part.sawStop)) = d.sawStop
    rw [saw]
    rfl

theorem topUp_account (d : Driver) :
    d.topUp.1.calls = d.calls ∧ d.topUp.1.sawStop = d.sawStop := by
  simp only [Driver.topUp]
  split
  · exact fill_account d
  · exact ⟨rfl, rfl⟩

theorem sendMoved_acts (d : Driver) (total : Nat) (moved : Option Nat) :
    Acts inner (stance ⟨.join d, outbox, token, cell⟩)
      (sendMoved inner ⟨.join d, outbox, token, cell⟩ total moved).stance := by
  cases moved with
  | none => exact .refl
  | some watermark => exact .one (.progress _ watermark total (Or.inl rfl))

theorem joinWith_acts (r : Run) (next : Driver × List Nat) (mode : r.pc.mode = .working)
    (calls : r.pc.calls = next.1.calls) (saw : r.pc.sawStop = next.1.sawStop) :
    Acts inner r.stance (r.joinWith next).stance := by
  have act : Act inner r.stance _ := .note r.stance (next.2.map TaskEvent.spawned) (by
    intro e member
    obtain ⟨offset, _, rfl⟩ := List.mem_map.mp member
    rfl)
  refine (Acts.one act).trans (Acts.none ?_)
  simp only [joinWith, stance, Stance.onCell, mode, calls, saw]
  rfl

theorem onJoined_done_account (d : Driver) (offset : Nat) (outcome : ChunkOutcome) :
    (d.onJoined offset (.done outcome)).1.calls = d.calls ∧
      (d.onJoined offset (.done outcome)).1.sawStop = d.sawStop := by
  simp only [Driver.onJoined]
  split
  · exact ⟨rfl, rfl⟩
  · exact ⟨rfl, rfl⟩

theorem sendMoved_pc (r : Run) (total : Nat) (moved : Option Nat) :
    (r.sendMoved inner total moved).pc = r.pc := by
  cases moved <;> rfl

theorem erase_calls (here : d.parts[index]? = some part) (settled : part.settled = true) :
    d.calls = Driver.calls { d with parts := d.parts.eraseIdx index } := by
  have idle : part.calling = false := by
    obtain ⟨offset, pc⟩ := part
    cases pc with
    | retry retry => cases retry <;> first | rfl | cases settled
    | _ => rfl
  have counted := ListCount.countP_eraseIdx (p := Part.calling) here
  rw [idle] at counted
  exact counted

theorem joined_acts (here : d.parts[index]? = some part) (settled : part.settled = true) :
    Acts inner (stance ⟨.join d, outbox, token, cell⟩)
      (joined inner ⟨.join d, outbox, token, cell⟩
        { d with parts := d.parts.eraseIdx index } part).stance := by
  have calls := erase_calls here settled
  have saw : part.sawStop = false →
      d.sawStop = Driver.sawStop { d with parts := d.parts.eraseIdx index } := by
    intro calm
    have counted := ListCount.countP_eraseIdx (p := Part.sawStop) here
    simp only [calm, Bool.false_eq_true, if_false, Nat.add_zero] at counted
    simp only [Driver.sawStop, counted]
  have note : Act inner (stance ⟨.join d, outbox, token, cell⟩)
      (stance ⟨.join d, outbox, token, cell.log (.joined part.offset part.outcome)⟩) :=
    .note _ [.joined part.offset part.outcome] (by simp [TaskEvent.isNote])
  obtain ⟨offset, pc⟩ := part
  cases pc with
  | acquire => cases settled
  | panicked text =>
    refine (Acts.one note).trans ((Acts.one (.panic _ rfl)).trans (Acts.none ?_))
    simp only [joined, log, stance, Pc.mode, Pc.sawStop, Pc.calls, calls]
  | retry retry =>
    cases retry with
    | settled result =>
      cases result with
      | done outcome =>
        have account := onJoined_done_account
          { d with parts := d.parts.eraseIdx index } offset outcome
        have topped := topUp_account
          (Driver.onJoined { d with parts := d.parts.eraseIdx index } offset (.done outcome)).1
        refine (Acts.one note).trans ((sendMoved_acts d d.window.total
          (Driver.onJoined { d with parts := d.parts.eraseIdx index } offset
            (.done outcome)).2).trans (joinWith_acts _ _ ?_ ?_ ?_))
        · rw [sendMoved_pc]
          rfl
        · rw [sendMoved_pc]
          exact calls.trans (topped.1.trans account.1).symm
        · rw [sendMoved_pc]
          exact (saw rfl).trans (topped.2.trans account.2).symm
      | cancelled =>
        have flagged := sawStop_of_mem here rfl
        refine (Acts.one note).trans (Acts.none ?_)
        simp only [joined, log, goto, stance, Pc.mode, Pc.sawStop, Pc.calls, calls, flagged]
        rfl
      | failed e =>
        refine (Acts.one note).trans (Acts.none ?_)
        simp only [joined, log, goto, stance, Pc.mode, Pc.sawStop, Pc.calls, calls, saw rfl]
        rfl
    | _ => cases settled

theorem prepared_goto (r : Run) (pc : Pc) (v : PrepareOutcome) :
    (r.goto pc).prepared inner v = r.prepared inner v := by
  simp only [prepared]
  split
  · split
    · split <;> rfl
    · simp only [enterParallel]
      split <;> rfl
  · rfl

theorem enterParallel_acts (offset total : Nat) (total_le : total ≤ u64Max)
    (mode : r.pc.mode = .working) (calls : r.pc.calls = 0) (calm : r.pc.sawStop = false) :
    Acts inner r.stance (r.enterParallel inner offset total total_le).stance := by
  simp only [enterParallel]
  split
  · apply Acts.none
    simp only [goto, stance, mode, calls, calm]
    rfl
  · have account := fill_account (Driver.new inner offset total total_le)
    apply joinWith_acts _ _ mode
    · rw [calls, account.1]
      rfl
    · rw [calm, account.2]
      rfl

theorem prepared_acts (v : PrepareOutcome) (mode : r.pc.mode = .working) (calls : r.pc.calls = 0)
    (calm : r.pc.sawStop = false) : Acts inner r.stance (r.prepared inner v).stance := by
  have announced : Acts inner r.stance
      (r.send (.progress inner.dedupeKey v.nextOffset (knownTotal inner v))).stance :=
    .one (.progress _ _ _ (Or.inl mode))
  simp only [prepared]
  split
  · split
    · split
      · refine announced.trans ((Acts.one (.fail _ (Or.inl mode))).trans (Acts.none ?_))
        simp only [goto, stance, send, calls]
        rfl
      · refine announced.trans ((Acts.one (.fail _ (Or.inl mode))).trans
          ((Acts.one (.requireAbort _ rfl)).trans (Acts.none ?_)))
        simp only [stance, send, calls, Stance.onCell]
        rfl
    · exact announced.trans (enterParallel_acts _ _ _ mode calls calm)
  · refine announced.trans (Acts.none ?_)
    simp only [goto, stance, send, mode, calls, calm]
    rfl

theorem chunkDone_acts {offset : Nat} {claimed : Bool} (outcome : ChunkOutcome)
    (here : r.pc = .serialChunk offset total claimed (.settled (.done outcome))) :
    Acts inner r.stance (r.chunkDone inner total claimed outcome).stance := by
  have mode : r.pc.mode = if claimed then .claimed else .working := by rw [here]; rfl
  have calls : r.pc.calls = 0 := by rw [here]; rfl
  have calm : r.pc.sawStop = false := by rw [here]; rfl
  have busy : r.stance.busy := by
    cases claimed with
    | true => exact Or.inr mode
    | false => exact Or.inl mode
  have announced : ∀ total, Acts inner r.stance
      (r.send (.progress inner.dedupeKey outcome.nextOffset total)).stance :=
    fun total => .one (.progress _ _ _ busy)
  have later : ∀ total,
      (r.send (.progress inner.dedupeKey outcome.nextOffset total)).stance.busy := fun _ => busy
  simp only [chunkDone]
  generalize (if outcome.totalSize > 0 then outcome.totalSize else total) = known
  split
  · refine (announced known).trans ((Acts.one (.answer _ (later known))).trans (Acts.none ?_))
    simp only [goto, stance, send, calls]
    rfl
  · split
    · rename_i held
      refine (announced known).trans (Acts.none ?_)
      simp only [goto, stance, send, mode, calls, calm, held, if_true]
      rfl
    · rename_i free
      refine (announced known).trans (Acts.none ?_)
      simp only [goto, stance, send, mode, calls, calm, free]
      rfl

theorem settleBarrier_acts (d : Driver) (here : r.pc = .barrier d) :
    Acts inner r.stance (r.settleBarrier d).stance := by
  have mode : r.stance.mode = .working := by simp only [stance, here]; rfl
  have calls : r.pc.calls = 0 := by rw [here]; rfl
  have saw : r.pc.sawStop = d.cancelled := by rw [here]; rfl
  simp only [settleBarrier]
  split
  · refine (Acts.one (.fail _ (Or.inl mode))).trans (Acts.none ?_)
    simp only [goto, stance, calls]
    rfl
  · split
    · rename_i stop
      refine (Acts.one (.stop _ (Or.inl mode) ?_)).trans (Acts.none ?_)
      · rcases stop with cancelled | token
        · exact Or.inr ⟨mode, saw.trans cancelled⟩
        · exact Or.inl token
      · simp only [goto, stance, calls]
        rfl
    · rename_i calm
      have calm : d.cancelled = false := by
        cases flag : d.cancelled with
        | false => rfl
        | true => exact absurd (Or.inl flag) calm
      split
      · refine (Acts.one (.fail _ (Or.inl mode))).trans (Acts.none ?_)
        simp only [goto, stance, calls]
        rfl
      · apply Acts.none
        simp only [goto, stance, here, Pc.mode, Pc.sawStop, Pc.calls, calm]

theorem completed_acts (answer : Except MeowError (Option String)) :
    Acts inner (stance ⟨.completeCall total, outbox, token, cell⟩)
      (completed inner ⟨.completeCall total, outbox, token, cell⟩ total answer).stance := by
  have returned : ∀ notes : List TaskEvent, (∀ e ∈ notes, e.isNote = true) →
      Act inner (stance ⟨.completeCall total, outbox, token, cell⟩)
      { (stance ⟨.completeCall total, outbox, token, cell⟩).onCell
          (·.returnCall .complete ⟨answer, false, notes⟩) with calls := 0 } :=
    fun notes plain => .returned _ _ _ 0 rfl plain
  simp only [completed]
  cases inner.direction with
  | upload =>
    cases answer with
    | ok payload => exact (Acts.one (returned [.completeUpload true] (by simp [TaskEvent.isNote]))).then_ (.complete _ rfl)
    | error e => exact (Acts.one (returned [.completeUpload false] (by simp [TaskEvent.isNote]))).then_ (.fail _ (Or.inr rfl))
  | download =>
    cases answer with
    | ok payload =>
      refine ((Acts.one (returned [] (by simp))).then_ (.complete _ rfl)).trans (Acts.none ?_)
      simp [stance, goto, log, Stance.onCell, TaskCell.returnCall, TaskCell.log, Pc.mode,
        Pc.sawStop, Pc.calls]
    | error e =>
      refine ((Acts.one (returned [] (by simp))).then_ (.fail _ (Or.inr rfl))).trans (Acts.none ?_)
      simp [stance, goto, log, Stance.onCell, TaskCell.returnCall, TaskCell.log, Pc.mode,
        Pc.sawStop, Pc.calls]

/-- Every step of a run is a sequence of acts. -/
theorem step_acts {choice : Choice} (taken : Step inner r r.pc choice s) :
    Acts inner r.stance s.stance := by
  obtain ⟨pc, outbox, token, cell⟩ := r
  cases taken with
  | prepInterrupted seen waiting =>
    rcases waiting with rfl | rfl <;> exact .one (.stop _ (Or.inl rfl) (Or.inl seen))
  | prepRequest live => exact .one (.request _ _ (Or.inl (Or.inl rfl)))
  | prepOk called result =>
    rename_i attempt start answer call v
    have returned : Act inner (stance ⟨.prepCall attempt start, outbox, token, cell⟩)
        (stance ⟨.prepFailed attempt start (.fromCode1 .unknown), outbox, token,
          cell.returnCall (.prepare start) call⟩) :=
      .returned _ _ _ 0 rfl (prepareCall_sound called).plain
    rw [← prepared_goto _ (.prepFailed attempt start (.fromCode1 .unknown))]
    exact (Acts.one returned).trans (prepared_acts v rfl rfl rfl)
  | prepError called result =>
    exact .one (.returned (stance ⟨.prepCall _ _, outbox, token, cell⟩) _ _ 0 rfl
      (prepareCall_sound called).plain)
  | prepMasked seen | serialInterrupted seen => exact .one (.stop _ (Or.inl rfl) (Or.inl seen))
  | prepUnmasked | prepDelay | prepWake | serialLast | serialNext | serialCancelled => exact .refl
  | prepGiveUp => exact .one (.fail _ (Or.inl rfl))
  | serialClaim | totalDownload | totalUpload | completeClaim =>
    exact claim_acts rfl rfl rfl rfl rfl rfl rfl rfl rfl
  | serialRetry moved => exact retry_acts moved
  | serialOutcome => exact chunkDone_acts _ rfl
  | serialFailed =>
    rename_i claimed e
    cases claimed with
    | true => exact .one (.fail _ (Or.inr rfl))
    | false => exact .one (.fail _ (Or.inl rfl))
  | serialAck => exact .one (.acknowledge _ rfl)
  | serialFinish =>
    have pending := Terminal.finishIncompleteCompletion_isSome cell.life.terminal
    cases stop : cell.life.terminal.finishIncompleteCompletion.2 <;> rw [stop] at pending
    · exact .one (.giveUpClaim _ rfl rfl pending.symm)
    · exact .one (.yieldClaim _ rfl pending.symm)
  | totalInvalid => exact (Acts.one (.fail _ (Or.inr rfl))).then_ (.requireAbort _ rfl)
  | totalValid => exact .one (.sendCompleted _ _ _ (Or.inl rfl) rfl)
  | part here moved => exact part_acts here (part_effect moved)
  | joined here settled => exact joined_acts here settled
  | drained empty =>
    apply Acts.none
    simp [stance, goto, Pc.mode, Pc.sawStop, Pc.calls, Driver.sawStop, Driver.calls, empty]
  | panicPart here moved => exact panicPart_acts here (part_effect moved)
  | panicJoined here settled =>
    rename_i d text index part
    have calls := erase_calls here settled
    refine (Acts.one (.note _ [.joined part.offset part.outcome]
      (by simp [TaskEvent.isNote]))).trans (Acts.none ?_)
    simp only [stance, goto, log, Pc.mode, Pc.sawStop, Pc.calls, calls]
    rfl
  | panicDrained empty =>
    rename_i d text
    have calls : d.calls = 0 := by simp [Driver.calls, empty]
    simp only [settlePanic]
    split
    · refine (Acts.one (.drained _ rfl)).trans (Acts.none ?_)
      simp only [stance, goto, Pc.mode, Pc.sawStop, Pc.calls, calls]
    · refine ((Acts.one (.drained _ rfl)).then_ (.requireAbort _ rfl)).trans (Acts.none ?_)
      simp only [stance, goto, Pc.mode, Pc.sawStop, Pc.calls, calls]
      rfl
  | barrier => exact settleBarrier_acts _ rfl
  | completeInvalid upload =>
    exact (Acts.one (.fail _ (Or.inr rfl))).then_ (.abort _ rfl rfl)
  | completeRequest => exact .one (.request _ _ (Or.inl (Or.inr rfl)))
  | completeReturned => exact completed_acts _
  | releaseFailed => exact .one (.sendFailed _ _ _ (Or.inr (Or.inr rfl)) rfl)
  | released => exact .one (.sendCompleted _ _ _ (Or.inr rfl) rfl)
  | cleanupFailed => exact .one (.sendFailed _ _ _ (Or.inr (Or.inl rfl)) rfl)
  | canceled => exact .one (.sendCanceled _ _ rfl rfl)
  | failed =>
    simp only [exitFailed]
    split
    · exact (Acts.one (.abort _ rfl rfl)).then_ (.sendFailed _ _ _ (Or.inl rfl) rfl)
    · exact .one (.sendFailed _ _ _ (Or.inl rfl) rfl)

end Run

end RustyCat
