import Mathlib.Data.Finset.Basic
import RustyCat.Lib.Grid
import RustyCat.Task

/-!
# The part window

`PartWindow` of `part_window.rs`: which part is dispatched next, and how parts
that finish out of order are reduced to one contiguous watermark.
-/

namespace RustyCat

/-- The constructor replaces a zero chunk or window by one. -/
structure PartWindow where
  chunk : Nat
  total : Nat
  maxInFlight : Nat
  nextDispatch : Nat
  completed : Finset Nat
  watermark : Nat
  inFlight : Nat
  chunk_pos : 0 < chunk
  total_le : total ≤ u64Max

instance : DecidableEq PartWindow := fun a b =>
  decidable_of_iff (a.chunk = b.chunk ∧ a.total = b.total ∧ a.maxInFlight = b.maxInFlight ∧
    a.nextDispatch = b.nextDispatch ∧ a.completed = b.completed ∧ a.watermark = b.watermark ∧
    a.inFlight = b.inFlight) (by cases a; cases b; simp)

namespace PartWindow

def new (startOffset chunk total maxInFlight : Nat) (total_le : total ≤ u64Max) : PartWindow where
  chunk := max chunk 1
  total := total
  maxInFlight := max maxInFlight 1
  nextDispatch := min startOffset total
  completed := ∅
  watermark := min startOffset total
  inFlight := 0
  chunk_pos := by omega
  total_le := total_le

/-- `offset.saturating_add(chunk).min(total)`. -/
def advance (w : PartWindow) (offset : Nat) : Nat :=
  min (Word.saturatingAdd 64 offset w.chunk) w.total

/-- The next part and the window after handing it out. -/
def takeDispatch (w : PartWindow) : Option (Nat × PartWindow) :=
  if w.inFlight ≥ w.maxInFlight ∨ w.nextDispatch ≥ w.total then none
  else
    some (w.nextDispatch,
      { w with nextDispatch := w.advance w.nextDispatch, inFlight := w.inFlight + 1 })

def dispatchLoop : Nat → PartWindow → PartWindow × List Nat
  | 0, w => (w, [])
  | fuel + 1, w =>
    match w.takeDispatch with
    | none => (w, [])
    | some (offset, next) =>
      let (last, offsets) := dispatchLoop fuel next
      (last, offset :: offsets)

/-- Every dispatch fills one free place of the window, which bounds the loop. -/
def dispatchAll (w : PartWindow) : PartWindow × List Nat :=
  dispatchLoop (w.maxInFlight - w.inFlight) w

/-- `while watermark < total && completed.remove(&watermark)`. -/
def absorbLoop : Nat → PartWindow → PartWindow
  | 0, w => w
  | fuel + 1, w =>
    if w.watermark < w.total ∧ w.watermark ∈ w.completed then
      absorbLoop fuel
        { w with
          completed := w.completed.erase w.watermark
          watermark := w.advance w.watermark }
    else w

/-- Every iteration removes one completed part, which bounds the loop. -/
def absorb (w : PartWindow) : PartWindow :=
  absorbLoop w.completed.card w

/-- The window after the part, and the watermark if it moved. -/
def onDone (w : PartWindow) (offset : Nat) : Except MeowError (PartWindow × Option Nat) :=
  if w.inFlight = 0 then
    .error (.fromCode .invalidTaskState "internal: on_done called without a matching dispatch")
  else
    let next :=
      { w with inFlight := w.inFlight - 1, completed := insert offset w.completed }.absorb
    .ok (next, if next.watermark ≠ w.watermark then some next.watermark else none)

def onSettledWithoutProgress (w : PartWindow) : PartWindow :=
  { w with inFlight := w.inFlight - 1 }

def isComplete (w : PartWindow) : Bool :=
  w.watermark ≥ w.total ∧ w.inFlight = 0

theorem advance_eq (w : PartWindow) (offset : Nat) :
    w.advance offset = Grid.next w.chunk w.total offset :=
  Word.min_saturatingAdd w.total_le offset w.chunk

section

variable (fuel : Nat) (w : PartWindow)

theorem watermark_absorbLoop (enough : w.completed.card ≤ fuel) :
    (absorbLoop fuel w).watermark < (absorbLoop fuel w).total →
      (absorbLoop fuel w).watermark ∉ (absorbLoop fuel w).completed := by
  induction fuel generalizing w with
  | zero =>
    intro _
    have empty : w.completed = ∅ := Finset.card_eq_zero.mp (by omega)
    simp [absorbLoop, empty]
  | succ fuel ih =>
    simp only [absorbLoop]
    split
    · rename_i here
      apply ih
      have fewer := Finset.card_erase_lt_of_mem here.2
      simp only
      omega
    · rename_i stop
      intro room member
      exact stop ⟨room, member⟩

theorem absorbLoop_frame :
    (absorbLoop fuel w).chunk = w.chunk ∧ (absorbLoop fuel w).total = w.total ∧
      (absorbLoop fuel w).nextDispatch = w.nextDispatch := by
  induction fuel generalizing w with
  | zero => exact ⟨rfl, rfl, rfl⟩
  | succ fuel ih =>
    simp only [absorbLoop]
    split
    · exact ih _
    · exact ⟨rfl, rfl, rfl⟩

theorem absorbLoop_inFlight :
    (absorbLoop fuel w).inFlight = w.inFlight ∧
      (absorbLoop fuel w).maxInFlight = w.maxInFlight := by
  induction fuel generalizing w with
  | zero => exact ⟨rfl, rfl⟩
  | succ fuel ih =>
    simp only [absorbLoop]
    split
    · exact ih _
    · exact ⟨rfl, rfl⟩

theorem le_watermark_absorbLoop :
    w.watermark ≤ (absorbLoop fuel w).watermark := by
  induction fuel generalizing w with
  | zero => exact Nat.le_refl _
  | succ fuel ih =>
    simp only [absorbLoop]
    split
    · rename_i here
      refine Nat.le_trans ?_ (ih _)
      simp only [advance_eq]
      exact Nat.le_of_lt (Grid.lt_next w.chunk_pos here.1)
    · exact Nat.le_refl _

theorem mem_absorbLoop {p : Nat} (member : p ∈ w.completed) :
    p < (absorbLoop fuel w).watermark ∨ p ∈ (absorbLoop fuel w).completed := by
  induction fuel generalizing w with
  | zero => exact .inr member
  | succ fuel ih =>
    simp only [absorbLoop]
    split
    · rename_i here
      by_cases same : p = w.watermark
      · left
        refine Nat.lt_of_lt_of_le ?_ (le_watermark_absorbLoop fuel _)
        simp only [advance_eq, same]
        exact Grid.lt_next w.chunk_pos here.1
      · exact ih _ (Finset.mem_erase.mpr ⟨same, member⟩)
    · exact .inr member

/-- What the window knows about the parts: the watermark ends a prefix of parts
that are done, and every part kept back above it is done as well. -/
structure Tracks (w : PartWindow) (start : Nat) (done : Nat → Prop) : Prop where
  edge : Grid.Edge start w.chunk w.total w.watermark
  dispatch : Grid.Edge start w.chunk w.total w.nextDispatch
  prefixDone : Grid.Below start w.chunk w.total done w.watermark
  held : ∀ p ∈ w.completed, done p

end

namespace Tracks

variable {w : PartWindow} {start : Nat} {done : Nat → Prop}

theorem new {startOffset chunk total maxInFlight : Nat} (total_le : total ≤ u64Max)
    (room : startOffset ≤ total) (done : Nat → Prop) :
    (PartWindow.new startOffset chunk total maxInFlight total_le).Tracks startOffset done := by
  have kept : min startOffset total = startOffset := Nat.min_eq_left room
  refine ⟨?_, ?_, ?_, ?_⟩
  · simp only [PartWindow.new, kept]
    exact Grid.edge_start room
  · simp only [PartWindow.new, kept]
    exact Grid.edge_start room
  · simp only [PartWindow.new, kept]
    exact Grid.below_start _
  · intro p member
    simp [PartWindow.new] at member

theorem mono {other : Nat → Prop} (tracks : w.Tracks start done)
    (implies : ∀ p, done p → other p) : w.Tracks start other :=
  ⟨tracks.edge, tracks.dispatch, tracks.prefixDone.mono implies,
    fun p member => implies p (tracks.held p member)⟩

theorem takeDispatch {offset : Nat} {next : PartWindow} (tracks : w.Tracks start done)
    (taken : w.takeDispatch = some (offset, next)) :
    next.Tracks start done ∧ Grid.Point start w.chunk w.total offset := by
  simp only [PartWindow.takeDispatch, Option.ite_none_left_eq_some, Option.some.injEq,
    Prod.mk.injEq] at taken
  obtain ⟨free, rfl, rfl⟩ := taken
  have point := tracks.dispatch.point (by omega)
  refine ⟨⟨tracks.edge, ?_, tracks.prefixDone, tracks.held⟩, point⟩
  simp only [advance_eq]
  exact Grid.edge_next point

theorem dispatchLoop (fuel : Nat) (tracks : w.Tracks start done) :
    (PartWindow.dispatchLoop fuel w).1.Tracks start done ∧
      (PartWindow.dispatchLoop fuel w).1.chunk = w.chunk ∧
      (PartWindow.dispatchLoop fuel w).1.total = w.total ∧
      (PartWindow.dispatchLoop fuel w).1.watermark = w.watermark := by
  induction fuel generalizing w with
  | zero => exact ⟨tracks, rfl, rfl, rfl⟩
  | succ fuel ih =>
    cases taken : w.takeDispatch with
    | none =>
      simp only [PartWindow.dispatchLoop, taken]
      exact ⟨tracks, trivial, trivial, trivial⟩
    | some pair =>
      obtain ⟨offset, next⟩ := pair
      have kept := ih (tracks.takeDispatch taken).1
      simp only [PartWindow.dispatchLoop, taken]
      simp only [PartWindow.takeDispatch, Option.ite_none_left_eq_some, Option.some.injEq,
        Prod.mk.injEq] at taken
      obtain ⟨_, _, rfl⟩ := taken
      exact kept

theorem absorbLoop (fuel : Nat) (tracks : w.Tracks start done) :
    (PartWindow.absorbLoop fuel w).Tracks start done := by
  induction fuel generalizing w with
  | zero => exact tracks
  | succ fuel ih =>
    simp only [PartWindow.absorbLoop]
    split
    · rename_i here
      have point := tracks.edge.point here.1
      apply ih
      refine ⟨?_, tracks.dispatch, ?_, ?_⟩
      · simp only [advance_eq]
        exact Grid.edge_next point
      · simp only [advance_eq]
        exact tracks.prefixDone.next point (tracks.held _ here.2)
      · intro p member
        exact tracks.held p (Finset.mem_of_mem_erase member)
    · exact tracks

theorem onDone {offset : Nat} {next : PartWindow} {moved : Option Nat}
    (tracks : w.Tracks start done) (isDone : done offset)
    (settled : w.onDone offset = .ok (next, moved)) :
    next.Tracks start done ∧ next.chunk = w.chunk ∧ next.total = w.total ∧
      next.nextDispatch = w.nextDispatch ∧ w.watermark ≤ next.watermark ∧
      ∀ x, moved = some x → x = next.watermark ∧ w.watermark < x := by
  simp only [PartWindow.onDone] at settled
  split at settled
  · cases settled
  simp only [Except.ok.injEq, Prod.mk.injEq] at settled
  obtain ⟨rfl, rfl⟩ := settled
  have held : PartWindow.Tracks
      { w with inFlight := w.inFlight - 1, completed := insert offset w.completed } start done := by
    refine ⟨tracks.edge, tracks.dispatch, tracks.prefixDone, ?_⟩
    intro p member
    rcases Finset.mem_insert.mp member with rfl | old
    · exact isDone
    · exact tracks.held p old
  have grown := le_watermark_absorbLoop (insert offset w.completed).card
    { w with inFlight := w.inFlight - 1, completed := insert offset w.completed }
  have frame := absorbLoop_frame (insert offset w.completed).card
    { w with inFlight := w.inFlight - 1, completed := insert offset w.completed }
  refine ⟨held.absorbLoop _, frame.1, frame.2.1, frame.2.2, grown, ?_⟩
  intro x moved
  split at moved
  · rename_i changed
    cases moved
    exact ⟨rfl, Nat.lt_of_le_of_ne grown (Ne.symm changed)⟩
  · cases moved

theorem all_done (tracks : w.Tracks start done) (complete : w.isComplete = true) :
    ∀ p, Grid.Point start w.chunk w.total p → done p := by
  intro p point
  simp only [isComplete, decide_eq_true_eq] at complete
  exact tracks.prefixDone p point (Nat.lt_of_lt_of_le point.1 complete.1)

end Tracks

end PartWindow

end RustyCat
