import RustyCat.Lib.Blocks

/-!
# Files behind a handle that buffers

A write is accepted first and reaches the file later.  Until a flush has confirmed it,
any bytes may stand where it goes; what lies before the cursor never changes.
-/

namespace ByteFile

universe u

variable {α : Type u} {zero : α} {content old new : List α} {start len bound : Nat} {data : List α}

/-- Cuts the content, or fills it up. -/
def resize (zero : α) (content : List α) (len : Nat) : List α :=
  (content ++ List.replicate (len - content.length) zero).take len

/-- Writes the data at a position; a gap before it is filled up. -/
def splice (zero : α) (content : List α) (start : Nat) (data : List α) : List α :=
  resize zero content start ++ data ++ content.drop (start + data.length)

/-- What was there below the bound is still there. -/
def AgreeBelow (bound : Nat) (old new : List α) : Prop :=
  ∀ i < bound, i < old.length → new[i]? = old[i]?

theorem AgreeBelow.refl (bound : Nat) (content : List α) : AgreeBelow bound content content :=
  fun _ _ _ => rfl

theorem AgreeBelow.trans {middle : List α} (first : AgreeBelow bound old middle)
    (second : AgreeBelow bound middle new) : AgreeBelow bound old new := by
  intro i below inside
  have same := first i below inside
  have stays : i < middle.length := by
    rw [List.getElem?_eq_getElem inside] at same
    exact (List.getElem?_eq_some_iff.mp same).1
  exact (second i below stays).trans same

theorem AgreeBelow.mono {smaller : Nat} (agree : AgreeBelow bound old new)
    (within : smaller ≤ bound) : AgreeBelow smaller old new :=
  fun i below inside => agree i (Nat.lt_of_lt_of_le below within) inside

@[simp] theorem length_resize : (resize zero content len).length = len := by
  simp [resize]
  omega

theorem agreeBelow_resize (within : bound ≤ len) :
    AgreeBelow bound content (resize zero content len) := by
  intro i below inside
  rw [resize, List.getElem?_take_of_lt (by omega), List.getElem?_append_left inside]

theorem agreeBelow_splice (within : bound ≤ start) :
    AgreeBelow bound content (splice zero content start data) := by
  intro i below inside
  rw [splice, List.append_assoc, List.getElem?_append_left (by rw [length_resize]; omega)]
  exact agreeBelow_resize within i below inside

theorem slice_splice :
    Blocks.slice (splice zero content start data) start (start + data.length) = data := by
  rw [Blocks.slice, splice, List.append_assoc, Nat.add_sub_cancel_left,
    List.drop_left' length_resize, List.take_left]

/-! ## Handles -/

/-- A file, where the next write goes, and what was accepted and not yet confirmed. -/
structure Handle (α : Type u) where
  content : List α
  cursor : Nat
  unflushed : List α

namespace Handle

variable {h : Handle α}

/-- What the file may hold when accepted data, and this write, came through in part or not
at all. -/
def Torn (zero : α) (h : Handle α) (data content : List α) : Prop :=
  content = h.content ∨ ∃ garbage, garbage ≠ [] ∧
    garbage.length ≤ (h.unflushed ++ data).length ∧ content = splice zero h.content h.cursor garbage

theorem agreeBelow_of_torn (torn : Torn zero h data content) :
    AgreeBelow h.cursor h.content content := by
  obtain rfl | ⟨garbage, _, _, rfl⟩ := torn
  · exact .refl _ _
  · exact agreeBelow_splice (Nat.le_refl _)

theorem eq_of_torn (idle : h.unflushed ++ data = []) (torn : Torn zero h data content) :
    content = h.content := by
  obtain same | ⟨garbage, some, short, _⟩ := torn
  · exact same
  · rw [idle, List.length_nil, Nat.le_zero, List.length_eq_zero_iff] at short
    exact absurd short some

def accept (h : Handle α) (data : List α) : Handle α :=
  { h with unflushed := h.unflushed ++ data }

def flush (zero : α) (h : Handle α) : Handle α where
  content := if h.unflushed.isEmpty then h.content else splice zero h.content h.cursor h.unflushed
  cursor := h.cursor + h.unflushed.length
  unflushed := []

end Handle

end ByteFile
