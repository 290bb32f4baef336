import Mathlib.Data.List.Basic

/-!
# Bounded channels with one consumer

A bounded queue in first-in-first-out order.  A full queue blocks its sender,
except for messages that may be dropped.  The consumer takes one message at a
time.
-/

universe u

/-- The waiting messages, the one the consumer works on, and, oldest first, all
messages handed to the channel and all messages the consumer is done with. -/
structure Channel (α : Type u) where
  queue : List α
  current : Option α
  sent : List α
  done : List α
  deriving DecidableEq

namespace Channel

variable {α : Type u} {lossy : α → Bool} {capacity : Nat} {c d : Channel α} {message : α}

def empty : Channel α where
  queue := []
  current := none
  sent := []
  done := []

/-- Hands a message over; there is no next state while the sender has to wait. -/
def send (capacity : Nat) (lossy : α → Bool) (c : Channel α) (message : α) :
    Option (Channel α) :=
  if c.queue.length < capacity then
    some { c with queue := c.queue ++ [message], sent := c.sent ++ [message] }
  else if lossy message then some { c with sent := c.sent ++ [message] }
  else none

def receive (c : Channel α) : Option (Channel α) :=
  match c.current, c.queue with
  | none, message :: rest => some { c with queue := rest, current := some message }
  | _, _ => none

def finish (c : Channel α) : Option (Channel α) :=
  c.current.map fun message => { c with current := none, done := c.done ++ [message] }

/-- Every message that was not dropped. -/
def kept (c : Channel α) : List α :=
  c.done ++ c.current.toList ++ c.queue

/-- Only droppable messages were dropped, and the order was kept. -/
structure Sound (lossy : α → Bool) (c : Channel α) : Prop where
  lossless : c.kept.filter (!lossy ·) = c.sent.filter (!lossy ·)
  ordered : c.kept.Sublist c.sent

theorem Sound.empty : Sound lossy (empty : Channel α) :=
  ⟨rfl, List.Sublist.refl _⟩

theorem Sound.send (sound : c.Sound lossy) (taken : c.send capacity lossy message = some d) :
    d.Sound lossy := by
  simp only [Channel.send] at taken
  split at taken
  · cases taken
    have grown : kept { c with queue := c.queue ++ [message], sent := c.sent ++ [message] } =
        c.kept ++ [message] := by
      simp only [kept, List.append_assoc]
    refine ⟨?_, ?_⟩
    · rw [grown, List.filter_append, List.filter_append, sound.lossless]
    · rw [grown]
      exact sound.ordered.append_right [message]
  · split at taken
    · rename_i droppable
      cases taken
      refine ⟨?_, sound.ordered.trans (List.sublist_append_left _ _)⟩
      rw [List.filter_append, ← sound.lossless]
      simp [kept, droppable]
    · cases taken

theorem receive_eq (taken : c.receive = some d) : d.kept = c.kept ∧ d.sent = c.sent := by
  obtain ⟨queue, current, sent, done⟩ := c
  cases current with
  | some message => cases taken
  | none =>
    cases queue with
    | nil => cases taken
    | cons message rest =>
      cases taken
      simp [kept]

theorem finish_eq (taken : c.finish = some d) : d.kept = c.kept ∧ d.sent = c.sent := by
  obtain ⟨queue, current, sent, done⟩ := c
  cases current with
  | none => cases taken
  | some message =>
    cases taken
    simp [kept]

theorem Sound.of_same (sound : c.Sound lossy) (same : d.kept = c.kept ∧ d.sent = c.sent) :
    d.Sound lossy := by
  obtain ⟨kept, sent⟩ := same
  exact ⟨by rw [kept, sent, sound.lossless], by rw [kept, sent]; exact sound.ordered⟩

theorem send_sent (taken : c.send capacity lossy message = some d) :
    d.sent = c.sent ++ [message] := by
  simp only [send] at taken
  split at taken
  · cases taken
    rfl
  · split at taken
    · cases taken
      rfl
    · cases taken

theorem kept_of_idle (none : c.current = none) (nothing : c.queue = []) : c.kept = c.done := by
  simp [kept, none, nothing]

end Channel
