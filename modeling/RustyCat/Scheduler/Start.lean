import RustyCat.Scheduler.State

/-!
# Starting queued groups

`try_start_next` of `exec.rs`.  One round walks once over the queue as it was
when the round began; rounds repeat until one of them starts nothing.
-/

namespace RustyCat

/-- A worker to spawn: its key, its task and the offset it starts from. -/
structure Started where
  key : UniqueId
  inner : InnerTask
  startOffset : Nat
  deriving DecidableEq

namespace World

/-- The part of a round that starts a runnable group.  A download whose total is
not known yet is started without a `Transmission` record. -/
def startGroup (w : World) (key : UniqueId) (group : GroupState) : World × Started :=
  let startTotal := w.state.effectiveTotal key group.entry.inner
  let announced :=
    if key.1 = .download ∧ startTotal = 0 then w
    else w.emitStatus group.entry .transmission (w.state.currentOffset key) startTotal
  let activated := announced.onState fun s => s.insertActive key { cancelled := false }
  (activated.onCell group.leaderInner.taskId fun cell => cell.log .started,
    { key := key
      inner := group.leaderInner
      startOffset := w.state.currentOffset key })

/-- One iteration of the inner loop of `try_start_next`. -/
def startHead (w : World) : World × Option Started :=
  match w.state.queued with
  | [] => (w, none)
  | key :: rest =>
    let popped := w.onState (·.popQueued key rest)
    if key ∈ popped.state.pausedSet then (popped.onState (·.pushQueued key), none)
    else if key ∈ popped.state.active then (popped.onState (·.pushQueued key), none)
    else
      match popped.state.groups.lookup key with
      | none => (popped, none)
      | some group =>
        if popped.state.canStartDirection key.1 then
          let (started, worker) := popped.startGroup key group
          (started, some worker)
        else (popped.onState (·.pushQueued key), none)

def startRound : Nat → World → World × List Started
  | 0, w => (w, [])
  | n + 1, w =>
    let (next, worker) := w.startHead
    let (last, workers) := startRound n next
    (last, worker.toList ++ workers)

/-- Repeats rounds until the queue is empty or a round starts nothing. -/
def startLoop : Nat → World → World × List Started
  | 0, w => (w, [])
  | fuel + 1, w =>
    if w.state.queued = [] then (w, [])
    else
      let (next, workers) := startRound w.state.queued.length w
      if workers = [] then (next, [])
      else
        let (last, more) := startLoop fuel next
        (last, workers ++ more)

/-- Every round but the last starts a group and so shortens the queue, which
bounds the number of rounds. -/
def tryStartNext (w : World) : World × List Started :=
  startLoop (w.state.queued.length + 1) w

theorem startGroup_state (w : World) (key : UniqueId) (group : GroupState) :
    (w.startGroup key group).1.state = w.state.insertActive key { cancelled := false } := by
  simp only [startGroup, onCell_state, onState_state]
  split
  · rfl
  · rw [emitStatus_state]

theorem startHead_length (w : World) :
    w.startHead.1.state.queued.length + w.startHead.2.toList.length ≤ w.state.queued.length := by
  cases queue : w.state.queued with
  | nil => simp [startHead, queue]
  | cons key rest =>
    simp only [startHead, queue]
    split
    · simp [SchedulerState.pushQueued, SchedulerState.popQueued]
    split
    · simp [SchedulerState.pushQueued, SchedulerState.popQueued]
    split
    · simp [SchedulerState.popQueued]
    split
    · simp [startGroup_state, SchedulerState.insertActive, SchedulerState.popQueued]
    · simp [SchedulerState.pushQueued, SchedulerState.popQueued]

theorem startRound_length (n : Nat) (w : World) :
    (startRound n w).1.state.queued.length + (startRound n w).2.length ≤
      w.state.queued.length := by
  induction n generalizing w with
  | zero => simp [startRound]
  | succ n ih =>
    have head := startHead_length w
    have tail := ih w.startHead.1
    simp only [startRound, List.length_append]
    omega

theorem startLoop_succ (fuel : Nat) (w : World) :
    startLoop (fuel + 1) w =
      if w.state.queued = [] then (w, [])
      else if (startRound w.state.queued.length w).2 = [] then
        ((startRound w.state.queued.length w).1, [])
      else
        ((startLoop fuel (startRound w.state.queued.length w).1).1,
          (startRound w.state.queued.length w).2 ++
            (startLoop fuel (startRound w.state.queued.length w).1).2) := rfl

/-- The fuel of `tryStartNext` never runs out: more fuel gives the same result. -/
theorem startLoop_stable (fuel : Nat) (w : World) (enough : w.state.queued.length < fuel) :
    startLoop (fuel + 1) w = startLoop fuel w := by
  induction fuel generalizing w with
  | zero => omega
  | succ fuel ih =>
    have shorter := startRound_length w.state.queued.length w
    rw [startLoop_succ (fuel + 1), startLoop_succ fuel w]
    split
    · rfl
    split
    · rfl
    rename_i busy
    have positive : 0 < (startRound w.state.queued.length w).2.length :=
      List.length_pos_iff.mpr busy
    rw [ih _ (by omega)]

end World

end RustyCat
