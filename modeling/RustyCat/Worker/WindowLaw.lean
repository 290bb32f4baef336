import Mathlib.Data.List.Nodup
import RustyCat.Lib.Machine
import RustyCat.Worker.PartWindow

/-!
# The part window over whole runs

Any sequence of `take_dispatch` and `on_done` calls in which an offset that was
handed out is reported done at most once.  The ghost lists are the offsets handed
out and the offsets reported done, in the order of the calls.
-/

namespace RustyCat

structure WindowUse where
  window : PartWindow
  dispatched : List Nat
  finished : List Nat

inductive WindowCall where
  | takeDispatch
  | onDone (offset : Nat)

namespace WindowUse

def new (start chunk total maxInFlight : Nat) (total_le : total ≤ u64Max) : WindowUse where
  window := .new start chunk total maxInFlight total_le
  dispatched := []
  finished := []

/-- The offsets handed out and not done yet. -/
def outstanding (u : WindowUse) : List Nat :=
  u.dispatched.filter (· ∉ u.finished)

/-- A call; `take_dispatch` may answer with nothing. -/
def step (u : WindowUse) : WindowCall → Option WindowUse
  | .takeDispatch =>
    match u.window.takeDispatch with
    | none => some u
    | some (offset, window) =>
      some { u with window := window, dispatched := u.dispatched ++ [offset] }
  | .onDone offset =>
    if offset ∈ u.outstanding then
      match u.window.onDone offset with
      | .ok (window, _) => some { u with window := window, finished := u.finished ++ [offset] }
      | .error _ => some u
    else none

variable {start chunk total maxInFlight : Nat} {total_le : total ≤ u64Max} {u next : WindowUse}

/-- What every sequence of calls keeps. -/
structure Law (start chunk total maxInFlight : Nat) (u : WindowUse) : Prop where
  chunk_eq : u.window.chunk = chunk
  total_eq : u.window.total = total
  max_eq : u.window.maxInFlight = maxInFlight
  order : u.dispatched = (List.range u.dispatched.length).map (start + · * chunk)
  reached : u.window.nextDispatch = min (start + u.dispatched.length * chunk) total
  below : ∀ p ∈ u.dispatched, p < total
  tracks : u.window.Tracks start (· ∈ u.finished)
  given : ∀ p ∈ u.finished, p ∈ u.dispatched
  once : u.finished.Nodup
  count : u.window.inFlight + u.finished.length = u.dispatched.length
  bound : u.window.inFlight ≤ maxInFlight
  passed : ∀ p ∈ u.finished, p < u.window.watermark ∨ p ∈ u.window.completed
  gap : u.window.watermark < total → u.window.watermark ∉ u.window.completed

theorem law_new (total_le : total ≤ u64Max) (room : start ≤ total) (positive : 0 < chunk)
    (wide : 1 ≤ maxInFlight) :
    Law start chunk total maxInFlight (new start chunk total maxInFlight total_le) where
  chunk_eq := Nat.max_eq_left positive
  total_eq := rfl
  max_eq := Nat.max_eq_left wide
  order := rfl
  reached := by simp [new, PartWindow.new]
  below := nofun
  tracks := .new total_le room _
  given := nofun
  once := List.nodup_nil
  count := rfl
  bound := Nat.zero_le _
  passed := nofun
  gap := fun _ => by simp [new, PartWindow.new]

namespace Law

variable (law : Law start chunk total maxInFlight u)

include law

theorem dispatched_nodup (positive : 0 < chunk) : u.dispatched.Nodup := by
  rw [law.order]
  refine List.Nodup.map (fun i j same => ?_) List.nodup_range
  exact Nat.eq_of_mul_eq_mul_right positive (Nat.add_left_cancel same)

theorem length_outstanding (positive : 0 < chunk) :
    u.outstanding.length = u.window.inFlight := by
  have split : u.dispatched.length = u.outstanding.length +
      (u.dispatched.filter (· ∈ u.finished)).length := by
    simp only [outstanding, decide_not]
    rw [Nat.add_comm]
    exact List.length_eq_length_filter_add _
  have same : (u.dispatched.filter (· ∈ u.finished)).Perm u.finished := by
    refine (List.perm_ext_iff_of_nodup ((law.dispatched_nodup positive).filter _) law.once).mpr ?_
    intro p
    rw [List.mem_filter, decide_eq_true_eq]
    exact ⟨fun both => both.2, fun member => ⟨law.given p member, member⟩⟩
  have count := law.count
  rw [same.length_eq] at split
  omega

theorem mem_dispatched_iff (positive : 0 < chunk) {p : Nat} (point : Grid.Point start chunk total p) :
    p ∈ u.dispatched ↔ p < u.window.nextDispatch := by
  obtain ⟨inside, k, rfl⟩ := point
  have members : start + k * chunk ∈ u.dispatched ↔ k < u.dispatched.length := by
    constructor
    · intro member
      rw [law.order] at member
      obtain ⟨i, early, same⟩ := List.mem_map.mp member
      have equal : i = k := Nat.eq_of_mul_eq_mul_right positive (Nat.add_left_cancel same)
      exact equal ▸ List.mem_range.mp early
    · intro early
      rw [law.order]
      exact List.mem_map.mpr ⟨k, List.mem_range.mpr early, rfl⟩
  rw [members, law.reached]
  constructor
  · intro less
    have more := Nat.mul_lt_mul_of_lt_of_le less (Nat.le_refl chunk) positive
    omega
  · intro less
    by_contra beyond
    have more := Nat.mul_le_mul_right chunk (Nat.le_of_not_lt beyond)
    omega

/-- The watermark is the first grid offset that is not done, or the end. -/
theorem watermark_spec :
    (IsLeast {p | Grid.Point start chunk total p ∧ p ∉ u.finished} u.window.watermark) ∨
      (∀ p, Grid.Point start chunk total p → p ∈ u.finished) ∧ u.window.watermark = total := by
  obtain ⟨edge, -, done, held⟩ := law.tracks
  rw [law.chunk_eq, law.total_eq] at edge done
  obtain atEnd | inside := Nat.eq_or_lt_of_le edge.le
  · exact .inr ⟨fun p point => done p point (atEnd ▸ point.1), atEnd⟩
  · refine .inl ⟨⟨edge.point inside, fun finished => ?_⟩, fun p open_ => ?_⟩
    · obtain before | kept := law.passed _ finished
      · exact Nat.lt_irrefl _ before
      · exact law.gap inside kept
    · by_contra lower
      exact open_.2 (done p open_.1 (Nat.lt_of_not_le lower))

theorem isComplete_iff (positive : 0 < chunk) :
    u.window.isComplete = true ↔ ∀ p, Grid.Point start chunk total p → p ∈ u.finished := by
  simp only [PartWindow.isComplete, decide_eq_true_eq, law.total_eq]
  constructor
  · rintro ⟨atEnd, -⟩ p point
    refine law.tracks.prefixDone p ?_ (Nat.lt_of_lt_of_le point.1 atEnd)
    rw [law.chunk_eq, law.total_eq]
    exact point
  · intro all
    refine ⟨?_, ?_⟩
    · obtain ⟨⟨point, missing⟩, -⟩ | ⟨-, atEnd⟩ := law.watermark_spec
      · exact absurd (all _ point) missing
      · omega
    · -- Everything handed out is a grid point, so nothing is outstanding.
      rw [← law.length_outstanding positive, List.length_eq_zero_iff, outstanding,
        List.filter_eq_nil_iff]
      intro p member
      have finished : p ∈ u.finished := by
        refine all p ⟨law.below p member, ?_⟩
        rw [law.order] at member
        obtain ⟨k, -, rfl⟩ := List.mem_map.mp member
        exact ⟨k, rfl⟩
      simp [finished]

/-- A part is withheld exactly if the window is full or the grid is exhausted. -/
theorem takeDispatch_eq_none_iff (positive : 0 < chunk) :
    u.window.takeDispatch = none ↔ u.outstanding.length = maxInFlight ∨
      ∀ p, Grid.Point start chunk total p → p ∈ u.dispatched := by
  have exhausted : u.window.nextDispatch ≥ total ↔
      ∀ p, Grid.Point start chunk total p → p ∈ u.dispatched := by
    constructor
    · intro atEnd p point
      exact (law.mem_dispatched_iff positive point).mpr (Nat.lt_of_lt_of_le point.1 atEnd)
    · intro all
      by_contra inside
      have edge := law.tracks.dispatch
      rw [law.chunk_eq, law.total_eq] at edge
      have point := edge.point (Nat.lt_of_not_le inside)
      exact Nat.lt_irrefl _ ((law.mem_dispatched_iff positive point).mp (all _ point))
  have bound := law.bound
  rw [law.length_outstanding positive, ← exhausted]
  simp only [PartWindow.takeDispatch, law.max_eq, law.total_eq]
  split
  · simp only [true_iff]
    omega
  · simp only [reduceCtorEq, false_iff]
    omega

theorem onDone_ok (positive : 0 < chunk) {offset : Nat} (out : offset ∈ u.outstanding) :
    ∃ window moved, u.window.onDone offset = .ok (window, moved) := by
  have busy := List.length_pos_of_mem out
  rw [law.length_outstanding positive] at busy
  simp only [PartWindow.onDone, if_neg (Nat.ne_of_gt busy)]
  exact ⟨_, _, rfl⟩

theorem takeDispatch {offset : Nat} {window : PartWindow}
    (taken : u.window.takeDispatch = some (offset, window)) :
    Law start chunk total maxInFlight
      { u with window := window, dispatched := u.dispatched ++ [offset] } := by
  obtain ⟨tracks, -⟩ := law.tracks.takeDispatch taken
  have reached := law.reached
  have count := law.count
  have total := law.total_eq
  simp only [PartWindow.takeDispatch, Option.ite_none_left_eq_some, Option.some.injEq,
    Prod.mk.injEq] at taken
  obtain ⟨free, rfl, rfl⟩ := taken
  have here : u.window.nextDispatch = start + u.dispatched.length * chunk := by omega
  refine
    { chunk_eq := law.chunk_eq
      total_eq := law.total_eq
      max_eq := law.max_eq
      order := ?_
      reached := ?_
      below := ?_
      tracks := tracks
      given := fun p member => List.mem_append_left _ (law.given p member)
      once := law.once
      count := ?_
      bound := ?_
      passed := law.passed
      gap := law.gap }
  · rw [List.length_append, List.length_singleton, List.range_succ, List.map_append, ← law.order]
    simp [here]
  · simp only [PartWindow.advance_eq, Grid.next, List.length_append, List.length_singleton,
      Nat.add_mul, Nat.one_mul, law.chunk_eq, law.total_eq]
    omega
  · intro p member
    obtain old | new := List.mem_append.mp member
    · exact law.below p old
    · rw [List.mem_singleton.mp new]
      omega
  · simp only [List.length_append, List.length_singleton]
    omega
  · have max := law.max_eq
    simp only
    omega

theorem onDone {offset : Nat} {window : PartWindow} {moved : Option Nat}
    (out : offset ∈ u.outstanding) (settled : u.window.onDone offset = .ok (window, moved)) :
    Law start chunk total maxInFlight
      { u with window := window, finished := u.finished ++ [offset] } := by
  simp only [outstanding, List.mem_filter, decide_eq_true_eq] at out
  have mono : u.window.Tracks start (· ∈ u.finished ++ [offset]) :=
    law.tracks.mono fun p member => List.mem_append_left _ member
  obtain ⟨tracks, chunkEq, totalEq, dispatchEq, -, -⟩ := mono.onDone (by simp) settled
  have count := law.count
  have bound := law.bound
  simp only [PartWindow.onDone] at settled
  split at settled
  · cases settled
  rename_i busy
  simp only [Except.ok.injEq, Prod.mk.injEq] at settled
  obtain ⟨rfl, -⟩ := settled
  let settled : PartWindow :=
    { u.window with
      inFlight := u.window.inFlight - 1, completed := insert offset u.window.completed }
  have frame := PartWindow.absorbLoop_inFlight settled.completed.card settled
  have inFlight : settled.absorb.inFlight = u.window.inFlight - 1 := frame.1
  refine
    { chunk_eq := chunkEq.trans law.chunk_eq
      total_eq := totalEq.trans law.total_eq
      max_eq := frame.2.trans law.max_eq
      order := law.order
      reached := dispatchEq.trans law.reached
      below := law.below
      tracks := tracks
      given := ?_
      once := ?_
      count := ?_
      bound := ?_
      passed := ?_
      gap := ?_ }
  · intro p member
    obtain old | new := List.mem_append.mp member
    · exact law.given p old
    · exact List.mem_singleton.mp new ▸ out.1
  · exact List.nodup_append.mpr ⟨law.once, List.nodup_singleton _, fun p old q new same =>
      out.2 (List.mem_singleton.mp new ▸ same ▸ old)⟩
  · change settled.absorb.inFlight + (u.finished ++ [offset]).length = u.dispatched.length
    rw [inFlight, List.length_append, List.length_singleton]
    omega
  · change settled.absorb.inFlight ≤ maxInFlight
    omega
  · intro p member
    have kept : p < settled.watermark ∨ p ∈ settled.completed := by
      obtain old | new := List.mem_append.mp member
      · exact (law.passed p old).imp_right (Finset.mem_insert_of_mem ·)
      · exact .inr (List.mem_singleton.mp new ▸ Finset.mem_insert_self _ _)
    obtain before | kept := kept
    · exact .inl (Nat.lt_of_lt_of_le before (PartWindow.le_watermark_absorbLoop _ settled))
    · exact PartWindow.mem_absorbLoop _ settled kept
  · intro inside
    refine PartWindow.watermark_absorbLoop _ settled (Nat.le_refl _) ?_
    rw [(PartWindow.absorbLoop_frame _ settled).2.1]
    exact law.total_eq.symm ▸ inside

theorem step {call : WindowCall} (taken : u.step call = some next) :
    Law start chunk total maxInFlight next := by
  cases call with
  | takeDispatch =>
    simp only [WindowUse.step] at taken
    split at taken
    · cases taken
      exact law
    · rename_i offset window given
      cases taken
      exact law.takeDispatch given
  | onDone offset =>
    simp only [WindowUse.step, Option.ite_none_right_eq_some] at taken
    obtain ⟨out, taken⟩ := taken
    split at taken
    · rename_i window moved settled
      cases taken
      exact law.onDone out settled
    · cases taken
      exact law

theorem watermark_le {call : WindowCall} (taken : u.step call = some next) :
    u.window.watermark ≤ next.window.watermark := by
  cases call with
  | takeDispatch =>
    simp only [WindowUse.step] at taken
    split at taken
    · cases taken
      exact Nat.le_refl _
    · rename_i offset window given
      cases taken
      simp only [PartWindow.takeDispatch, Option.ite_none_left_eq_some, Option.some.injEq,
        Prod.mk.injEq] at given
      obtain ⟨-, -, rfl⟩ := given
      exact Nat.le_refl _
  | onDone offset =>
    simp only [WindowUse.step, Option.ite_none_right_eq_some] at taken
    obtain ⟨out, taken⟩ := taken
    split at taken
    · rename_i window moved settled
      cases taken
      have done : u.window.Tracks start (fun _ => True) := law.tracks.mono fun _ _ => trivial
      exact (done.onDone trivial settled).2.2.2.2.1
    · cases taken
      exact Nat.le_refl _

end Law

/-- What `PartWindow` does over any sequence of calls. -/
theorem part_window_spec (total_le : total ≤ u64Max) (room : start ≤ total) (positive : 0 < chunk)
    (wide : 1 ≤ maxInFlight)
    (reached : Machine.Reachable step (new start chunk total maxInFlight total_le) u) :
    (u.dispatched = (List.range u.dispatched.length).map (start + · * chunk) ∧
      u.dispatched.Nodup ∧ ∀ p ∈ u.dispatched, p < total) ∧
    u.outstanding.length ≤ maxInFlight ∧
    ((IsLeast {p | Grid.Point start chunk total p ∧ p ∉ u.finished} u.window.watermark) ∨
      (∀ p, Grid.Point start chunk total p → p ∈ u.finished) ∧ u.window.watermark = total) ∧
    (u.window.isComplete = true ↔ ∀ p, Grid.Point start chunk total p → p ∈ u.finished) ∧
    (u.window.takeDispatch = none ↔ u.outstanding.length = maxInFlight ∨
      ∀ p, Grid.Point start chunk total p → p ∈ u.dispatched) ∧
    (∀ offset ∈ u.outstanding, ∃ window moved,
      u.window.onDone offset = .ok (window, moved)) ∧
    ∀ call next, u.step call = some next → u.window.watermark ≤ next.window.watermark := by
  have law : Law start chunk total maxInFlight u :=
    reached.invariant (Law start chunk total maxInFlight) (law_new total_le room positive wide)
      fun _ _ _ law _ taken => law.step taken
  refine ⟨⟨law.order, law.dispatched_nodup positive, law.below⟩, ?_, law.watermark_spec,
    law.isComplete_iff positive, law.takeDispatch_eq_none_iff positive,
    fun offset out => law.onDone_ok positive out, fun call next taken => law.watermark_le taken⟩
  rw [law.length_outstanding positive]
  exact law.bound

/-- Two parts of the last ten bytes a `u64` can count, done out of order. -/
theorem part_window_spec_sample : ∃ u : WindowUse,
    Machine.Reachable step (new (u64Max - 10) 6 u64Max 2 (Nat.le_refl _)) u ∧
      u.dispatched = [u64Max - 10, u64Max - 4] ∧ u.window.watermark = u64Max ∧
      (u.window.isComplete = true ↔
        ∀ p, Grid.Point (u64Max - 10) 6 u64Max p → p ∈ u.finished) := by
  have reached : Machine.Reachable step (new (u64Max - 10) 6 u64Max 2 (Nat.le_refl _)) _ :=
    Machine.reachable_of_exec (show Machine.exec step _ [.takeDispatch, .takeDispatch,
      .onDone (u64Max - 4), .onDone (u64Max - 10)] = some _ from rfl)
  refine ⟨_, reached, by decide, by decide, ?_⟩
  exact (part_window_spec (Nat.le_refl _) (by decide) (by decide) (by decide) reached).2.2.2.1

end WindowUse

end RustyCat
