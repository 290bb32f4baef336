import RustyCat.System.History
import RustyCat.Worker.Termination

/-!
# The parallel driver

`run_group_parallel` from its first line to its terminal event, while stops may
be accepted and the token may be cancelled at any time.  The driver's trace is
what it has done so far: the parts it spawned and joined, its `complete` request
and the events it sent.
-/

namespace RustyCat.Parallel

/-- What the driver does, as opposed to its parts and the scheduler. -/
def isOwn : TaskEvent → Bool
  | .spawned _ | .joined _ _ | .sent _ | .requested .complete => true
  | _ => false

def trace (h : List TaskEvent) : List TaskEvent := h.filter isOwn

@[simp] theorem trace_append (h k : List TaskEvent) : trace (h ++ k) = trace h ++ trace k :=
  List.filter_append _ _

def spawnedAt (t : List TaskEvent) (offset : Nat) : Nat := t.count (.spawned offset)

def joinsAt (offset : Nat) : TaskEvent → Bool
  | .joined o _ => o = offset
  | _ => false

def joinedAt (t : List TaskEvent) (offset : Nat) : Nat := t.countP (joinsAt offset)

/-- The part at the offset was joined as done. -/
def Done (t : List TaskEvent) (offset : Nat) : Prop := .joined offset .done ∈ t

def Broken (t : List TaskEvent) : Prop :=
  ∃ offset, .joined offset .failed ∈ t ∨ .joined offset .panicked ∈ t

def AllJoined (t : List TaskEvent) : Prop := ∀ offset, spawnedAt t offset = joinedAt t offset

def AllDone (start chunk total : Nat) (t : List TaskEvent) : Prop :=
  ∀ offset, Grid.Point start chunk total offset → Done t offset

def progressOf : TaskEvent → Option Nat
  | .sent (.progress _ nextOffset _) => some nextOffset
  | _ => none

def watermarks (t : List TaskEvent) : List Nat := t.filterMap progressOf

def completes (t : List TaskEvent) : Nat := t.count (.requested .complete)

def Law (start chunk total : Nat) (before : List TaskEvent) : TaskEvent → Prop
  | .sent (.progress _ w _) =>
    start < w ∧ Grid.Edge start chunk total w ∧ Grid.Below start chunk total (Done before) w ∧
      ∀ earlier ∈ watermarks before, earlier < w
  | .sent (.completed _ _ _) =>
    History.ended before = false ∧ AllJoined before ∧ AllDone start chunk total before ∧
      ¬ Broken before
  | .sent (.canceled _ _) => History.ended before = false ∧ AllJoined before ∧ ¬ Broken before
  | .sent (.failed _ _ _) => History.ended before = false ∧ AllJoined before
  | .requested .complete =>
    completes before = 0 ∧ AllJoined before ∧ AllDone start chunk total before
  | _ => True

/-- The driver runs: the parts in the join set are those that were spawned and not
joined yet. -/
structure Flight (t : List TaskEvent) (parts : List Part) : Prop where
  going : History.ended t = false
  account : ∀ offset, spawnedAt t offset = joinedAt t offset + parts.countP (·.offset = offset)

/-- The window knows which parts are done, and the driver which ones failed. -/
structure Watch (start chunk total : Nat) (t : List TaskEvent) (d : Driver) : Prop where
  chunk : d.window.chunk = chunk
  total : d.window.total = total
  tracks : d.window.Tracks start (Done t)
  reported : ∀ w ∈ watermarks t, w ≤ d.window.watermark
  low : start ≤ d.window.watermark
  uncalled : completes t = 0
  failed : ∀ offset, .joined offset .failed ∈ t → d.failed.isSome = true
  calm : ∀ offset, .joined offset .panicked ∉ t

section Flight

variable {start chunk total : Nat} {t : List TaskEvent} {d : Driver} {parts : List Part}

theorem Flight.allJoined (flight : Flight t []) : AllJoined t := by
  intro offset
  simpa using flight.account offset

theorem Flight.join {index : Nat} {part : Part} (flight : Flight t parts)
    (here : parts[index]? = some part) (outcome : PartOutcome) :
    Flight (t ++ [.joined part.offset outcome]) (parts.eraseIdx index) where
  going := by simpa [History.noteEnd] using flight.going
  account := by
    intro offset
    have counted := flight.account offset
    rw [ListCount.countP_eraseIdx here] at counted
    simp only [spawnedAt, joinedAt, List.count_append, List.countP_append, List.countP_singleton,
      joinsAt] at counted ⊢
    simp at counted ⊢
    omega

theorem Flight.spawn (flight : Flight t parts) (offsets : List Nat) :
    Flight (t ++ offsets.map TaskEvent.spawned) (parts ++ offsets.map Part.spawn) := by
  induction offsets generalizing t parts with
  | nil => simpa using flight
  | cons offset rest ih =>
    have first : Flight (t ++ [.spawned offset]) (parts ++ [Part.spawn offset]) := by
      refine ⟨by simpa [History.noteEnd] using flight.going, fun o => ?_⟩
      have counted := flight.account o
      simp only [spawnedAt, joinedAt, List.count_append, List.countP_append, List.countP_singleton,
        joinsAt, List.count_singleton, Part.spawn] at counted ⊢
      simp at counted ⊢
      omega
    have others := ih first
    simp only [List.map_cons]
    simpa using others

theorem Flight.set {index : Nat} {part next : Part} (flight : Flight t parts)
    (here : parts[index]? = some part) (same : next.offset = part.offset) :
    Flight t (parts.set index next) where
  going := flight.going
  account := by
    intro offset
    have counted := flight.account offset
    have changed := ListCount.countP_set
      (p := fun part : Part => decide (part.offset = offset)) here next
    rw [same] at changed
    omega

theorem Flight.report (flight : Flight t parts) (key : UniqueId) (w total : Nat) :
    Flight (t ++ [.sent (.progress key w total)]) parts where
  going := by
    simpa [History.noteEnd, WorkerEvent.mayChangeSchedulerReadiness] using flight.going
  account := by
    intro offset
    have counted := flight.account offset
    simpa [spawnedAt, joinedAt, joinsAt, List.countP_append, List.countP_singleton] using counted

end Flight

section Watch

variable {start chunk total : Nat} {t : List TaskEvent} {d : Driver}

theorem Watch.spawn (watch : Watch start chunk total t d) (offsets : List Nat) :
    Watch start chunk total (t ++ offsets.map TaskEvent.spawned) d where
  chunk := watch.chunk
  total := watch.total
  tracks := watch.tracks.mono fun _ => List.mem_append_left _
  reported := by
    have none_ : (offsets.map TaskEvent.spawned).filterMap progressOf = [] := by
      simp [List.filterMap_map, Function.comp_def, progressOf]
    simpa [watermarks, List.filterMap_append, none_] using watch.reported
  low := watch.low
  uncalled := by
    have none_ : (offsets.map TaskEvent.spawned).count (.requested .complete) = 0 := by
      simp [List.count_eq_zero]
    simpa [completes, none_] using watch.uncalled
  failed := by simpa using watch.failed
  calm := by simpa using watch.calm

theorem Watch.dispatch (watch : Watch start chunk total t d) (fuel : Nat) (parts : List Part) :
    Watch start chunk total t
      { d with window := (PartWindow.dispatchLoop fuel d.window).1, parts := parts } := by
  obtain ⟨tracks, sameChunk, sameTotal, sameMark⟩ := watch.tracks.dispatchLoop fuel
  refine ⟨sameChunk.trans watch.chunk, sameTotal.trans watch.total, tracks, ?_, ?_,
    watch.uncalled, watch.failed, watch.calm⟩
  · rw [sameMark]
    exact watch.reported
  · rw [sameMark]
    exact watch.low

theorem Watch.topUp (watch : Watch start chunk total t d) :
    Watch start chunk total (t ++ d.topUp.2.map TaskEvent.spawned) d.topUp.1 := by
  simp only [Driver.topUp]
  split
  · exact (watch.dispatch _ _).spawn _
  · simpa using watch

theorem Flight.topUp (flight : Flight t d.parts) :
    Flight (t ++ d.topUp.2.map TaskEvent.spawned) d.topUp.1.parts := by
  simp only [Driver.topUp]
  split
  · exact flight.spawn _
  · simpa using flight

variable (watch : Watch start chunk total t d)
include watch

theorem Watch.joinWithoutProgress {window : PartWindow} {failed : Option MeowError}
    {cancelled : Bool} {parts : List Part} (offset : Nat) {outcome : PartOutcome}
    (same : window = { d.window with inFlight := window.inFlight }) (calm : outcome ≠ .panicked)
    (kept : d.failed.isSome = true → failed.isSome = true)
    (noted : outcome = .failed → failed.isSome = true) :
    Watch start chunk total (t ++ [.joined offset outcome])
      { window := window, parts := parts, cancelled := cancelled, failed := failed } := by
  have tracks : d.window.Tracks start (Done (t ++ [.joined offset outcome])) :=
    watch.tracks.mono fun _ => List.mem_append_left _
  rw [same]
  refine ⟨watch.chunk, watch.total, ⟨tracks.edge, tracks.dispatch, tracks.prefixDone, tracks.held⟩,
    ?_, watch.low, ?_, ?_, ?_⟩
  · simpa [watermarks, List.filterMap_append, progressOf] using watch.reported
  · simpa [completes, List.count_append] using watch.uncalled
  · intro o member
    rcases List.mem_append.mp member with old | new
    · exact kept (watch.failed o old)
    · simp only [List.mem_singleton, TaskEvent.joined.injEq] at new
      exact noted new.2.symm
  · intro o member
    rcases List.mem_append.mp member with old | new
    · exact watch.calm o old
    · simp only [List.mem_singleton, TaskEvent.joined.injEq] at new
      exact calm new.2.symm

theorem Watch.joinDone {window : PartWindow} {moved : Option Nat} {offset : Nat} (parts : List Part)
    (settled : d.window.onDone offset = .ok (window, moved)) :
    Watch start chunk total (t ++ [.joined offset .done])
        { d with window := window, parts := parts } ∧
      ∀ w, moved = some w → w = window.watermark ∧ d.window.watermark < w := by
  have tracks : d.window.Tracks start (Done (t ++ [.joined offset .done])) :=
    watch.tracks.mono fun _ => List.mem_append_left _
  obtain ⟨next, sameChunk, sameTotal, -, grown, reports⟩ :=
    tracks.onDone (List.mem_append_right _ (List.mem_singleton_self _)) settled
  refine ⟨⟨sameChunk.trans watch.chunk, sameTotal.trans watch.total, next, ?_, ?_, ?_, ?_, ?_⟩,
    reports⟩
  · intro w member
    refine Nat.le_trans (watch.reported w ?_) grown
    simpa [watermarks, List.filterMap_append, progressOf] using member
  · exact Nat.le_trans watch.low grown
  · simpa [completes, List.count_append] using watch.uncalled
  · simpa using watch.failed
  · simpa using watch.calm

theorem Watch.report (key : UniqueId) (known : Nat) :
    Watch start chunk total (t ++ [.sent (.progress key d.window.watermark known)]) d where
  chunk := watch.chunk
  total := watch.total
  tracks := watch.tracks.mono fun _ => List.mem_append_left _
  reported := by
    intro w member
    simp only [watermarks, List.filterMap_append, List.filterMap_cons, progressOf,
      List.filterMap_nil, List.mem_append, List.mem_singleton] at member
    rcases member with old | rfl
    · exact watch.reported w old
    · exact Nat.le_refl _
  low := watch.low
  uncalled := by simpa [completes, List.count_append] using watch.uncalled
  failed := by simpa using watch.failed
  calm := by simpa using watch.calm

theorem Watch.law {key : UniqueId} {w known : Nat} (here : w = d.window.watermark)
    (news : ∀ earlier ∈ watermarks t, earlier < w)
    (moved : start < w) : Law start chunk total t (.sent (.progress key w known)) := by
  subst here
  refine ⟨moved, ?_, ?_, news⟩
  · have edge := watch.tracks.edge
    rw [watch.chunk, watch.total] at edge
    exact edge
  · have done := watch.tracks.prefixDone
    rw [watch.chunk, watch.total] at done
    exact done

end Watch

/-- What the place of the driver says about its trace. -/
def PcOk (start chunk total : Nat) (t : List TaskEvent) : Pc → Prop
  | .join d => Flight t d.parts ∧ Watch start chunk total t d
  | .barrier d => Flight t [] ∧ Watch start chunk total t d
  | .panicDrain d _ => Flight t d.parts
  | .totalClaim _ | .totalValidate _ | .completeClaim _ | .completeValidate _ =>
    Flight t [] ∧ AllDone start chunk total t ∧ ¬ Broken t ∧ completes t = 0
  | .completeCall _ | .release _ _ =>
    Flight t [] ∧ AllDone start chunk total t ∧ ¬ Broken t
  | .exitCanceled _ => Flight t [] ∧ ¬ Broken t
  | .exitFailed _ _ _ => Flight t []
  | .finished => History.ended t = true
  | _ => False

/-- The trace obeys the law and the driver stands where the trace says. -/
structure Good (start chunk total : Nat) (t : List TaskEvent) (pc : Pc) : Prop where
  law : Trace.Always (Law start chunk total) t
  ok : PcOk start chunk total t pc

/-- A step adds to the history and keeps the trace good. -/
def Moves (start chunk total : Nat) (t : List TaskEvent) (r s : Run) : Prop :=
  ∃ more, s.cell.history = r.cell.history ++ more ∧ Good start chunk total (t ++ trace more) s.pc

section Moves

variable {start chunk total : Nat} {t : List TaskEvent} {inner : InnerTask} {r s : Run}

theorem Moves.silent {more : List TaskEvent} (added : s.cell.history = r.cell.history ++ more)
    (silent : trace more = []) (good : Good start chunk total t s.pc) :
    Moves start chunk total t r s :=
  ⟨more, added, by simpa [silent] using good⟩

theorem Moves.stay (same : s.cell.history = r.cell.history)
    (good : Good start chunk total t s.pc) : Moves start chunk total t r s :=
  .silent (by rw [same, List.append_nil]) rfl good

theorem Moves.finish {event : WorkerEvent} (quiet : List TaskEvent)
    (added : s.cell.history = r.cell.history ++ (quiet ++ [.sent event])) (silent : trace quiet = [])
    (finished : s.pc = .finished) (terminal : event.mayChangeSchedulerReadiness = true)
    (law : Trace.Always (Law start chunk total) t)
    (obeys : Law start chunk total t (.sent event)) : Moves start chunk total t r s := by
  refine ⟨quiet ++ [.sent event], added, ?_⟩
  have only : trace (quiet ++ [.sent event]) = [.sent event] := by
    rw [trace_append, silent]
    rfl
  rw [only]
  refine ⟨Trace.always_append_singleton.mpr ⟨law, obeys⟩, ?_⟩
  rw [finished]
  simp [PcOk, History.noteEnd, terminal]

variable {part : Part} {d : Driver}

theorem trace_part {token : Bool} {cell after : TaskCell} {choice : PartChoice} {next : Part}
    (moved : Part.Step inner total token cell choice part next after) :
    ∃ more, after.history = cell.history ++ more ∧ trace more = [] ∧
      next.offset = part.offset := by
  cases moved with
  | refused | interrupted | granted | panickedIdle => exact ⟨[], (List.append_nil _).symm, rfl, rfl⟩
  | panickedCalling => exact ⟨[_], rfl, rfl, rfl⟩
  | retry moved =>
    cases moved with
    | request => exact ⟨[_], rfl, rfl, rfl⟩
    | @returned attempt answer transfer called =>
      refine ⟨transfer.notes ++ [_], List.append_assoc _ _ _, ?_, rfl⟩
      rw [trace_append, List.append_eq_nil_iff]
      refine ⟨List.filter_eq_nil_iff.mpr fun e member own => ?_, rfl⟩
      have answer := (transferChunk_sound called).noted e member
      cases e <;> simp [TaskEvent.isAnswer, isOwn] at answer own
    | settle =>
      rw [TaskCell.finishIncomplete_history]
      split
      · exact ⟨[_], rfl, rfl, rfl⟩
      · exact ⟨[], (List.append_nil _).symm, rfl, rfl⟩
    | _ => exact ⟨[], (List.append_nil _).symm, rfl, rfl⟩

theorem good_claim {won lost : Pc} (good : Good start chunk total t won)
    (refused : Good start chunk total t lost) : Moves start chunk total t r (r.claim won lost) := by
  refine .stay rfl ?_
  rcases Run.fuel_claim (r := r) won lost with same | same
  · rw [same]
    exact good
  · rw [same]
    exact refused

theorem moves_part {index : Nat} {choice : PartChoice} {next : Part} {cell : TaskCell}
    (pc : Driver → Pc) (here : d.parts[index]? = some part)
    (moved : Part.Step inner d.window.total r.token r.cell choice part next cell)
    (law : Trace.Always (Law start chunk total) t) (ok : Flight t (d.parts.set index next) →
      PcOk start chunk total t (pc { d with parts := d.parts.set index next }))
    (flight : Flight t d.parts) :
    Moves start chunk total t r
      { r with pc := pc { d with parts := d.parts.set index next }, cell := cell } := by
  obtain ⟨more, added, silent, same⟩ := trace_part moved
  exact .silent added silent ⟨law, ok (flight.set here same)⟩

theorem moves_joinWith {before : Run} (quiet : List TaskEvent)
    (added : before.cell.history = r.cell.history ++ quiet)
    (law : Trace.Always (Law start chunk total) (t ++ trace quiet))
    (flight : Flight (t ++ trace quiet) d.parts)
    (watch : Watch start chunk total (t ++ trace quiet) d) :
    Moves start chunk total t r (before.joinWith d.topUp) := by
  have own : trace (d.topUp.2.map TaskEvent.spawned) = d.topUp.2.map TaskEvent.spawned := by
    refine List.filter_eq_self.mpr fun e member => ?_
    obtain ⟨offset, _, rfl⟩ := List.mem_map.mp member
    rfl
  refine ⟨quiet ++ d.topUp.2.map TaskEvent.spawned, ?_, ?_⟩
  · simp only [Run.joinWith, TaskCell.logAll, added, List.append_assoc]
  · rw [trace_append, own, ← List.append_assoc]
    refine ⟨law.append fun before e member => ?_, flight.topUp, watch.topUp⟩
    obtain ⟨offset, _, rfl⟩ := List.mem_map.mp member
    trivial

theorem moves_joined {index : Nat} (here : d.parts[index]? = some part)
    (settled : part.settled = true) (law : Trace.Always (Law start chunk total) t)
    (flight : Flight t d.parts) (watch : Watch start chunk total t d) :
    Moves start chunk total t r
      (r.joined inner { d with parts := d.parts.eraseIdx index } part) := by
  have left := flight.join here
  have noted : ∀ outcome, Trace.Always (Law start chunk total) (t ++ [.joined part.offset outcome]) :=
    fun outcome => Trace.always_append_singleton.mpr ⟨law, trivial⟩
  obtain ⟨offset, pc⟩ := part
  cases pc with
  | acquire => cases settled
  | panicked text => exact ⟨[_], rfl, noted .panicked, left .panicked⟩
  | retry retry =>
    cases retry with
    | settled result =>
      cases result with
      | done outcome =>
        have joined := left .done
        simp only [Run.joined, Driver.onJoined]
        split
        · rename_i window moved ends
          obtain ⟨after, news⟩ := watch.joinDone (d.parts.eraseIdx index) ends
          cases moved with
          | none => exact moves_joinWith [.joined offset .done] rfl (noted .done) joined after
          | some w =>
            obtain ⟨rfl, above⟩ := news w rfl
            let progress := WorkerEvent.progress inner.dedupeKey window.watermark d.window.total
            have shape : t ++ trace [.joined offset .done, .sent progress] =
                t ++ [.joined offset .done] ++ [.sent progress] := by
              simp [trace, isOwn]
            have obeys : Law start chunk total (t ++ [.joined offset .done]) (.sent progress) := by
              refine after.law rfl (fun earlier member => ?_) (Nat.lt_of_le_of_lt watch.low above)
              refine Nat.lt_of_le_of_lt (watch.reported earlier ?_) above
              simpa [watermarks, List.filterMap_append, progressOf] using member
            refine moves_joinWith [.joined offset .done, .sent progress] ?_ ?_ ?_ ?_
            · simp [Run.sendMoved, Run.send, Run.log, Part.outcome, ChunkRetryResult.outcome, progress]
            · rw [shape]
              exact Trace.always_append_singleton.mpr ⟨noted .done, obeys⟩
            · rw [shape]
              exact joined.report _ _ _
            · rw [shape]
              exact after.report _ _
        · rename_i e refused
          refine moves_joinWith [.joined offset .done] rfl (noted .done) joined ?_
          exact watch.joinWithoutProgress offset rfl (by simp) (by simp) (by simp)
      | cancelled =>
        refine ⟨[.joined offset .cancelled], rfl, noted .cancelled, left .cancelled, ?_⟩
        exact watch.joinWithoutProgress offset rfl (by simp) id (by simp)
      | failed e =>
        refine ⟨[.joined offset .failed], rfl, noted .failed, left .failed, ?_⟩
        exact watch.joinWithoutProgress offset rfl (by simp) (by simp [Driver.fail])
          (by simp [Driver.fail])
    | _ => cases settled

theorem moves_barrier (law : Trace.Always (Law start chunk total) t) (flight : Flight t [])
    (watch : Watch start chunk total t d) :
    Moves start chunk total t r (r.settleBarrier d) := by
  simp only [Run.settleBarrier]
  split
  · exact .stay rfl ⟨law, flight⟩
  rename_i none_
  have whole : ¬ Broken t := by
    rintro ⟨offset, failed | panicked⟩
    · have some_ := watch.failed offset failed
      rw [none_] at some_
      cases some_
    · exact watch.calm offset panicked
  split
  · exact .stay rfl ⟨law, flight, whole⟩
  split
  · exact .stay rfl ⟨law, flight⟩
  rename_i complete
  have done := watch.tracks.all_done (by simpa using complete)
  rw [watch.chunk, watch.total] at done
  exact .stay rfl ⟨law, flight, done, whole, watch.uncalled⟩

theorem trace_abort (cell : TaskCell) (direction : Direction) :
    ∃ quiet, (cell.executorCancel direction).history = cell.history ++ quiet ∧ trace quiet = [] := by
  rw [TaskCell.executorCancel_history]
  split
  · exact ⟨[_], rfl, rfl⟩
  · exact ⟨[], (List.append_nil _).symm, rfl⟩

/-- Every step of the driver keeps its trace good. -/
theorem step_moves {pc : Pc} {choice : Choice} (taken : Run.Step inner r pc choice s)
    (good : Good start chunk total t pc) : Moves start chunk total t r s := by
  obtain ⟨law, ok⟩ := good
  cases taken with
  | part here moved =>
    exact moves_part .join here moved law (fun flight => ⟨flight, ok.2.chunk, ok.2.total, ok.2.tracks,
      ok.2.reported, ok.2.low, ok.2.uncalled, ok.2.failed, ok.2.calm⟩) ok.1
  | @panicPart d text _ _ _ _ _ here moved =>
    exact moves_part (.panicDrain · text) here moved law id ok
  | joined here settled => exact moves_joined here settled law ok.1 ok.2
  | drained empty =>
    obtain ⟨flight, watch⟩ := ok
    rw [empty] at flight
    exact .stay rfl ⟨law, flight, watch⟩
  | panicJoined here settled =>
    exact ⟨[_], rfl, Trace.always_append_singleton.mpr ⟨law, trivial⟩, ok.join here _⟩
  | panicDrained empty =>
    have flight : Flight t [] := empty ▸ ok
    simp only [Run.settlePanic]
    cases inner.direction with
    | download | upload => exact .stay rfl ⟨law, flight⟩
  | barrier => exact moves_barrier law ok.1 ok.2
  | totalDownload | totalUpload | completeClaim =>
    exact good_claim ⟨law, ok⟩ ⟨law, ok.1, ok.2.2.1⟩
  | totalInvalid => exact .stay rfl ⟨law, ok.1⟩
  | totalValid =>
    exact .finish [] rfl rfl rfl rfl law
      ⟨ok.1.going, ok.1.allJoined, ok.2.1, ok.2.2.1⟩
  | completeInvalid upload =>
    obtain ⟨quiet, added, silent⟩ := trace_abort r.cell inner.direction
    exact .silent added silent ⟨law, ok.1⟩
  | completeRequest =>
    obtain ⟨flight, done, whole, uncalled⟩ := ok
    have own : trace [.requested .complete] = [.requested .complete] := rfl
    refine ⟨[.requested .complete], rfl, ?_⟩
    rw [own]
    refine ⟨Trace.always_append_singleton.mpr ⟨law, uncalled, flight.allJoined, done⟩,
      ⟨?_, fun offset => ?_⟩, fun offset point => List.mem_append_left _ (done offset point), ?_⟩
    · simpa [History.noteEnd] using flight.going
    · have counted := flight.account offset
      simpa [spawnedAt, joinedAt, joinsAt, List.countP_append, List.countP_singleton] using counted
    · simpa [Broken] using whole
  | @completeReturned known answer =>
    have quiet : ∃ more, (r.completed inner known answer).cell.history = r.cell.history ++ more ∧
        trace more = [] := by
      cases direction : inner.direction <;> cases answer <;>
        simp only [Run.completed, direction, Run.log, Run.goto, TaskCell.log, List.append_assoc] <;>
        exact ⟨_, rfl, rfl⟩
    obtain ⟨more, added, silent⟩ := quiet
    refine .silent added silent ?_
    cases answer with
    | ok payload => exact ⟨law, ok⟩
    | error e => exact ⟨law, ok.1⟩
  | releaseFailed | cleanupFailed =>
    exact .finish [] rfl rfl rfl rfl law ⟨ok.1.going, ok.1.allJoined⟩
  | released | canceled =>
    exact .finish [] rfl rfl rfl rfl law ⟨ok.1.going, ok.1.allJoined, ok.2⟩
  | @failed e known settles =>
    have obeys : Law start chunk total t (.sent (.failed inner.dedupeKey e known)) :=
      ⟨Flight.going ok, Flight.allJoined ok⟩
    simp only [Run.exitFailed]
    split
    · obtain ⟨quiet, added, silent⟩ := trace_abort r.cell inner.direction
      refine .finish quiet ?_ silent rfl rfl law obeys
      rw [← List.append_assoc, ← added]
      rfl
    · exact .finish [] rfl rfl rfl rfl law obeys
  | prepInterrupted seen waiting => rcases waiting with rfl | rfl <;> exact ok.elim
  | _ => exact ok.elim

end Moves

end RustyCat.Parallel
