import RustyCat.Presigned.RangeHooks

/-!
# The law of a shared presigned range download

Every call in progress is safe among the others; a step of one lane keeps what the other
lanes rely on.  So in every state that any number of threads can reach, each request comes
from one plan and each change of the plan was checked.
-/

namespace RustyCat.Presigned

open Interaction Interaction.Attempt Program Function

open RangeDownload

variable {n : Nat}

/-- The request is what its call returned, and comes from one plan, which the freshness
check of the call returned. -/
def Built.Sound (built : Built) (history : List RangePlan) : Prop :=
  Returns built.call.program.run built.events (.ok (some built.request)) ∧
  ∃ plan ∈ history, built.call.From plan built.request ∧ ∃ checked rest,
    built.events = checked ++ rest ∧
    Returns (ensureFreshSnapshot built.call.refresher built.call.task).run checked (.ok plan)

/-- A call in progress is safe among the others. -/
def Frame.Safe (lane : Lane n) (frame : Frame) (s : Shared n) : Prop :=
  Interaction.Safe (Shared.Acts lane) (Others lane frame.call.task.id)
    (Keeps lane frame.call.task.id) (Both (Ended lane frame.call) (Ready lane)) frame.rest s

theorem Frame.Safe.others {lane : Lane n} {frame : Frame} {s t : Shared n}
    (safe : frame.Safe lane s) (acted : Others lane frame.call.task.id s t) :
    frame.Safe lane t := by
  refine Interaction.Safe.others (fun value s t ended other => ?_) safe acted
  cases value with
  | error e => exact At.others ended other
  | ok built =>
    refine ⟨ended.1.others other, fun request same => ?_⟩
    obtain ⟨plan, fresh, made⟩ := ended.2 request same
    exact ⟨plan, lasting_fresh.stable s t fresh other, made⟩

namespace RangeSystem

structure Sound (s : RangeSystem n) : Prop where
  published : s.shared.plan ∈ s.shared.history
  relocked : s.shared.relocked = false
  safe : ∀ lane frame, s.frames lane = some frame → frame.Safe lane s.shared
  runs : ∀ lane frame, s.frames lane = some frame →
    Program.Run frame.call.program.run (s.shared.trace lane) frame.rest
  idle : ∀ thread, s.frames ⟨thread, false⟩ = none →
    s.shared.gate ≠ some thread ∧ s.shared.active thread = false
  nested : ∀ thread, (s.frames ⟨thread, true⟩).isSome →
    ∃ frame, s.frames ⟨thread, false⟩ = some frame ∧ frame.inRefresher = true
  built : ∀ built ∈ s.built, built.Sound s.shared.history

theorem sound_initial (plan : RangePlan) : Sound (n := n) (initial plan) where
  published := List.mem_cons_self
  relocked := rfl
  safe := nofun
  runs := nofun
  idle _ _ := ⟨nofun, rfl⟩
  nested _ := nofun
  built := nofun

variable {s t : RangeSystem n} {lane : Lane n}

theorem Sound.inside (sound : Sound s) (lane : Lane n) {frame : Frame} (running : s.frames lane = some frame)
    (refresher : frame.inRefresher = true) : s.shared.active lane.thread = true := by
  obtain ⟨call, rest⟩ := frame
  cases rest with
  | done value => cases refresher
  | call op next =>
    cases op with
    | refreshEnd =>
      have acted : s.shared.Acts lane ⟨.refreshEnd, none⟩
          (s.shared.record lane ⟨.refreshEnd, none⟩) :=
        ⟨⟨false, .ok 0, none⟩, s.shared, rfl, rfl⟩
      exact ((sound.safe lane _ running).step acted).1.inside rfl
    | _ => cases refresher

/-! ## Starting and ending a call -/

theorem others_restart {other : Lane n} {task : Nat} {s : Shared n} (ne : other ≠ lane) :
    Others other task s { s with trace := update s.trace lane [] } where
  history := List.Subset.refl _
  published := id
  gate := .rfl
  plan _ := rfl
  active := rfl
  slots _ := ⟨rfl, rfl⟩
  resolved := rfl
  trace := update_of_ne ne _ _

theorem mayStart_eq_true {call : Call} : s.mayStart lane call = true ↔
    s.frames lane = none ∧ (lane.nested = true → call.job.isHook = true ∧
      ∃ frame, s.frames ⟨lane.thread, false⟩ = some frame ∧ frame.inRefresher = true) := by
  unfold mayStart
  cases inner : lane.nested with
  | false => simp
  | true => simp [Option.any_eq_true, and_assoc]

theorem frames_update {x y : Option Frame} {other : Lane n} :
    update s.frames lane x other = y ↔
      other = lane ∧ x = y ∨ other ≠ lane ∧ s.frames other = y := by
  by_cases same : other = lane
  · subst same
    simp
  · simp [same]

theorem Sound.start (sound : Sound s) {call : Call}
    (stepped : s.step (.start lane call) = some t) : Sound t := by
  simp only [step] at stepped
  split at stepped
  case isFalse => cases stepped
  case isTrue may =>
  cases stepped
  obtain ⟨free, inner⟩ := mayStart_eq_true.mp may
  have idle : lane.nested = false →
      s.shared.gate ≠ some lane.thread ∧ s.shared.active lane.thread = false := fun outer => by
    have same : lane = ⟨lane.thread, false⟩ := by rw [← outer]
    exact sound.idle lane.thread (same ▸ free)
  have begun : Started lane { s.shared with trace := update s.shared.trace lane [] } := by
    refine ⟨⟨sound.published, ?_, fun outer => iff_of_false (idle outer).1 nofun⟩,
      update_self ..⟩
    cases nested : lane.nested with
    | false => exact (idle nested).2
    | true =>
      obtain ⟨frame, running, refresher⟩ := (inner nested).2
      exact sound.inside ⟨lane.thread, false⟩ running refresher
  exact {
    published := sound.published
    relocked := sound.relocked
    safe := fun other frame running => by
      obtain ⟨rfl, same⟩ | ⟨ne, running⟩ := frames_update.mp running
      · cases same
        exact program_spec call (fun nested => (inner nested).1) _ begun
      · exact (sound.safe other frame running).others (others_restart ne)
    runs := fun other frame running => by
      obtain ⟨rfl, same⟩ | ⟨ne, running⟩ := frames_update.mp running
      · cases same
        rw [begun.2]
        exact .start _
      · rw [(others_restart ne : Others other 0 s.shared _).trace]
        exact sound.runs other frame running
    idle := fun thread none => by
      obtain ⟨_, same⟩ | ⟨_, none⟩ := frames_update.mp none
      · cases same
      · exact sound.idle thread none
    nested := fun thread some => by
      obtain ⟨frame, found⟩ := Option.isSome_iff_exists.mp some
      obtain ⟨same, _⟩ | ⟨_, found⟩ := frames_update.mp found
      · subst same
        obtain ⟨outer, running, refresher⟩ := (inner rfl).2
        exact ⟨outer, frames_update.mpr (.inr ⟨by simp, running⟩), refresher⟩
      · obtain ⟨outer, running, refresher⟩ := sound.nested thread (Option.isSome_of_mem found)
        refine ⟨outer, frames_update.mpr (.inr ⟨fun same => ?_, running⟩), refresher⟩
        -- the thread was idle, so it had no nested call
        rw [same, free] at running
        cases running
    built := sound.built }

theorem Sound.finish (sound : Sound s) (stepped : s.step (.finish lane) = some t) : Sound t := by
  simp only [step] at stepped
  split at stepped
  case h_2 => cases stepped
  case h_1 call result running =>
  cases stepped
  have ended : Both (Ended lane call) (Ready lane) result s.shared := sound.safe lane _ running
  have ready : Ready lane s.shared := by
    cases result with
    | error e => exact ended
    | ok built => exact ended.1
  have still : ∀ other frame, update s.frames lane none other = some frame →
      s.frames other = some frame := fun other frame found => by
    obtain ⟨_, same⟩ | ⟨_, found⟩ := frames_update.mp found
    · cases same
    · exact found
  exact {
    published := sound.published
    relocked := sound.relocked
    safe := fun other frame found => sound.safe other frame (still other frame found)
    runs := fun other frame found => sound.runs other frame (still other frame found)
    idle := fun thread none => by
      obtain ⟨rfl, _⟩ | ⟨_, none⟩ := frames_update.mp none
      · exact ⟨fun held => (nomatch (ready.gate rfl).mp held), ready.active⟩
      · exact sound.idle thread none
    nested := fun thread some => by
      obtain ⟨inner, found⟩ := Option.isSome_iff_exists.mp some
      obtain ⟨frame, outer, refresher⟩ :=
        sound.nested thread (Option.isSome_of_mem (still _ inner found))
      refine ⟨frame, frames_update.mpr (.inr ⟨fun same => ?_, outer⟩), refresher⟩
      -- a call that has returned is not inside the refresher
      rw [same, running] at outer
      cases outer
      cases refresher
    built := fun built member => by
      cases result with
      | error e => exact sound.built built member
      | ok value =>
        cases value with
        | none => exact sound.built built member
        | some request =>
          obtain rfl | member := List.mem_cons.mp member
          · obtain ⟨plan, fresh, made⟩ := ended.2 request rfl
            exact ⟨sound.runs lane _ running, plan, fresh.published plan rfl, made, fresh.returned⟩
          · exact sound.built built member }

/-! ## The other steps -/

theorem Sound.freeze (sound : Sound s) {task total : Nat}
    (stepped : s.step (.freeze task total) = some t) : Sound t := by
  simp only [step] at stepped
  split at stepped
  case isFalse => cases stepped
  case isTrue may =>
  cases stepped
  exact {
    published := sound.published
    relocked := sound.relocked
    safe := fun lane frame running => by
      have other : frame.call.task.id ≠ task := by
        have idle := may.1 lane.thread lane.nested
        rw [running] at idle
        simpa using idle
      refine (sound.safe lane frame running).others ?_
      exact {
        history := List.Subset.refl _
        published := id
        gate := .rfl
        plan := fun _ => rfl
        active := rfl
        slots := fun _ => ⟨rfl, rfl⟩
        resolved := update_of_ne other _ _
        trace := rfl }
    runs := sound.runs
    idle := sound.idle
    nested := sound.nested
    built := sound.built }

theorem Sound.foreign (sound : Sound s) {thread : Fin n}
    (stepped : s.step (.foreign thread) = some t) : Sound t := by
  simp only [step] at stepped
  split at stepped
  case isFalse => cases stepped
  case isTrue outside =>
  cases stepped
  simp only [RangeSystem.outside, Bool.and_eq_true, Option.isNone_iff_eq_none] at outside
  exact {
    published := sound.published
    relocked := sound.relocked
    safe := fun lane frame running => by
      refine (sound.safe lane frame running).others ?_
      exact {
        history := List.Subset.refl _
        published := id
        gate := .rfl
        plan := fun _ => rfl
        active := rfl
        slots := fun idle => by
          by_cases same : lane.thread = thread
          · -- the thread is inside the refresher
            subst same
            cases inner : lane.nested with
            | true =>
              have this : lane = ⟨lane.thread, true⟩ := by rw [← inner]
              rw [this, outside.1] at running
              cases running
            | false =>
              have this : lane = ⟨lane.thread, false⟩ := by rw [← inner]
              have refresher := outside.2
              rw [← this, running] at refresher
              rw [sound.inside lane running refresher] at idle
              cases idle
          · exact ⟨update_of_ne same _ _, update_of_ne same _ _⟩
        resolved := rfl
        trace := rfl }
    runs := sound.runs
    idle := sound.idle
    nested := sound.nested
    built := sound.built }

/-- What a call of a lane does: its own promise, and the system after it. -/
structure Stepped (s : RangeSystem n) (lane : Lane n) (call : Call) (event : RangeEvent)
    (rest : Program RangeOp RangeAnswer (Except MeowError (Option Request)))
    (t : RangeSystem n) : Prop where
  alone : lane.nested = false → s.frames ⟨lane.thread, true⟩ = none
  acted : s.shared.Acts lane event t.shared
  frames : t.frames = update s.frames lane (some ⟨call, rest⟩)
  built : t.built = s.built

theorem act_inv {env : Env} (stepped : s.step (.act lane env) = some t) :
    ∃ call op next answer, s.frames lane = some ⟨call, .call op next⟩ ∧
      Stepped s lane call ⟨op, answer⟩ (next answer) t := by
  simp only [step] at stepped
  split at stepped
  case h_2 => cases stepped
  case h_1 call op next running =>
  split at stepped
  · cases stepped
  case isFalse alone =>
  split at stepped
  · cases stepped
  case h_2 answer shared performed =>
  cases stepped
  refine ⟨call, op, next, answer, running, ?_, ⟨env, shared, performed, rfl⟩, rfl, rfl⟩
  intro outer
  exact Option.not_isSome_iff_eq_none.mp fun nested => alone ⟨outer, nested⟩

theorem acts_trace {s t : Shared n} {event : RangeEvent} (acted : s.Acts lane event t) :
    t.trace lane = s.trace lane ++ [event] := by
  obtain ⟨env, u, performed, rfl⟩ := acted
  simp [Shared.record, perform_trace performed]

variable {call : Call} {event : RangeEvent} {op : RangeOp} {answer : RangeAnswer op}
  {next : RangeAnswer op → Program RangeOp RangeAnswer (Except MeowError (Option Request))}

theorem Sound.keeps (sound : Sound s) (running : s.frames lane = some ⟨call, .call op next⟩)
    (acted : s.shared.Acts lane ⟨op, answer⟩ t.shared) :
    Keeps lane call.task.id s.shared ⟨op, answer⟩ t.shared :=
  ((sound.safe lane _ running).step acted).1

theorem Sound.act (sound : Sound s) (running : s.frames lane = some ⟨call, .call op next⟩)
    (stepped : Stepped s lane call ⟨op, answer⟩ (next answer) t) : Sound t := by
  have kept := sound.keeps running stepped.acted
  -- the lanes in a call other than this one are not of the same thread's own calls
  have others : ∀ other frame, other ≠ lane → s.frames other = some frame →
      ∀ task, Others other task s.shared t.shared := fun other frame ne found task => by
    refine kept.others other task ne fun outer same => ?_
    have inner : other = ⟨lane.thread, true⟩ := by
      obtain ⟨thread, nested⟩ := other
      cases nested with
      | true => rw [← same]
      | false =>
        obtain ⟨mine, nested⟩ := lane
        cases same
        cases outer
        exact absurd rfl ne
    rw [inner, stepped.alone outer] at found
    cases found
  have found_iff : ∀ {other y}, t.frames other = y ↔
      other = lane ∧ some ⟨call, next answer⟩ = y ∨ other ≠ lane ∧ s.frames other = y := by
    intro other y
    rw [stepped.frames]
    exact frames_update
  exact {
    published := kept.published sound.published
    relocked := kept.relocked.trans sound.relocked
    safe := fun other frame found => by
      obtain ⟨rfl, same⟩ | ⟨ne, found⟩ := found_iff.mp found
      · cases same
        exact ((sound.safe other _ running).step stepped.acted).2
      · exact (sound.safe other frame found).others (others other frame ne found _)
    runs := fun other frame found => by
      obtain ⟨rfl, same⟩ | ⟨ne, found⟩ := found_iff.mp found
      · cases same
        rw [acts_trace stepped.acted]
        exact (sound.runs other _ running).snoc answer
      · rw [(others other frame ne found 0).trace]
        exact sound.runs other frame found
    idle := fun thread none => by
      obtain ⟨_, same⟩ | ⟨ne, none⟩ := found_iff.mp none
      · cases same
      have kept := kept.others ⟨thread, false⟩ 0 ne fun outer same => ne (by
        obtain ⟨mine, nested⟩ := lane
        cases same
        cases outer
        rfl)
      obtain ⟨gate, active⟩ := sound.idle thread none
      exact ⟨fun held => gate (kept.gate.mp held), kept.active.trans active⟩
    nested := fun thread some => by
      have before : (s.frames ⟨thread, true⟩).isSome := by
        obtain ⟨frame, found⟩ := Option.isSome_iff_exists.mp some
        obtain ⟨same, _⟩ | ⟨_, found⟩ := found_iff.mp found
        · rw [same, running]
          rfl
        · exact Option.isSome_of_mem found
      obtain ⟨frame, outer, refresher⟩ := sound.nested thread before
      refine ⟨frame, found_iff.mpr (.inr ⟨fun same => ?_, outer⟩), refresher⟩
      -- the calls of the thread itself wait for the nested one
      subst same
      rw [stepped.alone rfl] at before
      cases before
    built := fun built member => by
      rw [stepped.built] at member
      obtain ⟨returned, plan, published, made⟩ := sound.built built member
      exact ⟨returned, plan, kept.history published, made⟩ }

theorem Sound.step (sound : Sound s) {label : Label n} (stepped : s.step label = some t) :
    Sound t := by
  cases label with
  | start lane call => exact sound.start stepped
  | act lane env =>
    obtain ⟨call, op, next, answer, running, stepped⟩ := act_inv stepped
    exact sound.act running stepped
  | finish lane => exact sound.finish stepped
  | freeze task total => exact sound.freeze stepped
  | foreign thread => exact sound.foreign stepped

theorem sound_of_reachable {plan : RangePlan} (run : Machine.Reachable step (initial plan) s) :
    Sound s :=
  run.invariant Sound (sound_initial plan) fun _ _ _ sound _ stepped => sound.step stepped

end RangeSystem

end RustyCat.Presigned
