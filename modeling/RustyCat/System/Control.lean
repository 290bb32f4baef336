import RustyCat.System.Simulation

/-!
# Stops, task by task

The scheduler inside a pause, a cancel or a close: every piece of the command
keeps the agreement between scheduler and workers and moves one task by a step
of the task machine.
-/

namespace RustyCat.System

variable {ok : InnerTask → Run → Choice → Prop} {limit : Direction → Nat} {s t : System}
  {key : UniqueId} {group : GroupState}

theorem Ok.running (good : s.Ok limit) (active : key ∈ s.world.state.active) :
    ∃ group token worker, s.world.state.groups.lookup key = some group ∧
      (s.world.state.keyState key).active = some token ∧ s.workers key = some worker := by
  obtain ⟨group, found⟩ := Finmap.mem_iff.mp ((good.inv.keys key).active_grouped active)
  obtain ⟨token, there⟩ := Finmap.mem_iff.mp active
  obtain ⟨worker, staffed⟩ := Option.isSome_iff_exists.mp ((good.staffed key).mpr active)
  exact ⟨group, token, worker, found, there, staffed⟩

section Stops

theorem Ok.running_moves {w : World} {sched : SchedPc} {token after : ActiveState}
    {worker : Worker} {state : KeyState} {cell : TaskCell}
    (good : s.Ok limit) (found : s.world.state.groups.lookup key = some group)
    (running : (s.world.state.keyState key).active = some token)
    (staffed : s.workers key = some worker)
    (touched : s.world.Touches w key group.leaderInner.taskId state cell)
    (kept : state.group = some group) (active : state.active = some after)
    (focus : ∀ k, k ≠ key → sched.focus k = s.sched.focus k)
    (inv : w.state.Inv s.tasks.keys limit)
    (schedOk : SchedOk { s with world := w, sched := sched })
    (moved : TaskSteps ok
      (.live group.leaderInner
        { pc := worker.pc
          outbox := worker.outbox
          token := token.cancelled
          cell := s.world.heap group.leaderInner.taskId }
        (s.world.state.keyState key).paused (s.world.state.keyState key).canceling
        (s.sched.focus key))
      (.live group.leaderInner
        { pc := worker.pc, outbox := worker.outbox, token := after.cancelled, cell := cell }
        state.paused state.canceling (sched.focus key))) :
    Keeps ok limit s { s with world := w, sched := sched } := by
  have target : { s with world := w, sched := sched } = { s.setWorker key (some worker) with
      world := w, sched := sched, phase := s.phase } := by
    rw [← staffed, setWorker_same]
  refine good.moves found touched (Or.inr kept) focus inv ?_ ?_ target schedOk ?_
  · rw [active]
    rfl
  · rintro _ ⟨⟩
    exact good.addressed key worker staffed
  · rw [staffed, KeyState.view_live found running, KeyState.view_live kept active]
    exact moved

theorem keyState_calm (calm : key ∉ s.world.state.cancelingSet) :
    (s.world.state.keyState key).canceling = false := decide_eq_false calm

theorem claimStop_ok (good : s.Ok limit) (idle : s.sched = .idle)
    (active : key ∈ s.world.state.active) (calm : key ∉ s.world.state.cancelingSet)
    {kind : StopKind} (stop : kind ≠ .close) :
    Keeps ok limit s { s with
      world := (s.world.claimStop key kind).1
      sched := .token key kind (s.world.claimStop key kind).2 } := by
  obtain ⟨group, token, worker, found, running, staffed⟩ := good.running active
  refine good.running_moves found running staffed (World.claimStop_touches found kind) found running
    ?_ ?_ ?_ ?_
  · intro k other
    simp [SchedPc.focus, idle, Ne.symm other]
  · rw [World.claimStop_state]
    exact good.inv
  · simp only [SchedOk, World.claimStop_state]
    exact ⟨active, calm, stop⟩
  · rw [World.claimStop_disposition found, keyState_calm calm, idle]
    simp only [SchedPc.focus, if_true]
    exact .single (.claim kind stop)

theorem stepToken_ok {kind : StopKind} {disposition : StopRequestDisposition} (good : s.Ok limit)
    (at_token : s.sched = .token key kind disposition) :
    Keeps ok limit s { s with
      world := s.world.interruptIf disposition key
      sched := .marks key kind } := by
  have sched := good.sched
  simp only [SchedOk, at_token] at sched
  obtain ⟨active, calm, stop⟩ := sched
  obtain ⟨group, token, worker, found, running, staffed⟩ := good.running active
  refine good.running_moves found running staffed
    (World.interruptIf_touches disposition key group.leaderInner.taskId) found
    (congrArg (Option.map _) running) ?_ (World.interruptIf_inv disposition good.inv) ?_ ?_
  · intro k other
    simp [SchedPc.focus, at_token, Ne.symm other]
  · simp only [SchedOk, World.mem_interruptIf_active, World.interruptIf_cancelingSet]
    exact ⟨active, calm, stop⟩
  · rw [at_token]
    simp only [SchedPc.focus, if_true]
    exact .single .token

theorem stepMarks_ok {kind : StopKind} (good : s.Ok limit) (at_marks : s.sched = .marks key kind) :
    Keeps ok limit s { s with world := applyMarks s.world key kind, sched := .idle } := by
  have sched := good.sched
  simp only [SchedOk, at_marks] at sched
  obtain ⟨active, calm, stop⟩ := sched
  obtain ⟨group, token, worker, found, running, staffed⟩ := good.running active
  have grouped : key ∈ s.world.state.groups := Finmap.mem_of_lookup_eq_some found
  have focus : ∀ k, k ≠ key → SchedPc.idle.focus k = s.sched.focus k := by
    intro k other
    simp [SchedPc.focus, at_marks, Ne.symm other]
  cases kind with
  | close => exact absurd rfl stop
  | pause =>
    refine good.running_moves found running staffed
      (World.pauseMark_touches key group.leaderInner.taskId) found running focus
      (World.pauseMark_inv true good.inv grouped calm) trivial ?_
    rw [at_marks]
    simp only [SchedPc.focus, if_true]
    exact .single (.marksPause (by simp))
  | cancel =>
    refine good.running_moves found running staffed
      (World.cancelMark_touches found group.leaderInner.taskId) found running focus
      (World.cancelMark_inv good.inv active) trivial ?_
    rw [at_marks]
    simp only [SchedPc.focus, if_true]
    exact .single .marksCancel

end Stops

section Idle

variable {w : World} {state : KeyState} {cell : TaskCell}

theorem Ok.unstaffed (good : s.Ok limit) (inactive : key ∉ s.world.state.active) :
    s.workers key = none := by
  have missing := mt (good.staffed key).mp inactive
  rwa [Option.isSome_iff_ne_none, not_not] at missing

theorem Ok.idle_goes (good : s.Ok limit) (found : s.world.state.groups.lookup key = some group)
    (inactive : key ∉ s.world.state.active)
    (touched : s.world.Touches w key group.leaderInner.taskId state cell)
    (owner : state.group = none ∨ state.group = some group) (still : state.active = none)
    (inv : w.state.Inv s.tasks.keys limit) (schedOk : SchedOk { s with world := w })
    (moved : TaskSteps ok (.idle group.leaderInner (s.world.heap group.leaderInner.taskId))
      (state.view none (s.sched.focus key) group.leaderInner.taskId cell)) :
    Keeps ok limit s { s with world := w } := by
  have target : { s with world := w } = { s.setWorker key none with
      world := w, sched := s.sched, phase := s.phase } := by
    rw [← good.unstaffed inactive, setWorker_same]
  refine good.moves found touched owner (fun _ _ => rfl) inv ?_ ?_ target schedOk ?_
  · rw [still]
    rfl
  · rintro _ ⟨⟩
  · rw [KeyState.view_idle found (keyState_idle inactive)]
    exact moved

theorem Ok.idle_moves (good : s.Ok limit) (found : s.world.state.groups.lookup key = some group)
    (inactive : key ∉ s.world.state.active)
    (touched : s.world.Touches w key group.leaderInner.taskId state cell)
    (kept : state.group = some group) (still : state.active = none)
    (inv : w.state.Inv s.tasks.keys limit) (schedOk : SchedOk { s with world := w })
    (moved : TaskSteps ok (.idle group.leaderInner (s.world.heap group.leaderInner.taskId))
      (.idle group.leaderInner cell)) : Keeps ok limit s { s with world := w } := by
  refine good.idle_goes found inactive touched (Or.inr kept) still inv schedOk ?_
  rw [KeyState.view_idle kept still]
  exact moved

end Idle

section Close

variable {activeKeys inactiveKeys : List UniqueId} {disposition : StopRequestDisposition}

variable (good : s.Ok limit)
include good

theorem closeCanceling_ok (closing : s.sched = .closing (key :: activeKeys) inactiveKeys)
    (canceling : key ∈ s.world.state.cancelingSet) :
    Keeps ok limit s { s with
      world := s.world.closeActive key
      sched := .closing activeKeys inactiveKeys } := by
  have sched := good.sched
  simp only [SchedOk, closing] at sched
  have active := sched.1 key List.mem_cons_self
  obtain ⟨group, token, worker, found, running, staffed⟩ := good.running active
  refine good.running_moves found running staffed (World.closeActive_touches found canceling) found
    (congrArg (Option.map _) running) ?_ (World.closeActive_inv good.inv active) ?_ ?_
  · intro k other
    rw [closing]
    rfl
  · simp only [SchedOk, CloseOk, World.mem_closeActive_active]
    exact ⟨fun k member => sched.1 k (List.mem_cons_of_mem _ member), sched.2⟩
  · have marked : (s.world.state.keyState key).canceling = true := decide_eq_true canceling
    rw [closing]
    simp only [SchedPc.focus, marked]
    exact .single .closeCanceling

theorem closeClaim_ok (closing : s.sched = .closing (key :: activeKeys) inactiveKeys)
    (calm : key ∉ s.world.state.cancelingSet) :
    Keeps ok limit s { s with
      world := (s.world.claimStop key .close).1
      sched := .closeSet key (s.world.claimStop key .close).2 activeKeys inactiveKeys } := by
  have sched := good.sched
  simp only [SchedOk, closing] at sched
  have active := sched.1 key List.mem_cons_self
  obtain ⟨group, token, worker, found, running, staffed⟩ := good.running active
  refine good.running_moves found running staffed (World.claimStop_touches found .close) found
    running ?_ ?_ ?_ ?_
  · intro k other
    simp [SchedPc.focus, closing, Ne.symm other]
  · rw [World.claimStop_state]
    exact good.inv
  · simp only [SchedOk, CloseOk, World.claimStop_state]
    exact ⟨active, calm, fun k member => sched.1 k (List.mem_cons_of_mem _ member), sched.2⟩
  · rw [World.claimStop_disposition found, keyState_calm calm, closing]
    simp only [SchedPc.focus, if_true]
    exact .single .close

theorem closeSet_ok (closing : s.sched = .closeSet key disposition activeKeys inactiveKeys) :
    Keeps ok limit s { s with
      world := s.world.onState (·.pause key)
      sched := .closeToken key disposition activeKeys inactiveKeys } := by
  have sched := good.sched
  simp only [SchedOk, closing] at sched
  obtain ⟨active, calm, lists⟩ := sched
  obtain ⟨group, token, worker, found, running, staffed⟩ := good.running active
  refine good.running_moves found running staffed
    (World.pause_touches key group.leaderInner.taskId) found running ?_
    (good.inv.closePause active calm) ⟨active, calm, lists⟩ ?_
  · intro k other
    simp [SchedPc.focus, closing, Ne.symm other]
  · rw [closing]
    simp only [SchedPc.focus, if_true]
    exact .single .closeSet

theorem closeToken_ok (closing : s.sched = .closeToken key disposition activeKeys inactiveKeys) :
    Keeps ok limit s { s with
      world := s.world.interruptIf disposition key
      sched := .closing activeKeys inactiveKeys } := by
  have sched := good.sched
  simp only [SchedOk, closing] at sched
  obtain ⟨active, calm, lists⟩ := sched
  obtain ⟨group, token, worker, found, running, staffed⟩ := good.running active
  refine good.running_moves found running staffed
    (World.interruptIf_touches disposition key group.leaderInner.taskId) found
    (congrArg (Option.map _) running) ?_ (World.interruptIf_inv disposition good.inv) ?_ ?_
  · intro k other
    simp [SchedPc.focus, closing, Ne.symm other]
  · simp only [SchedOk, CloseOk, World.mem_interruptIf_active]
    exact lists
  · rw [closing]
    simp only [SchedPc.focus, if_true]
    exact .single .closeToken

theorem closeInactive_ok (inactive : key ∉ s.world.state.active) :
    Keeps ok limit s { s with world := s.world.closeInactive key } := by
  have schedOk : ({ s with world := s.world.closeInactive key } : System).SchedOk := by
    have sched := good.sched
    simp only [SchedOk, CloseOk, World.closeInactive_state] at sched ⊢
    exact sched
  cases found : s.world.state.groups.lookup key with
  | none =>
    have same : s.world.closeInactive key = s.world := by
      simp only [World.closeInactive, found]
    rw [same]
    exact .refl good
  | some group =>
    obtain ⟨event, paused, touched⟩ := World.closeInactive_touches found
    refine good.idle_moves found inactive touched found (keyState_idle inactive) ?_ schedOk ?_
    · rw [World.closeInactive_state]
      exact good.inv
    · exact Relation.ReflTransGen.head (.pauseIdle .close (by simp))
        (TaskSteps.emitIdle paused (by simp))

theorem closeInactives_ok (inactive : ∀ k ∈ inactiveKeys, k ∉ s.world.state.active) :
    Keeps ok limit s { s with world := inactiveKeys.foldl World.closeInactive s.world } := by
  induction inactiveKeys generalizing s with
  | nil => exact .refl good
  | cons key rest ih =>
    have first : Keeps ok limit s _ := closeInactive_ok good (inactive key List.mem_cons_self)
    refine first.trans (ih first.agrees fun k member => ?_)
    simp only [World.closeInactive_state]
    exact inactive k (List.mem_cons_of_mem _ member)

theorem closeLast_ok (closing : s.sched = .closing [] inactiveKeys) :
    Keeps ok limit s { s with
      world := inactiveKeys.foldl World.closeInactive s.world
      phase := .draining
      sched := .idle } := by
  have sched := good.sched
  simp only [SchedOk, closing] at sched
  have reported : Keeps ok limit s _ := closeInactives_ok good sched.2
  refine reported.trans (reported.agrees.quiet rfl rfl (fun k => rfl) rfl (fun k => ?_)
    reported.agrees.inv trivial)
  rw [closing]
  rfl

end Close

theorem stepSched_ok (good : s.Ok limit) (taken : s.stepSched = some t) : Keeps ok limit s t := by
  cases at_ : s.sched with
  | idle => simp only [stepSched, at_, reduceCtorEq] at taken
  | token key kind disposition =>
    simp only [stepSched, at_, Option.some.injEq] at taken
    exact taken ▸ stepToken_ok good at_
  | marks key kind =>
    simp only [stepSched, at_, Option.some.injEq] at taken
    have marked : Keeps ok limit s _ := stepMarks_ok good at_
    exact taken ▸ marked.trans (tryStartNext_ok marked.agrees rfl)
  | closing activeKeys inactiveKeys =>
    cases activeKeys with
    | nil =>
      simp only [stepSched, at_, Option.some.injEq] at taken
      exact taken ▸ closeLast_ok good at_
    | cons key activeKeys =>
      by_cases canceling : key ∈ s.world.state.cancelingSet
      · simp only [stepSched, at_, canceling, if_true, Option.some.injEq] at taken
        exact taken ▸ closeCanceling_ok good at_ canceling
      · simp only [stepSched, at_, canceling, if_false, Option.some.injEq] at taken
        exact taken ▸ closeClaim_ok good at_ canceling
  | closeSet key disposition activeKeys inactiveKeys =>
    simp only [stepSched, at_, Option.some.injEq] at taken
    exact taken ▸ closeSet_ok good at_
  | closeToken key disposition activeKeys inactiveKeys =>
    simp only [stepSched, at_, Option.some.injEq] at taken
    exact taken ▸ closeToken_ok good at_

end RustyCat.System
