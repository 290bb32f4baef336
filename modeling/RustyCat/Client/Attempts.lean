import RustyCat.Client.Law
import RustyCat.Lib.ListCount

/-!
# Close attempts

At most one attempt runs, only while the lifecycle is `closing`; whoever may call the
close of an executor again knows whether it is complete; at most one close call ends
with `Ok`.
-/

namespace RustyCat.ClientState

open Function

variable {s t : ClientState}

variable {executor : ExecutorState} {kind : ExecutorKind} {attempt : Attempt} {index : Nat}
  {progress : ExecutorKind → Bool} {label : Label}

theorem update_some_cases {executors : ExecutorKind → Option ExecutorState} {other : ExecutorKind}
    {new : ExecutorState} (here : update executors kind (some new) other = some executor) :
    other = kind ∧ new = executor ∨ other ≠ kind ∧ executors other = some executor := by
  by_cases same : other = kind
  · subst same
    rw [update_self, Option.some.injEq] at here
    exact .inl ⟨rfl, here⟩
  · rw [update_of_ne same] at here
    exact .inr ⟨same, here⟩

/-- The attempt knows that the close of the executor is complete. -/
def Attempt.Knows (kind : ExecutorKind) : Attempt → Prop
  | .pounceOnly _ op => kind = .pounce ∧ op = .ended (.ok ())
  | .mixed _ _ progress _ => progress kind = true

/-- What the lifecycle says of an executor whose close is complete. -/
def Known (kind : ExecutorKind) (attempts : List Attempt) : BinaryLifecycle → Prop
  | .opened => False
  | .closing => ∃ attempt ∈ attempts, Attempt.Knows kind attempt
  | .closed => True
  | .closeFailed pounceClosed binaryClosed =>
    match kind with
    | .pounce => pounceClosed = true
    | .binary => binaryClosed = true

/-- What an attempt has learnt from its closes. -/
def Attempt.Honest (executors : ExecutorKind → Option ExecutorState) : Attempt → Prop
  | .pounceOnly _ op =>
    executors .binary = none ∧ ∀ result, op = .joining result → isOk result = true
  | .mixed _ _ progress ops => ∀ kind, ops kind = .ended (.ok ()) → progress kind = true

def okClose (result : Operation × Except MeowError Unit) : Bool :=
  result.1 = .close ∧ isOk result.2

/-- The close calls that have ended or will end with `Ok`. -/
def okCloses (s : ClientState) : Nat :=
  s.published.countP (fun entry => isOk entry.result) +
    s.results.countP okClose

structure Sound (s : ClientState) : Prop where
  one : s.attempts.length ≤ 1
  running : s.attempts ≠ [] → s.lifecycle = .closing
  honest : ∀ attempt ∈ s.attempts, Attempt.Honest s.executors attempt
  known : ∀ kind executor, s.executors kind = some executor → executor.complete = true →
    Known kind s.attempts s.lifecycle
  flag : s.lifecycle = .opened → s.closed = false
  calls : ∀ call ∈ s.closeCalls, call.2 = false
  oks : s.okCloses ≤ if s.lifecycle = .closed then 1 else 0

theorem Sound.only (sound : Sound s) (here : s.attempts[index]? = some attempt) :
    s.attempts = [attempt] ∧ s.lifecycle = .closing ∧ (∀ other, s.attempts.set index other = [other]) ∧
      s.attempts.eraseIdx index = [] := by
  have one := sound.one
  match listed : s.attempts, one with
  | [], _ =>
    rw [listed] at here
    cases here
  | [only], _ =>
    rw [listed] at here
    have first : index = 0 := by
      by_contra other
      rw [List.getElem?_eq_none (Nat.pos_of_ne_zero other)] at here
      cases here
    subst first
    cases here
    exact ⟨rfl, sound.running (by simp [listed]), fun _ => rfl, rfl⟩

theorem Sound.idle (sound : Sound s) (other : s.lifecycle ≠ .closing) : s.attempts = [] := by
  by_contra some
  exact other (sound.running some)

theorem noteEnded_of_true {other : ExecutorKind} {op : CloseOp} (known : progress other = true) :
    s.noteEnded kind op progress other = true := by
  unfold noteEnded
  split
  · split
    · by_cases same : other = kind
      · rw [same, update_self]
      · rw [update_of_ne same, known]
    · exact known
  · exact known

theorem noteEnded_of_ok :
    s.noteEnded kind (.ended (.ok ())) progress kind = true := by
  unfold noteEnded
  simp [isOk]

theorem noteEnded_of_complete {result : Except MeowError Unit}
    (here : s.executors kind = some executor) (complete : executor.complete = true) :
    s.noteEnded kind (.ended result) progress kind = true := by
  unfold noteEnded
  simp [here, complete]

/-! ## One attempt -/

theorem Sound.one_step (sound : Sound s) (step : Step s label t) :
    t.attempts.length ≤ 1 := by
  have one := sound.one
  cases step with
  | retried failed =>
    have none := sound.idle (by simp [failed])
    simp [none]
  | beganMixed gate | beganPounceOnly gate _ =>
    have none := sound.idle (by simp [gate])
    simp [none]
  | spawned _ | skippedPounce _ _ | skipped _ | movedPounce _ _ _ _ | moved _ _ _ _ =>
    rw [List.length_set]
    exact one
  | publishedPounce here | published here _ _ _ =>
    exact Nat.le_trans (List.length_eraseIdx_le _ _) one
  | dropped => exact Nat.le_trans (List.length_filter_le _ _) one
  | _ => exact one

theorem Sound.running_step (sound : Sound s) (step : Step s label t) :
    t.attempts ≠ [] → t.lifecycle = .closing := by
  have running := sound.running
  cases step with
  | retried _ | beganMixed _ | beganPounceOnly _ _ => exact fun _ => rfl
  | spawned here | skippedPounce here _ | skipped here | movedPounce here _ _ _
    | moved here _ _ _ => exact fun _ => (sound.only here).2.1
  | publishedPounce here | published here _ _ _ =>
    exact fun some => absurd (sound.only here).2.2.2 some
  | dropped =>
    refine fun some => running fun none => some ?_
    simp [drop, none]
  | _ => exact running

theorem Sound.honest_step (sound : Sound s) (step : Step s label t) :
    ∀ attempt ∈ t.attempts, Attempt.Honest t.executors attempt := by
  have honest := sound.honest
  cases step with
  | quiet _ _ _ _ _ | delivered _ => exact honest
  | used _ _ _ gate _ _ | admitted _ _ gate _ _ _ _ =>
    simp [sound.idle (by simp [gate])]
  | retried failed =>
    rw [sound.idle (by simp [failed])]
    rintro attempt member
    rw [List.mem_singleton.mp member]
    exact nofun
  | beganMixed gate =>
    rw [sound.idle (by simp [gate])]
    rintro attempt member
    rw [List.mem_singleton.mp member]
    exact nofun
  | beganPounceOnly gate alone =>
    rw [sound.idle (by simp [gate])]
    rintro attempt member
    rw [List.mem_singleton.mp member]
    exact ⟨alone, nofun⟩
  | spawned here =>
    rw [(sound.only here).2.2.1]
    rintro attempt member
    rw [List.mem_singleton.mp member]
    have before := honest _ (List.mem_of_getElem? here)
    exact before
  | skippedPounce here _ =>
    rw [(sound.only here).2.2.1]
    rintro attempt member
    rw [List.mem_singleton.mp member]
    exact ⟨(honest _ (List.mem_of_getElem? here)).1, nofun⟩
  | @skipped _ _ _ progress ops kind here =>
    rw [(sound.only here).2.2.1]
    rintro attempt member
    rw [List.mem_singleton.mp member]
    intro other ended
    by_cases same : other = kind
    · rw [same, update_self]
    · rw [update_of_ne same] at ended ⊢
      exact honest _ (List.mem_of_getElem? here) other ended
  | movedPounce here _ move _ =>
    rw [(sound.only here).2.2.1]
    rintro attempt member
    rw [List.mem_singleton.mp member]
    refine ⟨?_, fun result joining => move.joins result joining rfl⟩
    have alone := (honest _ (List.mem_of_getElem? here)).1
    simpa [setExecutor] using alone
  | @moved _ _ _ progress ops kind op' _ _ _ here _ _ _ =>
    rw [(sound.only here).2.2.1]
    rintro attempt member
    rw [List.mem_singleton.mp member]
    intro other ended
    by_cases same : other = kind
    · subst same
      rw [update_self] at ended
      rw [ended]
      exact noteEnded_of_ok
    · rw [update_of_ne same] at ended
      exact noteEnded_of_true (honest _ (List.mem_of_getElem? here) other ended)
  | publishedPounce here | published here _ _ _ =>
    intro attempt member
    exact absurd ((sound.only here).2.2.2 ▸ member) List.not_mem_nil
  | dropped => exact fun attempt member => honest attempt (List.mem_filter.mp member).1
  | @gone _ kind executor here =>
    intro attempt member
    have before := honest attempt member
    cases attempt with
    | pounceOnly caller op =>
      have other : ExecutorKind.binary ≠ kind := by
        rintro rfl
        rw [before.1] at here
        cases here
      exact ⟨(update_of_ne other _ _).trans before.1, before.2⟩
    | mixed caller spawned progress ops => exact before

/-! ## What is known of the executors -/

theorem Known.knows (known : Known kind s.attempts s.lifecycle) (closing : s.lifecycle = .closing)
    (only : s.attempts = [attempt]) : Attempt.Knows kind attempt := by
  rw [closing, only] at known
  obtain ⟨other, member, knows⟩ := known
  exact List.mem_singleton.mp member ▸ knows

theorem known_of_knows (closing : s.lifecycle = .closing) (member : attempt ∈ s.attempts)
    (knows : Attempt.Knows kind attempt) : Known kind s.attempts s.lifecycle := by
  rw [closing]
  exact ⟨attempt, member, knows⟩

theorem Known.of_kept {attempts kept : List Attempt} {lifecycle : BinaryLifecycle}
    (known : Known kind attempts lifecycle)
    (stay : ∀ attempt ∈ attempts, Attempt.Knows kind attempt → attempt ∈ kept) :
    Known kind kept lifecycle := by
  cases lifecycle with
  | closing =>
    obtain ⟨attempt, member, knows⟩ := known
    exact ⟨attempt, stay attempt member knows, knows⟩
  | opened | closed | closeFailed _ _ => exact known

theorem Sound.incomplete (sound : Sound s) (gate : s.lifecycle = .opened)
    (here : s.executors kind = some executor) :
    executor.complete = false := by
  by_contra complete
  have known := sound.known kind executor here (by simpa using complete)
  rw [gate] at known
  exact known

theorem Sound.incomplete_grown (sound : Sound s) (gate : s.lifecycle = .opened)
    {executors : ExecutorKind → Option ExecutorState} (grown : Grown s.executors executors)
    (here : executors kind = some executor) :
    executor.complete = false := by
  rcases grown kind with same | ⟨_, fresh⟩
  · exact sound.incomplete gate (same ▸ here)
  · rw [fresh] at here
    cases here
    rfl

theorem Sound.progress_of_complete (sound : Sound s) {caller : Nat} {spawned : Bool}
    {ops : ExecutorKind → CloseOp}
    (here : s.attempts[index]? = some (.mixed caller spawned progress ops))
    (found : s.executors kind = some executor)
    (complete : executor.complete = true) : progress kind = true := by
  obtain ⟨only, closing, _, _⟩ := sound.only here
  exact (sound.known kind executor found complete).knows closing only

theorem Sound.ended_of_complete (sound : Sound s) {caller : Nat} {op : CloseOp}
    (here : s.attempts[index]? = some (.pounceOnly caller op))
    (found : s.executors kind = some executor)
    (complete : executor.complete = true) : kind = .pounce ∧ op = .ended (.ok ()) := by
  obtain ⟨only, closing, _, _⟩ := sound.only here
  exact (sound.known kind executor found complete).knows closing only

theorem Sound.known_step (sound : Sound s) (step : Step s label t) :
    ∀ kind executor, t.executors kind = some executor → executor.complete = true →
      Known kind t.attempts t.lifecycle := by
  have known := sound.known
  cases step with
  | quiet _ _ _ _ _ | delivered _ => exact known
  | used _ _ _ gate grown _ =>
    intro kind executor here complete
    rw [sound.incomplete_grown gate grown here] at complete
    cases complete
  | @admitted _ _ operation executors old gate grown found _ _ =>
    intro kind executor here complete
    rcases update_some_cases here with ⟨_, rfl⟩ | ⟨_, before⟩
    · have incomplete := sound.incomplete_grown gate grown found
      exact absurd complete (by simp [incomplete])
    · rw [sound.incomplete_grown gate grown before] at complete
      cases complete
  | retried failed =>
    intro kind executor here complete
    have before := known kind executor here complete
    rw [failed] at before
    refine known_of_knows rfl (List.mem_append_right _ List.mem_cons_self) ?_
    cases kind <;> exact before
  | beganMixed gate | beganPounceOnly gate _ =>
    intro kind executor here complete
    rw [sound.incomplete gate here] at complete
    cases complete
  | spawned here =>
    intro kind executor found complete
    obtain ⟨_, closing, set, _⟩ := sound.only here
    refine known_of_knows closing (by rw [set]; exact List.mem_cons_self) ?_
    have progress := sound.progress_of_complete here found complete
    exact progress
  | skippedPounce here _ =>
    intro kind executor found complete
    cases (sound.ended_of_complete here found complete).2
  | @skipped _ _ _ _ _ kind here =>
    intro other executor found complete
    obtain ⟨_, closing, set, _⟩ := sound.only here
    refine known_of_knows closing (by rw [set]; exact List.mem_cons_self) ?_
    have progress := sound.progress_of_complete here found complete
    rw [Attempt.Knows]
    by_cases same : other = kind
    · rw [same, update_self]
    · rw [update_of_ne same, progress]
  | movedPounce here found move _ =>
    intro kind executor after complete
    obtain ⟨only, closing, set, _⟩ := sound.only here
    refine known_of_knows closing (by rw [set]; exact List.mem_cons_self) ?_
    rcases update_some_cases after with ⟨rfl, rfl⟩ | ⟨other, before⟩
    · rcases move.complete with unchanged | ⟨result, joining, ended⟩
      · rw [unchanged] at complete
        exact absurd (sound.ended_of_complete here found complete).2 (move.live _)
      · have fine := (sound.honest _ (List.mem_of_getElem? here)).2 result joining
        rw [isOk_eq_true.mp fine] at ended
        exact ⟨rfl, ended⟩
    · exact absurd (sound.ended_of_complete here before complete).1 other
  | @moved _ _ _ progress _ kind _ _ executor' _ here found move _ =>
    intro other executor after complete
    obtain ⟨only, closing, set, _⟩ := sound.only here
    refine known_of_knows closing (by rw [set]; exact List.mem_cons_self) ?_
    change (s.setExecutor kind executor').noteEnded kind _ progress other = true
    rcases update_some_cases after with ⟨rfl, rfl⟩ | ⟨_, before⟩
    · rcases move.complete with unchanged | ⟨result, _, ended⟩
      · rw [unchanged] at complete
        exact noteEnded_of_true (sound.progress_of_complete here found complete)
      · rw [ended]
        exact noteEnded_of_complete (update_self ..) complete
    · exact noteEnded_of_true (sound.progress_of_complete here before complete)
  | @publishedPounce _ _ result here =>
    intro kind executor found complete
    have ended := (sound.ended_of_complete here found complete).2
    cases ended
    trivial
  | @published _ _ _ _ progress progress' _ executors _ here freed kept _ =>
    intro kind executor found complete
    have flagged : progress' kind = true := by
      refine kept kind ?_
      rcases freed kind with same | free
      · exact sound.progress_of_complete here (same ▸ found) complete
      · obtain ⟨old, before, rfl⟩ := Option.map_eq_some_iff.mp (free.symm.trans found)
        exact sound.progress_of_complete here before complete
    unfold publishMixedCloseResult
    dsimp only
    split
    · trivial
    · cases kind <;> exact flagged
  | dropped =>
    intro kind executor found complete
    refine (known kind executor found complete).of_kept fun attempt member knows => ?_
    refine List.mem_filter.mpr ⟨member, ?_⟩
    cases attempt with
    | mixed => rfl
    | pounceOnly owner op =>
      rw [knows.2]
      rfl
  | @gone _ kind old here =>
    intro other executor found complete
    rcases update_some_cases found with ⟨rfl, rfl⟩ | ⟨_, before⟩
    · exact known _ old here complete
    · exact known other executor before complete

theorem Sound.flag_step (sound : Sound s) (step : Step s label t) :
    t.lifecycle = .opened → t.closed = false := by
  have flag := sound.flag
  cases step with
  | retried _ | beganMixed _ | beganPounceOnly _ _ => exact nofun
  | @publishedPounce _ _ result _ =>
    unfold publishPounceOnly
    cases result with
    | ok _ => exact nofun
    | error _ => exact fun _ => rfl
  | published _ _ _ _ =>
    unfold publishMixedCloseResult
    dsimp only
    split <;> exact nofun
  | _ => exact flag

theorem Sound.calls_step (sound : Sound s) (step : Step s label t) :
    ∀ call ∈ t.closeCalls, call.2 = false := by
  have calls := sound.calls
  cases step with
  | movedPounce here found _ called =>
    intro call member
    rcases List.mem_append.mp member with old | new
    · exact calls call old
    · rcases called with rfl | ⟨rfl, rfl⟩
      · cases new
      · rw [List.mem_singleton.mp new]
        by_contra complete
        cases (sound.ended_of_complete here found (by simpa using complete)).2
  | moved here found _ called =>
    intro call member
    rcases List.mem_append.mp member with old | new
    · exact calls call old
    · rcases called with rfl | ⟨unknown, rfl⟩
      · cases new
      · rw [List.mem_singleton.mp new]
        by_contra complete
        rw [sound.progress_of_complete here found (by simpa using complete)] at unknown
        cases unknown
  | _ => exact calls

/-! ## Closes that end well -/

theorem countP_okClose_errors {new : List (Operation × Except MeowError Unit)}
    (errors : ∀ result ∈ new, isOk result.2 = false) : new.countP okClose = 0 := by
  rw [List.countP_eq_zero]
  intro result member
  simp [okClose, errors result member]

theorem deliver_results (s : ClientState) (entry : Published) :
    ∃ own, (s.deliver entry).results =
        s.results ++ s.waiting.map (fun _ => (.close, .error clientClosedError)) ++ own ∧
      (own = [] ∨ own = [(.close, entry.result)]) := by
  unfold deliver
  refine ⟨_, rfl, ?_⟩
  split
  · exact .inl rfl
  · exact .inr rfl

theorem deliver_oks (s : ClientState) (entry : Published) :
    (s.deliver entry).results.countP okClose ≤
      s.results.countP okClose + if isOk entry.result then 1 else 0 := by
  obtain ⟨own, results, either⟩ := deliver_results s entry
  have woken : (s.waiting.map fun _ =>
      (Operation.close, (.error clientClosedError : Except MeowError Unit))).countP okClose = 0 := by
    refine countP_okClose_errors fun result member => ?_
    obtain ⟨_, _, rfl⟩ := List.mem_map.mp member
    rfl
  rw [results, List.countP_append, List.countP_append, woken]
  rcases either with rfl | rfl
  · simp
  · simp [okClose]

theorem Sound.oks_step (sound : Sound s) (step : Step s label t) :
    t.okCloses ≤ if t.lifecycle = .closed then 1 else 0 := by
  have oks := sound.oks
  unfold okCloses at oks ⊢
  cases step with
  | quiet _ _ _ new errors =>
    rw [List.countP_append, countP_okClose_errors errors]
    exact oks
  | used _ operation result _ _ other | admitted _ operation _ _ _ _ other =>
    simp only [List.countP_append, List.countP_singleton, okClose, other, false_and,
      decide_false, Bool.false_eq_true, if_false, Nat.add_zero]
    exact oks
  | retried failed =>
    rw [failed, if_neg nofun] at oks
    exact Nat.le_trans oks (Nat.zero_le _)
  | beganMixed gate | beganPounceOnly gate _ =>
    rw [gate, if_neg nofun] at oks
    exact Nat.le_trans oks (Nat.zero_le _)
  | @publishedPounce _ _ result here =>
    rw [(sound.only here).2.1, if_neg nofun] at oks
    simp only [publishPounceOnly, List.countP_append, List.countP_singleton]
    cases result with
    | ok _ =>
      simp only [isOk_ok, if_true]
      omega
    | error _ =>
      simp only [isOk_error, Bool.false_eq_true, if_false]
      omega
  | @published _ _ _ _ progress progress' ops _ result here _ kept both =>
    rw [(sound.only here).2.1, if_neg nofun] at oks
    simp only [publishMixedCloseResult, List.countP_append, List.countP_singleton]
    cases result with
    | ok _ =>
      have flagged : ∀ kind, progress' kind = true := fun kind =>
        kept kind (sound.honest _ (List.mem_of_getElem? here) kind (both rfl kind))
      simp only [flagged, and_self, if_true]
      split <;> omega
    | error _ =>
      simp only [isOk_error, Bool.false_eq_true, if_false]
      omega
  | @delivered _ index entry here =>
    have delivered := deliver_oks { s with published := s.published.eraseIdx index } entry
    have taken := @ListCount.countP_eraseIdx _ (fun entry => isOk entry.result) _ _ _ here
    refine Nat.le_trans ?_ oks
    simp only [deliver] at delivered ⊢
    omega
  | _ => exact oks

theorem Sound.step (sound : Sound s) (step : Step s label t) : Sound t where
  one := sound.one_step step
  running := sound.running_step step
  honest := sound.honest_step step
  known := sound.known_step step
  flag := sound.flag_step step
  calls := sound.calls_step step
  oks := sound.oks_step step

end RustyCat.ClientState
