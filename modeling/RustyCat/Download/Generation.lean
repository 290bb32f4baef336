import RustyCat.Download.Acceptance
import RustyCat.Download.Bookkeeping

/-!
# One generation for all parts

Any number of attempts at parts share the progress, the handle and the sidecar, and their
calls come in any order.  Still every part is recorded with the digest of a whole body, and
all these bodies were served under one validator.
-/

namespace RustyCat.Download

open Interaction Interaction.Attempt

variable {sha : List UInt8 → Digest} {task : DownloadTask} {index : Nat} {digest : Digest}

/-! ## What a progress records -/

namespace DownloadProgress

variable {p : DownloadProgress}

/-- The part has this digest, committed or not. -/
def Records (p : DownloadProgress) (index : Nat) (digest : Digest) : Prop :=
  p.snapshot.view index = some digest ∨ ⟨index, digest⟩ ∈ p.pending

theorem view_foldl_mark {partCount : Nat} {parts : List PendingPart} {s : Snapshot partCount}
    (inside : ∀ part ∈ parts, part.index < partCount)
    (found : (parts.foldl (fun s part => s.mark part.index part.digest) s).view index =
      some digest) : s.view index = some digest ∨ ⟨index, digest⟩ ∈ parts := by
  induction parts generalizing s with
  | nil => exact .inl found
  | cons part parts ih =>
    obtain ⟨first, inside⟩ := List.forall_mem_cons.mp inside
    rcases ih inside found with earlier | later
    · rw [Snapshot.view_mark first] at earlier
      split at earlier
      · rename_i same
        subst same
        cases earlier
        exact .inr List.mem_cons_self
      · exact .inl earlier
    · exact .inr (List.mem_cons_of_mem _ later)

theorem records_of_committed (records : p.committed.Records index digest) :
    p.Records index digest := by
  unfold committed at records
  split at records
  · exact records
  · rcases records with found | pending
    · exact view_foldl_mark p.pending_lt found
    · cases pending

end DownloadProgress

/-! ## What calls do to the progress -/

/-- From `p` to `q` by these calls: a latched validator stays, and what is recorded anew was
staged. -/
structure Follows (events : List (Event Op Answer)) (p q : DownloadProgress) : Prop where
  layout : q.layout = p.layout
  latch : ∀ v, p.expectedValidator = some v → q.expectedValidator = some v
  records : ∀ index digest, q.Records index digest → p.Records index digest ∨
    ∃ offset answer, ⟨.stage offset digest, answer⟩ ∈ events ∧ p.layout.indexOf offset = some index

variable {w w' : World} {events rest : List (Event Op Answer)} {p q r : DownloadProgress}

theorem Follows.refl : Follows events p p :=
  ⟨rfl, fun _ latched => latched, fun _ _ records => .inl records⟩

theorem Follows.append (first : Follows events p q) (later : Follows rest q r) :
    Follows (events ++ rest) p r := by
  constructor
  · exact later.layout.trans first.layout
  · intro v latched
    exact later.latch v (first.latch v latched)
  · intro index digest records
    rcases later.records index digest records with before | ⟨offset, answer, member, place⟩
    · rcases first.records index digest before with before | ⟨offset, answer, member, place⟩
      · exact .inl before
      · exact .inr ⟨offset, answer, List.mem_append_left _ member, place⟩
    · exact .inr ⟨offset, answer, List.mem_append_right _ member, first.layout ▸ place⟩

theorem follows_of_stage {offset : Nat} {elapsed : Bool}
    (now : (w.stage offset digest elapsed).2.progress = some q) (answer) :
    ∃ p, w.progress = some p ∧ Follows [⟨.stage offset digest, answer⟩] p q := by
  simp only [World.stage] at now
  split at now
  · exact ⟨q, now, .refl⟩
  rename_i p found
  refine ⟨p, found, ?_⟩
  obtain ⟨-, error⟩ | ⟨index, place, ⟨-, same⟩ | ⟨-, -, same⟩ | ⟨-, -, inside, outcome, armed,
    staged, -⟩⟩ := p.stageDoneWithDigestDeferred_cases offset digest elapsed
  · simp only [error] at now
    cases found.symm.trans now
    exact .refl
  · simp only [same] at now
    cases now
    exact .refl
  · simp only [same] at now
    cases now
    exact .refl
  · simp only [staged] at now
    cases now
    refine ⟨rfl, fun _ latched => latched, fun other stored records => ?_⟩
    rcases records with done | pending
    · exact .inl (.inl done)
    · rcases List.mem_append.mp pending with earlier | new
      · exact .inl (.inr earlier)
      · cases List.mem_singleton.mp new
        exact .inr ⟨offset, answer, List.mem_singleton_self _, place⟩

theorem follows_of_acts {event : Event Op Answer} (acted : w.Acts sha event w')
    (now : w'.progress = some q) : ∃ p, w.progress = some p ∧ Follows [event] p q := by
  obtain ⟨op, answer⟩ := event
  cases op with
  | latch actual required mode =>
    simp only [World.Acts] at acted
    split at acted
    · rename_i after ok
      obtain ⟨-, rfl⟩ := acted
      obtain ⟨p, found, -, rfl⟩ := validateOrLatchRangeValidator_eq_ok.mp ok
      cases now
      exact ⟨p, found, rfl, fun v latched => by simp [DownloadProgress.latched, latched],
        fun _ _ records => .inl records⟩
    · obtain ⟨-, rfl⟩ := acted
      exact ⟨q, now, .refl⟩
  | stage offset digest =>
    obtain ⟨elapsed, acted⟩ := acted
    obtain ⟨-, rfl⟩ := Prod.mk.inj acted
    exact follows_of_stage now answer
  | beginCheckpoint =>
    simp only [World.Acts] at acted
    split at acted
    · obtain ⟨-, rfl⟩ := acted
      exact ⟨q, now, .refl⟩
    · rename_i p found
      obtain ⟨-, rfl⟩ := acted
      cases now
      exact ⟨p, found, rfl, fun _ latched => latched, fun _ _ records => .inl records⟩
  | commit =>
    cases answer with
    | ok _ =>
      obtain rfl := acted
      obtain ⟨p, found, rfl⟩ := Option.map_eq_some_iff.mp now
      have same : p.committed.layout = p.layout ∧
          p.committed.expectedValidator = p.expectedValidator := by
        unfold DownloadProgress.committed
        split <;> exact ⟨rfl, rfl⟩
      exact ⟨p, found, same.1, fun _ latched => same.2.trans latched,
        fun _ _ records => .inl (DownloadProgress.records_of_committed records)⟩
    | error _ => rcases acted with rfl | rfl <;> exact ⟨q, now, .refl⟩
  | _ =>
    -- the other calls leave the progress alone, or take it away
    refine ⟨q, ?_, .refl⟩
    simp only [World.Acts, World.Settles] at acted
    grind

theorem follows_of_effects (acted : Effects (World.Acts sha) w events w')
    (now : w'.progress = some q) : ∃ p, w.progress = some p ∧ Follows events p q := by
  induction acted with
  | nil => exact ⟨q, now, .refl⟩
  | cons first _ ih =>
    obtain ⟨m, middle, rest⟩ := ih now
    obtain ⟨p, found, one⟩ := follows_of_acts first middle
    exact ⟨p, found, one.append rest⟩

/-- The validator of every response that was let pass is the latched one, from then on. -/
theorem latched_of_effects {actual : Option Text} {mode : String}
    (acted : Effects (World.Acts sha) w events w') (now : w'.progress = some q)
    (admitted : ⟨.latch actual true mode, .ok ()⟩ ∈ events) :
    ∃ v, actual = some v ∧ q.expectedValidator = some v := by
  obtain ⟨before, after, rfl⟩ := List.append_of_mem admitted
  obtain ⟨middle, -, rest⟩ := acted.of_append
  cases rest with
  | cons latched later =>
    obtain ⟨p, found, follows⟩ := follows_of_effects later now
    simp only [World.Acts] at latched
    split at latched
    · rename_i ok
      obtain ⟨-, rfl⟩ := latched
      obtain ⟨start, -, admits, rfl⟩ := validateOrLatchRangeValidator_eq_ok.mp ok
      cases found
      have passed : ∃ v, actual = some v ∧ (start.latched actual).expectedValidator = some v := by
        cases known : start.expectedValidator <;>
          simp_all [LatchAdmits, DownloadProgress.latched, Option.isSome_iff_exists]
      obtain ⟨v, same, latched⟩ := passed
      exact ⟨v, same, follows.latch v latched⟩
    · cases latched.1

/-! ## What an attempt stages -/

def Op.unstaged : Op → Bool
  | .stage _ _ => false
  | _ => true

theorem unstaged_of_quiet {op : Op} (quiet : op.quiet = true) : op.unstaged = true := by
  cases op with
  | stage => cases quiet
  | _ => rfl

theorem only_buildRequest (rangeValue : Text) (base : HeaderMap) :
    Program.Only (·.unstaged) (buildDownloadRangeRequest rangeValue base).run :=
  only_bind (only_ask rfl) fun _ => only_bind (only_result _) fun _ => only_bind (only_ask rfl)
    fun _ => only_bind (only_ask rfl) fun _ => only_bind (only_result _) fun _ => only_pure _

theorem only_writeAndStage (offset : Nat) (body : List UInt8) (digest : Digest) :
    Program.Only (fun op => op.unstaged ∨ op = .stage offset digest)
      (writeAndStageDownloadPart task offset body digest).run := by
  refine .bind (.perform (.inl rfl)) fun _ => .bind ?_ fun _ =>
    .bind (.perform (.inl rfl)) fun _ => .done _
  refine only_bind (only_result _) fun partEnd => only_bind ?_ fun _ =>
    only_bind (only_ask (.inr rfl)) fun outcome => ?_
  · refine .bind (.perform (.inl rfl)) fun present => .bind ?_ fun _ =>
      .bind (.perform (.inl rfl)) fun _ => .done _
    split
    · refine only_bind (only_ask (.inl rfl)) fun fileLen => ?_
      split
      · exact only_throw _
      · exact only_bind (only_ask (.inl rfl)) fun _ => only_bind (only_ask (.inl rfl)) fun _ =>
          only_ask (.inl rfl)
    · exact only_throw _
  · split
    · exact ⟨fun events op called =>
        .inl (unstaged_of_quiet (quiet_checkpointLockedDownloadTarget.calls events op called))⟩
    split
    · exact only_bind (only_ask (.inl rfl)) fun _ => only_pure _
    · exact only_pure _

/-- The response is the part, from the first byte to the last. -/
structure Serves (part : RangePart) (response : Response) : Prop where
  head : AdmitsHead part response
  ended : response.failure = none
  whole : response.chunks.flatten.length = part.len

theorem staged_of_run {part : RangePart} {offset : Nat} {answer} {q}
    (run : Program.Run (downloadOneChunkPartPositioned sha task part).run events q)
    (member : ⟨.stage offset digest, answer⟩ ∈ events) :
    offset = part.offset ∧ ∃ url headers response, ⟨.send url headers, .ok response⟩ ∈ events ∧
      ⟨.latch (downloadGenerationValidator response.headers) (part.total > part.chunkSize)
        "parallel", .ok ()⟩ ∈ events ∧
      Serves part response ∧ digest = sha response.chunks.flatten := by
  have later : ¬ (Op.stage offset digest).unstaged := by simp [Op.unstaged]
  unfold downloadOneChunkPartPositioned at run
  split at run
  · cases run
    cases member
  rename_i inside
  obtain ⟨_, ⟨url, headers⟩, _, rfl, -, run, member⟩ :=
    run_after (only_buildRequest _ _) run member later
  obtain ⟨_, response, _, all, sent, run, member⟩ :=
    run_after (P := (·.unstaged)) (only_ask rfl) run member later
  obtain ⟨_, rfl, rfl⟩ := returns_ask.mp sent
  obtain ⟨_, len, _, checked, head, run, member⟩ :=
    run_after (P := (·.unstaged)) (only_result _) run member later
  obtain ⟨rfl, admits⟩ := returns_result.mp head
  obtain ⟨_, _, _, rest, latched, run, member⟩ :=
    run_after (P := (·.unstaged)) (only_ask rfl) run member later
  obtain ⟨_, rfl, rfl⟩ := returns_ask.mp latched
  obtain ⟨_, _, _, -, -, run, member⟩ :=
    run_after (P := (·.unstaged)) (only_result _) run member later
  obtain ⟨_, unreserved, _, -, -, run, member⟩ :=
    run_after (P := (·.unstaged)) (only_ask rfl) run member later
  cases unreserved with
  | some error =>
    cases run
    cases member
  | none =>
    obtain ⟨_, body, _, -, received, run, member⟩ :=
      run_after (P := (·.unstaged)) (only_result _) run member later
    split at run
    · cases run
      cases member
    rename_i whole
    rcases (only_bind (only_writeAndStage _ _ _) fun _ => only_pure _).of_run run _ member with
      unstaged | same
    · exact absurd unstaged later
    obtain ⟨rfl, ended⟩ := positionedLoop_eq_ok (returns_result.mp received).2
    obtain ⟨accepted, rfl⟩ := (positionedHead_eq_ok (Nat.lt_of_not_le inside)).mp admits
    cases same
    exact ⟨rfl, url, headers, response, by simp [all], by simp [all, checked, rest],
      ⟨accepted, ended, not_not.mp whole⟩, rfl⟩

/-! ## Attempts side by side -/

def Layout.rangePart (layout : Layout) (offset : Nat) : RangePart :=
  ⟨offset, layout.chunk, layout.total, layout.total_le, layout.chunk_pos⟩

/-- Attempts at the parts at these offsets, each with its calls in order, and others who do
anything but stage, all on one world. -/
structure Attempts (sha : List UInt8 → Digest) (task : DownloadTask) (layout : Layout)
    (offsets : Nat → Nat) (start : World) (turns : List (Option Nat × Event Op Answer))
    (w : World) : Prop where
  runs : ∀ i, ∃ q, Program.Run
    (downloadOneChunkPartPositioned sha task (layout.rangePart (offsets i))).run
    ((turns.filter (·.1 = some i)).map Prod.snd) q
  others : ∀ event, (none, event) ∈ turns → event.op.unstaged = true
  acted : Effects (World.Acts sha) start (turns.map Prod.snd) w

/-- However the attempts at the parts of a file are interleaved, retried and checkpointed: the
digest of a part was there before, or it is that of a whole response for this part with the
validator that is latched, and a latch from before stays.  Content that is found valid has
these digests. -/
theorem one_generation {first : DownloadProgress} {offsets : Nat → Nat} {start : World}
    {turns : List (Option Nat × Event Op Answer)}
    (attempts : Attempts sha task first.layout offsets start turns w)
    (begun : start.progress = some first) (now : w.progress = some p)
    (several : first.layout.total > first.layout.chunk) :
    p.layout = first.layout ∧
    (∀ v, first.expectedValidator = some v → p.expectedValidator = some v) ∧
    (∀ index digest, p.Records index digest → first.Records index digest ∨
      ∃ i url headers response v, (some i, ⟨.send url headers, .ok response⟩) ∈ turns ∧
        first.layout.indexOf (offsets i) = some index ∧
        Serves (first.layout.rangePart (offsets i)) response ∧
        downloadGenerationValidator response.headers = some v ∧ p.expectedValidator = some v ∧
        digest = sha response.chunks.flatten) ∧
    (p.allDone = true → p.validatesContent sha w.target.content = true →
      w.target.content.length = p.layout.total ∧ ∀ index < p.layout.partCount,
        p.Records index (sha (Blocks.slice w.target.content
          (p.layout.partStart index) (p.layout.partEnd index)))) := by
  obtain ⟨before, found, follows⟩ := follows_of_effects attempts.acted now
  cases begun.symm.trans found
  refine ⟨follows.layout, follows.latch, fun index digest records => ?_, fun all valid => ?_⟩
  · rcases follows.records index digest records with earlier | ⟨offset, answer, staged, place⟩
    · exact .inl earlier
    obtain ⟨⟨who, _⟩, turn, rfl⟩ := List.mem_map.mp staged
    -- only an attempt stages
    cases who with
    | none => cases attempts.others _ turn
    | some i =>
      obtain ⟨q, run⟩ := attempts.runs i
      have own {event : Event Op Answer} :
          event ∈ (turns.filter (·.1 = some i)).map Prod.snd ↔ (some i, event) ∈ turns := by simp
      obtain ⟨rfl, url, headers, response, sent, latched, serves, rfl⟩ :=
        staged_of_run run (own.mpr turn)
      rw [own, Layout.rangePart, decide_eq_true several] at latched
      obtain ⟨v, strong, latch⟩ :=
        latched_of_effects attempts.acted now (List.mem_map_of_mem latched)
      exact .inr ⟨i, url, headers, response, v, own.mp sent, place, serves, strong, latch, rfl⟩
  · simp only [DownloadProgress.validatesContent, decide_eq_true_eq, List.all_eq_true,
      List.mem_range] at valid
    refine ⟨valid.1, fun index inside => .inl ?_⟩
    have done := List.all_eq_true.mp all index (List.mem_range.mpr inside)
    rw [← Snapshot.isSome_view inside] at done
    obtain ⟨digest, stored⟩ := Option.isSome_iff_exists.mp done
    have same := valid.2 index inside
    rw [stored] at same
    rw [stored, of_decide_eq_true same]

/-- One attempt, up to its last call. -/
theorem one_generation_sample :
    ∃ turns w p, Attempts (fun _ => .zero) ⟨"target", []⟩ sampleLayout (fun _ => 0) sampleStart
      turns w ∧ w.progress = some p ∧ p.pending = [⟨0, .zero⟩] ∧
      ∃ v, p.expectedValidator = some v := by
  let program := (downloadOneChunkPartPositioned (fun _ => .zero) ⟨"target", []⟩ samplePart).run
  let events := (program.drive sampleAnswer 16).1
  have acted : ∃ w, Effects (World.Acts fun _ => .zero) sampleStart events w ∧
      ∃ p, w.progress = some p ∧ p.pending = [⟨0, .zero⟩] :=
    ⟨_, .cons ⟨rfl, rfl⟩ <| .cons rfl <| .cons rfl <| .cons rfl <|
      .cons ⟨rfl, rfl⟩ <| .cons rfl <| .cons rfl <| .cons rfl <| .cons rfl <|
      .cons ⟨_, ⟨_, 0, .inl rfl, rfl⟩, rfl⟩ <| .cons rfl <| .cons rfl <| .cons rfl <|
      .cons ⟨false, rfl⟩ <| .cons rfl <| .cons rfl <| .nil _, _, rfl, rfl⟩
  obtain ⟨w, acted, p, now, pending⟩ := acted
  have attempts : Attempts (fun _ => .zero) ⟨"target", []⟩
      (DownloadProgress.fresh sampleLayout).layout (fun _ => 0) sampleStart
      (events.map (some 0, ·)) w := by
    refine ⟨fun i => ?_, by simp, by simpa [Function.comp_def] using acted⟩
    obtain rfl | other := eq_or_ne 0 i
    · refine ⟨(program.drive sampleAnswer 16).2, ?_⟩
      simp only [List.filter_map, Function.comp_def, decide_true, List.filter_true, List.map_map,
        List.map_id']
      exact program.run_drive sampleAnswer 16
    · refine ⟨program, ?_⟩
      simp only [List.filter_map, Function.comp_def, Option.some.injEq, other, decide_false,
        List.filter_false, List.map_nil]
      exact .start _
  obtain ⟨-, -, source, -⟩ := one_generation attempts rfl now (by decide)
  refine ⟨_, w, p, attempts, now, pending, ?_⟩
  obtain (done | early) | ⟨_, _, _, _, v, _, _, _, _, latch, _⟩ :=
    source 0 .zero (.inr (by simp [pending]))
  · cases done
  · cases early
  · exact ⟨v, latch⟩

end RustyCat.Download
