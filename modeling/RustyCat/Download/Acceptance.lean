import RustyCat.Download.World

/-!
# Which range responses are accepted

The serial and the positioned path take the same responses, and stage a part only after
the whole body of such a response stands in the target.
-/

namespace RustyCat.Download

open Interaction Interaction.Attempt ByteFile

open UploadFile (IoErrorKind fromIo)

/-! ## Heads and latch -/

/-- A path accepts the head of a response: its own checks pass, and then the latch. -/
def Accepts (head : RangePart → Response → Except MeowError Nat) (mode : String)
    (part : RangePart) (slot : Option DownloadProgress) (response : Response) : Prop :=
  ∃ len p, head part response = .ok len ∧
    validateOrLatchRangeValidator slot (downloadGenerationValidator response.headers)
      (part.total > part.chunkSize) mode = .ok p

structure Admits (part : RangePart) (slot : Option DownloadProgress) (response : Response) :
    Prop extends AdmitsHead part response where
  validator : ∃ p, slot = some p ∧ LatchAdmits p.expectedValidator
    (downloadGenerationValidator response.headers) (part.total > part.chunkSize)

theorem accepts_iff {head : RangePart → Response → Except MeowError Nat} {mode : String}
    {part : RangePart} {slot : Option DownloadProgress} {response : Response}
    (checks : ∀ len, head part response = .ok len ↔ AdmitsHead part response ∧ len = part.len) :
    Accepts head mode part slot response ↔ Admits part slot response := by
  simp only [Accepts, checks, validateOrLatchRangeValidator_eq_ok]
  constructor
  · rintro ⟨len, p, ⟨admits, _⟩, before, same, latch, _⟩
    exact ⟨admits, before, same, latch⟩
  · rintro ⟨admits, before, same, latch⟩
    exact ⟨part.len, _, ⟨admits, rfl⟩, before, same, latch, rfl⟩

structure Good (part : RangePart) (start : World) (response : Response) : Prop where
  admits : Admits part start.progress response
  ended : response.failure = none
  whole : response.chunks.flatten.length = part.len

/-! ## What a part download leaves alone -/

/-- Nothing was staged, and of the progress at most the latch has changed. -/
structure Unstaged (start w : World) : Prop where
  staged : w.staged = start.staged
  progress : ∃ validator, w.progress = start.progress.map (·.latched validator)

/-- The part was staged once, with its bytes in place and with their digest. -/
def StagedWhole (sha : List UInt8 → Digest) (part : RangePart) (response : Response)
    (start w : World) : Prop :=
  ∃ content, w.staged = start.staged ++ [⟨part.offset, sha response.chunks.flatten, content⟩] ∧
    Blocks.slice content part.offset part.stop = response.chunks.flatten

/-- What stood below the bound still stands there, and no write is on its way to it. -/
structure Kept (bound : Nat) (start w : World) : Prop where
  below : AgreeBelow bound start.target.content w.target.content
  ready : w.target.unflushed = [] ∨ bound ≤ w.target.cursor

variable {sha : List UInt8 → Digest} {task : DownloadTask} {part : RangePart}
  {response : Response} {start w w' : World} {bound : Nat}

theorem Unstaged.refl (start : World) : Unstaged start start := by
  refine ⟨rfl, none, ?_⟩
  cases same : start.progress with
  | none => rfl
  | some p => simp [DownloadProgress.latched_eq_self]

theorem Kept.settles (kept : Kept bound start w) {data : List UInt8}
    (place : data = [] ∨ bound ≤ w.target.cursor) (settled : w.Settles data w') :
    Kept bound start w' ∧ w'.target.unflushed = [] ∧ w'.progress = w.progress ∧
      w'.staged = w.staged := by
  obtain ⟨content, cursor, torn, rfl⟩ := settled
  refine ⟨⟨?_, .inl rfl⟩, rfl, rfl, rfl⟩
  by_cases idle : w.target.unflushed ++ data = []
  · rw [Handle.eq_of_torn idle torn]
    exact kept.below
  · have beyond : bound ≤ w.target.cursor := by
      rcases kept.ready with none | beyond
      · exact place.resolve_left fun empty => idle (by rw [none, empty, List.append_nil])
      · exact beyond
    exact kept.below.trans ((Handle.agreeBelow_of_torn torn).mono beyond)

/-! ## Calls that leave target and staging alone -/

/-- The calls of checkpoints and of the finalization. -/
def Op.quiet : Op → Bool
  | .lockFile | .unlockFile | .syncData | .handleLen | .pathLen | .lockBarrier | .unlockBarrier
  | .armTimer | .beginCheckpoint | .commit | .takeValidated | .deleteSidecar | .releaseFile
  | .releaseLease => true
  | .readLatch | .mergeRangeGetHeaders _ _ | .rangeUrl | .send _ _ | .isDone _ | .latch _ _ _
  | .seek _ | .write _ | .flush | .setLen _ | .reserve _ | .stage _ _ => false

variable {op : Op} {α : Type} {answer : Except IoErrorKind Unit}

theorem quiet_acts (quiet : op.quiet = true) {answer : Answer op}
    (acted : w.Acts sha ⟨op, answer⟩ w') :
    w'.staged = w.staged ∧ (w'.target = w.target ∨ w.Settles [] w') := by
  cases op with
  | syncData =>
    obtain ⟨content, cursor, torn, rfl⟩ := acted
    exact ⟨rfl, .inr ⟨content, cursor, torn, rfl⟩⟩
  | beginCheckpoint =>
    simp only [World.Acts] at acted
    split at acted
    · obtain ⟨_, rfl⟩ := acted
      exact ⟨rfl, .inl rfl⟩
    · obtain ⟨_, rfl⟩ := acted
      exact ⟨rfl, .inl rfl⟩
  | commit =>
    cases answer with
    | ok _ =>
      obtain rfl := acted
      exact ⟨rfl, .inl rfl⟩
    | error _ => obtain rfl | rfl := acted <;> exact ⟨rfl, .inl rfl⟩
  | takeValidated =>
    cases answer with
    | ok _ =>
      obtain ⟨_, _, rfl⟩ := acted
      exact ⟨rfl, .inl rfl⟩
    | error _ =>
      obtain rfl := acted
      exact ⟨rfl, .inl rfl⟩
  | deleteSidecar => obtain rfl | rfl := acted <;> exact ⟨rfl, .inl rfl⟩
  | lockFile | unlockFile | handleLen | pathLen | lockBarrier | unlockBarrier | armTimer
  | releaseFile | releaseLease =>
    obtain rfl := acted
    exact ⟨rfl, .inl rfl⟩
  | readLatch | mergeRangeGetHeaders | rangeUrl | send | isDone | latch | seek | write | flush
  | setLen | reserve | stage => cases quiet

abbrev Quiet {α : Type} (x : Action α) : Prop := Program.Only (·.quiet = true) x.run

theorem quiet_tell (quiet : op.quiet = true) : Quiet (tell op) :=
  only_ask quiet

theorem quiet_withFile {body : Action α} (missing : String) (quiet : Quiet body) :
    Quiet (withFile missing body) := by
  refine .bind (.perform rfl) fun present => .bind ?_ fun result =>
    .bind (.perform rfl) fun _ => .done _
  split
  · exact quiet
  · exact only_throw _

theorem quiet_withBarrier {body : Action α} (quiet : Quiet body) :
    Quiet (withBarrier body) :=
  .bind (.perform rfl) fun _ => .bind quiet fun _ => .bind (.perform rfl) fun _ => .done _

theorem quiet_checkpointLockedDownloadTarget : Quiet checkpointLockedDownloadTarget := by
  refine only_bind (quiet_tell rfl) fun due => ?_
  cases due
  · exact only_pure _
  · exact only_bind (quiet_withFile _ (only_ask rfl)) fun _ =>
      only_ask rfl

theorem quiet_finalizeChecks (task : DownloadTask) (expectedTotal : Nat) :
    Quiet (finalizeChecks task expectedTotal) := by
  refine only_bind quiet_checkpointLockedDownloadTarget fun _ =>
    only_bind (only_ask rfl) fun visibleLen => ?_
  split
  · exact only_throw _
  refine only_bind (only_ask rfl) fun taken => ?_
  cases taken with
  | none => exact only_throw _
  | some progress =>
    dsimp only
    split
    · exact only_throw _
    split
    · exact only_throw _
    · exact only_bind (quiet_tell rfl) fun _ => only_pure _

theorem quiet_finalizeDownloadContent (task : DownloadTask) (expectedTotal : Nat) :
    Quiet (finalizeDownloadContent task expectedTotal) :=
  quiet_withBarrier (.bind (quiet_finalizeChecks task expectedTotal) fun _ =>
    .bind (.perform rfl) fun _ => .bind (.perform rfl) fun _ => .done _)

/-! ## The serial path -/

/-- What holds at every moment of a part download that leaves the bytes below the bound alone. -/
structure PartInv (sha : List UInt8 → Digest) (bound : Nat) (part : RangePart) (response : Response)
    (start w : World) : Prop where
  within : bound ≤ part.offset
  kept : Kept bound start w
  staged : Unstaged start w ∨ Good part start response ∧ StagedWhole sha part response start w

structure PartStaged (sha : List UInt8 → Digest) (bound : Nat) (part : RangePart) (response : Response)
    (start w : World) : Prop where
  within : bound ≤ part.offset
  kept : Kept bound start w
  good : Good part start response
  staged : StagedWhole sha part response start w

theorem PartStaged.inv (done : PartStaged sha bound part response start w) :
    PartInv sha bound part response start w :=
  ⟨done.within, done.kept, .inr ⟨done.good, done.staged⟩⟩

theorem Kept.quiet (kept : Kept bound start w) (quiet : op.quiet = true) {answer : Answer op}
    (acted : w.Acts sha ⟨op, answer⟩ w') : Kept bound start w' := by
  obtain ⟨_, same | settled⟩ := quiet_acts quiet acted
  · exact ⟨same ▸ kept.below, same ▸ kept.ready⟩
  · exact (kept.settles (.inl rfl) settled).1

theorem PartStaged.quiet (done : PartStaged sha bound part response start w)
    (quiet : op.quiet = true) {answer : Answer op} (acted : w.Acts sha ⟨op, answer⟩ w') :
    PartStaged sha bound part response start w' := by
  obtain ⟨content, staged, slice⟩ := done.staged
  exact ⟨done.within, done.kept.quiet quiet acted, done.good, content,
    (quiet_acts quiet acted).1.trans staged, slice⟩

theorem spec_quiet {x : Action α} (quiet : Quiet x) :
    Spec (World.Acts sha) (PartInv sha bound part response start)
      (PartStaged sha bound part response start) x fun _ => PartStaged sha bound part response start := by
  have spec : Spec (World.Acts sha) (PartStaged sha bound part response start)
      (PartStaged sha bound part response start) x fun _ _ => True :=
    spec_of_only quiet fun _ _ _ _ isQuiet done acted => done.quiet isQuiet acted
  exact (spec_within spec (fun _ _ done => done) fun _ done => done.inv).weaken
    (fun _ _ holds => holds) fun value _ _ holds => by
      cases value with
      | error e => trivial
      | ok value => exact holds.1

theorem Unstaged.of_eq (unstaged : Unstaged start w) (progress : w'.progress = w.progress)
    (staged : w'.staged = w.staged) : Unstaged start w' := by
  obtain ⟨validator, latched⟩ := unstaged.progress
  exact ⟨staged.trans unstaged.staged, validator, progress.trans latched⟩

section

variable (inv : PartInv sha bound part response start w) (unstaged : Unstaged start w)
include inv unstaged

theorem PartInv.settles {data : List UInt8} (place : data = [] ∨ bound ≤ w.target.cursor)
    (settled : w.Settles data w') :
    PartInv sha bound part response start w' ∧ Unstaged start w' ∧ w'.target.unflushed = [] := by
  obtain ⟨kept, flushed, progress, staged⟩ := inv.kept.settles place settled
  have still := unstaged.of_eq progress staged
  exact ⟨⟨inv.within, kept, .inl still⟩, still, flushed⟩

theorem PartInv.seek {offset : Nat} (place : bound ≤ offset)
    (acted : w.Acts sha ⟨.seek offset, answer⟩ w') :
    PartInv sha bound part response start w' ∧ Unstaged start w' ∧
      (answer = .ok () → w'.target.cursor = offset ∧ w'.target.unflushed = []) := by
  cases answer with
  | error e =>
    obtain ⟨after, still, _⟩ := inv.settles unstaged (.inl rfl) acted
    exact ⟨after, still, nofun⟩
  | ok _ =>
    obtain ⟨middle, settled, rfl⟩ := acted
    obtain ⟨after, still, flushed⟩ := inv.settles unstaged (.inl rfl) settled
    have moved : Unstaged start { middle with target.cursor := offset } := still.of_eq rfl rfl
    exact ⟨⟨inv.within, ⟨after.kept.below, .inr place⟩, .inl moved⟩, moved, fun _ => ⟨rfl, flushed⟩⟩

theorem PartInv.setLen (acted : w.Acts sha ⟨.setLen part.offset, answer⟩ w') :
    PartInv sha bound part response start w' ∧ Unstaged start w' := by
  cases answer with
  | error e =>
    obtain ⟨after, still, _⟩ := inv.settles unstaged (.inl rfl) acted
    exact ⟨after, still⟩
  | ok _ =>
    obtain ⟨middle, settled, rfl⟩ := acted
    obtain ⟨after, still, flushed⟩ := inv.settles unstaged (.inl rfl) settled
    have cut : Unstaged start
        { middle with target.content := resize 0 middle.target.content part.offset } :=
      still.of_eq rfl rfl
    exact ⟨⟨inv.within, ⟨after.kept.below.trans (agreeBelow_resize inv.within), .inl flushed⟩,
      .inl cut⟩, cut⟩

end

theorem spec_rollback :
    Spec (World.Acts sha) (PartInv sha bound part response start) (Unstaged start)
      (rollbackDownloadFile part.offset) fun _ => Unstaged start := by
  refine spec_bind (fun _ => Unstaged start)
    (spec_ask fun w answer w' inv unstaged acted => ?_) fun _ =>
      spec_bind (fun _ => Unstaged start)
        (spec_ask fun w answer w' inv unstaged acted => ?_) fun _ =>
          spec_pure fun _ _ still => still
  · obtain ⟨after, still⟩ := inv.setLen unstaged acted
    exact ⟨after, fun _ _ => still⟩
  · obtain ⟨after, still, _⟩ := inv.seek unstaged inv.within acted
    exact ⟨after, fun _ _ => still⟩

theorem spec_rollback_throw (e : MeowError) (ends : α → World → Prop) :
    Spec (World.Acts sha) (PartInv sha bound part response start) (Unstaged start)
      (do rollbackDownloadFile part.offset; throw e : Action α) ends :=
  spec_bind _ spec_rollback fun _ => spec_throw

/-- The bytes that were accepted wait at the beginning of the part. -/
structure Writing (part : RangePart) (start : World) (fed : List UInt8) (w : World) : Prop where
  unstaged : Unstaged start w
  cursor : w.target.cursor = part.offset
  unflushed : w.target.unflushed = fed

theorem PartInv.write (inv : PartInv sha bound part response start w) {fed chunk : List UInt8}
    (writing : Writing part start fed w) (acted : w.Acts sha ⟨.write chunk, answer⟩ w') :
    PartInv sha bound part response start w' ∧ Unstaged start w' ∧
      (answer = .ok () → Writing part start (fed ++ chunk) w') := by
  have place : bound ≤ w.target.cursor := writing.cursor ▸ inv.within
  cases answer with
  | error e =>
    obtain ⟨after, still, _⟩ := inv.settles writing.unstaged (.inr place) acted
    exact ⟨after, still, nofun⟩
  | ok _ =>
    obtain rfl := acted
    have still : Unstaged start { w with target := w.target.accept chunk } :=
      writing.unstaged.of_eq rfl rfl
    refine ⟨⟨inv.within, ⟨inv.kept.below, .inr place⟩, .inl still⟩, still,
      fun _ => ⟨still, writing.cursor, ?_⟩⟩
    rw [← writing.unflushed]
    rfl

theorem spec_serialLoop {expectedLen : Nat} (chunks : List (List UInt8)) (fed : List UInt8) :
    Spec (World.Acts sha) (PartInv sha bound part response start) (Writing part start fed)
      (serialLoop task part.offset expectedLen response.failure chunks fed)
      fun written w => written = fed ++ chunks.flatten ∧ response.failure = none ∧
        Writing part start written w := by
  induction chunks generalizing fed with
  | nil =>
    unfold serialLoop
    cases ended : response.failure with
    | none =>
      exact spec_pure fun w _ writing => ⟨by simp, rfl, writing⟩
    | some e =>
      dsimp only
      split
      · exact (spec_rollback_throw _ _).weaken (fun _ _ writing => writing.unstaged)
          fun _ _ _ holds => holds
      · exact spec_throw
  | cons chunk rest ih =>
    unfold serialLoop
    split
    · rename_i empty
      rw [List.isEmpty_iff] at empty
      subst empty
      exact ih fed
    · split
      · exact spec_throw
      · split
        · exact (spec_rollback_throw _ _).weaken (fun _ _ writing => writing.unstaged)
            fun _ _ _ holds => holds
        · refine spec_bind (fun answer w => Unstaged start w ∧
            (answer = .ok () → Writing part start (fed ++ chunk) w))
            (spec_ask fun w answer w' inv writing acted => ?_) fun answer => ?_
          · obtain ⟨after, still, next⟩ := inv.write writing acted
            exact ⟨after, by rintro _ ⟨⟩; exact ⟨still, next⟩⟩
          · cases answer with
            | error e =>
              exact (spec_rollback_throw _ _).weaken (fun _ _ holds => holds.1)
                fun _ _ _ holds => holds
            | ok _ =>
              have later := ih (fed ++ chunk)
              rw [List.append_assoc] at later
              exact later.weaken (fun _ _ holds => holds.2 rfl) fun _ _ _ holds => holds

structure Written (part : RangePart) (start : World) (body : List UInt8) (w : World) : Prop where
  unstaged : Unstaged start w
  slice : Blocks.slice w.target.content part.offset (part.offset + body.length) = body
  unflushed : w.target.unflushed = []

theorem PartInv.flush (inv : PartInv sha bound part response start w) {fed : List UInt8}
    (writing : Writing part start fed w) (nonempty : fed ≠ [])
    (acted : w.Acts sha ⟨.flush, answer⟩ w') :
    PartInv sha bound part response start w' ∧ Unstaged start w' ∧
      (answer = .ok () → Written part start fed w') := by
  cases answer with
  | error e =>
    obtain ⟨after, still, _⟩ := inv.settles writing.unstaged (.inl rfl) acted
    exact ⟨after, still, nofun⟩
  | ok _ =>
    obtain rfl := acted
    have content : (w.target.flush 0).content =
        splice 0 w.target.content part.offset fed := by
      simp [Handle.flush, writing.unflushed, writing.cursor, nonempty]
    have still : Unstaged start { w with target := w.target.flush 0 } :=
      writing.unstaged.of_eq rfl rfl
    refine ⟨⟨inv.within, ⟨?_, .inl rfl⟩, .inl still⟩, still, fun _ => ⟨still, ?_, rfl⟩⟩
    · change AgreeBelow _ _ (w.target.flush 0).content
      rw [content]
      exact inv.kept.below.trans (agreeBelow_splice inv.within)
    · change Blocks.slice (w.target.flush 0).content _ _ = _
      rw [content]
      exact slice_splice

theorem spec_ensureDownloadFilePresent {before : World → Prop} (len : Nat) :
    Spec (World.Acts sha) (PartInv sha bound part response start) before
      (ensureDownloadFilePresent task len) fun _ => before := by
  refine spec_bind (fun _ => before)
    (spec_ask fun w answer w' inv holds acted => ?_) fun handleLen =>
      spec_bind (fun _ => before)
        (spec_ask fun w answer w' inv holds acted => ?_) fun visibleLen => ?_
  · obtain rfl := acted
    exact ⟨inv, fun _ _ => holds⟩
  · obtain rfl := acted
    exact ⟨inv, fun _ _ => holds⟩
  · split
    · exact spec_pure fun _ _ holds => holds
    · exact spec_throw

theorem failing_eq_ok {context : String} {answer : Except IoErrorKind α} {value : α} :
    failing context answer = .ok value ↔ answer = .ok value := by
  cases answer with
  | error e => exact ⟨nofun, nofun⟩
  | ok found => simp [failing, Except.mapError]

theorem spec_seek (context : String) :
    Spec (World.Acts sha) (PartInv sha bound part response start) (Unstaged start)
      (ask (.seek part.offset) (failing context) : Action Unit)
      fun _ => Writing part start [] := by
  refine spec_ask fun w answer w' inv unstaged acted => ?_
  obtain ⟨after, still, placed⟩ := inv.seek unstaged inv.within acted
  refine ⟨after, fun _ ok => ?_⟩
  obtain ⟨cursor, unflushed⟩ := placed (failing_eq_ok.mp ok)
  exact ⟨still, cursor, unflushed⟩

theorem spec_serialWrite :
    Spec (World.Acts sha) (PartInv sha bound part response start) (Unstaged start)
      (serialWrite task part.offset part.len response)
      fun body w => body = response.chunks.flatten ∧ response.failure = none ∧
        body.length = part.len ∧ Written part start body w := by
  refine spec_bind _ (spec_seek _) fun _ =>
    spec_bind _ (spec_serialLoop response.chunks []) fun fed =>
      spec_of_pure fun all => spec_of_pure fun ended => ?_
  split
  · exact spec_throw
  rename_i nonempty
  split
  · exact (spec_rollback_throw _ _).weaken (fun _ _ writing => writing.unstaged)
      fun _ _ _ holds => holds
  · rename_i whole
    refine spec_bind (fun _ => Writing part start fed)
      (spec_result fun _ _ _ _ writing => writing) fun next =>
        spec_bind (fun answer w => Unstaged start w ∧
          (answer = .ok () → Written part start fed w))
          (spec_ask fun w answer w' inv writing acted => ?_) fun answer => ?_
    · have some : fed ≠ [] := fun none => nonempty (by rw [none]; rfl)
      obtain ⟨after, still, next⟩ := inv.flush writing some acted
      exact ⟨after, by rintro _ ⟨⟩; exact ⟨still, next⟩⟩
    · cases answer with
      | error e =>
        exact (spec_rollback_throw _ _).weaken (fun _ _ holds => holds.1)
          fun _ _ _ holds => holds
      | ok _ =>
        refine spec_bind _ (spec_ensureDownloadFilePresent _) fun _ =>
          spec_pure fun w _ holds => ?_
        exact ⟨by simpa using all, ended, not_not.mp whole, holds.2 rfl⟩

/-! ### The steps of the serial path -/

theorem triple_inert {always before : World → Prop}
    (inert : ∀ w answer w', World.Acts sha w ⟨op, answer⟩ w' → w' = w) :
    Triple (World.Acts sha) always before (call op) fun _ => before :=
  Triple.perform fun w answer w' kept holds acted => by
    obtain rfl := inert w answer w' acted
    exact ⟨kept, holds⟩

variable {always before : World → Prop} {ends : α → World → Prop} {body : Action α}

theorem spec_withFile (missing : String)
    (spec : Spec (World.Acts sha) always before body ends) :
    Spec (World.Acts sha) always before (withFile missing body) ends := by
  refine Triple.bind _ (triple_inert fun _ _ _ same => same) fun present =>
    Triple.bind (OnOk ends) ?_ fun result =>
      Triple.bind _ (triple_inert fun _ _ _ same => same) fun _ => Triple.done fun _ _ holds => holds
  split
  · exact spec
  · exact spec_throw

theorem spec_withBarrier (spec : Spec (World.Acts sha) always before body ends) :
    Spec (World.Acts sha) always before (withBarrier body) ends :=
  Triple.bind _ (triple_inert fun _ _ _ same => same) fun _ => Triple.bind _ spec fun _ =>
    Triple.bind _ (triple_inert fun _ _ _ same => same) fun _ => Triple.done fun _ _ holds => holds

theorem acts_latch {mode : String} (head : AdmitsHead part response)
    {answer : Except MeowError Unit}
    (acted : start.Acts sha ⟨.latch (downloadGenerationValidator response.headers)
      (part.total > part.chunkSize) mode, answer⟩ w') :
    Unstaged start w' ∧ w'.target = start.target ∧
      (answer = .ok () → Admits part start.progress response) := by
  simp only [World.Acts] at acted
  split at acted
  · rename_i p ok
    obtain ⟨_, rfl⟩ := acted
    obtain ⟨before, present, admits, rfl⟩ := validateOrLatchRangeValidator_eq_ok.mp ok
    exact ⟨⟨rfl, downloadGenerationValidator response.headers, by rw [present]; rfl⟩, rfl,
      fun _ => ⟨head, before, present, admits⟩⟩
  · obtain ⟨rfl, rfl⟩ := acted
    exact ⟨.refl _, rfl, nofun⟩

theorem stage_frame (w : World) (offset : Nat) (digest : Digest) (elapsed : Bool) :
    (w.stage offset digest elapsed).2.target = w.target ∧
      (w.stage offset digest elapsed).2.staged =
        w.staged ++ [⟨offset, digest, w.target.content⟩] := by
  simp only [World.stage]
  split
  · exact ⟨rfl, rfl⟩
  · split <;> exact ⟨rfl, rfl⟩

theorem spec_stage (inside : part.offset < part.total) (good : Good part start response) :
    Spec (World.Acts sha) (PartInv sha bound part response start)
      (Written part start response.chunks.flatten)
      (stageDownloadPartDigestLocked part.offset (sha response.chunks.flatten))
      fun _ => PartStaged sha bound part response start := by
  refine spec_bind (fun _ => PartStaged sha bound part response start)
    (spec_ask fun w answer w' inv written acted => ?_) fun outcome => ?_
  · obtain ⟨elapsed, same⟩ := acted
    obtain ⟨_, rfl⟩ := Prod.mk.inj same
    obtain ⟨target, staged⟩ :=
      stage_frame w part.offset (sha response.chunks.flatten) elapsed
    have stop : part.offset + response.chunks.flatten.length = part.stop := by
      rw [good.whole, RangePart.offset_add_len inside]
    have done : PartStaged sha bound part response start
        (w.stage part.offset (sha response.chunks.flatten) elapsed).2 := by
      refine ⟨inv.within, ⟨target ▸ inv.kept.below, target ▸ inv.kept.ready⟩, good,
        w.target.content, ?_, ?_⟩
      · rw [staged, written.unstaged.staged]
      · rw [← stop]
        exact written.slice
    exact ⟨done.inv, fun _ _ => done⟩
  · split
    · exact spec_quiet quiet_checkpointLockedDownloadTarget
    · split
      · exact spec_quiet (only_bind (quiet_tell rfl) fun _ => only_pure _)
      · exact spec_pure fun _ _ done => done

theorem spec_serialReceive (inside : part.offset < part.total) :
    Spec (World.Acts sha) (PartInv sha bound part response start) (· = start)
      (serialReceive sha task part response) fun _ _ => True := by
  refine spec_bind (fun len w => (AdmitsHead part response ∧ len = part.len) ∧ w = start)
    (spec_result fun len w ok _ same => ⟨(serialHead_eq_ok inside).mp ok, same⟩)
    fun len => spec_of_pure fun head => ?_
  obtain ⟨head, rfl⟩ := head
  refine spec_bind
    (fun _ w => Admits part start.progress response ∧ Unstaged start w)
    (spec_ask fun w answer w' inv same acted => ?_) fun _ =>
      spec_of_pure fun admits =>
        spec_bind _ (spec_withFile _ spec_serialWrite) fun body => ?_
  · subst same
    obtain ⟨unstaged, target, admits⟩ := acts_latch head acted
    exact ⟨⟨inv.within, ⟨target ▸ inv.kept.below, target ▸ inv.kept.ready⟩, .inl unstaged⟩,
      fun _ ok => ⟨admits ok, unstaged⟩⟩
  · refine spec_of_pure fun same => spec_of_pure fun ended =>
      spec_of_pure fun whole => ?_
    subst same
    refine spec_bind _
      (spec_withBarrier (spec_stage inside ⟨admits, ended, whole⟩)) fun _ => ?_
    dsimp only
    split
    · exact spec_bind _ (spec_quiet (quiet_finalizeDownloadContent task part.total))
        fun _ => spec_pure fun _ _ _ => trivial
    · exact spec_pure fun _ _ _ => trivial

/-! ## The positioned path -/

theorem positionedLoop_eq_ok {expectedLen : Nat} {failure : Option MeowError}
    {chunks : List (List UInt8)} {received body : List UInt8}
    (ok : positionedLoop expectedLen failure chunks received = .ok body) :
    body = received ++ chunks.flatten ∧ failure = none := by
  induction chunks generalizing received with
  | nil =>
    unfold positionedLoop at ok
    cases failure with
    | none =>
      cases ok
      simp
    | some e => cases ok
  | cons chunk rest ih =>
    unfold positionedLoop at ok
    split at ok
    · rename_i empty
      rw [List.isEmpty_iff] at empty
      subst empty
      exact ih ok
    · split at ok
      · cases ok
      · rw [Result.guard_eq_ok] at ok
        obtain ⟨same, ended⟩ := ih ok.2
        exact ⟨by simp [same], ended⟩

/-- What holds at every moment of a positioned part download. -/
structure PositionedInv (sha : List UInt8 → Digest) (part : RangePart) (response : Response)
    (start w : World) : Prop where
  inv : PartInv sha 0 part response start w
  target : w.target = start.target ∨ Good part start response

theorem spec_writeAndStage (inside : part.offset < part.total)
    (good : Good part start response) :
    Spec (World.Acts sha) (PartInv sha 0 part response start) (Unstaged start)
      (writeAndStageDownloadPart task part.offset response.chunks.flatten
        (sha response.chunks.flatten)) fun _ _ => True := by
  refine spec_withBarrier (spec_bind (fun _ => Unstaged start)
    (spec_result fun _ _ _ _ unstaged => unstaged) fun partEnd =>
      spec_bind (fun _ => Written part start response.chunks.flatten)
        (spec_withFile _ ?_) fun _ =>
          (spec_stage inside good).weaken (fun _ _ written => written)
            fun value _ _ _ => by cases value <;> trivial)
  refine spec_bind (fun _ => Unstaged start)
    (spec_ask fun w answer w' inv unstaged acted => ?_) fun fileLen => ?_
  · obtain rfl := acted
    exact ⟨inv, fun _ _ => unstaged⟩
  · split
    · exact spec_throw
    · refine spec_bind _ (spec_seek _) fun _ =>
        spec_bind (fun _ => Writing part start response.chunks.flatten)
          (spec_ask fun w answer w' inv writing acted => ?_) fun _ =>
            spec_ask fun w answer w' inv writing acted => ?_
      · obtain ⟨after, _, next⟩ := inv.write writing acted
        exact ⟨after, fun _ ok => next (failing_eq_ok.mp ok)⟩
      · have some : response.chunks.flatten ≠ [] := by
          intro none
          have positive := RangePart.len_pos inside
          rw [← good.whole, none] at positive
          exact absurd positive (Nat.lt_irrefl 0)
        obtain ⟨after, _, next⟩ := inv.flush writing some acted
        exact ⟨after, fun _ ok => next (failing_eq_ok.mp ok)⟩

theorem spec_positionedReceive (inside : part.offset < part.total) :
    Spec (World.Acts sha) (PositionedInv sha part response start) (· = start)
      (positionedReceive sha task part response) fun _ _ => True := by
  refine spec_bind (fun len w => (AdmitsHead part response ∧ len = part.len) ∧ w = start)
    (spec_result fun len w ok _ same => ⟨(positionedHead_eq_ok inside).mp ok, same⟩)
    fun len => spec_of_pure fun head => ?_
  obtain ⟨head, rfl⟩ := head
  refine spec_bind
    (fun _ w => Admits part start.progress response ∧ Unstaged start w)
    (spec_ask fun w answer w' inv same acted => ?_) fun _ =>
      spec_of_pure fun admits =>
        spec_bind (fun _ => Unstaged start)
          (spec_result fun _ _ _ _ unstaged => unstaged) fun partEnd =>
            spec_bind (fun _ => Unstaged start)
              (spec_ask fun w answer w' inv unstaged acted => ?_) fun unreserved => ?_
  · subst same
    obtain ⟨unstaged, target, admits⟩ := acts_latch head acted
    exact ⟨⟨⟨inv.inv.within, ⟨target ▸ inv.inv.kept.below, target ▸ inv.inv.kept.ready⟩,
      .inl unstaged⟩, .inl target⟩, fun _ ok => ⟨admits ok, unstaged⟩⟩
  · obtain rfl := acted
    exact ⟨inv, fun _ _ => unstaged⟩
  · cases unreserved with
    | some error => exact spec_throw
    | none =>
      refine spec_bind (fun body w =>
        (body = response.chunks.flatten ∧ response.failure = none) ∧ Unstaged start w)
        (spec_result fun body w ok _ unstaged =>
          ⟨positionedLoop_eq_ok ok, unstaged⟩) fun body => spec_of_pure fun received => ?_
      obtain ⟨rfl, ended⟩ := received
      split
      · exact spec_throw
      rename_i whole
      have good : Good part start response := ⟨admits, ended, not_not.mp whole⟩
      exact spec_bind _
        (spec_within (spec_writeAndStage inside good) (fun _ inv _ => inv.inv)
          fun _ inv => ⟨inv, .inr good⟩) fun _ => spec_pure fun _ _ _ => trivial

/-! ## The acceptance of range responses -/

theorem visible_byteRange {first last : Nat} : ∀ c ∈ byteRange first last, Visible c := by
  have digits (n : Nat) : ∀ c ∈ Ascii.decimal n, Visible c := by
    intro c member
    have digit := Ascii.isDigit_of_mem_decimal member
    simp only [Char.isDigit, ge_iff_le, Bool.and_eq_true, decide_eq_true_eq,
      UInt32.le_iff_toNat_le] at digit
    simp only [Char.reduceVal, UInt32.reduceToNat] at digit
    exact .inl ⟨Nat.le_trans (by decide) digit.1, Nat.lt_of_le_of_lt digit.2 (by decide)⟩
  have word : ∀ c ∈ rangeUnit, Visible c := by decide
  intro c member
  simp only [byteRange, List.mem_append, List.mem_cons] at member
  rcases member with (inWord | inFirst) | rfl | inLast
  · exact word c inWord
  · exact digits first c inFirst
  · decide
  · exact digits last c inLast

theorem getAll_standardRangeGetHeaders {first last : Nat} (accept : Text) (base : HeaderMap) :
    HeaderMap.getAll (standardRangeGetHeaders accept (byteRange first last) base) "range" =
      [(byteRange first last).map fun c => UInt8.ofNat c.toNat] := by
  have set : insertHeader base "range" (byteRange first last) =
      HeaderMap.insert base "range" ((byteRange first last).map fun c => UInt8.ofNat c.toNat) := by
    rw [insertHeader, fromStr_of_visible visible_byteRange]
  rw [standardRangeGetHeaders, set, insertHeader]
  split
  · rw [HeaderMap.getAll_insert_of_ne (by decide), HeaderMap.getAll_insert]
  · rw [HeaderMap.getAll_insert]

/-- Nothing but the part itself is ever staged: after a whole body of an admitted response,
with its bytes in place and with their digest. -/
def StagesOnlyWhole (sha : List UInt8 → Digest) (part : RangePart) (response : Response)
    (start w : World) : Prop :=
  Unstaged start w ∨ Good part start response ∧ StagedWhole sha part response start w

/-- Both paths accept the same heads.  Whatever the body, the calls and the moment, a part is
staged only once its bytes are in place; on any other response the positioned path has
touched nothing, and the serial path nothing below the part. -/
theorem range_response_acceptance (sha : List UInt8 → Digest) (task : DownloadTask)
    (part : RangePart) (inside : part.offset < part.total) (response : Response)
    (start : World) :
    (Accepts serialHead "serial" part start.progress response ↔
      Admits part start.progress response) ∧
    (Accepts positionedHead "parallel" part start.progress response ↔
      Admits part start.progress response) ∧
    rangeSpec part = byteRange part.offset (part.stop - 1) ∧
    (∀ accept base, HeaderMap.getAll (standardRangeGetHeaders accept (rangeSpec part) base)
      "range" = [(byteRange part.offset (part.stop - 1)).map fun c => UInt8.ofNat c.toNat]) ∧
    (∀ events q w, Program.Run (serialReceive sha task part response).run events q →
      Effects (World.Acts sha) start events w →
        StagesOnlyWhole sha part response start w ∧
        (start.target.unflushed = [] ∨ part.offset ≤ start.target.cursor →
          AgreeBelow part.offset start.target.content w.target.content)) ∧
    (∀ events q w, Program.Run (positionedReceive sha task part response).run events q →
      Effects (World.Acts sha) start events w →
        StagesOnlyWhole sha part response start w ∧
        (w.target = start.target ∨ Good part start response)) := by
  have begin_ (bound : Nat) (within : bound ≤ part.offset)
      (ready : start.target.unflushed = [] ∨ bound ≤ start.target.cursor) :
      PartInv sha bound part response start start :=
    ⟨within, ⟨.refl _ _, ready⟩, .inl (.refl start)⟩
  have requested := rangeSpec_eq inside
  refine ⟨accepts_iff fun len => serialHead_eq_ok inside,
    accepts_iff fun len => positionedHead_eq_ok inside, requested,
    fun accept base => ?_, ?_, ?_⟩
  · rw [requested]
    exact getAll_standardRangeGetHeaders accept base
  · intro events q w run acted
    refine ⟨?_, fun ready => ?_⟩
    · have unbounded := begin_ 0 (Nat.zero_le _) (.inr (Nat.zero_le _))
      exact ((spec_serialReceive inside).keeps unbounded rfl run acted).staged
    · have bounded := begin_ part.offset (Nat.le_refl _) ready
      exact ((spec_serialReceive inside).keeps bounded rfl run acted).kept.below
  · intro events q w run acted
    have unbounded := begin_ 0 (Nat.zero_le _) (.inr (Nat.zero_le _))
    have kept := (spec_positionedReceive inside).keeps ⟨unbounded, .inl rfl⟩ rfl run acted
    exact ⟨kept.inv.staged, kept.target⟩

def samplePart : RangePart := ⟨0, 4, 8, sample_total, sample_chunk⟩

def ascii (text : String) : HeaderValue := text.toList.map fun c => UInt8.ofNat c.toNat

def sampleResponse : Response where
  status := 206
  statusText := "206 Partial Content"
  preview := ""
  headers := [("content-range", ascii "bytes 0-3/8"), ("etag", ascii "\"v\"")]
  chunks := [[1, 2], [], [3, 4]]
  failure := none

def sampleStart : World :=
  ⟨some (.fresh sampleLayout), ⟨[0, 0, 0, 0, 0, 0, 0, 0], 0, []⟩, none, []⟩

/-- Every call succeeds, and the part is staged without a checkpoint. -/
def sampleAnswer : (op : Op) → Answer op
  | .readLatch => none
  | .mergeRangeGetHeaders _ base => .ok base
  | .rangeUrl => ""
  | .send _ _ => .ok sampleResponse
  | .isDone _ => false
  | .lockFile => true
  | .beginCheckpoint => false
  | .latch _ _ _ | .releaseFile | .releaseLease => .ok ()
  | .unlockFile | .lockBarrier | .unlockBarrier | .armTimer | .deleteSidecar => ()
  | .seek _ | .write _ | .flush | .setLen _ | .syncData | .commit => .ok ()
  | .handleLen | .pathLen => .ok 8
  | .reserve _ => none
  | .stage _ _ => .ok ⟨false, true⟩
  | .takeValidated => .ok none

def sampleRun : List (Event Op Answer) :=
  (Program.drive sampleAnswer 12
    (positionedReceive (fun _ => Digest.zero) ⟨"target", []⟩ samplePart sampleResponse).run).1

theorem range_response_acceptance_sample :
    samplePart.offset < samplePart.total ∧ Admits samplePart sampleStart.progress sampleResponse ∧
    ∃ w, Effects (World.Acts fun _ => Digest.zero) sampleStart sampleRun w ∧ w.staged ≠ [] ∧
      StagesOnlyWhole (fun _ => Digest.zero) samplePart sampleResponse sampleStart w := by
  have inside : samplePart.offset < samplePart.total := by decide
  obtain ⟨serial, _, _, _, _, positioned⟩ := range_response_acceptance (fun _ => Digest.zero)
    ⟨"target", []⟩ samplePart inside sampleResponse sampleStart
  have acted : ∃ w, Effects (World.Acts fun _ => Digest.zero) sampleStart sampleRun w ∧
      w.staged ≠ [] :=
    ⟨_, .cons ⟨rfl, rfl⟩ <| .cons rfl <| .cons rfl <| .cons rfl <| .cons rfl <|
      .cons ⟨_, ⟨_, 0, .inl rfl, rfl⟩, rfl⟩ <| .cons rfl <| .cons rfl <| .cons rfl <|
      .cons ⟨false, rfl⟩ <| .cons rfl <| .cons rfl <| .nil _, nofun⟩
  obtain ⟨w, acted, staged⟩ := acted
  exact ⟨inside, serial.mp ⟨4, _, rfl, rfl⟩, w, acted, staged,
    (positioned _ _ w (Program.run_drive _ _ _) acted).1⟩

end RustyCat.Download
