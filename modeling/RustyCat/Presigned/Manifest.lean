import RustyCat.Presigned.Upload

/-!
# The completion manifest of a presigned upload

The parts of a valid plan that follow one another from offset zero form the chain
of the plan.  `prepare` keeps the uploaded parts of a prefix of the chain and the
executor goes on from its end, so that at completion the uploaded parts are the
whole chain.
-/

namespace RustyCat

namespace PresignedMultipartUploadPlan

variable {plan : PresignedMultipartUploadPlan}

structure Valid (plan : PresignedMultipartUploadPlan) : Prop where
  positive : ∀ part ∈ plan.parts, 0 < part.size
  inside : ∀ part ∈ plan.parts, part.offset + part.size ≤ plan.totalSize

theorem validateParts_ok {totalSize : Nat} {parts : List PresignedUploadPart} {offsets : List Nat}
    (accepted : validateParts totalSize offsets parts = .ok ()) :
    ∀ part ∈ parts, 0 < part.size ∧ part.offset + part.size ≤ totalSize := by
  induction parts generalizing offsets with
  | nil => simp
  | cons first rest ih =>
    simp only [validateParts] at accepted
    split at accepted
    · cases accepted
    rename_i positive
    split at accepted
    · cases accepted
    rename_i partEnd added
    split at accepted
    · cases accepted
    split at accepted
    · cases accepted
    rename_i inside _
    have sum := Word.checkedAdd_eq_some.mp added
    rintro part (_ | ⟨_, member⟩)
    · exact ⟨Nat.pos_of_ne_zero positive, by omega⟩
    · exact ih accepted part member

theorem valid_of_validate (accepted : plan.validate = .ok ()) : plan.Valid := by
  simp only [validate] at accepted
  split at accepted
  · cases accepted
  split at accepted
  · cases accepted
  · have parts := validateParts_ok accepted
    exact ⟨fun part member => (parts part member).1, fun part member => (parts part member).2⟩

theorem partForOffset_eq_some {offset : Nat} {part : PresignedUploadPart}
    (found : plan.partForOffset offset = some part) : part ∈ plan.parts ∧ part.offset = offset :=
  ⟨List.mem_of_find?_eq_some found, by simpa using List.find?_some found⟩

/-- The offsets that the parts of the plan lead to from zero. -/
inductive Chain (plan : PresignedMultipartUploadPlan) : Nat → Prop where
  | zero : Chain plan 0
  | next {offset : Nat} {part : PresignedUploadPart} (before : Chain plan offset)
      (found : plan.partForOffset offset = some part) : Chain plan (offset + part.size)

theorem Chain.end_le (valid : plan.Valid) {a b : Nat} {part : PresignedUploadPart}
    (first : plan.Chain a) (found : plan.partForOffset a = some part) (second : plan.Chain b)
    (before : a < b) : a + part.size ≤ b := by
  induction b using Nat.strongRecOn generalizing a part with
  | ind b ih =>
    cases second with
    | zero => omega
    | @next offset other earlier there =>
      have positive := valid.positive other (partForOffset_eq_some there).1
      rcases Nat.lt_trichotomy a offset with below | rfl | above
      · have reached := ih offset (by omega) first found earlier below
        omega
      · rw [found] at there
        cases there
        exact Nat.le_refl _
      · -- the other part would end inside the chain
        have reached := ih a before earlier there first above
        omega

theorem Chain.le_totalSize (valid : plan.Valid) {offset : Nat} (chain : plan.Chain offset) :
    offset ≤ plan.totalSize := by
  cases chain with
  | zero => exact Nat.zero_le _
  | next before found =>
    obtain ⟨member, same⟩ := partForOffset_eq_some found
    have inside := valid.inside _ member
    omega

/-- The parts below an offset of the chain leave no gap. -/
theorem Chain.covers {b x : Nat} (chain : plan.Chain b) (below : x < b) :
    ∃ offset part, plan.Chain offset ∧ plan.partForOffset offset = some part ∧
      offset ≤ x ∧ x < offset + part.size ∧ offset + part.size ≤ b := by
  induction chain with
  | zero => omega
  | @next offset part before found ih =>
    by_cases inside : x < offset
    · obtain ⟨o, other, chain, there, low, high, reached⟩ := ih inside
      exact ⟨o, other, chain, there, low, high, by omega⟩
    · exact ⟨offset, part, before, found, by omega, below, Nat.le_refl _⟩

end PresignedMultipartUploadPlan

namespace PresignedUploadedPart

def Apart (p q : PresignedUploadedPart) : Prop :=
  p.offset + p.size ≤ q.offset ∨ q.offset + q.size ≤ p.offset

def Fits (plan : PresignedMultipartUploadPlan) (p : PresignedUploadedPart) : Prop :=
  ∃ part, plan.partForOffset p.offset = some part ∧ p.partNumber = part.partNumber ∧
    p.size = part.size

end PresignedUploadedPart

namespace PresignedMultipartUpload

variable {u : PresignedMultipartUpload} {parts : List PresignedUploadedPart}

theorem validateResumedPart_ok {part : PresignedUploadedPart}
    (accepted : u.validateResumedPart part = .ok ()) :
    part.Fits u.plan ∧ part.offset + part.size ≤ Word.maxVal 64 := by
  simp only [validateResumedPart] at accepted
  split at accepted
  · cases accepted
  rename_i planPart found
  split at accepted
  · cases accepted
  rename_i same
  split at accepted
  · cases accepted
  split at accepted
  · cases accepted
  rename_i total added
  have sum := Word.checkedAdd_eq_some.mp added
  simp only [not_or, not_not] at same
  exact ⟨⟨planPart, found, same.1, same.2⟩, by omega⟩

theorem validateUploaded_ok (accepted : u.validateUploaded parts = .ok ()) :
    ∀ part ∈ parts, u.validateResumedPart part = .ok () := by
  induction parts with
  | nil => simp
  | cons first rest ih =>
    simp only [validateUploaded] at accepted
    split at accepted
    · cases accepted
    rename_i ok
    rintro part (_ | ⟨_, member⟩)
    · exact ok
    · exact ih accepted part member

/-- What the loop over the sorted parts finds: the end of the longest prefix of the
chain that is there. -/
theorem resumedLoop_spec (valid : u.plan.Valid) {running : Nat} (chain : u.plan.Chain running)
    (accepted : ∀ part ∈ parts, u.validateResumedPart part = .ok ())
    (sorted : parts.Pairwise fun p q => p.offset < q.offset)
    (apart : parts.Pairwise PresignedUploadedPart.Apart)
    (above : ∀ part ∈ parts, running ≤ part.offset) :
    u.plan.Chain (u.resumedLoop running parts) ∧ running ≤ u.resumedLoop running parts ∧
      (∀ part ∈ parts, part.offset < u.resumedLoop running parts → u.plan.Chain part.offset) ∧
      (∀ offset, u.plan.Chain offset → running ≤ offset → offset < u.resumedLoop running parts →
        ∃ part ∈ parts, part.offset = offset) ∧
      ∀ part ∈ parts, part.offset ≠ u.resumedLoop running parts := by
  induction parts generalizing running with
  | nil =>
    refine ⟨chain, Nat.le_refl _, by simp, ?_, by simp⟩
    intro offset _ low high
    simp only [resumedLoop] at high
    omega
  | cons first rest ih =>
    obtain ⟨firstBefore, restSorted⟩ := List.pairwise_cons.mp sorted
    obtain ⟨firstApart, restApart⟩ := List.pairwise_cons.mp apart
    have low := above first (List.mem_cons_self ..)
    have ok := accepted first (List.mem_cons_self ..)
    obtain ⟨⟨planPart, found, _, sameSize⟩, small⟩ := validateResumedPart_ok ok
    by_cases here : first.offset = running
    · -- the part continues the prefix
      subst here
      have added : Word.checkedAdd 64 first.offset first.size = some (first.offset + first.size) :=
        Word.checkedAdd_eq_some.mpr ⟨small, rfl⟩
      have loop : u.resumedLoop first.offset (first :: rest) =
          u.resumedLoop (first.offset + first.size) rest := by
        simp [resumedLoop, ok, added]
      have further : u.plan.Chain (first.offset + first.size) := by
        rw [sameSize]
        exact .next chain found
      have restAbove : ∀ part ∈ rest, first.offset + first.size ≤ part.offset := by
        intro part member
        have later := firstBefore part member
        rcases firstApart part member with after | before
        · exact after
        · omega
      have positive : 0 < first.size := by
        rw [sameSize]
        exact valid.positive _ (PresignedMultipartUploadPlan.partForOffset_eq_some found).1
      obtain ⟨ends, grown, onChain, held, maximal⟩ := ih further
        (fun part member => accepted part (List.mem_cons_of_mem _ member)) restSorted restApart
        restAbove
      rw [loop]
      refine ⟨ends, by omega, ?_, ?_, ?_⟩
      · rintro part (_ | ⟨_, member⟩) before
        · exact chain
        · exact onChain part member before
      · intro offset chained reached before
        rcases Nat.lt_or_eq_of_le reached with later | rfl
        · have past := PresignedMultipartUploadPlan.Chain.end_le valid chain found chained later
          obtain ⟨part, member, same⟩ := held offset chained (by omega) before
          exact ⟨part, List.mem_cons_of_mem _ member, same⟩
        · exact ⟨first, List.mem_cons_self .., rfl⟩
      · rintro part (_ | ⟨_, member⟩)
        · omega
        · exact maximal part member
    · -- the prefix ends here
      have loop : u.resumedLoop running (first :: rest) = running := by
        simp [resumedLoop, here]
      rw [loop]
      have beyond : ∀ part ∈ first :: rest, running < part.offset := by
        rintro part (_ | ⟨_, member⟩)
        · omega
        · have later := firstBefore part member
          omega
      refine ⟨chain, Nat.le_refl _, ?_, ?_, ?_⟩
      · intro part member before
        have := beyond part member
        omega
      · intro offset _ reached before
        omega
      · intro part member
        have := beyond part member
        omega

theorem withResumedParts_spec (u : PresignedMultipartUpload)
    (resumed : List PresignedUploadedPart) :
    (u.withResumedParts resumed).1.plan = u.plan ∧
      Sorted.Ascending PresignedUploadedPart.offset (u.withResumedParts resumed).2 ∧
      ∀ part ∈ (u.withResumedParts resumed).2, part ∈ resumed := by
  suffices folded : ∀ (rest : List PresignedUploadedPart) (acc : Option MeowError × List _),
      Sorted.Ascending PresignedUploadedPart.offset acc.2 → (∀ part ∈ acc.2, part ∈ resumed) →
      (∀ part ∈ rest, part ∈ resumed) →
      Sorted.Ascending PresignedUploadedPart.offset (rest.foldl (fun acc part =>
        (acc.1.or (u.resumedPartError acc.2 part), insertByOffset part acc.2)) acc).2 ∧
        ∀ part ∈ (rest.foldl (fun acc part =>
          (acc.1.or (u.resumedPartError acc.2 part), insertByOffset part acc.2)) acc).2,
          part ∈ resumed by
    exact ⟨rfl, folded resumed (none, []) .nil (by simp) fun _ => id⟩
  intro rest
  induction rest with
  | nil => exact fun _ sorted known _ => ⟨sorted, known⟩
  | cons part rest ih =>
    intro acc sorted known all
    refine ih _ (Sorted.ascending_insert sorted part) ?_ fun q member =>
      all q (List.mem_cons_of_mem _ member)
    intro q member
    rcases (Sorted.mem_insert sorted).mp member with rfl | ⟨old, _⟩
    · exact all q (List.mem_cons_self ..)
    · exact known q old

theorem mem_recordPart {uploaded part : PresignedUploadedPart}
    (distinct : parts.Pairwise fun p q => p.offset ≠ q.offset) :
    part ∈ recordPart uploaded parts ↔
      part = uploaded ∨ part ∈ parts ∧ part.offset ≠ uploaded.offset := by
  induction parts with
  | nil => simp [recordPart]
  | cons first rest ih =>
    obtain ⟨other, restDistinct⟩ := List.pairwise_cons.mp distinct
    simp only [recordPart]
    split
    · rename_i same
      have apart : ∀ q ∈ rest, q.offset ≠ uploaded.offset := fun q member equal =>
        other q member (same.trans equal.symm)
      simp only [List.mem_cons]
      constructor
      · rintro (rfl | member)
        · exact Or.inl rfl
        · exact Or.inr ⟨Or.inr member, apart part member⟩
      · rintro (rfl | ⟨rfl | member, different⟩)
        · exact Or.inl rfl
        · exact absurd same different
        · exact Or.inr member
    · rename_i different
      simp only [List.mem_cons, ih restDistinct]
      constructor
      · rintro (rfl | rfl | ⟨member, away⟩)
        · exact Or.inr ⟨Or.inl rfl, different⟩
        · exact Or.inl rfl
        · exact Or.inr ⟨Or.inr member, away⟩
      · rintro (rfl | ⟨rfl | member, away⟩)
        · exact Or.inr (Or.inl rfl)
        · exact Or.inl rfl
        · exact Or.inr (Or.inr ⟨member, away⟩)

theorem pairwise_recordPart {R : PresignedUploadedPart → PresignedUploadedPart → Prop}
    {uploaded : PresignedUploadedPart} (distinct : parts.Pairwise fun p q => p.offset ≠ q.offset)
    (related : parts.Pairwise R)
    (new : ∀ p ∈ parts, p.offset ≠ uploaded.offset → R p uploaded ∧ R uploaded p) :
    (recordPart uploaded parts).Pairwise R := by
  induction parts with
  | nil => simp [recordPart]
  | cons first rest ih =>
    obtain ⟨other, restDistinct⟩ := List.pairwise_cons.mp distinct
    obtain ⟨firstRelated, restRelated⟩ := List.pairwise_cons.mp related
    simp only [recordPart]
    split
    · rename_i same
      refine List.pairwise_cons.mpr ⟨fun q member => ?_, restRelated⟩
      exact (new q (List.mem_cons_of_mem _ member) fun equal =>
        other q member (same.trans equal.symm)).2
    · rename_i different
      refine List.pairwise_cons.mpr ⟨fun q member => ?_, ih restDistinct restRelated
        fun p inRest => new p (List.mem_cons_of_mem _ inRest)⟩
      rcases (mem_recordPart restDistinct).mp member with rfl | ⟨old, _⟩
      · exact (new first (List.mem_cons_self ..) different).1
      · exact firstRelated q old

theorem perm_sortByOffset (parts : List PresignedUploadedPart) : (sortByOffset parts).Perm parts :=
  List.perm_insertionSort _ _

theorem sorted_sortByOffset (distinct : parts.Pairwise fun p q => p.offset ≠ q.offset) :
    (sortByOffset parts).Pairwise fun p q => p.offset < q.offset := by
  have ordered : (sortByOffset parts).Pairwise fun p q => p.offset ≤ q.offset :=
    List.pairwise_insertionSort _ _
  have different : (sortByOffset parts).Pairwise fun p q => p.offset ≠ q.offset :=
    distinct.perm (perm_sortByOffset parts).symm fun h => h.symm
  exact (ordered.and different).imp fun both => Nat.lt_of_le_of_ne both.1 both.2

/-- The part is the latest successful upload at its offset, or was resumed and
never uploaded again. -/
def Sourced (resumed uploads : List PresignedUploadedPart) (part : PresignedUploadedPart) : Prop :=
  (uploads.filter (·.offset = part.offset)).getLast? = some part ∨
    part ∈ resumed ∧ ∀ e ∈ uploads, e.offset ≠ part.offset

/-- The parts of the chain below the offset are there. -/
structure Covered (plan : PresignedMultipartUploadPlan) (parts : List PresignedUploadedPart)
    (offset : Nat) : Prop where
  chain : plan.Chain offset
  held : ∀ o, plan.Chain o → o < offset → ∃ part ∈ parts, part.offset = o

/-- What holds of the uploaded parts at any time. -/
structure Sound (resumed : List PresignedUploadedPart) (s : PresignedState) : Prop where
  distinct : s.uploadedParts.Pairwise fun p q => p.offset ≠ q.offset
  apart : s.uploadedParts.Pairwise PresignedUploadedPart.Apart
  sourced : ∀ part ∈ s.uploadedParts, Sourced resumed s.uploads part

/-- What holds of the uploaded parts during a run: those below its start belong to
the chain, the others are chunks of the run. -/
structure Running (plan : PresignedMultipartUploadPlan) (task : UploadTask)
    (parts : List PresignedUploadedPart) (run : ChunkRun) : Prop where
  valid : plan.Valid
  total : plan.totalSize = task.totalSize
  covered : Covered plan parts run.start
  acked : ∀ offset ∈ run.acked, ∃ part ∈ parts, part.offset = offset
  fits : ∀ part ∈ parts, part.Fits plan
  placed : ∀ part ∈ parts, plan.Chain part.offset ∧ part.offset < run.start ∨
    Grid.Point run.start task.chunkSize task.totalSize part.offset ∧
      part.offset + part.size = Grid.next task.chunkSize task.totalSize part.offset

def PhaseOk (plan : PresignedMultipartUploadPlan) (task : UploadTask)
    (parts : List PresignedUploadedPart) : JobPhase → Prop
  | .waiting confirmed => Covered plan parts confirmed
  | .running run => Running plan task parts run
  | .ended => True

structure Kept (u : PresignedMultipartUpload) (resumed : List PresignedUploadedPart)
    (task : UploadTask) (s : Drive PresignedState UploadTask) : Prop where
  sound : Sound resumed s.state
  phase : ∃ phase, s.jobs = [⟨task, phase⟩] ∧ PhaseOk u.plan task s.state.uploadedParts phase

section Running

variable {task : UploadTask} {run : ChunkRun} {resumed : List PresignedUploadedPart}

theorem Running.cell (running : Running u.plan task parts run) {offset : Nat}
    (point : Grid.Point run.start task.chunkSize task.totalSize offset)
    (acked : offset ∈ run.acked) : ∃ part, u.plan.partForOffset offset = some part ∧
      offset + part.size = Grid.next task.chunkSize task.totalSize offset := by
  obtain ⟨part, member, rfl⟩ := running.acked offset acked
  obtain ⟨planPart, found, _, sameSize⟩ := running.fits part member
  refine ⟨planPart, found, ?_⟩
  rcases running.placed part member with ⟨_, before⟩ | ⟨_, ends⟩
  · have := point.start_le
    omega
  · rw [← sameSize]
    exact ends

theorem Running.confirm (running : Running u.plan task parts run) {offset : Nat}
    (confirms : run.Confirms task.chunkSize task.totalSize offset) :
    Covered u.plan parts offset := by
  obtain ⟨above, edge, below⟩ := confirms
  have ends : offset ≤ task.totalSize := edge.le
  refine ⟨?_, ?_⟩
  · refine edge.induction task.chunkSize_pos above running.covered.chain ?_
    intro p point before chain
    obtain ⟨part, found, cell⟩ := running.cell point (below p point before)
    rw [← cell]
    exact .next chain found
  · have points : ∀ o, u.plan.Chain o → run.start ≤ o → o < offset →
        Grid.Point run.start task.chunkSize task.totalSize o := by
      intro o chain
      induction chain with
      | zero =>
        intro low high
        have : run.start = 0 := by omega
        rw [← this]
        exact Grid.point_start (by omega)
      | @next o part before found ih =>
        intro low high
        have positive := running.valid.positive _
          (PresignedMultipartUploadPlan.partForOffset_eq_some found).1
        by_cases inside : run.start ≤ o
        · have point := ih inside (by omega)
          obtain ⟨other, there, cell⟩ := running.cell point (below o point (by omega))
          rw [found] at there
          cases there
          rw [cell] at high ⊢
          exact (Grid.edge_next point).point (by omega)
        · have reached := PresignedMultipartUploadPlan.Chain.end_le running.valid before found
            running.covered.chain (by omega)
          have : run.start = o + part.size := by omega
          rw [← this]
          exact Grid.point_start (by omega)
    intro o chain before
    by_cases inside : run.start ≤ o
    · exact running.acked o (below o (points o chain inside before) before)
    · exact running.covered.held o chain (by omega)

end Running

section Calls

variable {task : UploadTask} {resumed : List PresignedUploadedPart} {s : PresignedState}

variable {confirmed offset : Nat} {info : UploadResumeInfo} {input : PresignedChunkInput}

theorem prepare_cases : (∃ e, u.prepare task confirmed s = (s, .error e)) ∨
    u.plan.Valid ∧ u.plan.totalSize = task.totalSize ∧
      (∀ part ∈ s.uploadedParts, u.validateResumedPart part = .ok ()) ∧
      u.prepare task confirmed s = ({ s with
        uploadedParts := (sortByOffset s.uploadedParts).filter
          (·.offset < u.resumedOffsetFrom (sortByOffset s.uploadedParts)) },
        .ok ⟨none, some (max confirmed (u.resumedOffsetFrom (sortByOffset s.uploadedParts)))⟩) := by
  simp only [prepare]
  split
  · exact .inl ⟨_, rfl⟩
  · exact .inl ⟨_, rfl⟩
  rename_i accepted _
  split
  · exact .inl ⟨_, rfl⟩
  rename_i sameTotal
  split
  · exact .inl ⟨_, rfl⟩
  split
  · exact .inl ⟨_, rfl⟩
  rename_i uploaded
  exact .inr ⟨PresignedMultipartUploadPlan.valid_of_validate accepted, not_not.mp sameTotal,
    validateUploaded_ok uploaded, rfl⟩

theorem sortByOffset_sortByOffset (distinct : parts.Pairwise fun p q => p.offset ≠ q.offset) :
    sortByOffset (sortByOffset parts) = sortByOffset parts :=
  List.Pairwise.insertionSort_eq ((sorted_sortByOffset distinct).imp Nat.le_of_lt)

/-- `prepare` leads to the end of the longest prefix of the chain that is there, and
drops nothing below it. -/
theorem prepare_running (task : UploadTask) (sound : Sound resumed s)
    (covered : Covered u.plan s.uploadedParts confirmed) :
    (∃ e, u.prepare task confirmed s = (s, .error e)) ∨
    ∃ start, Drive.startOffset task.totalSize confirmed (u.prepare task confirmed s).2 =
        some start ∧ Sound resumed (u.prepare task confirmed s).1 ∧
      Running u.plan task (u.prepare task confirmed s).1.uploadedParts ⟨start, []⟩ ∧
      ∀ part ∈ s.uploadedParts, part.offset < start →
        part ∈ (u.prepare task confirmed s).1.uploadedParts := by
  refine prepare_cases.imp_right ?_
  rintro ⟨valid, total, accepted, done⟩
  rw [done]
  let sorted := sortByOffset s.uploadedParts
  have same : ∀ {part}, part ∈ sorted ↔ part ∈ s.uploadedParts :=
    (perm_sortByOffset s.uploadedParts).mem_iff
  have resumedEq : u.resumedOffsetFrom sorted = u.resumedLoop 0 sorted := by
    simp only [resumedOffsetFrom, sorted, sortByOffset_sortByOffset sound.distinct]
  obtain ⟨chain, _, onChain, held, maximal⟩ := resumedLoop_spec valid .zero
    (fun part member => accepted part (same.mp member)) (sorted_sortByOffset sound.distinct)
    (sound.apart.perm (perm_sortByOffset _).symm Or.symm) fun part _ => Nat.zero_le part.offset
  rw [← resumedEq] at chain onChain held maximal
  have reaches : confirmed ≤ u.resumedOffsetFrom sorted := by
    by_contra short
    obtain ⟨part, member, here⟩ := covered.held _ chain (Nat.lt_of_not_le short)
    exact maximal part (same.mpr member) here
  have small : u.resumedOffsetFrom sorted ≤ task.totalSize := total ▸ chain.le_totalSize valid
  refine ⟨u.resumedOffsetFrom sorted, ?_, ?_⟩
  · have reached : ¬ max confirmed (u.resumedOffsetFrom sorted) > task.totalSize := by omega
    change (if _ ∨ max confirmed (u.resumedOffsetFrom sorted) > _ then _ else
      some (min (max confirmed (max confirmed (u.resumedOffsetFrom sorted))) _)) = _
    rw [if_neg (by simp [reached])]
    congr 1
    omega
  have kept : ∀ {part}, part ∈ sorted.filter (·.offset < u.resumedOffsetFrom sorted) ↔
      part ∈ s.uploadedParts ∧ part.offset < u.resumedOffsetFrom sorted := by
    intro part
    simp only [List.mem_filter, decide_eq_true_eq]
    exact and_congr_left fun _ => same
  refine ⟨⟨?_, ?_, ?_⟩, ⟨valid, total, ⟨?_, ?_⟩, by simp, ?_, ?_⟩, fun part member before =>
    kept.mpr ⟨member, before⟩⟩
  · exact (sound.distinct.perm (perm_sortByOffset _).symm Ne.symm).sublist List.filter_sublist
  · exact (sound.apart.perm (perm_sortByOffset _).symm Or.symm).sublist List.filter_sublist
  · exact fun part member => sound.sourced part (kept.mp member).1
  · exact chain
  · intro o chained before
    obtain ⟨part, member, here⟩ := held o chained (Nat.zero_le _) before
    exact ⟨part, kept.mpr ⟨same.mp member, here ▸ before⟩, here⟩
  · intro part member
    exact (validateResumedPart_ok (accepted part (kept.mp member).1)).1
  · intro part member
    obtain ⟨old, before⟩ := kept.mp member
    exact Or.inl ⟨onChain part (same.mpr old) before, before⟩

theorem prepared_running {start : Nat} (sound : Sound resumed s)
    (covered : Covered u.plan s.uploadedParts confirmed)
    (answered : Drive.startOffset task.totalSize confirmed (u.prepare task confirmed s).2 =
      some start) :
    Sound resumed (u.prepare task confirmed s).1 ∧
      Running u.plan task (u.prepare task confirmed s).1.uploadedParts ⟨start, []⟩ ∧
      ∀ part ∈ s.uploadedParts, part.offset < start →
        part ∈ (u.prepare task confirmed s).1.uploadedParts := by
  obtain ⟨e, failed⟩ | ⟨_, leads, spec⟩ := prepare_running task sound covered
  · rw [failed] at answered
    cases answered
  · cases leads.symm.trans answered
    exact spec

theorem partForUpload_ok {part : PresignedUploadPart}
    (answered : u.partForUpload offset input = .ok part) :
    ∃ planPart, u.plan.partForOffset offset = some planPart ∧
      part.partNumber = planPart.partNumber ∧ part.offset = offset ∧ part.size = planPart.size := by
  simp only [partForUpload] at answered
  split at answered
  · cases answered
  rename_i planPart found
  have here := (PresignedMultipartUploadPlan.partForOffset_eq_some found).2
  refine ⟨planPart, found, ?_⟩
  split at answered
  · cases answered
  · cases answered
    exact ⟨rfl, here, rfl⟩
  · split at answered
    · simp only [refreshedPart] at answered
      split at answered
      · cases answered
      split at answered
      · cases answered
      rename_i refreshed _ same
      simp only [not_or, not_not] at same
      split at answered
      · cases answered
      · cases answered
      · cases answered
        exact ⟨same.1, same.2.1.trans here, same.2.2.1⟩
    · simp only [unrefreshedPart] at answered
      split at answered
      · cases answered
      · cases answered
      · cases answered
        exact ⟨rfl, here, rfl⟩

theorem uploadChunk_cases : (∃ e, u.uploadChunk task offset input s = (s, .error e)) ∨
    ∃ (uploaded : PresignedUploadedPart) (info : UploadResumeInfo), uploaded.Fits u.plan ∧
      uploaded.offset = offset ∧ uploaded.size = (task.chunkAt offset).length ∧
      u.uploadChunk task offset input s =
        (⟨recordPart uploaded s.uploadedParts, s.uploads ++ [uploaded]⟩, .ok info) := by
  simp only [uploadChunk]
  split
  · exact .inl ⟨_, rfl⟩
  rename_i part chosen
  obtain ⟨planPart, found, sameNumber, here, sameSize⟩ := partForUpload_ok chosen
  split
  · exact .inl ⟨_, rfl⟩
  split
  · exact .inl ⟨_, rfl⟩
  rename_i length
  split
  · exact .inl ⟨_, rfl⟩
  split
  · exact .inl ⟨_, rfl⟩
  exact .inr ⟨_, _, ⟨planPart, here ▸ found, sameNumber, sameSize⟩, here, not_not.mp length, rfl⟩

theorem completeUpload_state (callback : CompletionBody → Except MeowError (Option String)) :
    (u.completeUpload callback s).1 = s := by
  simp only [completeUpload]
  split
  · rfl
  · split <;> rfl

theorem abortUpload_state (callback : Except MeowError (Option String)) :
    (u.abortUpload callback s).1 = s := by
  simp only [abortUpload]
  split <;> rfl

theorem Sourced.record {uploads : List PresignedUploadedPart} {uploaded part : PresignedUploadedPart}
    (sourced : Sourced resumed uploads part) (different : part.offset ≠ uploaded.offset) :
    Sourced resumed (uploads ++ [uploaded]) part := by
  have away : uploaded.offset ≠ part.offset := different.symm
  rcases sourced with latest | ⟨member, never⟩
  · left
    simpa [List.filter_append, away] using latest
  · refine Or.inr ⟨member, fun e old => ?_⟩
    rcases List.mem_append.mp old with before | new
    · exact never e before
    · rw [List.mem_singleton.mp new]
      exact away

theorem sourced_record (uploads : List PresignedUploadedPart) (uploaded : PresignedUploadedPart) :
    Sourced resumed (uploads ++ [uploaded]) uploaded := by
  left
  simp [List.filter_append]

theorem Running.record {run : ChunkRun} {uploaded : PresignedUploadedPart}
    (running : Running u.plan task s.uploadedParts run) (sound : Sound resumed s)
    (point : Grid.Point run.start task.chunkSize task.totalSize offset)
    (fits : uploaded.Fits u.plan) (here : uploaded.offset = offset)
    (length : uploaded.size = (task.chunkAt offset).length) :
    Sound resumed ⟨recordPart uploaded s.uploadedParts, s.uploads ++ [uploaded]⟩ ∧
      Running u.plan task (recordPart uploaded s.uploadedParts)
        { run with acked := offset :: run.acked } := by
  subst here
  have inside := point.1
  have ends : uploaded.offset + uploaded.size =
      Grid.next task.chunkSize task.totalSize uploaded.offset := by
    rw [length, UploadTask.length_chunkAt, Grid.next]
    omega
  have member : ∀ {part}, part ∈ recordPart uploaded s.uploadedParts ↔
      part = uploaded ∨ part ∈ s.uploadedParts ∧ part.offset ≠ uploaded.offset :=
    mem_recordPart sound.distinct
  have still : ∀ {o}, (∃ part ∈ s.uploadedParts, part.offset = o) →
      ∃ part ∈ recordPart uploaded s.uploadedParts, part.offset = o := by
    rintro o ⟨part, old, rfl⟩
    by_cases same : part.offset = uploaded.offset
    · exact ⟨uploaded, member.mpr (Or.inl rfl), same.symm⟩
    · exact ⟨part, member.mpr (Or.inr ⟨old, same⟩), rfl⟩
  refine ⟨⟨?_, ?_, ?_⟩, ⟨running.valid, running.total, ⟨running.covered.chain, ?_⟩, ?_, ?_, ?_⟩⟩
  · exact pairwise_recordPart sound.distinct sound.distinct fun p _ different =>
      ⟨different, different.symm⟩
  · refine pairwise_recordPart sound.distinct sound.apart fun p old different => ?_
    suffices apart : p.Apart uploaded from ⟨apart, apart.symm⟩
    obtain ⟨planPart, found, _, sameSize⟩ := running.fits p old
    rcases running.placed p old with ⟨chain, before⟩ | ⟨other, otherEnds⟩
    · -- a part of the prefix ends before the run starts
      have reached := PresignedMultipartUploadPlan.Chain.end_le running.valid chain found
        running.covered.chain before
      have := point.start_le
      rw [← sameSize] at reached
      exact Or.inl (by omega)
    · rcases Nat.lt_or_gt_of_ne different with below | above
      · have := Grid.next_le_of_lt other point below
        exact Or.inl (by omega)
      · have := Grid.next_le_of_lt point other above
        exact Or.inr (by omega)
  · intro part new
    rcases member.mp new with rfl | ⟨old, different⟩
    · exact sourced_record s.uploads part
    · exact (sound.sourced part old).record different
  · exact fun o chained before => still (running.covered.held o chained before)
  · rintro o (_ | ⟨_, old⟩)
    · exact ⟨uploaded, member.mpr (Or.inl rfl), rfl⟩
    · exact still (running.acked o old)
  · intro part new
    rcases member.mp new with rfl | ⟨old, _⟩
    · exact fits
    · exact running.fits part old
  · intro part new
    rcases member.mp new with rfl | ⟨old, _⟩
    · exact Or.inr ⟨point, ends⟩
    · exact running.placed part old

end Calls

section Runs

variable {resumed : List PresignedUploadedPart} {task : UploadTask}
  {s t : Drive PresignedState UploadTask}

abbrev Label := DriveLabel UploadTask Unit PresignedChunkInput
  (CompletionBody → Except MeowError (Option String)) (Except MeowError (Option String))

/-- The instance serves one task. -/
def Sole (_ : Drive PresignedState UploadTask) : Label → Prop
  | .submit _ => False
  | _ => True

theorem Kept.step {label : Label} (kept : Kept u resumed task s) (sole : Sole s label)
    (taken : s.step u.protocol label = some t) : Kept u resumed task t := by
  obtain ⟨sound, phase, only, ok⟩ := kept
  have alone : ∀ {index job}, s.jobs[index]? = some job → index = 0 ∧ job = ⟨task, phase⟩ := by
    intro index job here
    rw [only] at here
    cases index with
    | zero => exact ⟨rfl, (Option.some.inj here).symm⟩
    | succ index => cases here
  cases Drive.step_cases taken with
  | submitted task => exact sole.elim
  | prepared here calm answered =>
    obtain ⟨rfl, same⟩ := alone here
    cases same
    obtain ⟨soundAfter, running, _⟩ := prepared_running sound ok answered
    exact ⟨soundAfter, .running _, Drive.setPhase_sole only _, running⟩
  | prepareFailed here calm answered =>
    obtain ⟨rfl, same⟩ := alone here
    cases same
    obtain ⟨e, failed⟩ | ⟨start, leads, _⟩ := prepare_running task sound ok
    · simp only [protocol, failed]
      exact ⟨sound, _, only, ok⟩
    · -- a successful `prepare` leads to an offset within the task
      cases leads.symm.trans answered
  | acked here point answered =>
    obtain ⟨rfl, same⟩ := alone here
    cases same
    simp only [protocol] at answered ⊢
    obtain ⟨e, failed⟩ | ⟨uploaded, info, fits, there, length, done⟩ := uploadChunk_cases
    · rw [failed] at answered
      cases answered
    · obtain ⟨soundAfter, running⟩ := ok.record sound point fits there length
      rw [done]
      exact ⟨soundAfter, .running _, Drive.setPhase_sole only _, running⟩
  | chunkFailed here point answered =>
    simp only [protocol] at answered ⊢
    obtain ⟨e, failed⟩ | ⟨uploaded, info, _, _, _, done⟩ := uploadChunk_cases
    · rw [failed]
      exact ⟨sound, phase, only, ok⟩
    · rw [done] at answered
      cases answered
  | paused here confirms =>
    obtain ⟨rfl, same⟩ := alone here
    cases same
    exact ⟨sound, .waiting _, Drive.setPhase_sole only _, ok.confirm confirms⟩
  | completed here all answered =>
    obtain ⟨rfl, same⟩ := alone here
    cases same
    simp only [protocol, completeUpload_state]
    exact ⟨sound, .ended, Drive.setPhase_sole only _, trivial⟩
  | completeFailed here all answered =>
    simp only [protocol, completeUpload_state]
    exact ⟨sound, phase, only, ok⟩
  | failed here live =>
    obtain ⟨rfl, same⟩ := alone here
    exact ⟨sound, .ended, by simp [Drive.setPhase, only, same], trivial⟩
  | cancelled here live =>
    obtain ⟨rfl, same⟩ := alone here
    simp only [protocol, abortUpload_state]
    exact ⟨sound, .ended, by simp [Drive.setPhase, only, same], trivial⟩

/-- An instance with the given resumed parts, before its task. -/
def origin (u : PresignedMultipartUpload) (resumed : List PresignedUploadedPart)
    (task : UploadTask) : Drive PresignedState UploadTask where
  jobs := [⟨task, .waiting 0⟩]
  state := { uploadedParts := (u.withResumedParts resumed).2, uploads := [] }

/-- The resumed parts do not overlap; a part may be given more than once. -/
def NoOverlap (resumed : List PresignedUploadedPart) : Prop :=
  ∀ p ∈ resumed, ∀ q ∈ resumed, p.offset ≠ q.offset → p.Apart q

theorem run_kept (clear : NoOverlap resumed)
    (reached : Machine.Run (Drive.step (u.withResumedParts resumed).1.protocol) Sole
      (origin u resumed task) s) :
    Kept (u.withResumedParts resumed).1 resumed task s := by
  obtain ⟨_, sorted, known⟩ := withResumedParts_spec u resumed
  refine reached.invariant _ ⟨⟨?_, ?_, ?_⟩, .waiting 0, rfl, .zero, ?_⟩ fun _ _ _ kept sole taken =>
    kept.step sole taken
  · exact sorted.imp Nat.ne_of_lt
  · refine List.Pairwise.imp_of_mem ?_ sorted
    intro p q pMember qMember before
    exact clear p (known p pMember) q (known q qMember) (Nat.ne_of_lt before)
  · exact fun part member => Or.inr ⟨known part member, by simp [origin]⟩
  · intro o _ before
    omega

/-- What the body builder of `complete_upload` may rely on. -/
structure Manifest (total : Nat) (resumed uploads manifest : List PresignedUploadedPart) :
    Prop where
  apart : manifest.Pairwise PresignedUploadedPart.Apart
  covers : ∀ x < total, ∃ part ∈ manifest, part.offset ≤ x ∧ x < part.offset + part.size
  inside : ∀ part ∈ manifest, part.offset + part.size ≤ total
  distinct : manifest.Pairwise fun p q => p.offset ≠ q.offset
  ordered : manifest.Pairwise fun p q => p.partNumber ≤ q.partNumber
  sourced : ∀ part ∈ manifest, Sourced resumed uploads part

theorem perm_sortDedupCompletionParts
    (distinct : parts.Pairwise fun p q => p.offset ≠ q.offset) :
    (sortDedupCompletionParts parts).Perm parts := by
  let sorted := parts.insertionSort fun a b : PresignedUploadedPart =>
    a.offset < b.offset ∨ a.offset = b.offset ∧ a.partNumber ≤ b.partNumber
  have reordered : sorted.Perm parts := List.perm_insertionSort _ _
  have different : sorted.Pairwise fun p q => p.offset ≠ q.offset :=
    distinct.perm reordered.symm fun h => h.symm
  have same : sorted.destutter (fun a b => a.offset ≠ b.offset) = sorted :=
    List.destutter_of_isChain _ _ different.isChain
  refine List.Perm.trans (List.perm_insertionSort _ _) ?_
  change (sorted.destutter fun a b => a.offset ≠ b.offset).Perm parts
  rw [same]
  exact reordered

theorem Running.manifest {run : ChunkRun} (running : Running u.plan task s.state.uploadedParts run)
    (sound : Sound resumed s.state) (all : run.AllAcked task.chunkSize task.totalSize) :
    Manifest task.totalSize resumed s.state.uploads
      (sortDedupCompletionParts s.state.uploadedParts) := by
  have reordered := perm_sortDedupCompletionParts sound.distinct
  have starts : run.start ≤ task.totalSize := by
    rw [← running.total]
    exact running.covered.chain.le_totalSize running.valid
  have covered := running.confirm ⟨starts, Or.inl rfl, all⟩
  refine ⟨sound.apart.perm reordered.symm Or.symm, ?_, ?_,
    sound.distinct.perm reordered.symm Ne.symm, List.pairwise_insertionSort _ _, ?_⟩
  · intro x inside
    obtain ⟨offset, part, chain, found, low, high, ends⟩ := covered.chain.covers inside
    obtain ⟨held, member, rfl⟩ := covered.held offset chain (by omega)
    obtain ⟨planPart, there, _, sameSize⟩ := running.fits held member
    rw [found] at there
    cases there
    exact ⟨held, reordered.mem_iff.mpr member, low, sameSize ▸ high⟩
  · intro part member
    obtain ⟨planPart, found, _, sameSize⟩ := running.fits part (reordered.mem_iff.mp member)
    obtain ⟨inPlan, here⟩ := PresignedMultipartUploadPlan.partForOffset_eq_some found
    have inside := running.valid.inside planPart inPlan
    rw [← running.total]
    omega
  · exact fun part member => sound.sourced part (reordered.mem_iff.mp member)

def eightBytes : UploadTask where
  url := "https://host/object"
  content := [1, 2, 3, 4, 5, 6, 7, 8]
  chunkSize := 4
  chunkSize_pos := sample_chunk
  length_le := by decide

def sampleUpload (parts : List PresignedUploadPart) : PresignedMultipartUpload where
  plan :=
    { totalSize := 8
      chunkSize := 4
      parts := parts
      uploadId := none
      completeRequest := some { body := none }
      abortRequest := none
      completeBodyBuilder := none
      refreshBeforeSecs := 60 }
  resumedPartsError := none
  urlRefresher := false

def twoHalves : List PresignedUploadPart := [⟨1, 0, 4, none, none⟩, ⟨2, 4, 4, none, none⟩]

def accepted : PresignedChunkInput where
  refreshClock := .ok 0
  expiryClock := .ok 0
  refreshed := .error (.fromCode1 .unknown)
  stopRequested := false
  response := .ok { status := 200, statusText := "200 OK", body := "", etag := some "e" }

theorem run_of_labels (labels : List Label)
    (executed : Machine.exec (Drive.step u.protocol) s labels = some t)
    (sole : ∀ label ∈ labels, ∀ task, label ≠ .submit task) :
    Machine.Run (Drive.step u.protocol) Sole s t := by
  refine Machine.run_of_exec executed (Machine.execAllowed_of_forall fun label member _ => ?_)
  cases label with
  | submit task => exact sole _ member task rfl
  | _ => trivial

def firstHalf : List PresignedUploadedPart := [⟨1, none, 0, 4, some "a"⟩]

/-- A plan may hold a part that overlaps others, and such a part may be resumed. -/
def overlapping : List PresignedUploadPart :=
  [⟨1, 0, 4, none, none⟩, ⟨2, 4, 4, none, none⟩, ⟨3, 2, 2, none, none⟩]

def overlappingResumed : List PresignedUploadedPart :=
  [⟨1, none, 0, 4, some "a"⟩, ⟨3, none, 2, 2, some "b"⟩]

end Runs

end PresignedMultipartUpload

end RustyCat
