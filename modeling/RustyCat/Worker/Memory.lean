import Mathlib.Algebra.BigOperators.Ring.Finset
import RustyCat.Lib.Machine
import RustyCat.Worker.Driver

/-!
# The memory budget of parallel parts

`ParallelMemoryBudget` of `memory_budget.rs` and its two users in `exec.rs`: the
check of a whole window before a transfer starts, and the charge of each part.
-/

namespace RustyCat

/-- `Semaphore::MAX_PERMITS` on a 64-bit target. -/
def semaphoreMaxPermits : Nat := Word.maxVal 64 / 8

structure ParallelMemoryBudget where
  limitBytes : Nat
  deriving DecidableEq

namespace ParallelMemoryBudget

def withLimit (limitBytes : Nat) : ParallelMemoryBudget where
  limitBytes := min (min limitBytes semaphoreMaxPermits) (Word.maxVal 32)

def forCurrentTarget : ParallelMemoryBudget := withLimit currentMemoryLimitBytes

/-- The permits `acquire` waits for, or why it does not wait. -/
def permits (budget : ParallelMemoryBudget) (bytes : Nat) : Except MeowError Nat :=
  if bytes > budget.limitBytes then
    .error (.fromCode .ioError
      s!"parallel part memory exceeds client limit: requested={bytes} limit={budget.limitBytes}")
  else if bytes > Word.maxVal 32 then
    .error (.fromCode .ioError
      s!"parallel part memory permit count does not fit u32: {bytes}")
  else .ok bytes

end ParallelMemoryBudget

/-- What the two checks read of a transfer that starts at `start`. -/
structure PartGrid where
  maxPartsInFlight : Nat
  chunkSize : Nat
  start : Nat
  total : Nat
  direction : Direction
  verificationScratchBytes : Nat
  chunkSize_pos : 0 < chunkSize
  chunkSize_le : chunkSize ≤ u64Max
  total_le : total ≤ u64Max
  scratch_le : verificationScratchBytes ≤ u64Max

namespace PartGrid

variable (g : PartGrid)

def validate (budget : ParallelMemoryBudget) : Except MeowError Unit :=
  validateParallelPartWindow g.maxPartsInFlight g.chunkSize (g.total - g.start)
    g.direction.bodyBufferCopies g.verificationScratchBytes budget.limitBytes

def partMemory (budget : ParallelMemoryBudget) (offset : Nat) : Except MeowError Nat :=
  match Word.checkedSub g.total offset with
  | none =>
    .error (.fromCode .invalidRange
      s!"parallel part offset exceeds total: offset={offset} total={g.total}")
  | some remaining =>
    match checkedParallelPartMemoryBytes (min remaining g.chunkSize)
        g.direction.bodyBufferCopies g.verificationScratchBytes with
    | .error e => .error e
    | .ok bytes => budget.permits bytes

def charge (offset : Nat) : Nat :=
  min (g.total - offset) g.chunkSize * g.direction.bodyBufferCopies + g.verificationScratchBytes

def IsPart (offset : Nat) : Prop :=
  Grid.Point g.start g.chunkSize g.total offset

instance : DecidablePred g.IsPart :=
  inferInstanceAs (DecidablePred (Grid.Point g.start g.chunkSize g.total))

/-- Parts that can be in flight together. -/
structure Together (parts : Finset Nat) : Prop where
  isPart : ∀ p ∈ parts, g.IsPart p
  window : parts.card ≤ max g.maxPartsInFlight 1

def partCount : Nat := (g.total - g.start - 1) / g.chunkSize + 1

def effectiveParts : Nat := min (max g.maxPartsInFlight 1) g.partCount

/-- What a window of the given number of parts needs at most. -/
def windowBytes (parts : Nat) : Nat :=
  min (parts * g.chunkSize) (g.total - g.start) * g.direction.bodyBufferCopies +
    parts * g.verificationScratchBytes

end PartGrid

/-- The charge of a part of the built-in worker. -/
theorem partMemory_eq (inner : InnerTask) (g : PartGrid) (offset : Nat)
    (chunk : g.chunkSize = inner.chunkSize) (direction : g.direction = inner.direction)
    (scratch : g.verificationScratchBytes = inner.verificationScratchBytes) :
    RustyCat.partMemory inner g.total offset = g.partMemory .forCurrentTarget offset := by
  have limit : ParallelMemoryBudget.forCurrentTarget.limitBytes = currentMemoryLimitBytes := by
    decide
  unfold RustyCat.partMemory PartGrid.partMemory
  cases Word.checkedSub g.total offset with
  | none => rfl
  | some remaining =>
    simp only [chunk, direction, scratch]
    cases checkedParallelPartMemoryBytes (min remaining inner.chunkSize)
      inner.direction.bodyBufferCopies inner.verificationScratchBytes with
    | error e => rfl
    | ok bytes => simp only [ParallelMemoryBudget.permits, limit]

namespace PartGrid

variable {g : PartGrid} {budget : ParallelMemoryBudget}

theorem max_bodyBufferCopies (d : Direction) : max d.bodyBufferCopies 1 = d.bodyBufferCopies := by
  cases d <;> rfl

/-! ## Charges of sets of parts -/

theorem charge_eq (k : Nat) :
    g.charge (g.start + k * g.chunkSize) =
      min (g.total - g.start - k * g.chunkSize) g.chunkSize * g.direction.bodyBufferCopies +
        g.verificationScratchBytes := by
  rw [charge, Nat.sub_add_eq]

theorem sum_charge (cells : Finset Nat) :
    ∑ k ∈ cells, g.charge (g.start + k * g.chunkSize) =
      (∑ k ∈ cells, min (g.total - g.start - k * g.chunkSize) g.chunkSize) *
        g.direction.bodyBufferCopies + cells.card * g.verificationScratchBytes := by
  simp only [charge_eq]
  rw [Finset.sum_add_distrib, Finset.sum_mul, Finset.sum_const, Nat.nsmul_eq_mul]

theorem offset_injective : Function.Injective (g.start + · * g.chunkSize) :=
  fun _ _ same => Nat.eq_of_mul_eq_mul_right g.chunkSize_pos (Nat.add_left_cancel same)

variable {parts : Finset Nat}

theorem exists_cells (isPart : ∀ p ∈ parts, g.IsPart p) :
    ∃ cells : Finset Nat, parts = cells.image (g.start + · * g.chunkSize) ∧
      cells.card = parts.card := by
  refine ⟨parts.image fun p => (p - g.start) / g.chunkSize, ?_, ?_⟩
  · ext p
    simp only [Finset.mem_image, exists_exists_and_eq_and]
    constructor
    · intro member
      obtain ⟨-, k, rfl⟩ := isPart p member
      refine ⟨_, member, ?_⟩
      rw [Nat.add_sub_cancel_left, Nat.mul_div_cancel _ g.chunkSize_pos]
    · rintro ⟨q, member, rfl⟩
      obtain ⟨-, k, rfl⟩ := isPart q member
      rw [Nat.add_sub_cancel_left, Nat.mul_div_cancel _ g.chunkSize_pos]
      exact member
  · refine Finset.card_image_of_injOn fun p one q two same => ?_
    obtain ⟨-, j, rfl⟩ := isPart p one
    obtain ⟨-, k, rfl⟩ := isPart q two
    simp only [Nat.add_sub_cancel_left, Nat.mul_div_cancel _ g.chunkSize_pos] at same
    rw [same]

theorem sum_charge_le (isPart : ∀ p ∈ parts, g.IsPart p) :
    ∑ p ∈ parts, g.charge p ≤ g.windowBytes parts.card := by
  obtain ⟨cells, rfl, card⟩ := exists_cells isPart
  rw [Finset.sum_image offset_injective.injOn, sum_charge, ← card, windowBytes]
  exact Nat.add_le_add_right
    (Nat.mul_le_mul_right _ (Grid.sum_cells_le g.chunkSize (g.total - g.start) cells)) _

theorem windowBytes_mono {m n : Nat} (more : m ≤ n) : g.windowBytes m ≤ g.windowBytes n := by
  have body : min (m * g.chunkSize) (g.total - g.start) ≤
      min (n * g.chunkSize) (g.total - g.start) := by
    have := Nat.mul_le_mul_right g.chunkSize more
    omega
  exact Nat.add_le_add (Nat.mul_le_mul_right _ body) (Nat.mul_le_mul_right _ more)

theorem lt_partCount {k : Nat} (isPart : g.IsPart (g.start + k * g.chunkSize)) :
    k < g.partCount := by
  have inside := isPart.1
  have : k ≤ (g.total - g.start - 1) / g.chunkSize :=
    (Nat.le_div_iff_mul_le g.chunkSize_pos).mpr (by omega)
  exact Nat.lt_succ_of_le this

theorem isPart_of_lt {k : Nat} (room : g.start < g.total) (less : k < g.partCount) :
    g.IsPart (g.start + k * g.chunkSize) := by
  have : k * g.chunkSize ≤ g.total - g.start - 1 :=
    (Nat.le_div_iff_mul_le g.chunkSize_pos).mp (Nat.le_of_lt_succ less)
  exact ⟨by omega, k, rfl⟩

theorem Together.card_le (together : g.Together parts) :
    parts.card ≤ g.effectiveParts := by
  refine Nat.le_min.mpr ⟨together.window, ?_⟩
  obtain ⟨cells, rfl, card⟩ := exists_cells together.isPart
  rw [← card, ← Finset.card_range g.partCount]
  refine Finset.card_le_card fun k member => Finset.mem_range.mpr (lt_partCount ?_)
  exact together.isPart _ (Finset.mem_image_of_mem _ member)

/-- The first parts of a window, as many as can be in flight. -/
def firstParts (g : PartGrid) : Finset Nat :=
  (Finset.range g.effectiveParts).image (g.start + · * g.chunkSize)

theorem together_firstParts (room : g.start < g.total) : g.Together g.firstParts where
  isPart := by
    intro p member
    obtain ⟨k, early, rfl⟩ := Finset.mem_image.mp member
    exact isPart_of_lt room
      (Nat.lt_of_lt_of_le (Finset.mem_range.mp early) (Nat.min_le_right _ _))
  window := by
    rw [firstParts, Finset.card_image_of_injective _ offset_injective, Finset.card_range]
    exact Nat.min_le_left _ _

theorem sum_firstParts : ∑ p ∈ g.firstParts, g.charge p = g.windowBytes g.effectiveParts := by
  rw [firstParts, Finset.sum_image offset_injective.injOn, sum_charge, Grid.sum_cells,
    Finset.card_range, windowBytes]

/-! ## The window check -/

theorem windowBytes_parts (g : PartGrid) (parts : Nat) :
    parts * g.verificationScratchBytes ≤ g.windowBytes parts ∧
      min (parts * g.chunkSize) (g.total - g.start) * g.direction.bodyBufferCopies ≤
        g.windowBytes parts :=
  ⟨Nat.le_add_left _ _, Nat.le_add_right _ _⟩

theorem validate_ok_iff (room : g.start < g.total) (small : budget.limitBytes ≤ u64Max) :
    g.validate budget = .ok () ↔ g.effectiveParts ≤ maxParallelPartTasks ∧
      g.windowBytes g.effectiveParts ≤ budget.limitBytes := by
  have some_ : g.total - g.start ≠ 0 := by omega
  have chunk : g.chunkSize ≠ 0 := Nat.ne_of_gt g.chunkSize_pos
  simp only [validate, validateParallelPartWindow, if_neg some_, if_neg chunk,
    max_bodyBufferCopies]
  change (if g.effectiveParts > maxParallelPartTasks then _ else _) = _ ↔ _
  split
  · rename_i many
    simp only [reduceCtorEq, false_iff, not_and]
    intro few
    omega
  · rename_i few
    have few : g.effectiveParts ≤ maxParallelPartTasks := Nat.le_of_not_lt few
    constructor
    · intro accepted
      refine ⟨few, ?_⟩
      split at accepted
      · cases accepted
      rename_i bytes width
      split at accepted
      · cases accepted
      rename_i body bodies
      split at accepted
      · cases accepted
      rename_i scratch scratches
      split at accepted
      · cases accepted
      rename_i whole sum
      split_ifs at accepted with exceeded
      obtain ⟨-, rfl⟩ := Word.checkedMul_eq_some.mp width
      obtain ⟨-, rfl⟩ := Word.checkedMul_eq_some.mp bodies
      obtain ⟨-, rfl⟩ := Word.checkedMul_eq_some.mp scratches
      obtain ⟨-, rfl⟩ := Word.checkedAdd_eq_some.mp sum
      exact Nat.le_of_not_lt exceeded
    · rintro ⟨-, within⟩
      have fits : budget.limitBytes ≤ Word.maxVal 128 := small.trans (by decide)
      obtain ⟨scratch, body⟩ := g.windowBytes_parts g.effectiveParts
      have width : g.effectiveParts * g.chunkSize ≤ Word.maxVal 128 :=
        (Nat.mul_le_mul few g.chunkSize_le).trans (by decide)
      have one := Word.checkedMul_eq_some.mpr ⟨width, rfl⟩
      have two := Word.checkedMul_eq_some.mpr ⟨(body.trans within).trans fits, rfl⟩
      have three := Word.checkedMul_eq_some.mpr ⟨(scratch.trans within).trans fits, rfl⟩
      have four := Word.checkedAdd_eq_some.mpr ⟨within.trans fits, rfl⟩
      simp only [effectiveParts, partCount] at one two three four within
      simp only [one, two, three, four]
      exact if_neg (Nat.not_lt_of_le within)

theorem withLimit_le (requested : Nat) :
    (ParallelMemoryBudget.withLimit requested).limitBytes ≤ Word.maxVal 32 :=
  Nat.min_le_right _ _

theorem effectiveParts_pos : 0 < g.effectiveParts :=
  Nat.lt_min.mpr ⟨by omega, Nat.succ_pos _⟩

theorem IsPart.room {offset : Nat} (isPart : g.IsPart offset) : g.start < g.total :=
  Nat.lt_of_le_of_lt isPart.start_le isPart.1

theorem partMemory_ok (small : budget.limitBytes ≤ Word.maxVal 32) {offset : Nat}
    (accepted : g.validate budget = .ok ()) (isPart : g.IsPart offset) :
    g.partMemory budget offset = .ok (g.charge offset) := by
  have word : Word.maxVal 32 ≤ u64Max := by decide
  obtain ⟨-, within⟩ := (validate_ok_iff isPart.room (small.trans word)).mp accepted
  have bound : g.charge offset ≤ budget.limitBytes := by
    have only : ∀ p ∈ ({offset} : Finset Nat), g.IsPart p :=
      fun p member => Finset.mem_singleton.mp member ▸ isPart
    have one := sum_charge_le only
    rw [Finset.sum_singleton, Finset.card_singleton] at one
    exact one.trans ((windowBytes_mono effectiveParts_pos).trans within)
  have body : min (g.total - offset) g.chunkSize * g.direction.bodyBufferCopies ≤ Word.maxVal 64 :=
    ((Nat.le_add_right _ _).trans bound).trans (small.trans word)
  have remaining : Word.checkedSub g.total offset = some (g.total - offset) :=
    if_pos (Nat.le_of_lt isPart.1)
  have charged : checkedParallelPartMemoryBytes (min (g.total - offset) g.chunkSize)
      g.direction.bodyBufferCopies g.verificationScratchBytes = .ok (g.charge offset) := by
    simp only [checkedParallelPartMemoryBytes, max_bodyBufferCopies,
      Word.checkedMul_eq_some.mpr ⟨body, rfl⟩,
      Word.checkedAdd_eq_some.mpr ⟨bound.trans (small.trans word), rfl⟩]
    rfl
  simp only [partMemory, remaining, charged, ParallelMemoryBudget.permits,
    if_neg (Nat.not_lt_of_le bound), if_neg (Nat.not_lt_of_le (bound.trans small))]

end PartGrid

/-! ## The shared semaphore -/

/-- A part with the permits it asked for. -/
structure PartClaim where
  grid : PartGrid
  offset : Nat
  permits : Nat

structure MemoryUse where
  available : Nat
  waiting : List PartClaim
  held : List PartClaim

inductive MemoryCall where
  /-- A part of an accepted transfer asks for its bytes. -/
  | acquire (grid : PartGrid) (offset : Nat)
  /-- The semaphore hands out permits it has. -/
  | grant (index : Nat)
  /-- The token ends the wait. -/
  | cancel (index : Nat)
  /-- The permit of a part is dropped. -/
  | release (index : Nat)

namespace MemoryUse

def new (budget : ParallelMemoryBudget) : MemoryUse where
  available := budget.limitBytes
  waiting := []
  held := []

variable (budget : ParallelMemoryBudget)

def step (s : MemoryUse) : MemoryCall → Option MemoryUse
  | .acquire grid offset =>
    match grid.validate budget with
    | .error _ => none
    | .ok () =>
      if grid.IsPart offset then
        match grid.partMemory budget offset with
        | .error _ => some s
        | .ok permits => some { s with waiting := s.waiting ++ [⟨grid, offset, permits⟩] }
      else none
  | .grant index =>
    (s.waiting[index]?).bind fun claim =>
      if claim.permits ≤ s.available then
        some
          { available := s.available - claim.permits
            waiting := s.waiting.eraseIdx index
            held := s.held ++ [claim] }
      else none
  | .cancel index =>
    if index < s.waiting.length then some { s with waiting := s.waiting.eraseIdx index } else none
  | .release index =>
    (s.held[index]?).map fun claim =>
      { s with available := s.available + claim.permits, held := s.held.eraseIdx index }

/-- The permits are all accounted for, and a claim is for the charge of its part. -/
structure Law (s : MemoryUse) : Prop where
  account : s.available + (s.held.map PartClaim.permits).sum = budget.limitBytes
  waiting : ∀ claim ∈ s.waiting, claim.permits = claim.grid.charge claim.offset
  held : ∀ claim ∈ s.held, claim.permits = claim.grid.charge claim.offset

variable {budget} {s next : MemoryUse}

theorem law_new : Law budget (new budget) :=
  ⟨rfl, nofun, nofun⟩

theorem Law.step (small : budget.limitBytes ≤ Word.maxVal 32) (law : Law budget s)
    {call : MemoryCall} (taken : s.step budget call = some next) : Law budget next := by
  cases call with
  | acquire grid offset =>
    simp only [MemoryUse.step] at taken
    split at taken
    · cases taken
    rename_i accepted
    split_ifs at taken with isPart
    rw [PartGrid.partMemory_ok small accepted isPart] at taken
    cases taken
    refine ⟨law.account, fun claim member => ?_, law.held⟩
    obtain old | new := List.mem_append.mp member
    · exact law.waiting claim old
    · rw [List.mem_singleton.mp new]
  | grant index =>
    simp only [MemoryUse.step, Option.bind_eq_some_iff, Option.ite_none_right_eq_some,
      Option.some.injEq] at taken
    obtain ⟨claim, found, enough, rfl⟩ := taken
    have account := law.account
    refine ⟨?_, fun other member => law.waiting other (List.mem_of_mem_eraseIdx member),
      fun other member => ?_⟩
    · simp only [List.map_append, List.sum_append, List.map_cons, List.map_nil, List.sum_cons,
        List.sum_nil]
      omega
    · obtain old | new := List.mem_append.mp member
      · exact law.held other old
      · rw [List.mem_singleton.mp new]
        exact law.waiting claim (List.mem_of_getElem? found)
  | cancel index =>
    simp only [MemoryUse.step, Option.ite_none_right_eq_some, Option.some.injEq] at taken
    obtain ⟨-, rfl⟩ := taken
    exact ⟨law.account, fun other member => law.waiting other (List.mem_of_mem_eraseIdx member),
      law.held⟩
  | release index =>
    simp only [MemoryUse.step, Option.map_eq_some_iff] at taken
    obtain ⟨claim, found, rfl⟩ := taken
    have account := law.account
    refine ⟨?_, law.waiting, fun other member => law.held other (List.mem_of_mem_eraseIdx member)⟩
    have removed : (s.held.map PartClaim.permits).sum =
        claim.permits + ((s.held.eraseIdx index).map PartClaim.permits).sum := by
      obtain ⟨inside, rfl⟩ := List.getElem?_eq_some_iff.mp found
      exact ((List.getElem_cons_eraseIdx_perm inside).map PartClaim.permits).sum_nat.symm
    simp only
    omega

end MemoryUse

/-- The window check against the charges of the parts, and the charges of all parts
that were admitted against the budget. -/
theorem parallel_memory_budget (requested : Nat) :
    (∀ g : PartGrid, g.validate (.withLimit requested) = .ok () →
      (∀ p, g.IsPart p → g.partMemory (.withLimit requested) p = .ok (g.charge p)) ∧
      ∀ parts, g.Together parts →
        ∑ p ∈ parts, g.charge p ≤ (ParallelMemoryBudget.withLimit requested).limitBytes) ∧
    (∀ (g : PartGrid) (e : MeowError), g.validate (.withLimit requested) = .error e →
      maxParallelPartTasks < g.effectiveParts ∨ ∃ parts, g.Together parts ∧
        (ParallelMemoryBudget.withLimit requested).limitBytes < ∑ p ∈ parts, g.charge p) ∧
    ∀ s, Machine.Reachable (MemoryUse.step (.withLimit requested))
        (.new (.withLimit requested)) s →
      (s.held.map fun claim => claim.grid.charge claim.offset).sum ≤
        (ParallelMemoryBudget.withLimit requested).limitBytes := by
  have small := PartGrid.withLimit_le requested
  have word : (ParallelMemoryBudget.withLimit requested).limitBytes ≤ u64Max :=
    small.trans (by decide)
  refine ⟨fun g accepted => ⟨fun p isPart => PartGrid.partMemory_ok small accepted isPart,
    fun parts together => ?_⟩, fun g e rejected => ?_, fun s reached => ?_⟩
  · obtain rfl | ⟨p, member⟩ := parts.eq_empty_or_nonempty
    · simp
    · have room := (together.isPart p member).room
      obtain ⟨-, within⟩ := (PartGrid.validate_ok_iff room word).mp accepted
      calc ∑ p ∈ parts, g.charge p
          ≤ g.windowBytes parts.card := PartGrid.sum_charge_le together.isPart
        _ ≤ g.windowBytes g.effectiveParts := PartGrid.windowBytes_mono together.card_le
        _ ≤ _ := within
  · obtain room | none := Nat.lt_or_ge g.start g.total
    · have refused : ¬ g.validate (.withLimit requested) = .ok () := by simp [rejected]
      rw [PartGrid.validate_ok_iff room word, not_and_or] at refused
      refine refused.imp Nat.lt_of_not_le fun exceeded => ?_
      refine ⟨g.firstParts, PartGrid.together_firstParts room, ?_⟩
      rw [PartGrid.sum_firstParts]
      exact Nat.lt_of_not_le exceeded
    · simp [PartGrid.validate, validateParallelPartWindow, Nat.sub_eq_zero_of_le none] at rejected
  · have law : MemoryUse.Law (.withLimit requested) s :=
      reached.invariant (MemoryUse.Law (.withLimit requested)) MemoryUse.law_new
        fun _ _ _ law _ taken => law.step small taken
    have same : s.held.map (fun claim => claim.grid.charge claim.offset) =
        s.held.map PartClaim.permits :=
      List.map_congr_left fun claim member => (law.held claim member).symm
    have account := law.account
    rw [same]
    omega

/-- Three parts of a download, two of them in flight, with a budget for just these. -/
def samplePartGrid : PartGrid where
  maxPartsInFlight := 2
  chunkSize := 4
  start := 1
  total := 10
  direction := .download
  verificationScratchBytes := 0
  chunkSize_pos := sample_chunk
  chunkSize_le := sample_size
  total_le := by decide
  scratch_le := by decide

theorem parallel_memory_budget_sample :
    samplePartGrid.validate (.withLimit 16) = .ok () ∧
      ∑ p ∈ ({1, 9} : Finset Nat), samplePartGrid.charge p ≤ 16 ∧
      samplePartGrid.partMemory (.withLimit 16) 9 = .ok 2 := by
  have accepted : samplePartGrid.validate (.withLimit 16) = .ok () := by rfl
  obtain ⟨charges, sums⟩ := (parallel_memory_budget 16).1 samplePartGrid accepted
  exact ⟨accepted, sums {1, 9} ⟨by decide, by decide⟩, charges 9 (by decide)⟩

end RustyCat
