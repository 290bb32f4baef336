import RustyCat.Lib.Result
import RustyCat.Provider.Drive

/-!
# What the direct providers share

The check of task URLs in `provider_body.rs`, the checks that the providers each have
in their own words, and what may become of a request on its way to the service and
back.
-/

namespace RustyCat

/-- What is read of a parsed URL: its path, and the decoded keys of its query pairs. -/
structure ProviderUrl where
  path : String
  queryKeys : List String

def rejectReservedQueryKeys (url : ProviderUrl) (reserved : List String) (provider : String) :
    Except MeowError Unit :=
  match url.queryKeys.find? fun key => reserved.any fun r => key.toLower = r.toLower with
  | some key =>
    .error (.fromCode .invalidTaskState
      s!"{provider} task URL contains reserved query key '{key}'")
  | none => .ok ()

def utf8Bytes (s : String) : List UInt8 := s.toUTF8.data.toList

def fromUtf8 (bytes : List UInt8) : Option String := String.fromUTF8? ⟨bytes.toArray⟩

theorem fromUtf8_eq_some {bytes : List UInt8} {s : String} :
    fromUtf8 bytes = some s ↔ bytes = utf8Bytes s := by
  simp only [fromUtf8, String.fromUTF8?, Option.dite_none_right_eq_some, Option.some.injEq,
    utf8Bytes]
  constructor
  · rintro ⟨_, rfl⟩
    rfl
  · rintro rfl
    exact ⟨s.isValidUTF8, rfl⟩

theorem utf8Bytes_ofList {l : List Char} (ascii : ∀ c ∈ l, c.toNat < 128) :
    utf8Bytes (String.ofList l) = l.map fun c => UInt8.ofNat c.toNat := by
  have bytes : l.flatMap String.utf8EncodeChar = l.flatMap fun c => [UInt8.ofNat c.toNat] := by
    refine List.flatMap_congr fun c member => ?_
    have := ascii c member
    rw [String.utf8EncodeChar]
    exact if_pos (show c.toNat ≤ 127 by omega)
  simp [utf8Bytes, List.utf8Encode, bytes, ← List.map_eq_flatMap]

/-- `validate_resume_offset` of a provider, for the named kind of upload. -/
def resumeOffsetCheck (upload : String) (task : UploadTask) (localOffset : Nat) :
    Except MeowError Unit :=
  if localOffset > task.totalSize then
    .error (.fromCode .invalidRange
      s!"local offset {localOffset} exceeds total size {task.totalSize}")
  else if localOffset ≠ task.totalSize ∧ localOffset % task.chunkSize ≠ 0 then
    .error (.fromCode .invalidTaskState
      (s!"local offset {localOffset} is not aligned to chunk size {task.chunkSize}; " ++
        s!"cannot safely resume {upload}"))
  else .ok ()

theorem resumeOffsetCheck_eq_ok {upload : String} {task : UploadTask} {localOffset : Nat}
    (ok : resumeOffsetCheck upload task localOffset = .ok ()) :
    localOffset ≤ task.totalSize ∧ task.Aligned localOffset := by
  simp only [resumeOffsetCheck, Result.guard_eq_ok] at ok
  obtain ⟨inside, aligned, _⟩ := ok
  refine ⟨Nat.le_of_not_lt inside, ?_⟩
  by_contra neither
  rw [UploadTask.Aligned, not_or] at neither
  exact aligned ⟨neither.1, fun zero => neither.2 (Nat.dvd_of_mod_eq_zero zero)⟩

def expectedSize (piece : String) (totalSize chunkSize index : Nat) : Except MeowError Nat :=
  match Word.checkedMul 64 index chunkSize with
  | none => .error (.fromCode .invalidRange s!"{piece} offset arithmetic overflow")
  | some start =>
    match Word.checkedSub totalSize start with
    | none => .error (.fromCode .invalidTaskState s!"{piece} starts beyond the task total")
    | some remaining =>
      if remaining = 0 then
        .error (.fromCode .invalidTaskState s!"{piece} starts at the task end")
      else .ok (min remaining chunkSize)

theorem expectedSize_eq_ok {piece : String} {totalSize chunkSize index size : Nat}
    (ok : expectedSize piece totalSize chunkSize index = .ok size) :
    size = min chunkSize (totalSize - index * chunkSize) := by
  simp only [expectedSize] at ok
  split at ok
  · cases ok
  rename_i start isStart
  simp only [Word.checkedMul, Option.ite_none_right_eq_some, Option.some.injEq] at isStart
  obtain ⟨_, rfl⟩ := isStart
  split at ok
  · cases ok
  rename_i remaining isRemaining
  simp only [Word.checkedSub, Option.ite_none_right_eq_some, Option.some.injEq] at isRemaining
  obtain ⟨_, rfl⟩ := isRemaining
  simp only [Result.guard_eq_ok] at ok
  cases ok.2
  exact Nat.min_comm _ _

theorem expectedSize_of_lt {piece : String} {totalSize chunkSize index : Nat}
    (fits : totalSize ≤ Word.maxVal 64) (begins : index * chunkSize < totalSize) :
    expectedSize piece totalSize chunkSize index =
      .ok (min chunkSize (totalSize - index * chunkSize)) := by
  rw [Nat.min_comm]
  simp only [expectedSize, Word.checkedMul, Word.checkedSub,
    if_pos (Nat.le_trans (Nat.le_of_lt begins) fits), if_pos (Nat.le_of_lt begins)]
  exact if_neg (by omega)

/-- The fate of a request: whether it reached the service, and what came back. -/
structure Delivery (α : Type) where
  reached : Bool
  /-- What comes back if the service refuses the request. -/
  refusal : MeowError
  answer : Except MeowError α
  reached_of_ok : ∀ a, answer = .ok a → reached = true

namespace Delivery

variable {α σ : Type}

/-- A request that would turn the service into `apply`, or be refused. -/
def deliver (fate : Delivery α) (server : σ) (apply : Option σ) : σ × Except MeowError α :=
  if fate.reached then
    match apply with
    | some after => (after, fate.answer)
    | none => (server, .error fate.refusal)
  else (server, fate.answer)

theorem deliver_cases (fate : Delivery α) (server : σ) (apply : Option σ) :
    (∃ after, apply = some after ∧ fate.deliver server apply = (after, fate.answer)) ∨
      ∃ e, fate.deliver server apply = (server, .error e) := by
  simp only [deliver]
  split
  · cases apply with
    | none => exact Or.inr ⟨_, rfl⟩
    | some after => exact Or.inl ⟨after, rfl, rfl⟩
  · rename_i lost
    right
    cases answered : fate.answer with
    | error e => exact ⟨e, rfl⟩
    | ok a => exact absurd (fate.reached_of_ok a answered) lost

def fine (a : α) : Delivery α where
  reached := true
  refusal := .fromCode1 .unknown
  answer := .ok a
  reached_of_ok _ _ := rfl

end Delivery

end RustyCat
