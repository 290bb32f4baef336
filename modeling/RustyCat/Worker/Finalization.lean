import RustyCat.Worker.Upload

/-!
# Finalization of an upload

An upload is finalized when its protocol reported a file id or `complete_upload`
returned.  This is what the calls of the executor say about it.
-/

namespace RustyCat

/-- The protocol has finalized the upload. -/
def Finalized (h : List TaskEvent) : Prop := .completedFileId ∈ h ∨ .completeUpload true ∈ h

instance : DecidablePred Finalized := fun _ => inferInstanceAs (Decidable (_ ∨ _))

theorem Finalized.append {h : List TaskEvent} (done : Finalized h) (more : List TaskEvent) :
    Finalized (h ++ more) :=
  done.imp (List.mem_append_left _) (List.mem_append_left _)

theorem Finalized.of_append {more : List TaskEvent} (done : Finalized more)
    (h : List TaskEvent) : Finalized (h ++ more) :=
  done.imp (List.mem_append_right _) (List.mem_append_right _)

/-- What holds of the answer and the notes of a call that answers. -/
def Call.Yields {α : Type} (post : α → List TaskEvent → Prop) (c : Call α) : Prop :=
  ∀ a, c.result = .ok a → post a c.notes

section Calls

variable {α β : Type} {inner : InnerTask} {post : α → List TaskEvent → Prop}

theorem Call.ok_yields {a : α} (holds : post a []) : (Call.ok a).Yields post := by
  rintro _ ⟨⟩
  exact holds

theorem Call.fail_yields (e : MeowError) : (Call.fail e).Yields post := by
  rintro _ ⟨⟩

theorem Call.failAbort_yields (e : MeowError) : (Call.failAbort e).Yields post := by
  rintro _ ⟨⟩

theorem Call.andThen_yields {c : Call β} {next : β → Call α} {mid : β → List TaskEvent → Prop}
    (first : c.Yields mid)
    (second : ∀ b notes, mid b notes → (next b).Yields fun a more => post a (notes ++ more)) :
    (c.andThen next).Yields post := by
  intro a answered
  cases result : c.result with
  | error e => simp [Call.andThen, result] at answered
  | ok b =>
    simp only [Call.andThen, result] at answered ⊢
    exact second b c.notes (first b result) a answered

theorem Call.yields_true (c : Call α) : c.Yields fun _ _ => True := fun _ _ => trivial

theorem protocolCall_yields (answer : Except MeowError UploadResumeInfo) :
    (protocolCall answer).Yields fun info notes => answer = .ok info ∧ notes = info.notes := by
  cases answer with
  | error e => exact Call.fail_yields e
  | ok given =>
    rintro _ ⟨⟩
    exact ⟨rfl, List.append_nil _⟩

theorem completeUpload_yields (answer : Except MeowError (Option String)) :
    (completeUpload answer).Yields fun _ notes => .completeUpload true ∈ notes := by
  cases answer with
  | error e => rintro _ ⟨⟩
  | ok payload =>
    rintro _ ⟨⟩
    exact List.mem_cons_self

theorem mem_notes {info : UploadResumeInfo} (given : info.completedFileId.isSome = true) :
    .completedFileId ∈ info.notes := by
  simp [UploadResumeInfo.notes, given]

theorem uploadPrepareOnce_yields (localOffset : Nat) (source : Option LocalError)
    (answer : Except MeowError UploadResumeInfo) :
    (uploadPrepareOnce inner localOffset source answer).Yields fun v notes =>
      v.totalSize = inner.totalSize ∧ ∃ info, answer = .ok info ∧
        (info.completedFileId.isSome = true → Finalized notes) ∧
        (info.completedFileId.isSome = false →
          v.nextOffset ≤ max localOffset (info.nextByte.getD 0)) := by
  refine Call.andThen_yields (Call.yields_true _) fun _ before _ => ?_
  refine Call.andThen_yields (protocolCall_yields answer) ?_
  rintro info _ ⟨said, rfl⟩
  dsimp only
  split
  · rename_i given
    refine Call.ok_yields ⟨rfl, info, said, fun _ => Or.inl ?_, fun absent => ?_⟩
    · simp [mem_notes given]
    · exact absurd (absent.symm.trans given) (by simp)
  · rename_i absent
    split
    · exact Call.failAbort_yields _
    · exact Call.ok_yields ⟨rfl, info, said, fun given => absurd given absent,
        fun _ => Nat.min_le_left _ _⟩

theorem readUploadChunk_yields {offset chunkSize : Nat} (source : Option LocalError)
    (room : offset < inner.totalSize) (positive : 0 < chunkSize) :
    (readUploadChunk inner offset chunkSize source).Yields fun read _ => read.isSome = true := by
  have some_ : ¬ min chunkSize (inner.totalSize - offset) = 0 := by omega
  simp only [readUploadChunk, if_neg (Nat.not_le.mpr room), if_neg some_]
  cases source with
  | none => exact Call.ok_yields rfl
  | some e => exact Call.failAbort_yields _

/-- The chunk ended the transfer and the protocol has finalized it, or there is more
to send. -/
def ChunkOutcome.Settles (inner : InnerTask) (outcome : ChunkOutcome) (notes : List TaskEvent) :
    Prop :=
  Finalized notes ∨ outcome.done = false ∧ outcome.nextOffset < inner.totalSize

theorem finishSerialChunk_yields (next : Nat) (answer : UploadAnswer) :
    (finishSerialChunk inner.totalSize next answer).Yields (ChunkOutcome.Settles inner) := by
  simp only [finishSerialChunk]
  split
  · refine Call.andThen_yields (completeUpload_yields answer.complete) ?_
    intro payload notes finalized
    exact Call.ok_yields (Or.inl (Or.inr (List.mem_append_left _ finalized)))
  · rename_i more
    exact Call.ok_yields (Or.inr ⟨rfl, Nat.lt_of_not_le more⟩)

theorem ChunkOutcome.Settles.append {outcome : ChunkOutcome} {notes : List TaskEvent}
    (settles : outcome.Settles inner notes) (before : List TaskEvent) :
    outcome.Settles inner (before ++ notes) :=
  settles.imp_left fun finalized => finalized.of_append before

theorem settleSerialChunk_yields (offset uploadedEnd : Nat) (info : UploadResumeInfo)
    (answer : UploadAnswer) :
    (settleSerialChunk inner offset uploadedEnd info answer).Yields fun outcome notes =>
      outcome.Settles inner (info.notes ++ notes) := by
  simp only [settleSerialChunk]
  split
  · rename_i id given
    refine Call.andThen_yields (Call.yields_true _) fun _ _ _ => Call.ok_yields (Or.inl ?_)
    exact Finalized.append (Or.inl (mem_notes (by rw [given]; rfl))) _
  · split
    · exact Call.failAbort_yields _
    · split
      · refine Call.andThen_yields (Call.yields_true _) fun _ before _ outcome answered => ?_
        exact ((finishSerialChunk_yields _ _ outcome answered).append before).append info.notes
      · intro outcome answered
        exact (finishSerialChunk_yields _ _ outcome answered).append _

theorem uploadOneChunk_yields {offset chunkSize : Nat} (answer : UploadAnswer)
    (room : offset < inner.totalSize) (positive : 0 < chunkSize) :
    (uploadOneChunk inner offset chunkSize answer).Yields (ChunkOutcome.Settles inner) := by
  refine Call.andThen_yields (readUploadChunk_yields answer.source room positive) ?_
  intro read before given
  obtain ⟨len, rfl⟩ := Option.isSome_iff_exists.mp given
  refine Call.andThen_yields (Call.yields_true _) fun _ checked _ => ?_
  split
  · exact Call.fail_yields _
  refine Call.andThen_yields (protocolCall_yields answer.chunk) ?_
  rintro info _ ⟨_, rfl⟩ outcome answered
  exact ((settleSerialChunk_yields _ _ info answer outcome answered).append checked).append before

end Calls

end RustyCat
