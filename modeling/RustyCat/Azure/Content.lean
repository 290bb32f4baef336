import RustyCat.Azure.Upload
import RustyCat.Provider.Jobs

/-!
# The content of Azure blobs

Tasks of different blobs take turns on one instance.  The session forgets the blocks
of a task when another one runs, and learns them again from the listing; the block
list is sent only for blocks that the task put or the listing reported, and what it
commits is the content of the task.
-/

namespace RustyCat

open Ascii

/-! ## Block ids -/

variable {index : Nat}

theorem isDigit_of_mem_leftpad {c : Char} (member : c ∈ (Nat.toDigits 10 index).leftpad 8 '0') :
    c.isDigit = true := by
  rcases List.mem_append.mp member with padding | digit
  · rw [List.eq_of_mem_replicate padding]
    rfl
  · exact Nat.isDigit_of_mem_toDigits (by decide) (by decide) digit

theorem ofDigitChars_leftpad (index : Nat) :
    Nat.ofDigitChars 10 ((Nat.toDigits 10 index).leftpad 8 '0') 0 = index := by
  rw [List.leftpad, Nat.ofDigitChars_append, Nat.ofDigitChars_replicate_zero, Nat.mul_zero,
    Nat.ofDigitChars_ten_toDigits]

theorem eightDigits_spell (index : Nat) :
    Nat.ofDigitChars 10 ((eightDigits index).map fun byte => Char.ofNat byte.toNat) 0 = index := by
  have same : (eightDigits index).map (fun byte => Char.ofNat byte.toNat) =
      (Nat.toDigits 10 index).leftpad 8 '0' := by
    rw [eightDigits, List.map_map]
    refine (List.map_congr_left fun c member => ?_).trans (List.map_id _)
    have small : c.toNat < 256 :=
      Nat.lt_of_le_of_lt (isDigit_iff.mp (isDigit_of_mem_leftpad member)).2 (by decide)
    change Char.ofNat (UInt8.ofNat c.toNat).toNat = c
    rw [UInt8.toNat_ofNat_of_lt' small, Char.ofNat_toNat]
  rw [same, ofDigitChars_leftpad]

theorem blockIdByIndex_injective : Function.Injective blockIdByIndex := by
  intro i j same
  have digits := Base64.encode_injective (String.ofList_injective same)
  rw [← eightDigits_spell i, digits, eightDigits_spell]

theorem length_eightDigits (small : index < 100000000) : (eightDigits index).length = 8 := by
  have few : (Nat.toDigits 10 index).length ≤ 8 :=
    (Nat.length_toDigits_le_iff (by decide) (by decide)).mpr small
  rw [eightDigits, List.length_map, List.length_leftpad, Nat.max_eq_left few]

theorem length_blockIdByIndex (small : index < 100000000) :
    (blockIdByIndex index).length = 12 := by
  rw [blockIdByIndex, String.length_ofList, Base64.length_encode, length_eightDigits small]

theorem parseCanonicalBlockIndex_blockIdByIndex (small : index < 100000000) :
    parseCanonicalBlockIndex (blockIdByIndex index) = .ok index := by
  have sized := length_eightDigits small
  have digit {c : Char} (member : c ∈ (Nat.toDigits 10 index).leftpad 8 '0') :=
    isDigit_iff.mp (isDigit_of_mem_leftpad member)
  have text : fromUtf8 (eightDigits index) =
      some (String.ofList ((Nat.toDigits 10 index).leftpad 8 '0')) :=
    fromUtf8_eq_some.mpr
      (utf8Bytes_ofList fun c member => Nat.lt_of_le_of_lt (digit member).2 (by decide)).symm
  have decimal : (eightDigits index).all (fun byte => 48 ≤ byte ∧ byte ≤ 57) = true := by
    rw [List.all_eq_true]
    intro byte member
    obtain ⟨c, inside, rfl⟩ := List.mem_map.mp member
    have := digit inside
    simp only [decide_eq_true_eq, UInt8.le_iff_toNat_le, UInt8.toNat_ofNat', UInt8.reduceToNat]
    omega
  have value : parseU64 (String.ofList ((Nat.toDigits 10 index).leftpad 8 '0')) = some index := by
    have nonempty : (Nat.toDigits 10 index).leftpad 8 '0' ≠ [] := by
      intro none
      rw [eightDigits, none] at sized
      cases sized
    rw [parseU64, String.toList_ofList]
    exact parseUnsigned_eq_some.mpr ⟨Nat.le_trans (Nat.le_of_lt small) (by decide), _,
      ⟨nonempty, fun _ => isDigit_of_mem_leftpad, ofDigitChars_leftpad index⟩, .inl rfl⟩
  simp only [parseCanonicalBlockIndex, blockIdByIndex, String.toList_ofList, Base64.decode_encode,
    ne_eq, not_true_eq_false, if_false, text, sized, decimal, or_self, value]

theorem eq_of_parseCanonicalBlockIndex {encoded : String}
    (parsed : parseCanonicalBlockIndex encoded = .ok index) : encoded = blockIdByIndex index := by
  simp only [parseCanonicalBlockIndex] at parsed
  split at parsed
  · cases parsed
  case h_2 raw decoded =>
    obtain ⟨canonical, parsed⟩ := Result.guard_eq_ok.mp parsed
    split at parsed
    · cases parsed
    obtain ⟨_, parsed⟩ := Result.guard_eq_ok.mp parsed
    split at parsed
    · cases parsed
    obtain ⟨same, parsed⟩ := Result.guard_eq_ok.mp parsed
    cases parsed
    rw [not_not] at canonical same
    rw [blockIdByIndex, same, canonical, String.ofList_toList]

namespace AzureEnv

variable {env : AzureEnv} {task : UploadTask}

theorem validateAzureTask_eq_ok (valid : env.validateAzureTask task = .ok ()) :
    task.chunkSize ≤ maxAzureBlockBytes ∧ task.totalChunks ≤ maxAzureBlocks := by
  simp only [validateAzureTask] at valid
  split at valid
  · cases valid
  simp only [Result.bind_eq_ok, Result.guard_eq_ok] at valid
  obtain ⟨_, _, size, few, _⟩ := valid
  exact ⟨Nat.le_of_not_lt size, Nat.le_of_not_lt few⟩

theorem chunkIndex_block (valid : env.validateAzureTask task = .ok ()) {k : Nat}
    (inside : k < task.totalChunks) : env.chunkIndex task (k * task.chunkSize) = .ok k := by
  obtain ⟨size, few⟩ := validateAzureTask_eq_ok valid
  have small : ¬ (task.chunkAt (k * task.chunkSize)).length > maxAzureBlockBytes := by
    rw [task.length_chunkAt]
    omega
  simp only [chunkIndex, valid, Nat.mul_div_cancel k task.chunkSize_pos]
  exact (if_neg small).trans (if_neg (by omega))

end AzureEnv

/-- Block ids and indices below `10 ^ 8` stand for each other, and the ids of the blocks of an
accepted task are distinct and have the sizes that the executor sends. -/
theorem block_id_codec :
    (∀ index < 10 ^ 8, parseCanonicalBlockIndex (blockIdByIndex index) = .ok index) ∧
    (∀ encoded index, parseCanonicalBlockIndex encoded = .ok index →
      encoded = blockIdByIndex index) ∧
    (∀ index < 10 ^ 8, (blockIdByIndex index).length = 12) ∧
    Function.Injective blockIdByIndex ∧
    ∀ (env : AzureEnv) (task : UploadTask), env.validateAzureTask task = .ok () →
      (∀ k < task.totalChunks, env.chunkIndex task (k * task.chunkSize) = .ok k) ∧
      ((List.range task.totalChunks).map blockIdByIndex).Nodup ∧
      ∃ size : Nat → Nat,
        (∀ k < task.totalChunks,
          expectedBlockSize task.totalSize task.chunkSize k = .ok (size k) ∧
          (task.chunkAt (k * task.chunkSize)).length = size k ∧
          ∀ inner : InnerTask, inner.totalSize = task.totalSize →
            (readUploadChunk inner (k * task.chunkSize) task.chunkSize none).result =
              .ok (some (size k))) ∧
        ((List.range task.totalChunks).map size).sum = task.totalSize := by
  refine ⟨fun _ small => parseCanonicalBlockIndex_blockIdByIndex small,
    fun _ _ parsed => eq_of_parseCanonicalBlockIndex parsed,
    fun _ small => length_blockIdByIndex small, blockIdByIndex_injective, fun env task valid => ⟨fun k inside => ?_, ?_, ?_⟩⟩
  · exact AzureEnv.chunkIndex_block valid inside
  · exact List.nodup_range.map blockIdByIndex_injective
  refine ⟨fun k => min task.chunkSize (task.totalSize - k * task.chunkSize), fun k inside => ?_, ?_⟩
  · have begins := UploadTask.lt_totalChunks_iff.mp inside
    have positive := task.chunkSize_pos
    refine ⟨expectedSize_of_lt task.length_le begins, task.length_chunkAt _, fun inner same => ?_⟩
    simp only [readUploadChunk, same]
    rw [if_neg (by omega), if_neg (by omega)]
    rfl
  · have whole := congrArg List.length task.flatMap_chunkAt_totalChunks
    simp only [List.length_flatMap, task.length_chunkAt] at whole
    exact whole

namespace AzureServer

variable {server : AzureServer} {url url' blockId blockId' : String} {body : Bytes}

theorem putBlock_same : (server.putBlock url blockId body).blocks url blockId = some body := by
  simp [putBlock]

theorem putBlock_other (different : blockId' ≠ blockId) :
    (server.putBlock url blockId body).blocks url blockId' = server.blocks url blockId' := by
  simp [putBlock, different]

theorem putBlock_beside (different : url' ≠ url) :
    (server.putBlock url blockId body).blocks url' = server.blocks url' := by
  simp [putBlock, different]

theorem deleteBlob_beside (different : url' ≠ url) :
    (server.deleteBlob url).blocks url' = server.blocks url' := by
  simp [deleteBlob, different]

end AzureServer

/-! ## What is known of a task -/

namespace AzureState

/-- The task put the block, or the listing reported it with the size it has to have. -/
def Known (s : AzureState) (task : AzureTask) (k : Nat) : Prop :=
  .put task.taskId k ∈ s.evidence ∨
    .reported task.taskId k (min task.chunkSize (task.totalSize - k * task.chunkSize)) ∈ s.evidence

/-- What holds of a task between two calls.  A task that waits at the start begins
anew, so nothing is known of its blocks. -/
structure TaskOk (task : AzureTask) (phase : JobPhase) (s : AzureState) : Prop where
  stored : ∀ k < task.totalChunks, phase.Confirmed (k * task.chunkSize) →
    s.server.blocks task.url (blockIdByIndex k) = some (task.chunkAt (k * task.chunkSize))
  known : phase ≠ .waiting 0 → s.session.targetUrl = some task.url →
    ∀ k ∈ s.session.uploadedBlocks, s.Known task k
  target : ∀ run, phase = .running run → s.session.targetUrl = some task.url
  aligned : ∀ run, phase = .running run → task.Aligned run.start

variable {env : AzureEnv} {task : AzureTask} {s t : AzureState} {confirmed offset : Nat}
  {run : ChunkRun}

theorem Known.mono {k : Nat} (known : s.Known task k) (more : s.evidence ⊆ t.evidence) :
    t.Known task k :=
  known.imp (@more _) (@more _)

/-! ## The calls for the task itself -/

variable {listing : Except MeowError (Option String)} {fate : Delivery Unit} {c : Nat}

theorem known_of_listing {blocks : List AzureBlock}
    (listed : env.listUncommittedBlocks listing = .ok blocks)
    (checked : validateRemoteBlockEntries task.toUploadTask confirmed blocks = .ok ())
    (recorded : env.reports task listing ⊆ s.evidence) :
    ∀ k ∈ blockIndices blocks, s.Known task k := by
  intro k member
  obtain ⟨block, isBlock, rfl⟩ := List.mem_map.mp (List.mem_toFinset.mp member)
  simp only [validateRemoteBlockEntries, Result.bind_eq_ok] at checked
  obtain ⟨_, each, _⟩ := checked
  have valid := Result.forM_eq_ok.mp each block isBlock
  simp only [validateRemoteBlock, Result.guard_eq_ok, Result.bind_eq_ok, ne_eq, not_not] at valid
  obtain ⟨_, size, isSize, same, _⟩ := valid
  rw [expectedSize_eq_ok isSize] at same
  refine Or.inr (recorded ?_)
  rw [AzureEnv.reports, listed, ← same]
  exact List.mem_map.mpr ⟨block, isBlock, rfl⟩

theorem known_resume {session : PutBlockSession}
    (valid : env.validateAzureTask task.toUploadTask = .ok ()) (beyond : confirmed ≠ 0)
    (known : ∀ k ∈ (AzureEnv.retarget task.toUploadTask session).uploadedBlocks, s.Known task k)
    (recorded : env.asks task.toUploadTask confirmed session = true →
      env.reports task listing ⊆ s.evidence) :
    ∀ k ∈ (env.resume task.toUploadTask confirmed listing
      (AzureEnv.retarget task.toUploadTask session)).1.uploadedBlocks, s.Known task k := by
  simp only [AzureEnv.resume]
  cases aligned : validateAzureResumeOffset task.toUploadTask confirmed with
  | error e => exact known
  | ok _ =>
    simp only
    split
    · exact known
    rename_i empty
    rw [ne_eq, not_not] at empty
    simp only [AzureEnv.resumeFromListing]
    cases listed : env.listUncommittedBlocks listing with
    | error e => exact known
    | ok blocks =>
      simp only
      cases checked : validateRemoteBlockEntries task.toUploadTask confirmed blocks with
      | error e => exact known
      | ok _ =>
        simp only [empty, Finset.empty_union]
        refine known_of_listing listed checked (recorded ?_)
        simp [AzureEnv.asks, valid, beyond, aligned, empty]

theorem retarget_targetUrl (task : UploadTask) (session : PutBlockSession) :
    (AzureEnv.retarget task session).targetUrl = some task.url := by
  unfold AzureEnv.retarget
  split
  · assumption
  · rfl

theorem resume_targetUrl (env : AzureEnv) (task : UploadTask) (confirmed : Nat)
    (listing : Except MeowError (Option String)) (session : PutBlockSession) :
    (env.resume task confirmed listing session).1.targetUrl = session.targetUrl := by
  simp only [AzureEnv.resume]
  split
  · rfl
  split
  · rfl
  simp only [AzureEnv.resumeFromListing]
  split
  · rfl
  · split <;> rfl

theorem aligned_of_resume {task : UploadTask} {session : PutBlockSession}
    (ok : (env.resume task confirmed listing session).2 = .ok ()) :
    task.Aligned confirmed := by
  simp only [AzureEnv.resume] at ok
  split at ok
  · cases ok
  · rename_i checked
    exact (resumeOffsetCheck_eq_ok checked).2

theorem prepare_session (env : AzureEnv) (task : UploadTask) (confirmed : Nat)
    (listing : Except MeowError (Option String)) (session : PutBlockSession) :
    (env.prepare task confirmed listing session).1 = session ∨
      (env.prepare task confirmed listing session).1.targetUrl = some task.url := by
  simp only [AzureEnv.prepare]
  split
  · exact Or.inl rfl
  right
  split
  · exact retarget_targetUrl task session
  · exact (resume_targetUrl ..).trans (retarget_targetUrl task session)

theorem evidence_prepare (env : AzureEnv) (task : AzureTask) (confirmed : Nat)
    (listing : Except MeowError (Option String)) (s : AzureState) :
    s.evidence ⊆ (env.protocol.prepare task confirmed listing s).1.evidence :=
  List.subset_append_right _ _

theorem TaskOk.known_retarget (ok : TaskOk task (.waiting confirmed) s) (beyond : confirmed ≠ 0) :
    ∀ k ∈ (AzureEnv.retarget task.toUploadTask s.session).uploadedBlocks, s.Known task k := by
  unfold AzureEnv.retarget
  split
  · rename_i mine
    exact ok.known (fun same => beyond (by cases same; rfl)) mine
  · simp

theorem TaskOk.prepare (ok : TaskOk task (.waiting confirmed) s) :
    TaskOk task (.waiting confirmed) (env.protocol.prepare task confirmed listing s).1 ∧
      ∀ start, Drive.startOffset task.totalSize confirmed
          (env.protocol.prepare task confirmed listing s).2 = some start →
        TaskOk task (.running ⟨start, []⟩) (env.protocol.prepare task confirmed listing s).1 := by
  cases valid : env.validateAzureTask task.toUploadTask with
  | error e =>
    have same : env.protocol.prepare task confirmed listing s = (s, .error e) := by
      simp [AzureEnv.protocol, AzureEnv.prepare, AzureEnv.asks, valid]
    rw [same]
    exact ⟨ok, nofun⟩
  | ok _ =>
    by_cases atStart : confirmed = 0
    · -- the blocks are forgotten
      subst atStart
      have same : env.protocol.prepare task 0 listing s =
          ({ s with session :=
              { AzureEnv.retarget task.toUploadTask s.session with uploadedBlocks := ∅ } },
            .ok { completedFileId := none, nextByte := some 0 }) := by
        simp [AzureEnv.protocol, AzureEnv.prepare, AzureEnv.asks, valid]
      rw [same]
      refine ⟨⟨fun _ _ below => absurd below (Nat.not_lt_zero _), fun _ _ k member => ?_, nofun, nofun⟩,
        fun start answered => ?_⟩
      · simp at member
      · obtain ⟨rfl, _⟩ := Drive.startOffset_same answered
        refine ⟨fun k _ confirmed => ?_, fun _ _ k member => ?_, fun _ _ => retarget_targetUrl .., ?_⟩
        · rcases confirmed with below | acked
          · exact absurd below (Nat.not_lt_zero _)
          · cases acked
        · simp at member
        · rintro run ⟨⟩
          exact Or.inr ⟨0, rfl⟩
    · have session : (env.protocol.prepare task confirmed listing s).1.session =
          (env.resume task.toUploadTask confirmed listing
            (AzureEnv.retarget task.toUploadTask s.session)).1 := by
        simp [AzureEnv.protocol, AzureEnv.prepare, valid, atStart]
      have known : ∀ k ∈ (env.protocol.prepare task confirmed listing s).1.session.uploadedBlocks,
          (env.protocol.prepare task confirmed listing s).1.Known task k := by
        rw [session]
        refine known_resume valid atStart (fun k member =>
          (ok.known_retarget atStart k member).mono (evidence_prepare ..)) fun asked => ?_
        simp [AzureEnv.protocol, asked]
      refine ⟨⟨ok.stored, fun _ _ => known, nofun, nofun⟩, fun start answered => ?_⟩
      obtain ⟨e, failed⟩ | ⟨aligned, answer⟩ :
          (∃ e, (env.protocol.prepare task confirmed listing s).2 = .error e) ∨
          task.Aligned confirmed ∧ (env.protocol.prepare task confirmed listing s).2 =
            .ok { completedFileId := none, nextByte := some confirmed } := by
        cases resumed : (env.resume task.toUploadTask confirmed listing
            (AzureEnv.retarget task.toUploadTask s.session)).2 with
        | error e =>
          exact Or.inl ⟨e, by simp [AzureEnv.protocol, AzureEnv.prepare, valid, atStart, resumed,
            Except.map]⟩
        | ok _ =>
          exact Or.inr ⟨aligned_of_resume resumed, by
            simp [AzureEnv.protocol, AzureEnv.prepare, valid, atStart, resumed, Except.map]⟩
      · rw [failed] at answered
        cases answered
      · rw [answer] at answered
        obtain ⟨rfl, _⟩ := Drive.startOffset_same answered
        refine ⟨fun k inside confirmed => ?_, fun _ _ => known, fun _ _ => ?_, ?_⟩
        · rcases confirmed with below | acked
          · exact ok.stored k inside below
          · cases acked
        · rw [session, resume_targetUrl, retarget_targetUrl]
        · rintro run ⟨⟩
          exact aligned

theorem TaskOk.uploadChunk (ok : TaskOk task (.running run) s)
    (point : Grid.Point run.start task.chunkSize task.totalSize offset) :
    TaskOk task (.running run) (env.protocol.uploadChunk task offset fate s).1 ∧
      ∀ info, (env.protocol.uploadChunk task offset fate s).2 = .ok info →
        TaskOk task (.running { run with acked := offset :: run.acked })
          (env.protocol.uploadChunk task offset fate s).1 := by
  obtain ⟨k, inside, rfl⟩ := (ok.aligned run rfl).chunk point
  simp only [AzureEnv.protocol, AzureEnv.uploadChunk]
  split
  · exact ⟨ok, nofun⟩
  rename_i index isIndex
  have same : index = k := by
    simp only [AzureEnv.chunkIndex, Result.bind_eq_ok, Result.guard_eq_ok] at isIndex
    obtain ⟨_, _, _, _, isIndex⟩ := isIndex
    cases isIndex
    exact Nat.mul_div_cancel _ task.chunkSize_pos
  subst same
  rcases fate.deliver_cases s.server (some (s.server.putBlock task.url (blockIdByIndex index)
      (task.chunkAt (index * task.chunkSize)))) with ⟨after, put, delivered⟩ | ⟨e, delivered⟩
  · cases put
    -- the blocks of the task that were there, and the new one
    have stored : ∀ m < task.totalChunks,
        m = index ∨ (JobPhase.running run).Confirmed (m * task.chunkSize) →
        (s.server.putBlock task.url (blockIdByIndex index)
          (task.chunkAt (index * task.chunkSize))).blocks task.url (blockIdByIndex m) =
            some (task.chunkAt (m * task.chunkSize)) := by
      intro m inPlan known
      by_cases same : m = index
      · rw [same, AzureServer.putBlock_same]
      · rw [AzureServer.putBlock_other fun equal => same (blockIdByIndex_injective equal)]
        exact ok.stored m inPlan (known.resolve_left same)
    simp only [delivered]
    cases fate.answer with
    | error e =>
      exact ⟨⟨fun m inPlan known => stored m inPlan (Or.inr known), ok.known, ok.target,
        ok.aligned⟩, nofun⟩
    | ok _ =>
      have known : ∀ m ∈ insert index s.session.uploadedBlocks, ({ s with
          evidence := .put task.taskId index :: s.evidence } : AzureState).Known task m := by
        intro m member
        rcases Finset.mem_insert.mp member with rfl | old
        · exact Or.inl (List.mem_cons_self ..)
        · exact (ok.known nofun (ok.target run rfl) m old).mono (List.subset_cons_self _ _)
      refine ⟨⟨fun m inPlan known => stored m inPlan (Or.inr known), fun _ _ => known,
        ok.target, ok.aligned⟩, fun _ _ => ⟨fun m inPlan confirmed => stored m inPlan ?_,
        fun _ _ => known, fun _ _ => ok.target run rfl, ?_⟩⟩
      · rcases confirmed with below | acked
        · exact Or.inr (Or.inl below)
        · rcases List.mem_cons.mp acked with equal | old
          · exact Or.inl (Nat.eq_of_mul_eq_mul_right task.chunkSize_pos equal)
          · exact Or.inr (Or.inr old)
      · rintro other ⟨⟩
        exact ok.aligned run rfl
  · simp only [delivered]
    exact ⟨ok, nofun⟩

theorem TaskOk.pause (ok : TaskOk task (.running run) s)
    (confirms : run.Confirms task.chunkSize task.totalSize confirmed) :
    TaskOk task (.waiting confirmed) s :=
  ⟨fun k inside below => ok.stored k inside ((ok.aligned run rfl).confirmed confirms.2.2 inside below),
    fun _ => ok.known nofun, nofun, nofun⟩

theorem TaskOk.mapM_blocks (ok : TaskOk task (.running run) s)
    (all : run.AllAcked task.chunkSize task.totalSize) :
    ((List.range task.totalChunks).map blockIdByIndex).mapM (s.server.blocks task.url) =
      some ((List.range task.totalChunks).map fun k => task.chunkAt (k * task.chunkSize)) := by
  have each : ∀ ks : List Nat, (∀ k ∈ ks, k < task.totalChunks) →
      (ks.map blockIdByIndex).mapM (s.server.blocks task.url) =
        some (ks.map fun k => task.chunkAt (k * task.chunkSize)) := by
    intro ks inside
    induction ks with
    | nil => rfl
    | cons k rest ih =>
      have here := inside k (List.mem_cons_self ..)
      have confirmed := (ok.aligned run rfl).confirmed all here (UploadTask.lt_totalChunks_iff.mp here)
      rw [List.map_cons, List.mapM_cons, ok.stored k here confirmed,
        ih fun m member => inside m (List.mem_cons_of_mem _ member)]
      rfl
  exact each _ fun k => List.mem_range.mp

theorem TaskOk.complete (ok : TaskOk task (.running run) s)
    (all : run.AllAcked task.chunkSize task.totalSize) :
    (∀ payload, (env.protocol.completeUpload task fate s).2 = .ok payload →
      (env.protocol.completeUpload task fate s).1.server.blobs task.url = some task.content) ∧
    ∀ e, (env.protocol.completeUpload task fate s).2 = .error e →
      TaskOk task (.running run) (env.protocol.completeUpload task fate s).1 := by
  simp only [AzureEnv.protocol, AzureEnv.completeUpload]
  split
  · exact ⟨nofun, fun _ _ => ok⟩
  rename_i blockIds isList
  have same : blockIds = (List.range task.totalChunks).map blockIdByIndex := by
    simp only [AzureEnv.blockList, Result.bind_eq_ok] at isList
    obtain ⟨_, _, _, _, isList⟩ := isList
    cases isList
    rfl
  subst same
  rcases fate.deliver_cases s.server (s.server.putBlockList task.url
      ((List.range task.totalChunks).map blockIdByIndex)) with ⟨after, put, delivered⟩ | ⟨e, delivered⟩
  · rw [AzureServer.putBlockList, ok.mapM_blocks all] at put
    cases put
    simp only [delivered]
    cases fate.answer with
    | error e => exact ⟨nofun, fun _ _ => ⟨ok.stored, ok.known, ok.target, ok.aligned⟩⟩
    | ok _ =>
      refine ⟨fun _ _ => ?_, nofun⟩
      change Function.update _ _ _ _ = _
      rw [Function.update_self, ← List.flatMap_def, task.flatMap_chunkAt_totalChunks]
  · simp only [delivered]
    exact ⟨nofun, fun _ _ => ok⟩

/-! ## The calls for other tasks -/

variable {other : AzureTask} {phase : JobPhase}

theorem TaskOk.besidePrepare (apart : task.url ≠ other.url) (ok : TaskOk other (.waiting c) s) :
    TaskOk other (.waiting c) (env.protocol.prepare task confirmed listing s).1 := by
  refine ⟨ok.stored, fun beyond mine k member => ?_, nofun, nofun⟩
  rcases prepare_session env task.toUploadTask confirmed listing s.session with same | turned
  · have session : (env.protocol.prepare task confirmed listing s).1.session = s.session := same
    rw [session] at mine member
    exact (ok.known beyond mine k member).mono (evidence_prepare ..)
  · have session : (env.protocol.prepare task confirmed listing s).1.session.targetUrl =
        some task.url := turned
    rw [session] at mine
    exact absurd (Option.some.inj mine) apart

theorem TaskOk.besideChunk (running : TaskOk task (.running run) s) (apart : task.url ≠ other.url)
    (ok : TaskOk other (.waiting c) s) :
    TaskOk other (.waiting c) (env.protocol.uploadChunk task offset fate s).1 := by
  -- the session belongs to the running task
  have notMine : s.session.targetUrl ≠ some other.url := by
    rw [running.target run rfl]
    exact fun same => apart (Option.some.inj same)
  simp only [AzureEnv.protocol, AzureEnv.uploadChunk]
  split
  · exact ok
  rename_i index _
  rcases fate.deliver_cases s.server (some (s.server.putBlock task.url (blockIdByIndex index)
      (task.chunkAt offset))) with ⟨after, put, delivered⟩ | ⟨e, delivered⟩
  · cases put
    have stored : ∀ k < other.totalChunks, (JobPhase.waiting c).Confirmed (k * other.chunkSize) →
        (s.server.putBlock task.url (blockIdByIndex index) (task.chunkAt offset)).blocks other.url
          (blockIdByIndex k) = some (other.chunkAt (k * other.chunkSize)) := by
      rw [AzureServer.putBlock_beside (Ne.symm apart)]
      exact ok.stored
    simp only [delivered]
    cases fate.answer with
    | error e => exact ⟨stored, ok.known, nofun, nofun⟩
    | ok _ => exact ⟨stored, fun _ mine => absurd mine notMine, nofun, nofun⟩
  · simp only [delivered]
    exact ok

theorem TaskOk.besideComplete (ok : TaskOk other (.waiting c) s) :
    TaskOk other (.waiting c) (env.protocol.completeUpload task fate s).1 := by
  simp only [AzureEnv.protocol, AzureEnv.completeUpload]
  split
  · exact ok
  rename_i blockIds _
  rcases fate.deliver_cases s.server (s.server.putBlockList task.url blockIds) with
    ⟨after, put, delivered⟩ | ⟨e, delivered⟩
  · obtain ⟨bodies, _, rfl⟩ := Option.map_eq_some_iff.mp put
    simp only [delivered]
    cases fate.answer with
    | error e => exact ⟨ok.stored, ok.known, nofun, nofun⟩
    | ok _ => exact ⟨ok.stored, fun _ _ k member => by simp at member, nofun, nofun⟩
  · simp only [delivered]
    exact ok

theorem TaskOk.besideAbort (apart : task.url ≠ other.url) (ok : TaskOk other phase s) :
    TaskOk other phase (env.protocol.abortUpload task fate s).1 := by
  simp only [AzureEnv.protocol, AzureEnv.abortUpload]
  split
  · exact ok
  rcases fate.deliver_cases s.server (some (s.server.deleteBlob task.url)) with
    ⟨after, put, delivered⟩ | ⟨e, delivered⟩
  · cases put
    have stored : ∀ k < other.totalChunks, phase.Confirmed (k * other.chunkSize) →
        (s.server.deleteBlob task.url).blocks other.url (blockIdByIndex k) =
          some (other.chunkAt (k * other.chunkSize)) := by
      rw [AzureServer.deleteBlob_beside (Ne.symm apart)]
      exact ok.stored
    simp only [delivered]
    cases fate.answer with
    | error e => exact ⟨stored, ok.known, ok.target, ok.aligned⟩
    | ok _ => exact ⟨stored, fun _ _ k member => by simp at member, ok.target, ok.aligned⟩
  · simp only [delivered]
    exact ok

end AzureState

/-! ## Runs -/

section Runs

variable {env : AzureEnv}

theorem AzureEnv.keeps (env : AzureEnv) :
    Drive.Keeps env.protocol (fun a b => a.url ≠ b.url) AzureState.TaskOk where
  prepared ok answered := ok.prepare.2 _ answered
  prepareFailed ok _ := ok.prepare.1
  acked ok point answered := (ok.uploadChunk point).2 _ answered
  chunkFailed ok point _ := (ok.uploadChunk point).1
  paused ok confirms := ok.pause confirms
  completeFailed ok all answered := (ok.complete all).2 _ answered
  besidePrepare apart ok := ok.besidePrepare apart
  besideChunk running apart ok := running.besideChunk apart ok
  besideComplete _ _ ok := ok.besideComplete
  besideAbort apart ok := ok.besideAbort apart

abbrev AzureLabel :=
  DriveLabel AzureTask (Except MeowError (Option String)) (Delivery Unit) (Delivery Unit)
    (Delivery Unit)

/-- Tasks whose lifetimes overlap have different blobs; no two tasks have the same number. -/
def DifferentBlobs (s : Drive AzureState AzureTask) : AzureLabel → Prop
  | .submit task =>
    (∀ job ∈ s.jobs, job.phase ≠ .ended → job.task.url ≠ task.url) ∧
      ∀ job ∈ s.jobs, job.task.taskId ≠ task.taskId
  | _ => True

instance (s : Drive AzureState AzureTask) (label : AzureLabel) :
    Decidable (DifferentBlobs s label) :=
  match label with
  | .submit task =>
    inferInstanceAs (Decidable ((∀ job ∈ s.jobs, job.phase ≠ .ended → job.task.url ≠ task.url) ∧
      ∀ job ∈ s.jobs, job.task.taskId ≠ task.taskId))
  | .prepare .. | .uploadChunk .. | .pause .. | .complete .. | .fail _ | .cancel .. => isTrue trivial

theorem admits_of_differentBlobs {s : Drive AzureState AzureTask} {label : AzureLabel}
    (different : DifferentBlobs s label) :
    Drive.Admits (fun a b => a.url ≠ b.url) AzureState.TaskOk s label := by
  cases label with
  | submit task =>
    exact ⟨fun job member live =>
      ⟨different.1 job member live, Ne.symm (different.1 job member live)⟩,
      fun _ _ below => absurd below (Nat.not_lt_zero _), fun beyond => absurd rfl beyond, nofun, nofun⟩
  | _ => trivial

/-- The block list of a running task: it is sent only when every block is known, it names
the blocks of the task in order under distinct ids of one length, and when it is
committed the blob is the content of the task. -/
theorem run_blob {session : PutBlockSession} {server : AzureServer}
    {s : Drive AzureState AzureTask} {index : Nat} {task : AzureTask} {run : ChunkRun}
    (reached : Machine.Run (Drive.step env.protocol) DifferentBlobs
      { jobs := [], state := { session := session, server := server, evidence := [] } } s)
    (here : s.jobs[index]? = some ⟨task, .running run⟩) :
    (∀ blockIds, env.blockList task.toUploadTask s.state.session = .ok blockIds →
      (∀ k < task.totalChunks, s.state.Known task k) ∧
      blockIds = (List.range task.totalChunks).map blockIdByIndex ∧ blockIds.Nodup ∧
      ∀ blockId ∈ blockIds, blockId.length = 12) ∧
    ∀ fate t, s.step env.protocol (.complete index fate) = some t →
      t.jobs[index]? = some ⟨task, .ended⟩ →
      t.state.server.blobs task.url = some task.content := by
  have jobs := Drive.run_jobsOk env.keeps (reached.weaken fun s label => admits_of_differentBlobs)
  have ok := jobs.holds here nofun
  refine ⟨fun blockIds isList => ?_, fun fate t completed ended => ?_⟩
  · simp only [AzureEnv.blockList, Result.bind_eq_ok] at isList
    obtain ⟨_, valid, _, present, isList⟩ := isList
    cases isList
    obtain ⟨_, few⟩ := AzureEnv.validateAzureTask_eq_ok valid
    refine ⟨fun k inside => ?_, rfl, List.nodup_range.map blockIdByIndex_injective, ?_⟩
    · have there := Result.forM_eq_ok.mp present k (List.mem_range.mpr inside)
      simp only [Result.guard_eq_ok, not_not] at there
      exact ok.known nofun (ok.target run rfl) k there.1
    · intro blockId member
      obtain ⟨k, inRange, rfl⟩ := List.mem_map.mp member
      have inside := List.mem_range.mp inRange
      have bound : maxAzureBlocks < 100000000 := by decide
      exact length_blockIdByIndex (by omega)
  · cases Drive.step_cases completed with
    | completed there all answered =>
      rw [here] at there
      cases there
      exact (ok.complete all).1 _ answered
    | completeFailed there all answered =>
      change s.jobs[index]? = _ at ended
      rw [here] at ended
      cases ended

def azureSample : AzureEnv where
  parseUrl _ := .ok { path := "/c/b", queryKeys := [] }
  parseDocument _ :=
    .ok [.element "BlockList" none [.element "UncommittedBlocks" none
      [.element "Block" none [.element "Name" none [.text "MDAwMDAwMDA="],
        .element "Size" none [.text "4"]]]]]
  sanitizeUrl := id

def azureTask (url : String) (taskId : Nat) : AzureTask where
  url := url
  content := [1, 2, 3, 4, 5, 6]
  chunkSize := 4
  chunkSize_pos := sample_chunk
  length_le := (by decide : 6 ≤ u64Max)
  taskId := taskId

def azureOrigin : Drive AzureState AzureTask where
  jobs := []
  state :=
    { session := { targetUrl := none, uploadedBlocks := ∅ }
      server := { blocks := fun _ _ => none, blobs := fun _ => none }
      evidence := [] }

/-- A task is paused after its first block, another one takes its turn and fails, and the
first one goes on with the block that the listing reports. -/
def takingTurns : List AzureLabel :=
  [.submit (azureTask "a" 0), .prepare 0 (.ok none), .uploadChunk 0 0 (.fine ()), .pause 0 4,
    .submit (azureTask "b" 1), .prepare 1 (.ok none), .fail 1, .prepare 0 (.ok (some "")),
    .uploadChunk 0 4 (.fine ())]

theorem run_blob_takingTurns :
    ∃ s t, Machine.exec (Drive.step azureSample.protocol) azureOrigin takingTurns = some s ∧
      s.state.session.uploadedBlocks = {0, 1} ∧
      s.step azureSample.protocol (.complete 0 (.fine ())) = some t ∧
      t.state.server.blobs "a" = some [1, 2, 3, 4, 5, 6] := by
  obtain ⟨s, executed, here, held, t, completed, ended⟩ :
      ∃ s, Machine.exec (Drive.step azureSample.protocol) azureOrigin takingTurns = some s ∧
        s.jobs[0]? = some ⟨azureTask "a" 0, .running ⟨4, [4]⟩⟩ ∧
        s.state.session.uploadedBlocks = {0, 1} ∧
        ∃ t, s.step azureSample.protocol (.complete 0 (.fine ())) = some t ∧
          t.jobs[0]? = some ⟨azureTask "a" 0, .ended⟩ :=
    ⟨_, rfl, rfl, by decide, _, rfl, rfl⟩
  have reached : Machine.Run (Drive.step azureSample.protocol) DifferentBlobs azureOrigin s :=
    Machine.run_of_exec executed (by decide)
  exact ⟨s, t, executed, held, completed, (run_blob reached here).2 (.fine ()) t completed ended⟩

end Runs

end RustyCat
