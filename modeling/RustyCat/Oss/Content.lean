import RustyCat.Oss.Upload
import RustyCat.Provider.Jobs

/-!
# The content of OSS objects

Tasks are driven one after another through one instance.  An upload id that an
earlier task left in the session is used again for the same URL, so the object is
the content of the task only if the upload of that id holds no parts of another
content.
-/

namespace RustyCat

namespace UploadTask

variable (task : UploadTask)

def partAt (k : Nat) : Nat × Bytes := (k + 1, task.chunkAt (k * task.chunkSize))

def allParts : List (Nat × Bytes) := (List.range task.totalChunks).map task.partAt

theorem ascending_allParts : Sorted.Ascending Prod.fst task.allParts :=
  List.pairwise_map.mpr (List.pairwise_lt_range.imp fun before => Nat.succ_lt_succ before)

theorem flatMap_allParts : task.allParts.flatMap Prod.snd = task.content := by
  rw [allParts, List.flatMap_map]
  exact task.flatMap_chunkAt_totalChunks

end UploadTask

namespace OssState

/-- The upload that the session would go on with for the task. -/
def Going (s : OssState) (task : UploadTask) (parts : List (Nat × Bytes)) : Prop :=
  ∃ uploadId, s.session.cached task.url = some uploadId ∧ s.server.uploads uploadId = some parts

def OnlyParts (s : OssState) (task : UploadTask) : Prop :=
  ∀ parts, s.Going task parts → ∀ entry ∈ parts, entry ∈ task.allParts

structure TaskOk (task : UploadTask) (phase : JobPhase) (s : OssState) : Prop where
  only : s.OnlyParts task
  stored : ∀ parts, s.Going task parts → ∀ k < task.totalChunks,
    phase.Confirmed (k * task.chunkSize) → task.partAt k ∈ parts
  opened : s.session.cached task.url = none → phase = .waiting 0
  aligned : ∀ run, phase = .running run → task.Aligned run.start

end OssState

theorem MultipartSession.cached_eq_some {session : MultipartSession} {url uploadId : String} :
    session.cached url = some uploadId ↔
      session.targetUrl = some url ∧ session.uploadId = some uploadId := by
  simp [cached]

theorem OssServer.putPart_eq_some {server after : OssServer} {uploadId : String} {number : Nat}
    {body : Bytes} (put : server.putPart uploadId number body = some after) :
    ∃ parts, server.uploads uploadId = some parts ∧
      after.uploads uploadId = some (Sorted.insert Prod.fst (number, body) parts) := by
  simp only [putPart] at put
  split at put
  · cases put
  rename_i parts known
  cases put
  exact ⟨parts, known, by simp [setUpload]⟩

section Calls

variable {env : OssEnv} {task : UploadTask} {s : OssState}

namespace OssState

variable {confirmed offset : Nat} {run : ChunkRun}

theorem taskOk_of_empty (uploadId : String) (cached : s.session.cached task.url = some uploadId)
    (empty : s.server.uploads uploadId = some []) : TaskOk task (.running ⟨0, []⟩) s := by
  have none : ∀ parts, s.Going task parts → parts = [] := by
    rintro parts ⟨other, isOther, known⟩
    rw [cached] at isOther
    cases isOther
    rw [empty] at known
    cases known
    rfl
  refine ⟨fun parts going entry member => ?_, fun parts _ k _ confirmed => ?_,
    fun gone => ?_, fun run isRun => ?_⟩
  · rw [none parts going] at member
    cases member
  · rcases confirmed with below | acked
    · exact absurd below (Nat.not_lt_zero _)
    · cases acked
  · rw [cached] at gone
    cases gone
  · cases isRun
    exact Or.inr ⟨0, rfl⟩

theorem TaskOk.start (ok : TaskOk task (.waiting confirmed) s)
    (opened : s.session.cached task.url ≠ none)
    (aligned : task.Aligned confirmed) :
    TaskOk task (.running ⟨confirmed, []⟩) s := by
  refine ⟨ok.only, fun parts going k inside known => ?_, fun gone => absurd gone opened,
    fun run isRun => by cases isRun; exact aligned⟩
  rcases known with below | acked
  · exact ok.stored parts going k inside below
  · cases acked

theorem TaskOk.prepare {input : OssPrepareInput env} (ok : TaskOk task (.waiting confirmed) s) :
    TaskOk task (.waiting confirmed) (env.protocol.prepare task confirmed input s).1 ∧
      ∀ start, Drive.startOffset task.totalSize confirmed
          (env.protocol.prepare task confirmed input s).2 = some start →
        TaskOk task (.running ⟨start, []⟩) (env.protocol.prepare task confirmed input s).1 := by
  cases valid : env.validateOssTask task with
  | error e =>
    have same : env.protocol.prepare task confirmed input s = (s, .error e) := by
      simp [OssEnv.protocol, OssEnv.prepare, OssEnv.initiates, valid]
    rw [same]
    exact ⟨ok, nofun⟩
  | ok _ =>
    cases known : s.session.cached task.url with
    | some uploadId =>
      have same : env.protocol.prepare task confirmed input s = (s, do
          validateResumeOffset task confirmed
          .ok { completedFileId := none, nextByte := some confirmed }) := by
        simp [OssEnv.protocol, OssEnv.prepare, OssEnv.initiates, valid, known]
      rw [same]
      refine ⟨ok, fun start answered => ?_⟩
      cases checked : validateResumeOffset task confirmed with
      | error e =>
        rw [checked] at answered
        cases answered
      | ok _ =>
        rw [checked] at answered
        obtain ⟨rfl, _⟩ := Drive.startOffset_same answered
        exact ok.start (by simp [known]) (resumeOffsetCheck_eq_ok checked).2
    | none =>
      -- nothing was confirmed, so the service is asked for a new upload
      cases ok.opened known
      cases opened : env.initiateMultipartUpload input.answers.initiate with
      | error e =>
        have same : env.protocol.prepare task 0 input s =
            ({ session := { targetUrl := some task.url, uploadId := none }
               server := s.server.issue input.issued }, .error e) := by
          simp [OssEnv.protocol, OssEnv.prepare, OssEnv.initiates, OssEnv.openSession, valid, known,
            opened]
        rw [same]
        refine ⟨⟨?_, ?_, fun _ => rfl, nofun⟩, nofun⟩
        · rintro parts ⟨uploadId, cached, _⟩
          simp [MultipartSession.cached] at cached
        · rintro parts ⟨uploadId, cached, _⟩
          simp [MultipartSession.cached] at cached
      | ok uploadId =>
        have issued := input.issued_of_ok uploadId opened
        have same : env.protocol.prepare task 0 input s =
            ({ session := { targetUrl := some task.url, uploadId := some uploadId }
               server := s.server.initiate uploadId },
              .ok { completedFileId := none, nextByte := some 0 }) := by
          simp [OssEnv.protocol, OssEnv.prepare, OssEnv.initiates, OssEnv.openSession, valid, known,
            opened, issued, OssServer.issue]
        rw [same]
        have fresh : TaskOk task (.running ⟨0, []⟩)
            { session := { targetUrl := some task.url, uploadId := some uploadId }
              server := s.server.initiate uploadId } :=
          taskOk_of_empty uploadId (by simp [MultipartSession.cached])
            (by simp [OssServer.initiate, OssServer.setUpload])
        refine ⟨⟨fresh.only, fun _ _ _ _ below => absurd below (Nat.not_lt_zero _), fun _ => rfl,
          nofun⟩, fun start answered => ?_⟩
        obtain ⟨rfl, _⟩ := Drive.startOffset_same answered
        exact fresh

theorem insert_partAt {parts : List (Nat × Bytes)} (ascending : Sorted.Ascending Prod.fst parts)
    {k : Nat} (inside : k < task.totalChunks) (only : ∀ entry ∈ parts, entry ∈ task.allParts) :
    (∀ entry ∈ Sorted.insert Prod.fst (task.partAt k) parts, entry ∈ task.allParts) ∧
      task.partAt k ∈ Sorted.insert Prod.fst (task.partAt k) parts ∧
      ∀ m, task.partAt m ∈ parts → task.partAt m ∈ Sorted.insert Prod.fst (task.partAt k) parts := by
  refine ⟨fun entry member => ?_, (Sorted.mem_insert ascending).mpr (Or.inl rfl), fun m member => ?_⟩
  · rcases (Sorted.mem_insert ascending).mp member with rfl | ⟨old, _⟩
    · exact List.mem_map.mpr ⟨k, List.mem_range.mpr inside, rfl⟩
    · exact only entry old
  · rw [Sorted.mem_insert ascending]
    by_cases same : m = k
    · exact Or.inl (by rw [same])
    · exact Or.inr ⟨member, fun equal => same (by simpa [UploadTask.partAt] using equal)⟩

variable (ok : TaskOk task (.running run) s)
include ok

theorem TaskOk.cached :
    ∃ uploadId, s.session.cached task.url = some uploadId := by
  cases known : s.session.cached task.url with
  | some uploadId => exact ⟨uploadId, rfl⟩
  | none => cases ok.opened known

theorem TaskOk.uploadChunk {fate : Delivery (Option String)}
    (point : Grid.Point run.start task.chunkSize task.totalSize offset) :
    TaskOk task (.running run) (env.protocol.uploadChunk task offset fate s).1 ∧
      ∀ info, (env.protocol.uploadChunk task offset fate s).2 = .ok info →
        TaskOk task (.running { run with acked := offset :: run.acked })
          (env.protocol.uploadChunk task offset fate s).1 := by
  obtain ⟨uploadId, cached⟩ := ok.cached
  obtain ⟨k, inside, rfl⟩ := (ok.aligned run rfl).chunk point
  have isId := (MultipartSession.cached_eq_some.mp cached).2
  simp only [OssEnv.protocol]
  split
  · exact ⟨ok, nofun⟩
  rename_i requestId number requested
  have same : requestId = uploadId ∧ number = k + 1 := by
    simp only [OssEnv.chunkRequest, isId, Result.bind_eq_ok, Result.guard_eq_ok] at requested
    obtain ⟨_, _, _, requested⟩ := requested
    cases requested
    exact ⟨rfl, by rw [Nat.mul_div_cancel _ task.chunkSize_pos]⟩
  obtain ⟨rfl, rfl⟩ := same
  rcases fate.deliver_cases s.server
      (s.server.putPart requestId (k + 1) (task.chunkAt (k * task.chunkSize))) with
    ⟨after, put, delivered⟩ | ⟨e, delivered⟩
  · obtain ⟨parts, known, stored⟩ := OssServer.putPart_eq_some put
    obtain ⟨onlyParts, mine, others⟩ := insert_partAt (s.server.ascending _ _ known) inside
      (ok.only parts ⟨requestId, cached, known⟩)
    -- the upload of the task is the one with the new part
    have going : ∀ kept, ({ s with server := after } : OssState).Going task kept →
        kept = Sorted.insert Prod.fst (task.partAt k) parts := by
      rintro kept ⟨other, isOther, isKept⟩
      change s.session.cached task.url = some other at isOther
      rw [cached] at isOther
      cases isOther
      rw [stored] at isKept
      cases isKept
      rfl
    have running : TaskOk task (.running { run with acked := k * task.chunkSize :: run.acked })
        { s with server := after } := by
      refine ⟨fun kept isKept => ?_, fun kept isKept m inPlan confirmed => ?_,
        fun gone => ?_, fun other isRun => ?_⟩
      · rw [going kept isKept]
        exact onlyParts
      · rw [going kept isKept]
        rcases confirmed with below | acked
        · exact others m (ok.stored parts ⟨requestId, cached, known⟩ m inPlan (Or.inl below))
        · rcases List.mem_cons.mp acked with equal | old
          · rw [Nat.eq_of_mul_eq_mul_right task.chunkSize_pos equal]
            exact mine
          · exact others m (ok.stored parts ⟨requestId, cached, known⟩ m inPlan (Or.inr old))
      · exact absurd (gone.symm.trans cached) nofun
      · cases isRun
        exact ok.aligned run rfl
    have before : TaskOk task (.running run) { s with server := after } :=
      ⟨running.only, fun kept isKept m inPlan confirmed =>
        running.stored kept isKept m inPlan (confirmed.imp_right (List.mem_cons_of_mem _)),
        fun gone => absurd (gone.symm.trans cached) nofun, fun other isRun => by
          cases isRun
          exact ok.aligned run rfl⟩
    simp only [delivered]
    cases fate.answer with
    | error e => exact ⟨before, nofun⟩
    | ok etag => exact ⟨before, fun _ _ => running⟩
  · simp only [delivered]
    exact ⟨ok, nofun⟩

theorem TaskOk.pause (confirms : run.Confirms task.chunkSize task.totalSize confirmed) :
    TaskOk task (.waiting confirmed) s := by
  obtain ⟨_, _, covered⟩ := confirms
  obtain ⟨uploadId, cached⟩ := ok.cached
  exact ⟨ok.only, fun parts going k inside below =>
    ok.stored parts going k inside ((ok.aligned run rfl).confirmed covered inside below),
    fun gone => absurd (gone.symm.trans cached) nofun, nofun⟩

theorem TaskOk.whole (all : run.AllAcked task.chunkSize task.totalSize) {uploadId : String}
    {parts : List (Nat × Bytes)} (cached : s.session.cached task.url = some uploadId)
    (known : s.server.uploads uploadId = some parts) : parts = task.allParts := by
  refine (s.server.ascending uploadId parts known).ext task.ascending_allParts fun entry =>
    ⟨ok.only parts ⟨uploadId, cached, known⟩ entry, fun member => ?_⟩
  obtain ⟨k, inRange, rfl⟩ := List.mem_map.mp member
  have inside := List.mem_range.mp inRange
  exact ok.stored parts ⟨uploadId, cached, known⟩ k inside
    ((ok.aligned run rfl).confirmed all inside (UploadTask.lt_totalChunks_iff.mp inside))

theorem TaskOk.complete {fate : Delivery Unit} (all : run.AllAcked task.chunkSize task.totalSize) :
    (∀ payload, (env.protocol.completeUpload task fate s).2 = .ok payload →
      (env.protocol.completeUpload task fate s).1.server.objects task.url = some task.content) ∧
    ∀ e, (env.protocol.completeUpload task fate s).2 = .error e →
      TaskOk task (.running run) (env.protocol.completeUpload task fate s).1 := by
  obtain ⟨uploadId, cached⟩ := ok.cached
  have isId := (MultipartSession.cached_eq_some.mp cached).2
  simp only [OssEnv.protocol, OssEnv.completeUpload]
  cases env.validateOssTask task with
  | error e => exact ⟨nofun, fun _ _ => ok⟩
  | ok _ =>
    simp only [isId]
    rcases fate.deliver_cases s.server (s.server.completeAll task.url uploadId) with
      ⟨after, completed, delivered⟩ | ⟨e, delivered⟩
    · obtain ⟨parts, known, rfl⟩ := Option.map_eq_some_iff.mp completed
      simp only [delivered]
      cases fate.answer with
      | ok _ => exact ⟨fun _ _ => by simp [ok.whole all cached known, task.flatMap_allParts], nofun⟩
      | error e =>
        -- the answer was lost: the service does not know the upload any more
        have gone : ∀ kept, ¬ ({ s with server := { s.server.abort uploadId with
            objects := Function.update s.server.objects task.url
              (some (parts.flatMap Prod.snd)) } } : OssState).Going task kept := by
          rintro kept ⟨other, isOther, isKept⟩
          change s.session.cached task.url = some other at isOther
          rw [cached] at isOther
          cases isOther
          simp [OssServer.abort, OssServer.setUpload] at isKept
        exact ⟨nofun, fun _ _ => ⟨fun kept isKept => absurd isKept (gone kept), fun kept isKept =>
          absurd isKept (gone kept), ok.opened, ok.aligned⟩⟩
    · simp only [delivered]
      exact ⟨nofun, fun _ _ => ok⟩

end OssState

end Calls

/-! ## Runs -/

section Runs

variable {env : OssEnv}

theorem OssEnv.keeps (env : OssEnv) :
    Drive.Keeps env.protocol (fun _ _ => False) OssState.TaskOk where
  prepared ok answered := ok.prepare.2 _ answered
  prepareFailed ok _ := ok.prepare.1
  acked ok point answered := (ok.uploadChunk point).2 _ answered
  chunkFailed ok point _ := (ok.uploadChunk point).1
  paused ok confirms := ok.pause confirms
  completeFailed ok all answered := (ok.complete all).2 _ answered
  besidePrepare := False.elim
  besideChunk _ := False.elim
  besideComplete _ := False.elim
  besideAbort := False.elim

abbrev OssLabel (env : OssEnv) :=
  DriveLabel UploadTask (OssPrepareInput env) (Delivery (Option String)) (Delivery Unit)
    (Delivery Unit)

/-- A task is submitted when the tasks before it have ended. -/
def OneAfterAnother (s : Drive OssState UploadTask) : OssLabel env → Prop
  | .submit _ => ∀ job ∈ s.jobs, job.phase = .ended
  | _ => True

/-- When a task is submitted, the upload whose id is kept for its URL, if there is
one, holds only parts of that task. -/
def NoForeignParts (s : Drive OssState UploadTask) : OssLabel env → Prop
  | .submit task => s.state.OnlyParts task
  | _ => True

theorem admits_of_clean {s : Drive OssState UploadTask} {label : OssLabel env}
    (ordered : OneAfterAnother s label) (clean : NoForeignParts s label) :
    Drive.Admits (fun _ _ => False) OssState.TaskOk s label := by
  cases label with
  | submit task =>
    exact ⟨fun job member live => absurd (ordered job member) live,
      clean, fun _ _ _ _ below => absurd below (Nat.not_lt_zero _), fun _ => rfl, nofun⟩
  | _ => trivial

/-- The object at the URL of a completed task is the content of that task. -/
theorem run_object {state : OssState} {s t : Drive OssState UploadTask} {index : Nat}
    {task : UploadTask} {fate : Delivery Unit}
    (reached : Machine.Run (Drive.step env.protocol)
      (fun s label => OneAfterAnother s label ∧ NoForeignParts s label)
      { jobs := [], state := state } s)
    (completed : s.step env.protocol (.complete index fate) = some t)
    (ended : t.jobs[index]? = some ⟨task, .ended⟩) :
    t.state.server.objects task.url = some task.content := by
  have ok := Drive.run_jobsOk env.keeps
    (reached.weaken fun s label both => admits_of_clean both.1 both.2)
  cases Drive.step_cases completed with
  | completed here all answered =>
    obtain ⟨_, same⟩ | ⟨other, _⟩ := Drive.getElem?_setPhase ended
    · cases same
      exact ((ok.holds here nofun).complete all).1 _ answered
    · exact absurd rfl other
  | completeFailed here all answered =>
    change s.jobs[index]? = _ at ended
    rw [here] at ended
    cases ended

instance (s : Drive OssState UploadTask) (label : OssLabel env) :
    Decidable (OneAfterAnother s label) :=
  match label with
  | .submit _ => inferInstanceAs (Decidable (∀ job ∈ s.jobs, job.phase = .ended))
  | .prepare .. | .uploadChunk .. | .pause .. | .complete .. | .fail _ | .cancel .. => isTrue trivial

def issuingEnv : OssEnv where
  parseUrl _ := .ok { path := "/k", queryKeys := [] }
  parseDocument _ :=
    .ok [.element "InitiateMultipartUploadResult" none [.element "UploadId" none [.text "u"]]]
  redactSecrets := id

def issuingInput : OssPrepareInput issuingEnv where
  answers :=
    { uploads := fun _ => .error (.fromCode1 .unknown)
      parts := fun _ => .error (.fromCode1 .unknown)
      initiate := .ok "" }
  issued := some "u"
  issued_of_ok uploadId opened := by
    have same : issuingEnv.initiateMultipartUpload (.ok "") = .ok "u" := by decide +kernel
    rw [same] at opened
    cases opened
    rfl

def emptyDrive : Drive OssState UploadTask where
  jobs := []
  state :=
    { session := { targetUrl := none, uploadId := none }
      server := { uploads := fun _ => none, objects := fun _ => none, ascending := nofun } }

def nineBytes : UploadTask where
  url := "https://bucket/k"
  content := [9, 9, 9, 9, 9, 9, 9, 9, 9]
  chunkSize := 4
  chunkSize_pos := sample_chunk
  length_le := by decide

def fiveBytes : UploadTask where
  url := "https://bucket/k"
  content := [1, 2, 3, 4, 5]
  chunkSize := 4
  chunkSize_pos := sample_chunk
  length_le := by decide

/-- A task is paused after its first chunk, resumed and completed. -/
theorem run_object_resumed :
    ∃ s t, Machine.exec (Drive.step issuingEnv.protocol) emptyDrive
        [.submit fiveBytes, .prepare 0 issuingInput, .uploadChunk 0 0 (.fine (some "e")), .pause 0 4,
          .prepare 0 issuingInput, .uploadChunk 0 4 (.fine (some "e"))] = some s ∧
      s.step issuingEnv.protocol (.complete 0 (.fine ())) = some t ∧
      t.state.server.objects "https://bucket/k" = some [1, 2, 3, 4, 5] := by
  obtain ⟨s, executed, t, completed, ended⟩ :
      ∃ s, Machine.exec (Drive.step issuingEnv.protocol) emptyDrive
        [.submit fiveBytes, .prepare 0 issuingInput, .uploadChunk 0 0 (.fine (some "e")), .pause 0 4,
          .prepare 0 issuingInput, .uploadChunk 0 4 (.fine (some "e"))] = some s ∧
      ∃ t, s.step issuingEnv.protocol (.complete 0 (.fine ())) = some t ∧
        t.jobs[0]? = some ⟨fiveBytes, .ended⟩ := ⟨_, rfl, _, rfl, rfl⟩
  have reached : Machine.Run (Drive.step issuingEnv.protocol)
      (fun s label => OneAfterAnother s label ∧ NoForeignParts s label) emptyDrive s := by
    refine Machine.run_of_exec executed ⟨⟨nofun, ?_⟩, fun _ _ =>
      Machine.execAllowed_of_forall fun label member _ => ?_⟩
    · rintro parts ⟨uploadId, cached, _⟩
      cases cached
    · simp only [List.mem_cons, List.not_mem_nil, or_false] at member
      rcases member with rfl | rfl | rfl | rfl | rfl <;> exact ⟨trivial, trivial⟩
  exact ⟨s, t, executed, completed, run_object reached completed ended⟩

/-- The first task fails after its three parts are stored; the second one goes on with
its upload id, and the object ends with the last byte of the first. -/
theorem leftover_object :
    ∃ s t, Machine.Run (Drive.step issuingEnv.protocol) OneAfterAnother emptyDrive s ∧
      s.step issuingEnv.protocol (.complete 1 (.fine ())) = some t ∧
      t.jobs[1]? = some ⟨fiveBytes, .ended⟩ ∧
      t.state.server.objects fiveBytes.url = some [1, 2, 3, 4, 5, 9] ∧
      t.state.server.objects fiveBytes.url ≠ some fiveBytes.content := by
  have first : ∃ s, Machine.exec (Drive.step issuingEnv.protocol) emptyDrive
      [.submit nineBytes, .prepare 0 issuingInput, .uploadChunk 0 0 (.fine (some "e")),
        .uploadChunk 0 4 (.fine (some "e")), .uploadChunk 0 8 (.fine (some "e")), .fail 0,
        .submit fiveBytes, .prepare 1 issuingInput, .uploadChunk 1 0 (.fine (some "e")),
        .uploadChunk 1 4 (.fine (some "e"))] = some s ∧
      ∃ t, s.step issuingEnv.protocol (.complete 1 (.fine ())) = some t ∧
        t.jobs[1]? = some ⟨fiveBytes, .ended⟩ ∧
        t.state.server.objects fiveBytes.url = some [1, 2, 3, 4, 5, 9] :=
    ⟨_, rfl, _, rfl, rfl, rfl⟩
  obtain ⟨s, executed, t, completed, ended, object⟩ := first
  exact ⟨s, t, Machine.run_of_exec executed (by decide), completed, ended, object,
    by rw [object]; decide⟩

end Runs

end RustyCat
