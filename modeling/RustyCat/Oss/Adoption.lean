import RustyCat.Oss.Upload

/-!
# Adoption of an OSS session

An upload that goes on after its process has died finds the multipart session in
the listings of the service.  Whatever the pages say, the session is adopted only
if they name one upload of the object, and parts that fit the task.
-/

namespace RustyCat

/-! ## What a page lists -/

/-- The object keys and upload ids of a page of the upload listing, in document order. -/
def listedUploads (xml : XmlBody) : Except String (List (String × String)) := do
  let root ← XmlElement.documentRoot (← xml) "ListMultipartUploadsResult"
  let urlEncoded ← root.listingUsesUrlEncoding
  (← root.childElements "Upload" maxOssListEntries).mapM (uploadEntry urlEncoded)

def listedParts (xml : XmlBody) : Except String (List OssPart) := do
  let root ← XmlElement.documentRoot (← xml) "ListPartsResult"
  (← root.childElements "Part" maxOssListEntries).mapM partEntry

def idsFor (key : String) (entries : List (String × String)) : List String :=
  (entries.filter (·.1 = key)).map Prod.snd

/-- The part numbers of one list all exceed those of the other. -/
def OssPart.After (later earlier : List OssPart) : Prop :=
  ∀ p ∈ earlier, ∀ q ∈ later, p.partNumber < q.partNumber

/-! ## The upload listing -/

section Uploads

variable {urlEncoded : Bool} {key : String}

theorem uploadIdsForKey_spec {blocks : List XmlElement} {seen : List (String × String)}
    {ids : List String} (collected : uploadIdsForKey urlEncoded key seen blocks = .ok ids) :
    ∃ entries, blocks.mapM (uploadEntry urlEncoded) = .ok entries ∧ ids = idsFor key entries := by
  induction blocks generalizing seen ids with
  | nil =>
    cases collected
    exact ⟨[], rfl, rfl⟩
  | cons block rest ih =>
    simp only [uploadIdsForKey, Result.bind_eq_ok, Result.guard_eq_ok] at collected
    obtain ⟨entry, read, _, tail, collected, done⟩ := collected
    obtain ⟨entries, readRest, rfl⟩ := ih collected
    cases done
    refine ⟨entry :: entries, Result.mapM_cons_eq_ok.mpr ⟨entry, read, entries, readRest, rfl⟩, ?_⟩
    by_cases mine : entry.1 = key <;> simp [idsFor, mine]

theorem parseUploadPageForKey_spec {xml : XmlBody} {page : OssUploadPage}
    (parsed : parseUploadPageForKey xml key = .ok page) :
    ∃ entries, listedUploads xml = .ok entries ∧ page.uploadIdsForKey = idsFor key entries := by
  simp only [parseUploadPageForKey, Result.bind_eq_ok] at parsed
  obtain ⟨document, isDocument, root, isRoot, encoded, isEncoded, blocks, areBlocks, ids, collected,
    truncated, _, parsed⟩ := parsed
  obtain ⟨entries, read, rfl⟩ := uploadIdsForKey_spec collected
  refine ⟨entries, ?_, ?_⟩
  · simp only [listedUploads, Result.bind_eq_ok]
    exact ⟨document, isDocument, root, isRoot, encoded, isEncoded, blocks, areBlocks, read⟩
  · split at parsed
    · simp only [Result.bind_eq_ok] at parsed
      obtain ⟨_, _, _, _, _, _, done⟩ := parsed
      cases done
      rfl
    · cases parsed
      rfl

theorem foundIds_spec {safeObjectKey : String} {found ids out : List String}
    (few : found.length ≤ 1) (collected : foundIds safeObjectKey found ids = .ok out) :
    out = found ++ ids ∧ out.length ≤ 1 := by
  induction ids generalizing found with
  | nil =>
    cases collected
    simpa using few
  | cons uploadId rest ih =>
    simp only [foundIds, Result.guard_eq_ok] at collected
    obtain ⟨_, single, collected⟩ := collected
    obtain ⟨rfl, short⟩ := ih (Nat.le_of_not_lt single) collected
    exact ⟨by simp, short⟩

variable {env : OssEnv}

theorem OssEnv.uploadPage_spec {marker : Option (String × String)} {found out : List String}
    {body : String} {goOn : Option (String × String)} (few : found.length ≤ 1)
    (read : env.uploadPage key marker found body = .ok (out, goOn)) :
    ∃ entries, listedUploads (env.parseDocument body) = .ok entries ∧
      out = found ++ idsFor key entries ∧ out.length ≤ 1 := by
  simp only [uploadPage] at read
  split at read
  · cases read
  rename_i page parsed
  obtain ⟨entries, listed, ids⟩ := parseUploadPageForKey_spec parsed
  simp only [Result.bind_eq_ok] at read
  obtain ⟨after, collected, read⟩ := read
  obtain ⟨extended, short⟩ := foundIds_spec few collected
  have same : out = after := by
    split at read
    · cases read
      rfl
    · simp only [Result.guard_eq_ok] at read
      obtain ⟨_, read⟩ := read
      split at read
      · cases read
        rfl
      · simp only [Result.guard_eq_ok] at read
        obtain ⟨_, read⟩ := read
        cases read
        rfl
  subst same
  exact ⟨entries, listed, ids ▸ extended, short⟩

theorem OssEnv.uploadPages_spec {answers : PageAnswers} {fuel request : Nat}
    {marker : Option (String × String)} {found : List String} {adopted : Option String}
    (few : found.length ≤ 1)
    (done : (env.uploadPages key answers fuel request marker found).2 = .ok adopted) :
    ∃ lists, List.Forall₂ (fun body entries => listedUploads (env.parseDocument body) = .ok entries)
        (env.uploadPages key answers fuel request marker found).1 lists ∧
      found ++ idsFor key lists.flatten = adopted.toList := by
  induction fuel generalizing request marker found with
  | zero => cases done
  | succ fuel ih =>
    simp only [uploadPages] at done ⊢
    split at done
    · cases done
    rename_i body answered
    split at done
    · cases done
    · rename_i out read
      obtain ⟨entries, listed, extended, short⟩ := uploadPage_spec few read
      cases done
      refine ⟨[entries], ?_, ?_⟩
      · simp [listed]
      · simp only [List.flatten_cons, List.flatten_nil, List.append_nil, ← extended]
        cases out with
        | nil => rfl
        | cons first rest =>
          have : rest = [] := List.eq_nil_of_length_eq_zero (by simpa using short)
          simp [this]
    · rename_i out nextMarker read
      obtain ⟨entries, listed, extended, short⟩ := uploadPage_spec few read
      obtain ⟨lists, readRest, rest⟩ := ih short done
      refine ⟨entries :: lists, ?_, ?_⟩
      · simpa [read, listed] using readRest
      · rw [← rest, extended]
        simp [idsFor]

end Uploads

/-! ## The part listing -/

section Parts

theorem partEntry_pos {block : XmlElement} {part : OssPart} (read : partEntry block = .ok part) :
    1 ≤ part.partNumber := by
  simp only [partEntry, Result.bind_eq_ok] at read
  obtain ⟨_, _, read⟩ := read
  split at read
  · cases read
  simp only [Result.bind_eq_ok] at read
  obtain ⟨_, _, read⟩ := read
  split at read
  · cases read
  simp only [Result.guard_eq_ok] at read
  obtain ⟨nonzero, read⟩ := read
  cases read
  simp only
  omega

theorem pageParts_spec {blocks : List XmlElement} {seen : List Nat} {parts : List OssPart}
    (collected : pageParts seen blocks = .ok parts) :
    blocks.mapM partEntry = .ok parts ∧ (parts.map OssPart.partNumber).Nodup ∧
      ∀ part ∈ parts, 1 ≤ part.partNumber ∧ part.partNumber ∉ seen := by
  induction blocks generalizing seen parts with
  | nil =>
    cases collected
    exact ⟨rfl, List.nodup_nil, nofun⟩
  | cons block rest ih =>
    simp only [pageParts, Result.bind_eq_ok, Result.guard_eq_ok, Result.pure_eq_ok] at collected
    obtain ⟨part, read, new, tail, collected, rfl⟩ := collected
    obtain ⟨readRest, distinct, others⟩ := ih collected
    refine ⟨Result.mapM_cons_eq_ok.mpr ⟨part, read, tail, readRest, rfl⟩, ?_, ?_⟩
    · simp only [List.map_cons, List.nodup_cons, List.mem_map, not_exists, not_and]
      refine ⟨fun other member same => ?_, distinct⟩
      exact (others other member).2 (same ▸ List.mem_cons_self ..)
    · rintro other (_ | ⟨_, member⟩)
      · exact ⟨partEntry_pos read, new⟩
      · exact ⟨(others other member).1, fun earlier =>
          (others other member).2 (List.mem_cons_of_mem _ earlier)⟩

theorem parsePartPage_spec {xml : XmlBody} {page : OssPartPage}
    (parsed : parsePartPage xml = .ok page) :
    ∃ listed, listedParts xml = .ok listed ∧ page.parts.Perm listed ∧
      Sorted.Ascending OssPart.partNumber page.parts ∧ ∀ part ∈ page.parts, 1 ≤ part.partNumber := by
  simp only [parsePartPage, Result.bind_eq_ok] at parsed
  obtain ⟨document, isDocument, root, isRoot, blocks, areBlocks, listed, collected, truncated, _,
    parsed⟩ := parsed
  obtain ⟨read, distinct, positive⟩ := pageParts_spec collected
  have same : page.parts = listed.insertionSort fun a b => a.partNumber ≤ b.partNumber := by
    split at parsed
    · simp only [Result.bind_eq_ok] at parsed
      obtain ⟨_, _, parsed⟩ := parsed
      split at parsed
      · cases parsed
      simp only [Result.guard_eq_ok] at parsed
      cases parsed.2
      rfl
    · cases parsed
      rfl
  have reordered : page.parts.Perm listed := same ▸ List.perm_insertionSort _ _
  refine ⟨listed, ?_, reordered, ?_, fun part member => (positive part (reordered.mem_iff.mp member)).1⟩
  · simp only [listedParts, Result.bind_eq_ok]
    exact ⟨document, isDocument, root, isRoot, blocks, areBlocks, read⟩
  · have ordered : page.parts.Pairwise fun a b => a.partNumber ≤ b.partNumber :=
      same ▸ List.pairwise_insertionSort _ _
    have apart : page.parts.Pairwise fun a b => a.partNumber ≠ b.partNumber :=
      List.pairwise_map.mp ((reordered.map OssPart.partNumber).nodup_iff.mpr distinct)
    exact (ordered.and apart).imp fun ⟨le, ne⟩ => Nat.lt_of_le_of_ne le ne

theorem insertParts_spec {marker : Option Nat} {parts page out : List OssPart}
    (ascending : Sorted.Ascending OssPart.partNumber parts)
    (inserted : insertParts marker parts page = .ok out) :
    Sorted.Ascending OssPart.partNumber out ∧ (∀ part, part ∈ out ↔ part ∈ parts ∨ part ∈ page) ∧
      ∀ part ∈ page, ∀ current ∈ marker, current < part.partNumber := by
  induction page generalizing parts with
  | nil =>
    cases inserted
    exact ⟨ascending, by simp, nofun⟩
  | cons part rest ih =>
    simp only [insertParts, Result.guard_eq_ok, not_or] at inserted
    obtain ⟨⟨ahead, new⟩, _, inserted⟩ := inserted
    obtain ⟨sorted, members, beyond⟩ := ih (Sorted.ascending_insert ascending part) inserted
    refine ⟨sorted, fun other => ?_, ?_⟩
    · have others : ∀ p ∈ parts, p.partNumber ≠ part.partNumber := by simpa using new
      rw [members, Sorted.mem_insert ascending, List.mem_cons]
      constructor
      · rintro ((rfl | ⟨old, _⟩) | later)
        · exact Or.inr (Or.inl rfl)
        · exact Or.inl old
        · exact Or.inr (Or.inr later)
      · rintro (old | rfl | later)
        · exact Or.inl (Or.inr ⟨old, others other old⟩)
        · exact Or.inl (Or.inl rfl)
        · exact Or.inr later
    · rintro other (_ | ⟨_, member⟩) current isMarker
      · cases isMarker
        simpa using ahead
      · exact beyond other member current isMarker

variable {env : OssEnv} {marker goOn : Option Nat} {parts out : List OssPart}

theorem le_of_getLast {l : List OssPart} (ascending : Sorted.Ascending OssPart.partNumber l)
    {last : Nat} (isLast : l.getLast?.map OssPart.partNumber = some last) :
    ∀ part ∈ l, part.partNumber ≤ last := by
  intro part member
  obtain ⟨final, isFinal, rfl⟩ := Option.map_eq_some_iff.mp isLast
  obtain ⟨initial, rfl⟩ := List.getLast?_eq_some_iff.mp isFinal
  rcases List.mem_append.mp member with early | late
  · exact Nat.le_of_lt ((List.pairwise_append.mp ascending).2.2 part early final (by simp))
  · rw [List.mem_singleton.mp late]

theorem OssEnv.partPage_spec {body : String}
    (ascending : Sorted.Ascending OssPart.partNumber parts)
    (upTo : ∀ part ∈ parts, part.partNumber ≤ marker.getD 0)
    (read : env.partPage marker parts body = .ok (out, goOn)) :
    ∃ listed, listedParts (env.parseDocument body) = .ok listed ∧
      (listed.map OssPart.partNumber).Nodup ∧ Sorted.Ascending OssPart.partNumber out ∧
      (∀ part, part ∈ out ↔ part ∈ parts ∨ part ∈ listed) ∧
      (∀ part ∈ listed, marker.getD 0 < part.partNumber) ∧
      ∀ current ∈ goOn, marker.getD 0 ≤ current ∧ ∀ part ∈ out, part.partNumber ≤ current := by
  simp only [partPage] at read
  split at read
  · cases read
  rename_i page parsed
  obtain ⟨listed, isListed, reordered, sorted, positive⟩ := parsePartPage_spec parsed
  simp only [Result.bind_eq_ok] at read
  obtain ⟨after, inserted, read⟩ := read
  obtain ⟨ascendingOut, members, beyond⟩ := insertParts_spec ascending inserted
  have next : after = out ∧
      ∀ current ∈ goOn, page.parts.getLast?.map OssPart.partNumber = some current ∧
        marker.getD 0 < current := by
    split at read
    · cases read
      exact ⟨rfl, nofun⟩
    · simp only [Result.guard_eq_ok, not_or, ne_eq, not_not] at read
      obtain ⟨⟨_, advanced, tail⟩, read⟩ := read
      cases read
      refine ⟨rfl, fun current isNext => ?_⟩
      cases isNext
      exact ⟨tail, Nat.lt_of_not_le advanced⟩
  obtain ⟨rfl, next⟩ := next
  have distinct : (page.parts.map OssPart.partNumber).Nodup :=
    List.pairwise_map.mpr (sorted.imp Nat.ne_of_lt)
  refine ⟨listed, isListed, (reordered.map _).nodup_iff.mp distinct, ascendingOut, fun part => ?_,
    fun part member => ?_, fun current isNext => ?_⟩
  · rw [members, reordered.mem_iff]
  · cases marker with
    | none => exact positive part (reordered.mem_iff.mpr member)
    | some current => exact beyond part (reordered.mem_iff.mpr member) current rfl
  · obtain ⟨tail, advanced⟩ := next current isNext
    refine ⟨Nat.le_of_lt advanced, fun part member => ?_⟩
    rcases (members part).mp member with old | new
    · exact Nat.le_trans (upTo part old) (Nat.le_of_lt advanced)
    · exact le_of_getLast sorted tail part new

theorem OssEnv.partPages_spec {answers : PageAnswers} {fuel request : Nat}
    (ascending : Sorted.Ascending OssPart.partNumber parts)
    (upTo : ∀ part ∈ parts, part.partNumber ≤ marker.getD 0)
    (done : (env.partPages answers fuel request marker parts).2 = .ok out) :
    ∃ lists, List.Forall₂ (fun body listed => listedParts (env.parseDocument body) = .ok listed)
        (env.partPages answers fuel request marker parts).1 lists ∧
      (∀ listed ∈ lists, (listed.map OssPart.partNumber).Nodup) ∧
      lists.Pairwise (fun earlier later => OssPart.After later earlier) ∧
      (∀ part ∈ lists.flatten, marker.getD 0 < part.partNumber) ∧
      Sorted.Ascending OssPart.partNumber out ∧
      ∀ part, part ∈ out ↔ part ∈ parts ∨ part ∈ lists.flatten := by
  induction fuel generalizing request marker parts with
  | zero => cases done
  | succ fuel ih =>
    simp only [partPages] at done ⊢
    split at done
    · cases done
    split at done
    · cases done
    · rename_i collected read
      obtain ⟨listed, isListed, distinct, sorted, members, beyond, _⟩ :=
        partPage_spec ascending upTo read
      cases done
      refine ⟨[listed], by simp [isListed], by simpa using distinct, by simp,
        by simpa using beyond, sorted, by simpa using members⟩
    · rename_i collected nextMarker read
      obtain ⟨listed, isListed, distinct, sorted, members, beyond, next⟩ :=
        partPage_spec ascending upTo read
      obtain ⟨advanced, upToNext⟩ := next nextMarker rfl
      have upToSome : ∀ part ∈ collected, part.partNumber ≤ (some nextMarker).getD 0 := upToNext
      obtain ⟨lists, readRest, distinctRest, ordered, beyondRest, sortedOut, membersOut⟩ :=
        ih sorted upToSome done
      simp only [Option.getD_some] at beyondRest
      refine ⟨listed :: lists, by simpa [read, isListed] using readRest,
        List.forall_mem_cons.mpr ⟨distinct, distinctRest⟩, List.pairwise_cons.mpr ⟨?_, ordered⟩,
        ?_, sortedOut, fun part => ?_⟩
      · intro later member p early q late
        have low := upToNext p ((members p).mpr (Or.inr early))
        have high := beyondRest q (List.mem_flatten_of_mem member late)
        omega
      · simp only [List.flatten_cons, List.mem_append]
        rintro part (here | later)
        · exact beyond part here
        · exact Nat.lt_of_le_of_lt advanced (beyondRest part later)
      · rw [membersOut, members, List.flatten_cons, List.mem_append, or_assoc]

end Parts

/-! ## The checks of the task -/

section Checks

variable {task : UploadTask} {localOffset : Nat}

/-- What the task has at the number of the part. -/
def OssPart.Fits (task : UploadTask) (part : OssPart) : Prop :=
  1 ≤ part.partNumber ∧ part.partNumber ≤ task.totalChunks ∧
    part.size = min task.chunkSize (task.totalSize - (part.partNumber - 1) * task.chunkSize)

theorem validateRemotePart_eq_ok {part : OssPart} (ok : validateRemotePart task part = .ok ()) :
    part.Fits task := by
  simp only [validateRemotePart, Result.guard_eq_ok] at ok
  obtain ⟨inPlan, ok⟩ := ok
  split at ok
  · cases ok
  rename_i partIndex isIndex
  simp only [Word.checkedSub, Option.ite_none_right_eq_some, Option.some.injEq] at isIndex
  obtain ⟨positive, rfl⟩ := isIndex
  simp only [Result.bind_eq_ok, Result.guard_eq_ok, ne_eq, not_not] at ok
  obtain ⟨expected, isExpected, same, _⟩ := ok
  refine ⟨positive, Nat.le_of_not_lt inPlan, ?_⟩
  rw [same]
  exact expectedSize_eq_ok isExpected

theorem validateRemotePartsForResume_eq_ok {parts : List OssPart}
    (ascending : Sorted.Ascending OssPart.partNumber parts)
    (ok : validateRemotePartsForResume task localOffset parts = .ok ()) :
    (∀ part ∈ parts, part.Fits task) ∧
      ∀ number, 1 ≤ number → number ≤ expectedParts task localOffset →
        ∃ part ∈ parts, part.partNumber = number := by
  simp only [validateRemotePartsForResume, Result.bind_eq_ok] at ok
  obtain ⟨_, each, searched⟩ := ok
  refine ⟨fun part member => validateRemotePart_eq_ok (Result.forM_eq_ok.mp each part member),
    fun number low high => ?_⟩
  have found := Result.forM_eq_ok.mp searched number (by rw [List.mem_range'_1]; omega)
  simp only [Result.guard_eq_ok] at found
  rw [← Sorted.binarySearch_isSome_iff ascending]
  simpa [Option.isSome_iff_ne_none] using found.1

end Checks

/-! ## The whole path -/

/-- What the fetched pages say when the session of the id is adopted: `uploads` and
`parts` are what they list, page by page. -/
structure Adoption (env : OssEnv) (task : UploadTask) (localOffset : Nat)
    (answers : OssPrepareAnswers) (uploadId key : String) (uploads : List (List (String × String)))
    (parts : List (List OssPart)) : Prop where
  objectKey : env.objectKeyFromTaskUrl task = .ok key
  uploadsRead : List.Forall₂
    (fun body entries => listedUploads (env.parseDocument body) = .ok entries)
    (env.tryAdoptUploadIdFromList task answers.uploads).1 uploads
  oneUpload : idsFor key uploads.flatten = [uploadId]
  partsRead : List.Forall₂
    (fun body listed => listedParts (env.parseDocument body) = .ok listed)
    (env.listUploadedParts answers.parts).1 parts
  once : (parts.flatten.map OssPart.partNumber).Nodup
  ordered : parts.Pairwise fun earlier later => OssPart.After later earlier
  fits : ∀ part ∈ parts.flatten, part.Fits task
  aligned : localOffset = task.totalSize ∨ task.chunkSize ∣ localOffset
  covered : ∀ number, 1 ≤ number → number ≤ expectedParts task localOffset →
    ∃ part ∈ parts.flatten, part.partNumber = number

section Prepare

variable {env : OssEnv} {task : UploadTask} {localOffset : Nat} {answers : OssPrepareAnswers}

theorem nodup_flatten_of_after {lists : List (List OssPart)}
    (distinct : ∀ listed ∈ lists, (listed.map OssPart.partNumber).Nodup)
    (ordered : lists.Pairwise fun earlier later => OssPart.After later earlier) :
    (lists.flatten.map OssPart.partNumber).Nodup := by
  rw [List.map_flatten, List.nodup_flatten]
  refine ⟨by simpa using distinct, List.pairwise_map.mpr (ordered.imp fun after => ?_)⟩
  intro number early late
  obtain ⟨p, earlier, rfl⟩ := List.mem_map.mp early
  obtain ⟨q, later, same⟩ := List.mem_map.mp late
  have := after p earlier q later
  omega

theorem OssEnv.adoptUploadId_eq_ok {uploadId : String}
    (adopted : env.adoptUploadId task localOffset answers = .ok uploadId) :
    ∃ key uploads parts, Adoption env task localOffset answers uploadId key uploads parts := by
  simp only [adoptUploadId, Result.bind_eq_ok] at adopted
  obtain ⟨_, offsetOk, found, listing, adopted⟩ := adopted
  cases found with
  | none => cases adopted
  | some candidate =>
    simp only [Result.bind_eq_ok] at adopted
    obtain ⟨collected, partListing, _, checked, done⟩ := adopted
    cases done
    obtain ⟨key, isKey⟩ : ∃ key, env.objectKeyFromTaskUrl task = .ok key := by
      simp only [tryAdoptUploadIdFromList] at listing
      split at listing
      · cases listing
      · rename_i key isKey
        exact ⟨key, isKey⟩
    have isPages : env.tryAdoptUploadIdFromList task answers.uploads =
        env.uploadPages key answers.uploads maxOssPaginationRequests 0 none [] := by
      simp only [tryAdoptUploadIdFromList, isKey]
    rw [isPages] at listing
    obtain ⟨uploads, uploadsRead, one⟩ := uploadPages_spec (Nat.zero_le _) listing
    obtain ⟨parts, partsRead, distinct, ordered, _, sorted, members⟩ :=
      partPages_spec .nil (by simp) partListing
    have members : ∀ part, part ∈ collected ↔ part ∈ parts.flatten := by simpa using members
    obtain ⟨fits, covered⟩ := validateRemotePartsForResume_eq_ok sorted checked
    refine ⟨key, uploads, parts, isKey, isPages ▸ uploadsRead, by simpa using one, partsRead,
      nodup_flatten_of_after distinct ordered, ordered,
      fun part member => fits part ((members part).mpr member),
      (resumeOffsetCheck_eq_ok offsetOk).2, fun number low high => ?_⟩
    obtain ⟨part, member, same⟩ := covered number low high
    exact ⟨part, (members part).mp member, same⟩

variable {session : MultipartSession}

/-- Where the session has no id for the task, a resumed task either adopts the one
upload that the pages list for it, with parts that fit, or gets an error and no id. -/
theorem prepare_adopts (resumed : 0 < localOffset) (listing : session.cached task.url = none) :
    match env.prepare task localOffset answers session with
    | (after, .ok info) =>
      ∃ uploadId key uploads parts,
        Adoption env task localOffset answers uploadId key uploads parts ∧
        after = { targetUrl := some task.url, uploadId := some uploadId } ∧
        info.nextByte = some localOffset
    | (after, .error _) =>
      after.cached task.url = none ∧ ∀ uploadId, after.uploadId = some uploadId → after = session := by
  simp only [OssEnv.prepare]
  cases env.validateOssTask task with
  | error e => exact ⟨listing, fun _ _ => rfl⟩
  | ok _ =>
    simp only [listing, OssEnv.openSession, if_pos resumed]
    cases adopted : env.adoptUploadId task localOffset answers with
    | error e => exact ⟨by simp [MultipartSession.cached], nofun⟩
    | ok uploadId =>
      obtain ⟨key, uploads, parts, adoption⟩ := OssEnv.adoptUploadId_eq_ok adopted
      exact ⟨uploadId, key, uploads, parts, adoption, rfl, rfl⟩

def textField (name value : String) : XmlNode := .element name none [.text value]

/-- Pages that list one upload of `k` next to one of `kk`, and its two parts on two pages. -/
def sampleDocument (body : String) : XmlBody :=
  .ok [if body = "uploads" then
      .element "ListMultipartUploadsResult" none
        [.element "Upload" none [textField "Key" "k", textField "UploadId" "u"],
          .element "Upload" none [textField "Key" "kk", textField "UploadId" "v"]]
    else if body = "first" then
      .element "ListPartsResult" none
        [.element "Part" none [textField "PartNumber" "1", textField "Size" "4"],
          textField "IsTruncated" "true", textField "NextPartNumberMarker" "1"]
    else
      .element "ListPartsResult" none
        [.element "Part" none [textField "PartNumber" "2", textField "Size" "2"]]]

def sampleOssEnv : OssEnv where
  parseUrl _ := .ok { path := "/k", queryKeys := [] }
  parseDocument := sampleDocument
  redactSecrets := id

def sixBytes : UploadTask where
  url := "https://bucket/k"
  content := [1, 2, 3, 4, 5, 6]
  chunkSize := 4
  chunkSize_pos := sample_chunk
  length_le := by decide

def sampleAnswers : OssPrepareAnswers where
  uploads _ := .ok "uploads"
  parts request := .ok (if request = 0 then "first" else "second")
  initiate := .error (.fromCode1 .unknown)

/-- A fresh process adopts the session after the first part. -/
theorem prepare_adopts_sample :
    (sampleOssEnv.prepare sixBytes 4 sampleAnswers ⟨none, none⟩).1 =
      { targetUrl := some "https://bucket/k", uploadId := some "u" } ∧
    ∃ key uploads parts, Adoption sampleOssEnv sixBytes 4 sampleAnswers "u" key uploads parts := by
  have outcome : sampleOssEnv.prepare sixBytes 4 sampleAnswers ⟨none, none⟩ =
      ({ targetUrl := some "https://bucket/k", uploadId := some "u" },
        .ok { completedFileId := none, nextByte := some 4 }) := by
    decide +kernel
  have adopts := @prepare_adopts sampleOssEnv sixBytes 4 sampleAnswers ⟨none, none⟩ (by decide) rfl
  rw [outcome] at adopts
  obtain ⟨uploadId, key, uploads, parts, adoption, same, _⟩ := adopts
  cases same
  exact ⟨congrArg Prod.fst outcome, key, uploads, parts, adoption⟩

end Prepare

end RustyCat
