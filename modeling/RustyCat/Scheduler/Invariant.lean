import RustyCat.Scheduler.Handlers

/-!
# Bookkeeping of a key

`KeyStatus` collects, for one key, in which of the scheduler's maps and sets it
occurs.  Every state update touches one key, so an invariant of the bookkeeping
is a predicate on the status of each key.
-/

namespace RustyCat

structure KeyStatus where
  grouped : Prop
  queued : Prop
  active : Prop
  paused : Prop
  canceling : Prop
  offset : Prop
  total : Prop

/-- What the scheduler promises about the places a key occurs in. -/
structure KeyStatus.Ok (v : KeyStatus) : Prop where
  queued_grouped : v.queued → v.grouped
  queued_inactive : v.queued → ¬ v.active
  queued_unpaused : v.queued → ¬ v.paused
  active_grouped : v.active → v.grouped
  paused_grouped : v.paused → v.grouped
  canceling_active : v.canceling → v.active
  canceling_unpaused : v.canceling → ¬ v.paused
  covered : v.grouped → v.queued ∨ v.active ∨ v.paused
  offset_grouped : v.offset → v.grouped
  total_grouped : v.total → v.grouped

namespace SchedulerState

def status (s : SchedulerState) (key : UniqueId) : KeyStatus where
  grouped := key ∈ s.groups
  queued := key ∈ s.queuedSet
  active := key ∈ s.active
  paused := key ∈ s.pausedSet
  canceling := key ∈ s.cancelingSet
  offset := key ∈ s.offsets
  total := key ∈ s.knownTotals

section Status

variable (s : SchedulerState) (a k : UniqueId)

theorem status_interrupt : (s.interrupt a).status k = s.status k := by
  by_cases present : a ∈ s.active
  · by_cases same : k = a <;> simp [status, interrupt, same, present]
  · simp [status, interrupt, present]

end Status

/-- The queue has no repeated key and the mirror set has the same keys. -/
structure QueueOk (s : SchedulerState) : Prop where
  nodup : s.queued.Nodup
  mem_iff : ∀ k, k ∈ s.queued ↔ k ∈ s.queuedSet

/-- The counters count the active keys and stay within the configured limits. -/
structure CountOk (limit : Direction → Nat) (s : SchedulerState) : Prop where
  configured : ∀ d, s.maxConcurrency d = limit d
  counts : ∀ d, s.activeDirectionCount d = HashMap.countKeys s.active (fun k => k.1 = d)
  limits : ∀ d, s.activeDirectionCount d ≤ limit d

/-- Groups are filed under their leader's key, their leaders are different tasks
that were issued, and the id map names exactly the groups that are not canceling. -/
structure IdsOk (issued : Finset TaskId) (s : SchedulerState) : Prop where
  leader_key : ∀ k g, s.groups.lookup k = some g → g.leaderInner.dedupeKey = k
  leader_issued : ∀ k g, s.groups.lookup k = some g → g.leaderInner.taskId ∈ issued
  leader_unique : ∀ k k' g g', s.groups.lookup k = some g → s.groups.lookup k' = some g' →
    g.leaderInner.taskId = g'.leaderInner.taskId → k = k'
  map_iff : ∀ id k, s.taskIdToDedupe.lookup id = some k ↔
    ∃ g, s.groups.lookup k = some g ∧ g.leaderInner.taskId = id ∧ k ∉ s.cancelingSet

structure Inv (issued : Finset TaskId) (limit : Direction → Nat) (s : SchedulerState) : Prop where
  keys : ∀ k, (s.status k).Ok
  queue : s.QueueOk
  count : s.CountOk limit
  ids : s.IdsOk issued

section Queue
variable {s : SchedulerState} {a : UniqueId}

theorem QueueOk.push (ok : s.QueueOk) (new : a ∉ s.queuedSet) : (s.pushQueued a).QueueOk := by
  have absent : a ∉ s.queued := fun member => new ((ok.mem_iff a).mp member)
  constructor
  · simp only [pushQueued]
    rw [List.nodup_append]
    refine ⟨ok.nodup, List.nodup_singleton a, ?_⟩
    intro x member y single
    rw [List.mem_singleton.mp single]
    rintro rfl
    exact absent member
  · intro k
    simp [pushQueued, ok.mem_iff, or_comm]

theorem QueueOk.drop (ok : s.QueueOk) (a : UniqueId) : (s.dropQueued a).QueueOk := by
  constructor
  · exact ok.nodup.filter _
  · intro k
    simp [dropQueued, ok.mem_iff, and_comm]

theorem QueueOk.pop {rest : List UniqueId} (ok : s.QueueOk) (head : s.queued = a :: rest) :
    (s.popQueued a rest).QueueOk ∧ a ∉ rest := by
  have nodup := ok.nodup
  rw [head, List.nodup_cons] at nodup
  refine ⟨⟨nodup.2, ?_⟩, nodup.1⟩
  intro k
  have same := ok.mem_iff k
  rw [head, List.mem_cons] at same
  simp only [popQueued]
  rw [Finset.mem_erase, ← same]
  constructor
  · intro member
    exact ⟨fun eq => nodup.1 (eq ▸ member), Or.inr member⟩
  · rintro ⟨different, rfl | member⟩
    · exact absurd rfl different
    · exact member
end Queue

section Count
variable {limit : Direction → Nat} {s : SchedulerState} {a : UniqueId}

theorem activeDirectionCount_insertActive (token : ActiveState) (d : Direction)
    (new : a ∉ s.active) :
    (s.insertActive a token).activeDirectionCount d =
      s.activeDirectionCount d + if a.1 = d then 1 else 0 := by
  cases h : a.1 <;> cases d <;> simp [insertActive, activeDirectionCount, new, h]

theorem activeDirectionCount_removeActive (d : Direction) (present : a ∈ s.active) :
    (s.removeActive a).activeDirectionCount d =
      s.activeDirectionCount d - if a.1 = d then 1 else 0 := by
  cases h : a.1 <;> cases d <;> simp [removeActive, activeDirectionCount, present, h]

theorem CountOk.insertActive (ok : s.CountOk limit) (token : ActiveState) (new : a ∉ s.active)
    (free : s.canStartDirection a.1 = true) : (s.insertActive a token).CountOk limit := by
  have room : s.activeDirectionCount a.1 < s.maxConcurrency a.1 := of_decide_eq_true free
  have configured := ok.configured a.1
  constructor
  · exact ok.configured
  · intro d
    have inserted := HashMap.countKeys_insert_new s.active token (fun k => k.1 = d)
      (Finmap.lookup_eq_none.mpr new)
    rw [activeDirectionCount_insertActive token d new, ok.counts d]
    exact inserted.symm
  · intro d
    have bound := ok.limits d
    rw [activeDirectionCount_insertActive token d new]
    by_cases same : a.1 = d
    · subst same
      rw [if_pos rfl]
      omega
    · rw [if_neg same]
      omega

theorem CountOk.removeActive (ok : s.CountOk limit) (a : UniqueId) : (s.removeActive a).CountOk limit := by
  by_cases present : a ∈ s.active
  · constructor
    · exact ok.configured
    · intro d
      have erased := HashMap.countKeys_erase_present s.active (fun k => k.1 = d) present
      rw [activeDirectionCount_removeActive d present, ok.counts d]
      change _ = HashMap.countKeys (s.active.erase a) _
      omega
    · intro d
      have bound := ok.limits d
      rw [activeDirectionCount_removeActive d present]
      omega
  · have absent : s.active.erase a = s.active := HashMap.erase_absent _ present
    have same : s.removeActive a = s := by
      simp [SchedulerState.removeActive, present, absent]
    rw [same]
    exact ok

theorem CountOk.interrupt (ok : s.CountOk limit) (a : UniqueId) : (s.interrupt a).CountOk limit := by
  have keys : (s.interrupt a).active.keys = s.active.keys := by
    by_cases present : a ∈ s.active
    · simp only [SchedulerState.interrupt, present, if_true]
      rw [HashMap.keys_insert]
      exact Finset.insert_eq_of_mem (Finmap.mem_keys.mpr present)
    · simp only [SchedulerState.interrupt, present, if_false]
  constructor
  · exact ok.configured
  · intro d
    have counted := ok.counts d
    simp only [HashMap.countKeys] at counted ⊢
    rw [keys]
    exact counted
  · exact ok.limits

end Count

section Ids

variable {issued : Finset TaskId} {s t : SchedulerState} {a : UniqueId} {group : GroupState}

theorem IdsOk.congr (ok : s.IdsOk issued) (groups : t.groups = s.groups)
    (map : t.taskIdToDedupe = s.taskIdToDedupe) (canceling : t.cancelingSet = s.cancelingSet) :
    t.IdsOk issued := by
  constructor
  · rw [groups]
    exact ok.leader_key
  · rw [groups]
    exact ok.leader_issued
  · rw [groups]
    exact ok.leader_unique
  · rw [groups, map, canceling]
    exact ok.map_iff

theorem IdsOk.register (ok : s.IdsOk issued) {inner : InnerTask} (callbacks : TaskCallbacks)
    (fresh : inner.taskId ∉ issued) (free : inner.dedupeKey ∉ s.groups)
    (calm : inner.dedupeKey ∉ s.cancelingSet) :
    (s.register inner callbacks).IdsOk (insert inner.taskId issued) := by
  have old : ∀ k g, s.groups.lookup k = some g → g.leaderInner.taskId ≠ inner.taskId := by
    intro k g found same
    exact fresh (same ▸ ok.leader_issued k g found)
  have looked : ∀ k, (s.register inner callbacks).groups.lookup k =
      if k = inner.dedupeKey then some (GroupState.new inner callbacks)
      else s.groups.lookup k := by
    intro k
    exact HashMap.lookup_insert_ite ..
  constructor
  · intro k g found
    rw [looked] at found
    split at found
    · rename_i same
      cases found
      exact same.symm
    · exact ok.leader_key k g found
  · intro k g found
    rw [looked] at found
    split at found
    · cases found
      exact Finset.mem_insert_self _ _
    · exact Finset.mem_insert_of_mem (ok.leader_issued k g found)
  · intro k k' g g' found found' same
    rw [looked] at found found'
    split at found <;> split at found'
    · rename_i first second
      rw [first, second]
    · cases found
      exact absurd same.symm (old k' g' found')
    · cases found'
      exact absurd same (old k g found)
    · exact ok.leader_unique k k' g g' found found' same
  · intro id k
    have mapped : (s.register inner callbacks).taskIdToDedupe.lookup id =
        if id = inner.taskId then some inner.dedupeKey else s.taskIdToDedupe.lookup id :=
      HashMap.lookup_insert_ite ..
    rw [mapped, looked]
    by_cases new : id = inner.taskId
    · rw [if_pos new]
      constructor
      · intro same
        cases same
        exact ⟨GroupState.new inner callbacks, if_pos rfl, new.symm, calm⟩
      · rintro ⟨g, found, named, _⟩
        split at found
        · rename_i same
          rw [same]
        · exact absurd (named.trans new) (old k g found)
    · rw [if_neg new, ok.map_iff id k]
      constructor
      · rintro ⟨g, found, named, outside⟩
        have different : k ≠ inner.dedupeKey := by
          rintro rfl
          exact free (Finmap.mem_of_lookup_eq_some found)
        exact ⟨g, by rw [if_neg different]; exact found, named, outside⟩
      · rintro ⟨g, found, named, outside⟩
        split at found
        · cases found
          exact absurd named.symm new
        · exact ⟨g, found, named, outside⟩

theorem IdsOk.markCanceling (ok : s.IdsOk issued) (found : s.groups.lookup a = some group)
    (groups : t.groups = s.groups)
    (map : t.taskIdToDedupe = s.taskIdToDedupe.erase group.leaderInner.taskId)
    (canceling : t.cancelingSet = insert a s.cancelingSet) : t.IdsOk issued := by
  constructor
  · rw [groups]
    exact ok.leader_key
  · rw [groups]
    exact ok.leader_issued
  · rw [groups]
    exact ok.leader_unique
  · intro id k
    rw [groups, map, canceling, HashMap.lookup_erase_ite]
    by_cases same : id = group.leaderInner.taskId
    · rw [if_pos same]
      constructor
      · intro impossible
        cases impossible
      · rintro ⟨g, at_k, named, outside⟩
        have here : k = a := ok.leader_unique k a g group at_k found (named.trans same)
        exact absurd (here ▸ Finset.mem_insert_self _ _) outside
    · rw [if_neg same, ok.map_iff id k]
      constructor
      · rintro ⟨g, at_k, named, outside⟩
        refine ⟨g, at_k, named, ?_⟩
        rw [Finset.mem_insert]
        rintro (rfl | inside)
        · rw [found] at at_k
          cases at_k
          exact same named.symm
        · exact outside inside
      · rintro ⟨g, at_k, named, outside⟩
        exact ⟨g, at_k, named, fun inside => outside (Finset.mem_insert_of_mem inside)⟩

theorem IdsOk.unregister (ok : s.IdsOk issued) (found : s.groups.lookup a = some group)
    (groups : t.groups = s.groups.erase a)
    (map : t.taskIdToDedupe = s.taskIdToDedupe.erase group.leaderInner.taskId)
    (canceling : t.cancelingSet = s.cancelingSet.erase a) : t.IdsOk issued := by
  have kept : ∀ k g, t.groups.lookup k = some g → k ≠ a ∧ s.groups.lookup k = some g := by
    intro k g at_k
    rw [groups, HashMap.lookup_erase_ite] at at_k
    split at at_k
    · cases at_k
    · rename_i different
      exact ⟨different, at_k⟩
  constructor
  · intro k g at_k
    exact ok.leader_key k g (kept k g at_k).2
  · intro k g at_k
    exact ok.leader_issued k g (kept k g at_k).2
  · intro k k' g g' at_k at_k' same
    exact ok.leader_unique k k' g g' (kept k g at_k).2 (kept k' g' at_k').2 same
  · intro id k
    rw [map, HashMap.lookup_erase_ite]
    by_cases same : id = group.leaderInner.taskId
    · rw [if_pos same]
      constructor
      · intro impossible
        cases impossible
      · rintro ⟨g, at_k, named, _⟩
        obtain ⟨different, before⟩ := kept k g at_k
        exact absurd (ok.leader_unique k a g group before found (named.trans same)) different
    · rw [if_neg same, ok.map_iff id k]
      constructor
      · rintro ⟨g, at_k, named, outside⟩
        have different : k ≠ a := by
          rintro rfl
          rw [found] at at_k
          cases at_k
          exact same named.symm
        refine ⟨g, ?_, named, ?_⟩
        · rw [groups, HashMap.lookup_erase_ite, if_neg different]
          exact at_k
        · rw [canceling]
          exact fun inside => outside (Finset.mem_of_mem_erase inside)
      · rintro ⟨g, at_k, named, outside⟩
        obtain ⟨different, before⟩ := kept k g at_k
        refine ⟨g, before, named, ?_⟩
        rw [canceling] at outside
        exact fun inside => outside (Finset.mem_erase.mpr ⟨different, inside⟩)

end Ids

section Preservation

variable {issued : Finset TaskId} {limit : Direction → Nat} {s : SchedulerState} {a : UniqueId}
  {group : GroupState}

theorem Inv.changed {t : SchedulerState} {issued' : Finset TaskId} (inv : s.Inv issued limit)
    (a : UniqueId) (others : ∀ k, k ≠ a → t.status k = s.status k) (here : (t.status a).Ok)
    (queue : t.QueueOk) (count : t.CountOk limit) (ids : t.IdsOk issued') :
    t.Inv issued' limit := by
  refine ⟨fun k => ?_, queue, count, ids⟩
  by_cases same : k = a
  · rw [same]
    exact here
  · rw [others k same]
    exact inv.keys k

theorem new_inv (maxUpload maxDownload : Nat) (listeners : List Nat) :
    (new maxUpload maxDownload listeners).Inv ∅ (new maxUpload maxDownload listeners).maxConcurrency := by
  constructor
  · intro k
    constructor <;> simp [status, new, Finmap.notMem_empty]
  · constructor <;> simp [new]
  · constructor
    · intro d
      rfl
    · intro d
      cases d <;> simp [new, activeDirectionCount]
    · intro d
      cases d <;> simp [new, activeDirectionCount]
  · constructor <;> simp [new]

variable (inv : s.Inv issued limit)
include inv

theorem Inv.mono {more : Finset TaskId} (subset : issued ⊆ more) :
    s.Inv more limit where
  keys := inv.keys
  queue := inv.queue
  count := inv.count
  ids := { inv.ids with
    leader_issued := fun k g found => subset (inv.ids.leader_issued k g found) }

theorem Inv.interrupt (a : UniqueId) : (s.interrupt a).Inv issued limit := by
  constructor
  · intro k
    rw [status_interrupt]
    exact inv.keys k
  · exact ⟨inv.queue.nodup, inv.queue.mem_iff⟩
  · exact inv.count.interrupt a
  · exact inv.ids.congr rfl rfl rfl

theorem Inv.status_of_free (free : a ∉ s.groups) :
    s.status a = ⟨False, False, False, False, False, False, False⟩ := by
  have ok := inv.keys a
  have notGrouped : ¬ (s.status a).grouped := free
  have notActive : ¬ (s.status a).active := fun h => notGrouped (ok.active_grouped h)
  have notCanceling : ¬ (s.status a).canceling := fun h => notActive (ok.canceling_active h)
  cases h : s.status a with
  | mk grouped queued active paused canceling offset total =>
    rw [h] at ok notGrouped notActive notCanceling
    simp only [KeyStatus.mk.injEq, eq_iff_iff, iff_false]
    exact ⟨notGrouped, fun x => notGrouped (ok.queued_grouped x), notActive,
      fun x => notGrouped (ok.paused_grouped x), notCanceling,
      fun x => notGrouped (ok.offset_grouped x), fun x => notGrouped (ok.total_grouped x)⟩

theorem Inv.free_of (free : a ∉ s.groups) :
    a ∉ s.queuedSet ∧ a ∉ s.active ∧ a ∉ s.pausedSet ∧ a ∉ s.cancelingSet ∧ a ∉ s.offsets ∧
      a ∉ s.knownTotals := by
  have nowhere := inv.status_of_free free
  simp only [status, KeyStatus.mk.injEq, eq_iff_iff, iff_false] at nowhere
  exact nowhere.2

theorem Inv.enqueue {inner : InnerTask} (callbacks : TaskCallbacks) (fresh : inner.taskId ∉ issued)
    (free : inner.dedupeKey ∉ s.groups) :
    ((s.register inner callbacks).pushQueued inner.dedupeKey).Inv (insert inner.taskId issued) limit := by
  obtain ⟨notQueued, idle, unpaused, calm, noOffset, noTotal⟩ := inv.free_of free
  have queue : (s.register inner callbacks).QueueOk := ⟨inv.queue.nodup, inv.queue.mem_iff⟩
  refine inv.changed inner.dedupeKey (fun k other => ?_) ?_ (queue.push notQueued)
    ⟨inv.count.configured, inv.count.counts, inv.count.limits⟩
    ((inv.ids.register callbacks fresh free calm).congr rfl rfl rfl)
  · simp [status, register, pushQueued, other]
  · constructor <;> simp [status, register, pushQueued, idle, unpaused, calm]

theorem Inv.enqueuePaused {inner : InnerTask} (callbacks : TaskCallbacks)
    (fresh : inner.taskId ∉ issued) (free : inner.dedupeKey ∉ s.groups) :
    ((s.register inner callbacks).pause inner.dedupeKey).Inv (insert inner.taskId issued) limit := by
  obtain ⟨notQueued, idle, unpaused, calm, noOffset, noTotal⟩ := inv.free_of free
  refine inv.changed inner.dedupeKey (fun k other => ?_) ?_ ⟨inv.queue.nodup, inv.queue.mem_iff⟩
    ⟨inv.count.configured, inv.count.counts, inv.count.limits⟩
    ((inv.ids.register callbacks fresh free calm).congr rfl rfl rfl)
  · simp [status, register, pause, other]
  · constructor <;> simp [status, register, pause, notQueued, calm]

theorem Inv.pauseMark (grouped : a ∈ s.groups) (calm : a ∉ s.cancelingSet) :
    ((s.dropQueued a).pause a).Inv issued limit := by
  refine inv.changed a (fun k other => ?_) ?_
    ⟨(inv.queue.drop a).nodup, (inv.queue.drop a).mem_iff⟩
    ⟨inv.count.configured, inv.count.counts, inv.count.limits⟩ (inv.ids.congr rfl rfl rfl)
  · simp [status, dropQueued, pause, other]
  · constructor <;> simp [status, dropQueued, pause, grouped, calm]

theorem Inv.closePause (running : a ∈ s.active) (calm : a ∉ s.cancelingSet) :
    (s.pause a).Inv issued limit := by
  have ok := inv.keys a
  have grouped : a ∈ s.groups := ok.active_grouped running
  have waiting : a ∉ s.queuedSet := fun queued => ok.queued_inactive queued running
  refine inv.changed a (fun k other => ?_) ?_ ⟨inv.queue.nodup, inv.queue.mem_iff⟩
    ⟨inv.count.configured, inv.count.counts, inv.count.limits⟩ (inv.ids.congr rfl rfl rfl)
  · simp [status, pause, other]
  · constructor <;> simp [status, pause, grouped, waiting, calm]

theorem Inv.resume (paused : a ∈ s.pausedSet) (idle : a ∉ s.active) :
    (pushQueued { s with pausedSet := s.pausedSet.erase a } a).Inv issued limit := by
  have ok := inv.keys a
  have grouped : a ∈ s.groups := ok.paused_grouped paused
  have calm : a ∉ s.cancelingSet := fun canceling => idle (ok.canceling_active canceling)
  have queue : QueueOk { s with pausedSet := s.pausedSet.erase a } :=
    ⟨inv.queue.nodup, inv.queue.mem_iff⟩
  refine inv.changed a (fun k other => ?_) ?_
    (queue.push fun queued => ok.queued_unpaused queued paused)
    ⟨inv.count.configured, inv.count.counts, inv.count.limits⟩ (inv.ids.congr rfl rfl rfl)
  · simp [status, pushQueued, other]
  · constructor <;> simp [status, pushQueued, grouped, idle, calm]

theorem Inv.cancelMark (running : a ∈ s.active) (found : s.groups.lookup a = some group) :
    Inv issued limit { s.dropQueued a with
      pausedSet := s.pausedSet.erase a
      cancelingSet := insert a s.cancelingSet
      taskIdToDedupe := s.taskIdToDedupe.erase group.leaderInner.taskId } := by
  have grouped : a ∈ s.groups := (inv.keys a).active_grouped running
  refine inv.changed a (fun k other => ?_) ?_
    ⟨(inv.queue.drop a).nodup, (inv.queue.drop a).mem_iff⟩
    ⟨inv.count.configured, inv.count.counts, inv.count.limits⟩
    (inv.ids.markCanceling found rfl rfl rfl)
  · simp [status, dropQueued, other]
  · constructor <;> simp [status, dropQueued, grouped, running]

def finish (s : SchedulerState) (a : UniqueId) (group : GroupState) : SchedulerState :=
  { ((s.dropQueued a).removeActive a).unregister a group with
    pausedSet := s.pausedSet.erase a
    cancelingSet := s.cancelingSet.erase a
    offsets := s.offsets.erase a
    knownTotals := s.knownTotals.erase a }

theorem Inv.finish (found : s.groups.lookup a = some group) :
    (s.finish a group).Inv issued limit := by
  have dropped : (s.dropQueued a).CountOk limit := ⟨inv.count.configured, inv.count.counts, inv.count.limits⟩
  have removed := dropped.removeActive a
  have queue := inv.queue.drop a
  refine inv.changed a (fun k other => ?_) ?_ ⟨queue.nodup, queue.mem_iff⟩
    ⟨removed.configured, removed.counts, removed.limits⟩ (inv.ids.unregister found rfl rfl rfl)
  · simp [status, SchedulerState.finish, unregister, SchedulerState.removeActive, dropQueued, other]
  · constructor <;>
      simp [status, SchedulerState.finish, unregister, SchedulerState.removeActive, dropQueued]

theorem Inv.stopPaused (paused : a ∈ s.pausedSet) (calm : a ∉ s.cancelingSet) :
    (removeActive { s with cancelingSet := s.cancelingSet.erase a } a).Inv issued limit := by
  have ok := inv.keys a
  have grouped : a ∈ s.groups := ok.paused_grouped paused
  have waiting : a ∉ s.queuedSet := fun queued => ok.queued_unpaused queued paused
  rw [Finset.erase_eq_of_notMem calm]
  refine inv.changed a (fun k other => ?_) ?_ ⟨inv.queue.nodup, inv.queue.mem_iff⟩
    (inv.count.removeActive a) (inv.ids.congr rfl rfl rfl)
  · simp [status, removeActive, other]
  · constructor <;> simp [status, removeActive, grouped, waiting, paused, calm]

theorem Inv.progress (grouped : a ∈ s.groups) (nextOffset totalSize : Nat) :
    (s.recordProgress a nextOffset totalSize).Inv issued limit := by
  refine inv.changed a (fun k other => ?_) ?_ ⟨inv.queue.nodup, inv.queue.mem_iff⟩
    ⟨inv.count.configured, inv.count.counts, inv.count.limits⟩ (inv.ids.congr rfl rfl rfl)
  · by_cases positive : totalSize > 0 <;> simp [status, recordProgress, other, positive]
  · exact { inv.keys a with
      offset_grouped := fun _ => grouped
      total_grouped := fun _ => grouped }

theorem Inv.rotate {rest : List UniqueId} (head : s.queued = a :: rest) :
    ((s.popQueued a rest).pushQueued a).Inv issued limit := by
  have popped := inv.queue.pop head
  have member : a ∈ s.queuedSet := (inv.queue.mem_iff a).mp (head ▸ List.mem_cons_self)
  have restored : insert a (s.queuedSet.erase a) = s.queuedSet := Finset.insert_erase member
  constructor
  · intro k
    have ok := inv.keys k
    simpa [status, pushQueued, popQueued, restored] using ok
  · exact popped.1.push (Finset.notMem_erase a _)
  · exact ⟨inv.count.configured, inv.count.counts, inv.count.limits⟩
  · exact inv.ids.congr rfl rfl rfl

theorem Inv.start {rest : List UniqueId} (head : s.queued = a :: rest)
    (free : s.canStartDirection a.1 = true) (token : ActiveState) :
    ((s.popQueued a rest).insertActive a token).Inv issued limit := by
  have popped := inv.queue.pop head
  have member : a ∈ s.queuedSet := (inv.queue.mem_iff a).mp (head ▸ List.mem_cons_self)
  have ok := inv.keys a
  have grouped : a ∈ s.groups := ok.queued_grouped member
  have unpaused : a ∉ s.pausedSet := ok.queued_unpaused member
  have count : (s.popQueued a rest).CountOk limit := ⟨inv.count.configured, inv.count.counts, inv.count.limits⟩
  refine inv.changed a (fun k other => ?_) ?_ ⟨popped.1.nodup, popped.1.mem_iff⟩
    (count.insertActive token (ok.queued_inactive member) free) (inv.ids.congr rfl rfl rfl)
  · simp [status, insertActive, popQueued, other]
  · constructor <;> simp [status, insertActive, popQueued, grouped, unpaused]

end Preservation

end SchedulerState

end RustyCat
