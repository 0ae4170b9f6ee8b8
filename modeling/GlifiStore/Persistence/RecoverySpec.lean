import GlifiStore.Persistence.RecoveryIndex
import GlifiStore.Persistence.RecoveryScan
import GlifiStore.Segment.Fresh

/-!
# Recovery computes the reference state

The reference state of a Worker binds each key to its record with the greatest
sequence, provided that record is an unexpired put. Recovery of a Worker succeeds
exactly for consistent extents within the limits, and returns that state.
-/

namespace GlifiStore

open ByteLayout CrashFile LatestWins OpenAddressing SwissTableIndex

/-! ## The reference state -/

def Decides (log : List LocatedRecord) (entry : LocatedRecord) : Prop :=
  ∀ other ∈ log, recordKey other = recordKey entry → other.2.sequence ≤ entry.2.sequence

instance (log : List LocatedRecord) (entry : LocatedRecord) : Decidable (Decides log entry) :=
  inferInstanceAs (Decidable (∀ other ∈ log, _))

/-- The records that decide their key as unexpired puts. -/
def liveRecords (nowNs : Nat) (log : List LocatedRecord) : List LocatedRecord :=
  log.filter fun entry =>
    Decides log entry ∧ entry.2.opcode = .put ∧ entry.2.expired nowNs = false

def liveBindings (nowNs : Nat) (log : List LocatedRecord) : List (Key × RecordRef) :=
  (liveRecords nowNs log).map fun entry => (recordKey entry, entry.1)

/-- The reference lies in a Segment that the catalog lists under the role. -/
def Manifest.hasRole (manifest : Manifest) (role : ManifestSegmentRole) (reference : RecordRef) :
    Bool :=
  manifest.segments.any fun entry => entry.segmentId = reference.segmentId ∧ entry.role = role

/-- Identities and ownership, lifecycle, routing and sequence order of a Worker's
committed extents. -/
structure WorkerConsistent (directory : SegmentDirectory) (manifest : Manifest)
    (worker nowNs : Nat) (extents : List SegmentExtent) : Prop where
  segments : List.Forall₂ (fun entry extent => extent.Committed directory manifest entry ∧
    extent.Lifecycle entry) (manifest.workerSegments worker) extents
  routing : ∀ entry ∈ workerLog extents, Routed (manifest.workerScope worker nowNs) entry.2
  order : Ascending 0 (workerRecords extents)

structure RecoveryLimits (manifest : Manifest) (worker nowNs maxLiveKeys : Nat)
    (budget : RecoveryMemoryBudget) (log : List LocatedRecord) : Prop where
  memory : WithinMemory budget log
  sequence : greatestSequence log ≠ kUInt64Max
  liveKeys : (liveRecords nowNs log).length ≤
    durableWorkerLiveKeyLimit worker manifest.workerCount maxLiveKeys
  arena : entriesHeapLength (liveBindings nowNs log) ≤ kUInt32Max

structure ReferenceState (manifest : Manifest) (worker nowNs : Nat) (extents : List SegmentExtent)
    (state : RecoveredWorkerState) : Prop where
  owner : state.workerId = worker
  find : ∀ key ref, state.index.find key (hashKeyRouting key manifest.workerRouting) = some ref ↔
    ∃ record, (ref, record) ∈ workerLog extents ∧ record.key = key ∧
      Decides (workerLog extents) (ref, record) ∧ record.opcode = .put ∧
      record.expired nowNs = false
  entries : state.index.entries.Perm (liveBindings nowNs (workerLog extents))
  nextSequence : state.nextSequence = greatestSequence (workerLog extents) + 1
  activeBytes : state.activeLiveRecordBytes =
    bytesWhere (manifest.hasRole .active) state.index.entries
  sealedBytes : state.sealedLiveRecordBytes =
    bytesWhere (manifest.hasRole .sealed) state.index.entries
  active : ActiveAmong (manifest.workerSegments worker) extents state.activeSegment
    state.activeRequiresRotation

/-! ## Latest records and the reference map -/

section Latest

variable {scope : WorkerScope} {budget : RecoveryMemoryBudget} {log : List LocatedRecord}
  {scan : WorkerScan} {nowNs : Nat}

theorem mem_liveBindings {key : Key} {ref : RecordRef} :
    (key, ref) ∈ liveBindings nowNs log ↔
      ∃ record, (ref, record) ∈ log ∧ record.key = key ∧ Decides log (ref, record) ∧
        record.opcode = .put ∧ record.expired nowNs = false := by
  simp only [liveBindings, liveRecords, List.mem_map, List.mem_filter, decide_eq_true_eq,
    Prod.mk.injEq, recordKey]
  constructor
  · rintro ⟨⟨located, record⟩, ⟨member, decides, put, unexpired⟩, rfl, rfl⟩
    exact ⟨record, member, rfl, decides, put, unexpired⟩
  · rintro ⟨record, member, rfl, decides, put, unexpired⟩
    exact ⟨(ref, record), ⟨member, decides, put, unexpired⟩, rfl, rfl⟩

theorem nodup_liveBindings_keys (nowNs : Nat) (ordered : InOrder log) :
    ((liveBindings nowNs log).map Prod.fst).Nodup := by
  have pairwise : (liveRecords nowNs log).Pairwise fun earlier later =>
      earlier.2.sequence < later.2.sequence := ordered.filter _
  rw [liveBindings, List.map_map, List.Nodup, List.pairwise_map]
  refine pairwise.imp_of_mem fun {earlier later} first second less same => ?_
  have decides := (List.mem_filter.mp first).2
  simp only [decide_eq_true_eq] at decides
  have most := decides.1 later (List.mem_filter.mp second).1 same.symm
  omega

theorem Scanned.mem_latest (scanned : Scanned scope budget log scan) {key : Key}
    {record : LatestRecord} :
    (⟨key, record⟩ : Sigma fun _ : Key => LatestRecord) ∈ scan.latest.entries ↔
      ∃ entry, deciding recordKey log key = some entry ∧ latestOf scope.nowNs entry = record := by
  rw [← AList.mem_lookup_iff, scanned.latest]
  simp

theorem IterationOrder.nodup_keys (order : IterationOrder) (latest : LatestMap) :
    ((order.list latest).map Prod.fst).Nodup := by
  refine ((order.permutes latest).map Prod.fst).nodup_iff.mpr ?_
  rw [List.map_map]
  exact latest.keys_nodup

theorem latestOf_visible {entry : LocatedRecord} :
    (latestOf nowNs entry).visible = true ↔
      entry.2.opcode = .put ∧ entry.2.expired nowNs = false := by
  cases opcode : entry.2.opcode <;> simp [LatestRecord.visible, latestOf, opcode]

theorem Scanned.visibleBindings_perm (scanned : Scanned scope budget log scan)
    (ordered : InOrder log) (order : IterationOrder) :
    (visibleBindings (order.list scan.latest)).Perm (liveBindings scope.nowNs log) := by
  have left : (visibleBindings (order.list scan.latest)).Nodup := by
    refine List.Nodup.of_map Prod.fst ?_
    rw [visibleBindings, List.map_map]
    exact (order.nodup_keys scan.latest).sublist (List.filter_sublist.map Prod.fst)
  have right := List.Nodup.of_map Prod.fst (nodup_liveBindings_keys scope.nowNs ordered)
  rw [List.perm_ext_iff_of_nodup left right]
  rintro ⟨key, ref⟩
  have listed (record : LatestRecord) : (key, record) ∈ order.list scan.latest ↔
      ∃ entry, deciding recordKey log key = some entry ∧ latestOf scope.nowNs entry = record := by
    rw [(order.permutes scan.latest).mem_iff, ← scanned.mem_latest, List.mem_map]
    constructor
    · rintro ⟨⟨other, found⟩, member, same⟩
      obtain ⟨rfl, rfl⟩ := Prod.mk.inj same
      exact member
    · exact fun member => ⟨_, member, rfl⟩
  simp only [mem_liveBindings, visibleBindings, List.mem_map, List.mem_filter, Prod.mk.injEq]
  constructor
  · rintro ⟨⟨other, record⟩, ⟨member, visible⟩, rfl, rfl⟩
    obtain ⟨entry, decided, rfl⟩ := (listed record).mp member
    obtain ⟨inside, same, most⟩ := (deciding_eq_some ordered).mp decided
    obtain ⟨put, unexpired⟩ := latestOf_visible.mp visible
    refine ⟨entry.2, inside, same, ?_, put, unexpired⟩
    exact fun other there sameKey => most other there (sameKey.trans same)
  · rintro ⟨record, inside, rfl, decides, put, unexpired⟩
    have decided : deciding recordKey log record.key = some (ref, record) :=
      (deciding_eq_some ordered).mpr ⟨inside, rfl, decides⟩
    exact ⟨(record.key, latestOf scope.nowNs (ref, record)),
      ⟨(listed _).mpr ⟨(ref, record), decided, rfl⟩, latestOf_visible.mpr ⟨put, unexpired⟩⟩,
      rfl, rfl⟩

theorem Scanned.length_latest (scanned : Scanned scope budget log scan) :
    scan.latest.entries.length ≤ 2 ^ 62 := by
  have keys : scan.latest.keys.toFinset = (log.map recordKey).toFinset := by
    ext key
    rw [List.mem_toFinset, ← AList.mem_keys, ← AList.lookup_isSome, scanned.latest,
      Option.isSome_map, Option.isSome_iff_ne_none, Ne, deciding_eq_none]
    simp
  have count : scan.latest.entries.length = (log.map recordKey).toFinset.card := by
    rw [← keys, List.toFinset_card_of_nodup scan.latest.keys_nodup]
    simp [AList.keys, List.keys]
  have least : (log.map recordKey).toFinset.card * kRecoveryBytesPerKey ≤ retainedBytes log := by
    exact Finset.card_nsmul_le_sum _ _ _ fun key _ => Nat.le_add_right _ _
  have within := scan.budget.within
  have fits := scan.budget.maximumFits
  have retained := scanned.retained
  rw [← count] at least
  simp only [kRecoveryBytesPerKey, kUInt64Max] at *
  omega

end Latest

/-! ## Roles of the Segments -/

variable {directory : SegmentDirectory} {manifest : Manifest} {worker nowNs maxLiveKeys : Nat}
  {budget : RecoveryMemoryBudget} {extents : List SegmentExtent} {result : WorkerScanResult}
  {entry : ManifestSegmentEntry}

theorem mem_workerSegments :
    entry ∈ manifest.workerSegments worker ↔
      entry ∈ manifest.segments ∧ entry.ownerWorker = worker := by
  simp [Manifest.workerSegments]

theorem hasRole_eq (wellFormed : manifest.WellFormed) (listed : entry ∈ manifest.segments)
    {reference : RecordRef} (inside : reference.segmentId = entry.segmentId)
    (role : ManifestSegmentRole) :
    manifest.hasRole role reference = decide (entry.role = role) := by
  rw [Bool.eq_iff_iff, decide_eq_true_eq, Manifest.hasRole, List.any_eq_true]
  constructor
  · rintro ⟨other, otherListed, matching⟩
    obtain ⟨sameId, sameRole⟩ := decide_eq_true_eq.mp matching
    rw [← wellFormed.eq_of_segmentId otherListed listed (sameId.trans inside)]
    exact sameRole
  · exact fun sameRole => ⟨entry, listed, decide_eq_true ⟨inside.symm, sameRole⟩⟩

variable {activeSegment : Nat} {requiresRotation : Bool}

theorem ActiveAmong.iff_role (wellFormed : manifest.WellFormed)
    (active : ActiveAmong (manifest.workerSegments worker) extents activeSegment requiresRotation)
    (listed : entry ∈ manifest.workerSegments worker) :
    entry.segmentId = activeSegment ↔ entry.role = .active := by
  obtain ⟨member, owner⟩ := mem_workerSegments.mp listed
  rcases active with ⟨rfl, -, inactive⟩ | ⟨pair, zipped, role, same, -⟩
  · have nonzero := (wellFormed.nonzero entry member).1
    have idle := inactive entry listed
    simp [nonzero, idle]
  · obtain ⟨otherMember, otherOwner⟩ := mem_workerSegments.mp (List.of_mem_zip zipped).1
    constructor
    · intro isActive
      rwa [wellFormed.eq_of_segmentId member otherMember (isActive.trans same.symm)]
    · intro isActive
      rw [wellFormed.eq_of_active member otherMember isActive role (owner.trans otherOwner.symm)]
      exact same

private theorem located_segmentId (identity : SegmentHeaderIdentity) (cursor : Nat)
    (records : List StoredRecord) :
    ∀ entry ∈ located identity cursor records, entry.1.segmentId = identity.segmentId := by
  induction records generalizing cursor with
  | nil => simp [located]
  | cons record rest ih =>
    rw [located, List.forall_mem_cons]
    exact ⟨rfl, ih _⟩

variable {listed : List ManifestSegmentEntry}

theorem exists_listed_of_mem_workerLog
    (segments : List.Forall₂ (fun entry extent => extent.Committed directory manifest entry ∧
      extent.Lifecycle entry) listed extents) :
    ∀ located ∈ workerLog extents,
      ∃ entry ∈ listed, located.1.segmentId = entry.segmentId := by
  induction segments with
  | nil => simp [workerLog]
  | @cons entry extent listed extents here _ ih =>
    intro located member
    simp only [workerLog, List.flatMap_cons, List.mem_append] at member ih
    rcases member with inside | later
    · refine ⟨entry, List.mem_cons_self, ?_⟩
      rw [located_segmentId _ _ _ located inside, here.1.identity]
      rfl
    · obtain ⟨other, otherListed, same⟩ := ih located later
      exact ⟨other, List.mem_cons_of_mem _ otherListed, same⟩

variable {bindings : List (Key × RecordRef)}

theorem bytesWhere_congr {left right : RecordRef → Bool}
    (same : ∀ binding ∈ bindings, left binding.2 = right binding.2) :
    bytesWhere left bindings = bytesWhere right bindings := by
  rw [bytesWhere, bytesWhere, List.filter_congr same]

variable {left right : List (Key × RecordRef)}

theorem bytesWhere_perm (inside : RecordRef → Bool) (perm : left.Perm right) :
    bytesWhere inside left = bytesWhere inside right :=
  ((perm.filter _).map _).sum_eq

theorem entriesHeapLength_perm (perm : left.Perm right) :
    entriesHeapLength left = entriesHeapLength right :=
  (perm.map _).sum_eq

theorem ActiveAmong.bytesWhere_eq (wellFormed : manifest.WellFormed)
    (active : ActiveAmong (manifest.workerSegments worker) extents activeSegment requiresRotation)
    (segments : List.Forall₂ (fun entry extent => extent.Committed directory manifest entry ∧
      extent.Lifecycle entry) (manifest.workerSegments worker) extents)
    (live : bindings.Perm (liveBindings nowNs (workerLog extents))) :
    bytesWhere (isActiveRef activeSegment) bindings =
        bytesWhere (manifest.hasRole .active) bindings ∧
      bytesWhere (isSealedRef activeSegment) bindings =
        bytesWhere (manifest.hasRole .sealed) bindings := by
  have listed : ∀ binding ∈ bindings, ∃ entry ∈ manifest.workerSegments worker,
      binding.2.segmentId = entry.segmentId := by
    rintro ⟨key, ref⟩ member
    obtain ⟨record, inside, -⟩ := mem_liveBindings.mp (live.mem_iff.mp member)
    exact exists_listed_of_mem_workerLog segments _ inside
  constructor
  · refine bytesWhere_congr fun binding member => ?_
    obtain ⟨entry, entryListed, inside⟩ := listed binding member
    rw [hasRole_eq wellFormed (mem_workerSegments.mp entryListed).1 inside, isActiveRef, inside,
      decide_eq_decide]
    exact active.iff_role wellFormed entryListed
  · refine bytesWhere_congr fun binding member => ?_
    obtain ⟨entry, entryListed, inside⟩ := listed binding member
    rw [hasRole_eq wellFormed (mem_workerSegments.mp entryListed).1 inside, isSealedRef, inside,
      decide_eq_decide, Ne, active.iff_role wellFormed entryListed]
    cases entry.role <;> simp

/-! ## The byte counters never overflow -/

private theorem sum_map_filter_le {α : Type} (size : α → Nat) (keep : α → Bool) (list : List α) :
    ((list.filter keep).map size).sum ≤ (list.map size).sum := by
  induction list with
  | nil => exact Nat.le_refl _
  | cons head tail ih =>
    by_cases kept : keep head <;> simp [kept] <;> omega

private theorem located_sizes (identity : SegmentHeaderIdentity) (cursor : Nat)
    (records : List StoredRecord) :
    ((located identity cursor records).map fun entry => entry.1.size).sum =
      (extentBytes records).length := by
  induction records generalizing cursor with
  | nil => rfl
  | cons record rest ih =>
    rw [located, List.map_cons, List.sum_cons, ih, extentBytes_cons, List.length_append]

theorem SegmentExtent.Committed.length_le {extent : SegmentExtent}
    (committed : extent.Committed directory manifest entry) :
    (extentBytes extent.records).length ≤ kSegmentSizeBytes := by
  have valid := selectNewestSegmentCommit_valid committed.decoded committed.newest
  have bounded := (validateCommit_ok_iff.mp valid).2.1.2.1
  have ending := committed.describes.ending
  omega

theorem workerLog_sizes_le
    (segments : List.Forall₂ (fun entry extent => extent.Committed directory manifest entry ∧
      extent.Lifecycle entry) listed extents) :
    ((workerLog extents).map fun entry => entry.1.size).sum ≤
      listed.length * kSegmentSizeBytes := by
  induction segments with
  | nil => exact Nat.le_refl _
  | @cons entry extent listed extents here _ ih =>
    have bounded := here.1.length_le
    simp only [workerLog, List.flatMap_cons, List.map_append, List.sum_append, List.length_cons,
      SegmentExtent.located, located_sizes, Nat.add_mul] at ih ⊢
    omega

/-- The live bytes of a catalog of at most a million Segments fit in a
`std::uint64_t`. -/
theorem bytesWhere_liveBindings_le (wellFormed : manifest.WellFormed)
    (segments : List.Forall₂ (fun entry extent => extent.Committed directory manifest entry ∧
      extent.Lifecycle entry) (manifest.workerSegments worker) extents) (nowNs : Nat)
    (inside : RecordRef → Bool) :
    bytesWhere inside (liveBindings nowNs (workerLog extents)) ≤ kUInt64Max := by
  have live : bytesWhere inside (liveBindings nowNs (workerLog extents)) ≤
      ((liveBindings nowNs (workerLog extents)).map fun binding => binding.2.size).sum :=
    sum_map_filter_le _ _ _
  have logged : ((liveBindings nowNs (workerLog extents)).map fun binding => binding.2.size).sum ≤
      ((workerLog extents).map fun entry => entry.1.size).sum := by
    rw [liveBindings, List.map_map]
    exact sum_map_filter_le _ _ _
  have total := workerLog_sizes_le segments
  have fewer : (manifest.workerSegments worker).length ≤ manifest.segments.length :=
    List.length_filter_le _ _
  have count := wellFormed.bounded
  simp only [kSegmentSizeBytes, kMaximumManifestSegmentCount, kUInt64Max] at *
  omega

/-! ## Building the Index -/

variable {scope : WorkerScope} {log : List LocatedRecord} {scan : WorkerScan}

theorem Scanned.insertable (scanned : Scanned scope budget log scan)
    (genuine : ∀ entry ∈ log, Genuine entry) (order : IterationOrder) :
    ∀ latest ∈ order.list scan.latest, Insertable scope.routing latest := by
  rintro ⟨key, record⟩ member
  rw [(order.permutes scan.latest).mem_iff, List.mem_map] at member
  obtain ⟨⟨other, found⟩, inside, same⟩ := member
  obtain ⟨rfl, rfl⟩ := Prod.mk.inj same
  obtain ⟨entry, decided, rfl⟩ := scanned.mem_latest.mp inside
  obtain ⟨there, rfl⟩ := mem_of_deciding decided
  have small := (genuine entry there).small
  refine ⟨?_, ?_⟩
  · simp only [recordKey, kInlineKeyMask, kMaxNormalRecordSize] at *
    omega
  · simp only [latestOf, recordKey, ← (scanned.routed entry there).hash]
    exact UInt64.ofNat_toNat

theorem entries_perm {hash : Key → UInt64} {table : SwissTableIndex} (valid : table.Valid hash)
    (distinct : bindings.Nodup)
    (binds : ∀ key ref, Binds table.cellAt key ref ↔ (key, ref) ∈ bindings) :
    table.entries.Perm bindings := by
  rw [List.perm_ext_iff_of_nodup (List.Nodup.of_map Prod.fst valid.nodup_entries) distinct]
  rintro ⟨key, ref⟩
  rw [valid.mem_entries, binds]

structure BuiltFrom (hash : Key → UInt64) (activeSegment : Nat)
    (bindings : List (Key × RecordRef)) (built : LiveIndex) : Prop where
  valid : built.index.Valid hash
  entries : built.index.entries.Perm bindings
  arena : entriesHeapLength bindings ≤ kUInt32Max
  activeBytes : built.activeBytes = bytesWhere (isActiveRef activeSegment) bindings
  sealedBytes : built.sealedBytes = bytesWhere (isSealedRef activeSegment) bindings

theorem Scanned.fill (scanned : Scanned scope budget log scan)
    (genuine : ∀ entry ∈ log, Genuine entry) (ordered : InOrder log) (seed : UInt64)
    (order : IterationOrder) (activeSegment : Nat) :
    ∃ reserved, ({ seed := seed } : SwissTableIndex).reserve (hashKeyRouting · scope.routing)
        scan.latest.entries.length = .ok reserved ∧
      ((∃ built, (order.list scan.latest).foldlM (insertLatest scope.routing activeSegment)
          ⟨reserved, 0, 0⟩ = .ok built ∧
        BuiltFrom (hashKeyRouting · scope.routing) activeSegment (liveBindings scope.nowNs log)
          built) ∨
      (∃ error, (order.list scan.latest).foldlM (insertLatest scope.routing activeSegment)
          ⟨reserved, 0, 0⟩ = .error error ∧
        (kUInt32Max < entriesHeapLength (liveBindings scope.nowNs log) ∨
          kUInt64Max < bytesWhere (isActiveRef activeSegment) (liveBindings scope.nowNs log) ∨
          kUInt64Max < bytesWhere (isSealedRef activeSegment) (liveBindings scope.nowNs log)))) := by
  obtain ⟨empty, vacant⟩ := emptyWith_fresh (hashKeyRouting · scope.routing) seed
    (Nat.zero_le 60) KeyArena.valid_empty rfl
  obtain ⟨reserved, reserves, fresh, preserved, unused, enough⟩ :=
    empty.reserve_spec rfl rfl scanned.length_latest
  refine ⟨reserved, reserves, ?_⟩
  have perm := scanned.visibleBindings_perm ordered order
  have absent : ∀ key ref, ¬ Binds reserved.cellAt key ref := fun key ref bound =>
    vacant key ref ((preserved.binds key ref).mp bound)
  have room : reserved.size + (visibleBindings (order.list scan.latest)).length ≤
      reserved.maximumOccupancy := by
    have size : reserved.size = 0 := preserved.size
    have fewer : (visibleBindings (order.list scan.latest)).length ≤
        (order.list scan.latest).length := by
      rw [visibleBindings, List.length_map]
      exact List.length_filter_le _ _
    have count := (order.permutes scan.latest).length_eq
    rw [List.length_map] at count
    omega
  have arena := entriesHeapLength_perm perm
  have active := bytesWhere_perm (isActiveRef activeSegment) perm
  have «sealed» := bytesWhere_perm (isSealedRef activeSegment) perm
  have counted : (⟨reserved, 0, 0⟩ : LiveIndex).Counted := ⟨Nat.zero_le _, Nat.zero_le _⟩
  have filling := fill_spec activeSegment fresh counted (order.nodup_keys scan.latest)
    (fun entry _ => absent entry.1) (scanned.insertable genuine order) room
  simp only [Exceeds, unused, Nat.zero_add, arena, active, «sealed»] at filling
  refine filling.imp_left ?_
  rintro ⟨built, filled, spec⟩
  have distinct := List.Nodup.of_map Prod.fst (nodup_liveBindings_keys scope.nowNs ordered)
  refine ⟨built, filled, spec.fresh.valid, ?_, ?_, ?_, ?_⟩
  · refine (entries_perm spec.fresh.valid (perm.nodup_iff.mpr distinct) fun key ref => ?_).trans perm
    rw [spec.binds]
    simp [absent key ref]
  · have bump := spec.bump
    have bound := spec.fresh.valid.arena.bound
    rw [arena, unused] at bump
    omega
  · rw [spec.activeBytes, active, Nat.zero_add]
  · rw [spec.sealedBytes, «sealed», Nat.zero_add]

variable (maxLiveKeys) in
theorem buildIndex_spec (wellFormed : manifest.WellFormed)
    (spec : WorkerScanned directory manifest (manifest.workerScope worker nowNs) budget
      (manifest.workerSegments worker) extents result) (seed : UInt64) (order : IterationOrder) :
    (∃ state, buildIndex manifest maxLiveKeys seed order worker result = .ok state ∧
      RecoveryLimits manifest worker nowNs maxLiveKeys budget (workerLog extents) ∧
      ReferenceState manifest worker nowNs extents state) ∨
    (∃ error, buildIndex manifest maxLiveKeys seed order worker result = .error error ∧
      ¬ RecoveryLimits manifest worker nowNs maxLiveKeys budget (workerLog extents)) := by
  have scanned := spec.scanned
  have ordered := workerLog_inOrder spec.ascending
  have visibleKeys : ((order.list result.scan.latest).countP fun entry =>
      !entry.2.deleted && !entry.2.expired) = (liveRecords nowNs (workerLog extents)).length := by
    have lengths := (scanned.visibleBindings_perm ordered order).length_eq
    rw [visibleBindings, liveBindings, List.length_map, List.length_map] at lengths
    rw [List.countP_eq_length_filter]
    exact lengths
  obtain ⟨reserved, reserves, filling⟩ := scanned.fill (workerLog_genuine extents) ordered seed
    order result.activeSegment
  obtain ⟨active, «sealed»⟩ := spec.active.bytesWhere_eq wellFormed spec.committed
    (.refl (liveBindings nowNs (workerLog extents)))
  simp only [Manifest.workerScope] at reserves filling
  unfold buildIndex
  by_cases exhausted : result.scan.maximumSequence = kUInt64Max
  · rw [if_pos exhausted]
    exact .inr ⟨_, rfl, fun limits => limits.sequence (scanned.maximum ▸ exhausted)⟩
  rw [if_neg exhausted]
  simp only [visibleKeys]
  by_cases tooMany : (liveRecords nowNs (workerLog extents)).length >
      durableWorkerLiveKeyLimit worker manifest.workerCount maxLiveKeys
  · rw [if_pos tooMany]
    exact .inr ⟨_, rfl, fun limits => Nat.not_lt.mpr limits.liveKeys tooMany⟩
  rw [if_neg tooMany]
  simp only [reserves]
  rcases filling with ⟨built, filled, filledFrom⟩ | ⟨error, failed, exceeds⟩
  · simp only [filled]
    have entries := filledFrom.entries
    refine .inl ⟨_, rfl, ⟨scanned.memory, scanned.maximum ▸ exhausted, Nat.le_of_not_lt tooMany,
      filledFrom.arena⟩, ⟨rfl, ?_, entries, by rw [scanned.maximum], ?_, ?_, spec.active⟩⟩
    · intro key ref
      rw [filledFrom.valid.find_iff, ← filledFrom.valid.mem_entries, entries.mem_iff, mem_liveBindings]
    · rw [filledFrom.activeBytes, active, bytesWhere_perm _ entries]
    · rw [filledFrom.sealedBytes, «sealed», bytesWhere_perm _ entries]
  · simp only [failed]
    refine .inr ⟨error, rfl, fun limits => ?_⟩
    have arenaFits := limits.arena
    have bytesFit := bytesWhere_liveBindings_le wellFormed spec.committed nowNs
    have activeFits := bytesFit (isActiveRef result.activeSegment)
    have sealedFits := bytesFit (isSealedRef result.activeSegment)
    omega

/-! ## Recovery of a Worker -/

variable {seed : UInt64} {order : IterationOrder}

/-- A recovery that succeeds scanned consistent extents within the limits and
computed their reference state. -/
theorem recoverWorker_sound (wellFormed : manifest.WellFormed) {state : RecoveredWorkerState}
    (recovers : recoverWorker directory manifest nowNs maxLiveKeys seed order budget worker =
      .ok (state, result)) :
    ∃ extents, WorkerConsistent directory manifest worker nowNs extents ∧
      RecoveryLimits manifest worker nowNs maxLiveKeys budget (workerLog extents) ∧
      ReferenceState manifest worker nowNs extents state ∧
      WorkerScanned directory manifest (manifest.workerScope worker nowNs) budget
        (manifest.workerSegments worker) extents result := by
  unfold recoverWorker scanWorker at recovers
  split at recovers
  · simp at recovers
  next scannedResult scans =>
  obtain ⟨extents, spec⟩ := (WorkerScanned.initial directory manifest
    (manifest.workerScope worker nowNs) budget).run scans
  rw [List.nil_append, List.nil_append] at spec
  rcases buildIndex_spec maxLiveKeys wellFormed spec seed order with
    ⟨other, built, limits, reference⟩ | ⟨error, failed, -⟩
  · simp only [built, Except.ok.injEq, Prod.mk.injEq] at recovers
    obtain ⟨rfl, rfl⟩ := recovers
    exact ⟨extents, ⟨spec.committed, spec.scanned.routed, spec.ascending⟩, limits, reference, spec⟩
  · simp [failed] at recovers

theorem WorkerConsistent.unique {left right : List SegmentExtent}
    (consistent : WorkerConsistent directory manifest worker nowNs left)
    (same : WorkerConsistent directory manifest worker nowNs right) : left = right := by
  have segments := consistent.segments
  have others := same.segments
  clear consistent same
  generalize manifest.workerSegments worker = listed at segments others
  induction segments generalizing right with
  | nil =>
    cases others
    rfl
  | cons here _ ih =>
    cases others with
    | cons there rest => rw [here.1.unique there.1, ih rest]

theorem WorkerConsistent.recoverWorker_ok (wellFormed : manifest.WellFormed)
    (consistent : WorkerConsistent directory manifest worker nowNs extents)
    (limits : RecoveryLimits manifest worker nowNs maxLiveKeys budget (workerLog extents)) :
    ∃ state result,
      recoverWorker directory manifest nowNs maxLiveKeys seed order budget worker =
        .ok (state, result) := by
  obtain ⟨result, scans, spec⟩ := (WorkerScanned.initial directory manifest
    (manifest.workerScope worker nowNs) budget).run_ok consistent.segments consistent.order
    consistent.routing limits.memory
  rw [List.nil_append, List.nil_append] at spec
  rcases buildIndex_spec maxLiveKeys wellFormed spec seed order with
    ⟨state, built, -⟩ | ⟨error, -, exceeded⟩
  · refine ⟨state, result, ?_⟩
    unfold recoverWorker scanWorker
    simp only [scans, built]
  · exact absurd limits exceeded

/-- Recovery of a Worker succeeds exactly when its Segments hold consistent
extents within the limits, and then returns the reference state. -/
theorem recoverWorker_reference (directory : SegmentDirectory) (catalog : Catalog)
    (worker nowNs maxLiveKeys : Nat) (seed : UInt64) (order : IterationOrder)
    (budget : RecoveryMemoryBudget) :
    ((∃ recovered, recoverWorker directory catalog.toManifest nowNs maxLiveKeys seed order budget
        worker = .ok recovered) ↔
      ∃ extents, WorkerConsistent directory catalog.toManifest worker nowNs extents ∧
        RecoveryLimits catalog.toManifest worker nowNs maxLiveKeys budget (workerLog extents)) ∧
    ∀ state result extents,
      recoverWorker directory catalog.toManifest nowNs maxLiveKeys seed order budget worker =
        .ok (state, result) →
      WorkerConsistent directory catalog.toManifest worker nowNs extents →
      ReferenceState catalog.toManifest worker nowNs extents state := by
  refine ⟨⟨?_, ?_⟩, ?_⟩
  · rintro ⟨⟨state, result⟩, recovers⟩
    obtain ⟨extents, consistent, limits, -⟩ := recoverWorker_sound catalog.wellFormed recovers
    exact ⟨extents, consistent, limits⟩
  · rintro ⟨extents, consistent, limits⟩
    obtain ⟨state, result, recovers⟩ := consistent.recoverWorker_ok catalog.wellFormed limits
    exact ⟨(state, result), recovers⟩
  · intro state result extents recovers consistent
    obtain ⟨others, same, -, reference, -⟩ := recoverWorker_sound catalog.wellFormed recovers
    rwa [consistent.unique same]

/-! ## A Segment with one commit -/

theorem withinMemory_of_double {budget : RecoveryMemoryBudget} {log : List LocatedRecord}
    (room : budget.retained + 2 * retainedBytes log ≤ budget.maximum) :
    WithinMemory budget log := by
  rintro seen entry rest rfl
  have before : retainedBytes seen ≤ retainedBytes (seen ++ entry :: rest) :=
    Finset.sum_le_sum_of_subset fun key => by
      simp only [List.mem_toFinset, List.map_append, List.mem_append]
      exact .inl
  have own : recoveryEntryBytes (recordKey entry) ≤ retainedBytes (seen ++ entry :: rest) :=
    Finset.single_le_sum (f := recoveryEntryBytes) (fun _ _ => Nat.zero_le _) (by simp)
  omega

def logInput (sequence : UInt64) (opcode : Opcode) (expireAtNs : UInt64) (key : Key) :
    RecordInput where
  sequence := sequence.toNat
  opcode
  type := .bytes
  flags := 0
  keyHash := (hashKeyRouting key sampleManifest.workerRouting).toNat
  expireAtNs := expireAtNs.toNat
  key
  value := []
  sequenceFits := sequence.toNat_lt
  flagsFits := zero_fits4
  keyHashFits := (hashKeyRouting key sampleManifest.workerRouting).toNat_lt
  expireFits := expireAtNs.toNat_lt

/-- A key that is overwritten, one that is erased and one whose put expires at 5. -/
def mixedInput : Fin 5 → RecordInput :=
  ![logInput 1 .put 0 [1], logInput 2 .put 0 [1], logInput 3 .put 0 [2], logInput 4 .erase 0 [2],
    logInput 5 .put 5 [3]]

def mixedLog : List LocatedRecord :=
  (List.finRange 5).map fun index : Fin 5 =>
    (⟨1, kSegmentHeaderReservedBytes + index.val * 64, 64, index.val + 1, 1⟩,
      (mixedInput index).view 64)

def mixedCommit : SegmentCommit :=
  ⟨2, kSegmentHeaderReservedBytes + 5 * 64, .active, 5, 1, 5⟩

theorem exists_mixedExtent : ∃ directory extent,
    WorkerConsistent directory sampleManifest 0 10 [extent] ∧ workerLog [extent] = mixedLog := by
  have stored (index : Fin 5) : ∃ record : StoredRecord,
      record.view = (mixedInput index).view 64 ∧ record.bytes.length = 64 :=
    exists_storedRecord (by fin_cases index <;> decide)
  choose record view length using stored
  let records := [record 0, record 1, record 2, record 3, record 4]
  have ascending : Ascending 0 records := by
    simp only [records, Ascending, List.map_cons, List.map_nil, view]
    decide
  have describes : mixedCommit.Describes records := by
    refine ⟨?_, rfl, ?_, ?_, ascending⟩
    · simp [records, mixedCommit, length]
    · exact (congrArg RecordView.sequence (view 0)).symm
    · exact (congrArg RecordView.sequence (view 4)).symm
  let identity := sampleManifest.identityOf sampleEntry
  let image := committedImage identity mixedCommit (extentBytes records)
  let extent : SegmentExtent :=
    ⟨image, ⟨identity, [.valid initialCommit, .valid mixedCommit]⟩, ⟨1, mixedCommit⟩, records⟩
  have committed : extent.Committed (fun _ _ => .ok image) sampleManifest sampleEntry := by
    refine ⟨rfl, ?_, rfl, rfl, describes, ?_⟩
    · exact decodeSegmentHeader_committedImage (by decide) (by decide)
        (describes.fits (by decide) (by decide)) _
    · exact read_overwrite_self (by rw [describes.ending, Nat.add_sub_cancel_left])
  have log : workerLog [extent] = mixedLog := by
    simp only [workerLog, List.flatMap_cons, List.flatMap_nil, SegmentExtent.located, located,
      extent, records, length, view]
    rfl
  refine ⟨_, extent, ⟨.cons ⟨committed, by rintro ⟨⟩⟩ .nil, ?_, ?_⟩, log⟩
  · rw [log]
    intro entry member
    obtain ⟨index, -, rfl⟩ := List.mem_map.mp member
    exact ⟨by fin_cases index <;> rfl, Nat.mod_one _⟩
  · rw [show workerRecords [extent] = records from List.flatMap_singleton _ _]
    exact ascending

theorem recoverWorker_reference_mixed :
    ∃ directory extent state result,
      WorkerConsistent directory sampleManifest 0 10 [extent] ∧ workerLog [extent] = mixedLog ∧
      recoverWorker directory sampleManifest 10 1 0 listingOrder
        ⟨4096, 0, by decide, by decide⟩ 0 = .ok (state, result) ∧
      state.nextSequence = 6 ∧
      ∀ key ref, state.index.find key (hashKeyRouting key sampleManifest.workerRouting) =
        some ref ↔ key = [1] ∧ ref = ⟨1, kSegmentHeaderReservedBytes + 64, 64, 2, 1⟩ := by
  obtain ⟨directory, extent, consistent, log⟩ := exists_mixedExtent
  have recovery := recoverWorker_reference directory sampleCatalog 0 10 1 0 listingOrder
    ⟨4096, 0, by decide, by decide⟩
  have live : liveBindings 10 mixedLog =
      [([1], ⟨1, kSegmentHeaderReservedBytes + 64, 64, 2, 1⟩)] := by
    decide +kernel
  obtain ⟨⟨state, result⟩, recovers⟩ := recovery.1.mpr ⟨[extent], consistent, by
    rw [log]
    exact ⟨withinMemory_of_double (by decide +kernel), by decide, by decide +kernel,
      by rw [live]; decide⟩⟩
  have reference := recovery.2 state result [extent] recovers consistent
  refine ⟨directory, extent, state, result, consistent, log, recovers, ?_, fun key ref => ?_⟩
  · rw [reference.nextSequence, log]
    decide
  · have bound := (reference.find key ref).trans mem_liveBindings.symm
    rw [log, live, List.mem_singleton, Prod.mk.injEq] at bound
    exact bound

end GlifiStore
