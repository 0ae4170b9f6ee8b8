import GlifiStore.Lib.LatestWins
import GlifiStore.Persistence.Recovery
import GlifiStore.Segment.Extent

/-!
# What a recovery scan computes

The scan of a Worker visits its log: the records of its committed extents in
catalog order, then in file order. It accepts exactly the routed records that
the memory budget holds, and keeps the deciding record of each key.
-/

namespace GlifiStore

open CrashFile LatestWins DurableSegmentFile

/-! ## The log of a Worker -/

abbrev LocatedRecord := RecordRef × RecordView

def recordKey (entry : LocatedRecord) : Key :=
  entry.2.key

def latestOf (nowNs : Nat) (entry : LocatedRecord) : LatestRecord where
  reference := entry.1
  keyHash := entry.2.keyHash
  deleted := entry.2.opcode = .erase
  expired := entry.2.expired nowNs

/-- The record carries the hash of its key and the hash routes it to the Worker. -/
structure Routed (scope : WorkerScope) (record : RecordView) : Prop where
  hash : (hashKeyRouting record.key scope.routing).toNat = record.keyHash
  worker : routeWorker record.keyHash scope.workerCount = scope.workerId

variable (log : List LocatedRecord)

def retainedBytes : Nat :=
  ∑ key ∈ (log.map recordKey).toFinset, recoveryEntryBytes key

/-- Every record of the log finds room for its key beside the keys before it. -/
def WithinMemory (budget : RecoveryMemoryBudget) (log : List LocatedRecord) : Prop :=
  ∀ seen entry rest, log = seen ++ entry :: rest →
    budget.retained + retainedBytes seen + recoveryEntryBytes (recordKey entry) ≤ budget.maximum

def greatestSequence : Nat :=
  (log.map fun entry => entry.2.sequence).foldl max 0

/-- What decoding and locating a record guarantee. -/
structure Genuine (entry : LocatedRecord) : Prop where
  stamped : entry.1.sequence = entry.2.sequence
  small : entry.2.key.length ≤ kMaxNormalRecordSize

def InOrder : Prop :=
  log.Pairwise fun earlier later => earlier.2.sequence < later.2.sequence

theorem retainedBytes_concat (entry : LocatedRecord) :
    retainedBytes (log ++ [entry]) = retainedBytes log +
      if deciding recordKey log (recordKey entry) = none then recoveryEntryBytes (recordKey entry)
      else 0 := by
  have keys : ((log ++ [entry]).map recordKey).toFinset =
      insert (recordKey entry) (log.map recordKey).toFinset := by
    ext key
    simp
  rw [retainedBytes, keys]
  split
  · next absent =>
    rw [Finset.sum_insert, Nat.add_comm, retainedBytes]
    simpa using deciding_eq_none.mp absent
  · next present =>
    rw [Finset.insert_eq_of_mem, retainedBytes, Nat.add_zero]
    rw [deciding_eq_none] at present
    simpa using present

theorem withinMemory_concat {budget : RecoveryMemoryBudget} {log : List LocatedRecord}
    {entry : LocatedRecord} :
    WithinMemory budget (log ++ [entry]) ↔ WithinMemory budget log ∧
      budget.retained + retainedBytes log + recoveryEntryBytes (recordKey entry) ≤
        budget.maximum := by
  constructor
  · intro within
    refine ⟨fun seen other rest split => ?_, within log entry [] rfl⟩
    exact within seen other (rest ++ [entry]) (by rw [split]; simp)
  · rintro ⟨within, last⟩ seen other rest split
    rcases List.eq_nil_or_concat rest with rfl | ⟨front, final, rfl⟩
    · obtain ⟨rfl, same⟩ := List.append_inj' split rfl
      obtain rfl := List.singleton_inj.mp same
      exact last
    · have regroup : seen ++ other :: (front ++ [final]) = (seen ++ other :: front) ++ [final] := by
        simp
      rw [List.concat_eq_append, regroup] at split
      exact within seen other front (List.append_inj' split rfl).1

theorem greatestSequence_concat (entry : LocatedRecord) :
    greatestSequence (log ++ [entry]) = max (greatestSequence log) entry.2.sequence := by
  simp [greatestSequence, List.foldl_append]

/-! ## One record -/

structure Scanned (scope : WorkerScope) (budget : RecoveryMemoryBudget)
    (log : List LocatedRecord) (scan : WorkerScan) : Prop where
  routed : ∀ entry ∈ log, Routed scope entry.2
  memory : WithinMemory budget log
  maximum : scan.maximumSequence = greatestSequence log
  latest : ∀ key, scan.latest.lookup key = (deciding recordKey log key).map (latestOf scope.nowNs)
  limit : scan.budget.maximum = budget.maximum
  retained : scan.budget.retained = budget.retained + retainedBytes log

theorem Scanned.initial (scope : WorkerScope) (budget : RecoveryMemoryBudget) :
    Scanned scope budget [] ⟨0, ∅, budget⟩ where
  routed := by simp
  memory := by simp [WithinMemory]
  maximum := rfl
  latest := by simp
  limit := rfl
  retained := by simp [retainedBytes]

section Visit

variable {scope : WorkerScope} {budget : RecoveryMemoryBudget} {log entries : List LocatedRecord}
  {scan : WorkerScan} {entry : LocatedRecord} {segmentId : Nat}

theorem Scanned.accepted {next : WorkerScan} (scanned : Scanned scope budget log scan)
    (accepts : visitRecoveryRecord scope segmentId scan entry.1 entry.2 = .ok next) :
    Routed scope entry.2 ∧
      budget.retained + retainedBytes log + recoveryEntryBytes (recordKey entry) ≤
        budget.maximum := by
  rw [visitRecoveryRecord, guard_eq_ok, guard_eq_ok] at accepts
  obtain ⟨hashed, worker, accepts⟩ := accepts
  refine ⟨⟨by simpa using hashed, by simpa using worker⟩, ?_⟩
  replace accepts := (guard_eq_ok.mp accepts).2
  split at accepts
  · exact nomatch accepts
  next peak =>
  have fits := (guard_eq_ok.mp peak).1
  have limit := scanned.limit
  have retained := scanned.retained
  have within := scan.budget.within
  rw [recordKey]
  omega

theorem Scanned.lookup_insert (scanned : Scanned scope budget log scan) (key : Key) :
    (scan.latest.insert (recordKey entry) (latestOf scope.nowNs entry)).lookup key =
      (deciding recordKey (log ++ [entry]) key).map (latestOf scope.nowNs) := by
  rw [deciding_concat]
  split
  · next same =>
    subst same
    simp
  · next differs =>
    rw [AList.lookup_insert_ne (Ne.symm differs)]
    exact scanned.latest key

theorem Scanned.extend (scanned : Scanned scope budget log scan) (routed : Routed scope entry.2)
    (fits : budget.retained + retainedBytes log + recoveryEntryBytes (recordKey entry) ≤
      budget.maximum)
    {nextBudget : RecoveryMemoryBudget} (limit : nextBudget.maximum = budget.maximum)
    (retained : nextBudget.retained = budget.retained + retainedBytes (log ++ [entry])) :
    Scanned scope budget (log ++ [entry])
      ⟨max scan.maximumSequence entry.2.sequence,
        scan.latest.insert (recordKey entry) (latestOf scope.nowNs entry), nextBudget⟩ where
  routed := by
    intro other member
    rcases List.mem_append.mp member with earlier | same
    · exact scanned.routed other earlier
    · rwa [List.mem_singleton.mp same]
  memory := withinMemory_concat.mpr ⟨scanned.memory, fits⟩
  maximum := by rw [greatestSequence_concat, scanned.maximum]
  latest := scanned.lookup_insert
  limit := limit
  retained := retained

variable (segmentId) in
theorem Scanned.visit (scanned : Scanned scope budget log scan)
    (stamped : ∀ earlier ∈ log, earlier.1.sequence = earlier.2.sequence)
    (newer : ∀ earlier ∈ log, earlier.2.sequence < entry.2.sequence)
    (small : entry.2.key.length ≤ kMaxNormalRecordSize) (routed : Routed scope entry.2)
    (fits : budget.retained + retainedBytes log + recoveryEntryBytes (recordKey entry) ≤
      budget.maximum) :
    ∃ next, visitRecoveryRecord scope segmentId scan entry.1 entry.2 = .ok next ∧
      Scanned scope budget (log ++ [entry]) next := by
  have limit := scanned.limit
  have retained := scanned.retained
  have room : ¬ recoveryEntryBytes entry.2.key > scan.budget.maximum - scan.budget.retained := by
    rw [recordKey] at fits
    omega
  have keySize : ¬ entry.2.key.length > (kUInt64Max - kRecoveryBytesPerKey) / 2 := by
    simp only [kMaxNormalRecordSize, kUInt64Max, kRecoveryBytesPerKey] at *
    omega
  have grown := retainedBytes_concat log entry
  unfold visitRecoveryRecord
  rw [if_neg (by simp [routed.hash]), if_neg (by simp [routed.worker])]
  simp only
  rw [if_neg keySize, RecoveryMemoryBudget.ensurePeak, if_neg room]
  simp only
  have current := scanned.latest (recordKey entry)
  cases decided : deciding recordKey log (recordKey entry) with
  | none =>
    rw [decided, Option.map_none] at current
    rw [decided, if_pos rfl] at grown
    simp only [recordKey] at current
    simp only [current, RecoveryMemoryBudget.retain, dif_neg room]
    refine ⟨_, rfl, scanned.extend routed fits limit ?_⟩
    simp only [recordKey] at grown ⊢
    omega
  | some previous =>
    obtain ⟨member, -⟩ := mem_of_deciding decided
    have older := newer previous member
    have sequence := stamped previous member
    rw [decided, Option.map_some] at current
    rw [decided, if_neg (by simp)] at grown
    simp only [recordKey] at current
    simp only [current, latestOf, sequence]
    rw [if_neg (Nat.ne_of_lt older), if_pos older]
    exact ⟨_, rfl, scanned.extend routed fits limit (by omega)⟩

/-! ## A list of records -/

theorem InOrder.newer {rest : List LocatedRecord}
    (ordered : InOrder (log ++ entry :: rest)) :
    ∀ earlier ∈ log, earlier.2.sequence < entry.2.sequence := fun earlier member =>
  (List.pairwise_append.mp ordered).2.2 earlier member entry List.mem_cons_self

variable (segmentId) in
/-- The scan accepts exactly the routed records that the budget holds. -/
theorem Scanned.fold (scanned : Scanned scope budget log scan)
    (genuine : ∀ entry ∈ log ++ entries, Genuine entry) (ordered : InOrder (log ++ entries)) :
    match entries.foldlM (fun visited entry =>
      visitRecoveryRecord scope segmentId visited entry.1 entry.2) scan with
    | .ok next => Scanned scope budget (log ++ entries) next
    | .error _ => ¬ ((∀ entry ∈ entries, Routed scope entry.2) ∧
        WithinMemory budget (log ++ entries)) := by
  induction entries generalizing log scan with
  | nil => rwa [List.append_nil]
  | cons entry rest ih =>
    have visits := scanned.visit segmentId
      (fun earlier member => (genuine earlier (List.mem_append_left _ member)).stamped)
      ordered.newer (genuine entry (by simp)).small
    rw [List.foldlM_cons]
    cases visited : visitRecoveryRecord scope segmentId scan entry.1 entry.2 with
    | error error =>
      rintro ⟨routed, memory⟩
      obtain ⟨next, accepts, -⟩ :=
        visits (routed entry List.mem_cons_self) (memory log entry rest rfl)
      exact nomatch visited.symm.trans accepts
    | ok after =>
      obtain ⟨routed, fits⟩ := scanned.accepted visited
      obtain ⟨other, same, extended⟩ := visits routed fits
      obtain rfl := Except.ok.inj (same.symm.trans visited)
      have regroup : log ++ entry :: rest = (log ++ [entry]) ++ rest := by simp
      rw [regroup] at genuine ordered ⊢
      have later := ih extended genuine ordered
      simp only [bind, Except.bind]
      generalize (rest.foldlM _ _ : Result _) = outcome at later ⊢
      cases outcome with
      | ok next => exact later
      | error error =>
        exact fun both => later ⟨fun other member => both.1 other (.tail _ member), both.2⟩

end Visit

/-! ## The extents of a Worker -/

/-- A Segment file with its decoded header, its newest commit and the records
that the commit covers. -/
structure SegmentExtent where
  image : Image UInt8
  header : DecodedSegmentHeader
  selected : SelectedSegmentCommit
  records : List StoredRecord

open SegmentExtent

/-- The file stands under the name of the catalog entry and carries its
identity, and its newest commit describes its records. -/
structure SegmentExtent.Committed (directory : SegmentDirectory) (manifest : Manifest)
    (entry : ManifestSegmentEntry) (extent : SegmentExtent) : Prop where
  present : directory entry.segmentId entry.generation = .ok extent.image
  decoded : decodeSegmentHeader (read extent.image 0 kSegmentHeaderReservedBytes) =
    .ok extent.header
  identity : extent.header.identity = manifest.identityOf entry
  newest : selectNewestSegmentCommit extent.header = .ok extent.selected
  describes : extent.selected.commit.Describes extent.records
  content : read extent.image kSegmentHeaderReservedBytes
    (extent.selected.commit.committedEnd - kSegmentHeaderReservedBytes) =
      extentBytes extent.records

/-- A Segment that the catalog lists as sealed was sealed. -/
def SegmentExtent.Lifecycle (entry : ManifestSegmentEntry) (extent : SegmentExtent) : Prop :=
  entry.role = .sealed → extent.selected.commit.state = .sealed

def SegmentExtent.located (extent : SegmentExtent) : List LocatedRecord :=
  GlifiStore.located extent.header.identity 0 extent.records

variable (extents : List SegmentExtent)

/-- The committed records of a Worker in catalog order, then in file order. -/
def workerLog : List LocatedRecord :=
  extents.flatMap SegmentExtent.located

def workerRecords : List StoredRecord :=
  extents.flatMap records

theorem workerLog_append (left right : List SegmentExtent) :
    workerLog (left ++ right) = workerLog left ++ workerLog right :=
  List.flatMap_append

theorem workerRecords_append (left right : List SegmentExtent) :
    workerRecords (left ++ right) = workerRecords left ++ workerRecords right :=
  List.flatMap_append

theorem workerLog_views :
    (workerLog extents).map Prod.snd = (workerRecords extents).map StoredRecord.view := by
  induction extents with
  | nil => rfl
  | cons extent rest ih =>
    simp only [workerLog, workerRecords, List.flatMap_cons, List.map_append] at ih ⊢
    rw [ih, SegmentExtent.located, located_views]

theorem workerLog_sequences :
    (workerLog extents).map (fun entry => entry.2.sequence) =
      (workerRecords extents).map fun record => record.view.sequence := by
  have views := congrArg (List.map RecordView.sequence) (workerLog_views extents)
  simpa only [List.map_map, Function.comp_def] using views

theorem workerLog_inOrder {extents : List SegmentExtent}
    (ascending : Ascending 0 (workerRecords extents)) : InOrder (workerLog extents) := by
  rw [Ascending, List.isChain_iff_pairwise, List.pairwise_cons, ← workerLog_sequences] at ascending
  exact List.pairwise_map.mp ascending.2

private theorem foldl_max_ascending {records : List StoredRecord} {previous : Nat}
    (ascending : Ascending previous records) :
    (records.map fun record => record.view.sequence).foldl max previous =
      lastSequenceFrom previous records := by
  induction records generalizing previous with
  | nil => rfl
  | cons record rest ih =>
    rw [ascending_cons] at ascending
    rw [List.map_cons, List.foldl_cons, Nat.max_eq_right (Nat.le_of_lt ascending.1)]
    exact ih ascending.2

theorem greatestSequence_workerLog {extents : List SegmentExtent}
    (ascending : Ascending 0 (workerRecords extents)) :
    greatestSequence (workerLog extents) = lastSequenceFrom 0 (workerRecords extents) := by
  rw [greatestSequence, workerLog_sequences, foldl_max_ascending ascending]

private theorem located_genuine (identity : SegmentHeaderIdentity) (cursor : Nat)
    (records : List StoredRecord) :
    ∀ entry ∈ GlifiStore.located identity cursor records, Genuine entry := by
  induction records generalizing cursor with
  | nil => simp [GlifiStore.located]
  | cons record rest ih =>
    rw [GlifiStore.located, List.forall_mem_cons]
    refine ⟨⟨rfl, ?_⟩, ih _⟩
    have bounded := record.size_spec.2.1
    rw [record.decodes.key, ByteLayout.slice]
    simp only [List.length_take, List.length_drop]
    omega

theorem workerLog_genuine : ∀ entry ∈ workerLog extents, Genuine entry := by
  intro entry member
  obtain ⟨extent, -, inside⟩ := List.mem_flatMap.mp member
  exact located_genuine _ _ _ entry inside

/-! ## One Segment -/

def SegmentExtent.file (extent : SegmentExtent) : DurableSegmentFile :=
  .opened extent.image extent.header.identity extent.selected false

variable {directory : SegmentDirectory} {manifest : Manifest} {entry : ManifestSegmentEntry}
  {extent : SegmentExtent} {extents : List SegmentExtent}

theorem SegmentExtent.Committed.openSegment_eq
    (committed : extent.Committed directory manifest entry) :
    openSegment directory (manifest.identityOf entry) = .ok extent.file := by
  have opens : openFile extent.image (manifest.identityOf entry) false =
      .ok extent.file :=
    openFile_ok_iff.mpr ⟨extent.header, extent.selected, committed.decoded,
      committed.identity, committed.newest, by rw [file, committed.identity]⟩
  have present : directory (manifest.identityOf entry).segmentId
      (manifest.identityOf entry).generation = .ok extent.image := committed.present
  rw [openSegment, present]
  exact opens

theorem SegmentExtent.Committed.unique {other : SegmentExtent}
    (committed : extent.Committed directory manifest entry)
    (same : other.Committed directory manifest entry) : extent = other := by
  obtain ⟨image, header, selected, records⟩ := extent
  obtain ⟨otherImage, otherHeader, otherSelected, otherRecords⟩ := other
  obtain rfl : image = otherImage :=
    Except.ok.inj (committed.present.symm.trans same.present)
  obtain rfl : header = otherHeader := Except.ok.inj (committed.decoded.symm.trans same.decoded)
  obtain rfl : selected = otherSelected := Except.ok.inj (committed.newest.symm.trans same.newest)
  obtain rfl : records = otherRecords :=
    extentBytes_inj (committed.content.symm.trans same.content)
  rfl

theorem SegmentExtent.committed_of_visit {file : DurableSegmentFile} {σ : Type}
    {visitor : σ → RecordRef → RecordView → Result σ} {initial final : σ}
    (opens : openSegment directory (manifest.identityOf entry) = .ok file)
    (visits : file.visitCommittedRecords visitor initial = .ok final) :
    ∃ extent : SegmentExtent, extent.Committed directory manifest entry ∧ file = extent.file := by
  unfold openSegment at opens
  split at opens
  · simp at opens
  next image present =>
  obtain ⟨header, selected, decoded, identity, newest, rfl⟩ :=
    openFile_ok_iff.mp opens
  have valid := selectNewestSegmentCommit_valid decoded newest
  obtain ⟨-, records, describes, content⟩ :=
    extent_of_visitCommittedRecords valid visits
  exact ⟨⟨image, header, selected, records⟩, ⟨present, decoded, identity, newest, describes, content⟩,
    by rw [file, identity]⟩

theorem SegmentExtent.Committed.visit_eq (committed : extent.Committed directory manifest entry)
    {σ : Type} (visitor : σ → RecordRef → RecordView → Result σ) (initial : σ) :
    extent.file.visitCommittedRecords visitor initial =
      extent.located.foldlM (fun visited entry => visitor visited entry.1 entry.2) initial := by
  have content : extent.file.committedBytes = extentBytes extent.records := by
    simp only [committedBytes, file, opened, File.synced]
    exact committed.content
  exact visitCommittedRecords_extent rfl committed.describes content initial

theorem validateLifecycle_ok {commit : SegmentCommit} {requiresRotation : Bool} :
    validateLifecycle entry commit = .ok requiresRotation ↔
      (entry.role = .sealed → commit.state = .sealed) ∧
        requiresRotation = decide (entry.role = .active ∧ commit.state = .sealed) := by
  unfold validateLifecycle
  cases entry.role with
  | «sealed» =>
    by_cases state : commit.state = .sealed <;> simp [state, fail, eq_comm]
  | active => simp [eq_comm]

theorem ascending_concat (ascending : Ascending 0 (workerRecords extents))
    (committed : extent.Committed directory manifest entry) :
    Ascending 0 (workerRecords (extents ++ [extent])) ↔
      ¬ (extent.selected.commit.recordCount ≠ 0 ∧ greatestSequence (workerLog extents) ≠ 0 ∧
        extent.selected.commit.firstSequence ≤ greatestSequence (workerLog extents)) := by
  have own := committed.describes.ascending
  have last : workerRecords [extent] = extent.records := List.flatMap_singleton _ _
  rw [workerRecords_append, ascending_append, last, ← greatestSequence_workerLog ascending,
    committed.describes.count, committed.describes.first]
  cases records : extent.records with
  | nil => simp [ascending, ascending_nil]
  | cons record rest =>
    rw [records, ascending_cons] at own
    simp only [ascending, true_and, ascending_cons, own.2, and_true, List.length_cons,
      firstSequenceOf]
    omega

/-! ## All Segments of a Worker -/

variable {scope : WorkerScope} {budget : RecoveryMemoryBudget}
  {listed : List ManifestSegmentEntry} {result : WorkerScanResult}

/-- The Segment that is active after some entries, and whether it needs rotation. -/
def ActiveAmong (listed : List ManifestSegmentEntry) (extents : List SegmentExtent)
    (activeSegment : Nat) (requiresRotation : Bool) : Prop :=
  (activeSegment = 0 ∧ requiresRotation = false ∧ ∀ entry ∈ listed, entry.role ≠ .active) ∨
    ∃ pair ∈ listed.zip extents, pair.1.role = .active ∧ pair.1.segmentId = activeSegment ∧
      requiresRotation = decide (pair.2.selected.commit.state = .sealed)

/-- The result of scanning the listed Segments with their committed extents. -/
structure WorkerScanned (directory : SegmentDirectory) (manifest : Manifest) (scope : WorkerScope)
    (budget : RecoveryMemoryBudget) (listed : List ManifestSegmentEntry)
    (extents : List SegmentExtent) (result : WorkerScanResult) : Prop where
  committed : List.Forall₂ (fun entry extent => extent.Committed directory manifest entry ∧
    extent.Lifecycle entry) listed extents
  ascending : Ascending 0 (workerRecords extents)
  scanned : Scanned scope budget (workerLog extents) result.scan
  active : ActiveAmong listed extents result.activeSegment result.activeRequiresRotation
  selected : result.segments = listed.zip (extents.map SegmentExtent.selected)

theorem activeAmong_concat {activeSegment : Nat} {requiresRotation segmentRotation : Bool}
    (lengths : listed.length = extents.length)
    (active : ActiveAmong listed extents activeSegment requiresRotation)
    (rotation : segmentRotation =
      decide (entry.role = .active ∧ extent.selected.commit.state = .sealed)) :
    ActiveAmong (listed ++ [entry]) (extents ++ [extent])
      (if entry.role = .active then entry.segmentId else activeSegment)
      (if entry.role = .active then segmentRotation else requiresRotation) := by
  have zipped : (listed ++ [entry]).zip (extents ++ [extent]) =
      listed.zip extents ++ [(entry, extent)] := by
    rw [List.zip_append lengths]
    rfl
  rw [ActiveAmong, zipped]
  by_cases role : entry.role = .active
  · rw [if_pos role, if_pos role]
    exact .inr ⟨(entry, extent), by simp, role, rfl, by simpa [role] using rotation⟩
  · rw [if_neg role, if_neg role]
    rcases active with ⟨none, idle, inactive⟩ | ⟨pair, member, rest⟩
    · refine .inl ⟨none, idle, fun other member => ?_⟩
      rcases List.mem_append.mp member with earlier | same
      · exact inactive other earlier
      · rwa [List.mem_singleton.mp same]
    · exact .inr ⟨pair, List.mem_append_left _ member, rest⟩

theorem zip_selected_concat {segments : List (ManifestSegmentEntry × SelectedSegmentCommit)}
    (lengths : listed.length = extents.length)
    (selected : segments = listed.zip (extents.map SegmentExtent.selected)) :
    segments ++ [(entry, extent.selected)] =
      (listed ++ [entry]).zip ((extents ++ [extent]).map SegmentExtent.selected) := by
  rw [selected, List.map_append, List.zip_append (by rw [lengths, List.length_map])]
  rfl

theorem WorkerScanned.initial (directory : SegmentDirectory) (manifest : Manifest)
    (scope : WorkerScope) (budget : RecoveryMemoryBudget) :
    WorkerScanned directory manifest scope budget [] [] ⟨⟨0, ∅, budget⟩, 0, false, []⟩ where
  committed := .nil
  ascending := ascending_nil 0
  scanned := Scanned.initial scope budget
  active := .inl ⟨rfl, rfl, by simp⟩
  selected := rfl

theorem workerLog_concat (extent : SegmentExtent) :
    workerLog (extents ++ [extent]) = workerLog extents ++ extent.located := by
  rw [workerLog_append]
  simp [workerLog]

section Spec

variable (spec : WorkerScanned directory manifest scope budget listed extents result)
include spec

theorem WorkerScanned.step {next : WorkerScanResult}
    (accepts : scanSegment directory manifest scope result entry = .ok next) :
    ∃ extent, extent.Committed directory manifest entry ∧
      WorkerScanned directory manifest scope budget (listed ++ [entry]) (extents ++ [extent])
        next := by
  revert accepts
  fun_cases scanSegment directory manifest scope result entry with
  | case5 file opens requiresRotation lifecycle _ follows scan visits =>
    rintro ⟨⟩
    obtain ⟨extent, committed, rfl⟩ := committed_of_visit opens visits
    obtain ⟨sealedState, rotation⟩ := validateLifecycle_ok.mp lifecycle
    rw [spec.scanned.maximum] at follows
    have ascending := (ascending_concat spec.ascending committed).mpr follows
    rw [committed.visit_eq] at visits
    have genuine := workerLog_genuine (extents ++ [extent])
    have ordered := workerLog_inOrder ascending
    rw [workerLog_concat] at genuine ordered
    have scanned := spec.scanned.fold entry.segmentId genuine ordered
    rw [visits, ← workerLog_concat] at scanned
    refine ⟨extent, committed, ⟨?_, ascending, scanned, ?_, ?_⟩⟩
    · exact List.rel_append spec.committed (.cons ⟨committed, sealedState⟩ .nil)
    · exact activeAmong_concat spec.committed.length_eq spec.active rotation
    · exact zip_selected_concat spec.committed.length_eq spec.selected
  | _ => nofun

theorem WorkerScanned.step_ok (committed : extent.Committed directory manifest entry) (lifecycle : extent.Lifecycle entry)
    (ascending : Ascending 0 (workerRecords (extents ++ [extent])))
    (routed : ∀ located ∈ extent.located, Routed scope located.2)
    (memory : WithinMemory budget (workerLog (extents ++ [extent]))) :
    ∃ next, scanSegment directory manifest scope result entry = .ok next ∧
      WorkerScanned directory manifest scope budget (listed ++ [entry]) (extents ++ [extent])
        next := by
  have follows := (ascending_concat spec.ascending committed).mp ascending
  have genuine := workerLog_genuine (extents ++ [extent])
  have ordered := workerLog_inOrder ascending
  rw [workerLog_concat] at genuine ordered memory
  have scanned := spec.scanned.fold entry.segmentId genuine ordered
  rw [← committed.visit_eq] at scanned
  rw [← spec.scanned.maximum] at follows
  have checked := validateLifecycle_ok.mpr ⟨lifecycle, rfl⟩
  have selected : extent.file.selected = extent.selected := rfl
  have accepts : ∃ next, scanSegment directory manifest scope result entry = .ok next := by
    unfold scanSegment
    simp only [committed.openSegment_eq, selected, checked, if_neg follows]
    generalize extent.file.visitCommittedRecords _ _ = outcome at scanned ⊢
    cases outcome with
    | ok scan => exact ⟨_, rfl⟩
    | error error => exact absurd ⟨routed, memory⟩ scanned
  obtain ⟨next, accepts⟩ := accepts
  obtain ⟨other, found, after⟩ := spec.step accepts
  exact ⟨next, accepts, found.unique committed ▸ after⟩

variable {entries : List ManifestSegmentEntry}

theorem WorkerScanned.run {final : WorkerScanResult}
    (accepts : entries.foldlM (scanSegment directory manifest scope) result = .ok final) :
    ∃ more, WorkerScanned directory manifest scope budget (listed ++ entries) (extents ++ more)
      final := by
  induction entries generalizing listed extents result with
  | nil =>
    obtain rfl := Except.ok.inj accepts
    exact ⟨[], by simpa using spec⟩
  | cons entry rest ih =>
    rw [List.foldlM_cons] at accepts
    cases scanned : scanSegment directory manifest scope result entry with
    | error error => simp [scanned, bind, Except.bind] at accepts
    | ok next =>
      simp only [scanned, bind, Except.bind] at accepts
      obtain ⟨extent, -, after⟩ := spec.step scanned
      obtain ⟨more, finished⟩ := ih after accepts
      exact ⟨extent :: more, by simpa using finished⟩

/-- Committed extents in order and within the limits are all accepted. -/
theorem WorkerScanned.run_ok {more : List SegmentExtent}
    (committed : List.Forall₂ (fun entry extent => extent.Committed directory manifest entry ∧
      extent.Lifecycle entry) entries more)
    (ascending : Ascending 0 (workerRecords (extents ++ more)))
    (routed : ∀ located ∈ workerLog more, Routed scope located.2)
    (memory : WithinMemory budget (workerLog (extents ++ more))) :
    ∃ final, entries.foldlM (scanSegment directory manifest scope) result = .ok final ∧
      WorkerScanned directory manifest scope budget (listed ++ entries) (extents ++ more) final := by
  induction committed generalizing listed extents result with
  | nil => exact ⟨result, rfl, by simpa using spec⟩
  | @cons entry extent entries more here _ ih =>
    have regroup : extents ++ extent :: more = (extents ++ [extent]) ++ more := by simp
    rw [regroup] at ascending memory ⊢
    have front : Ascending 0 (workerRecords (extents ++ [extent])) := by
      rw [workerRecords_append (extents ++ [extent]), ascending_append] at ascending
      exact ascending.1
    have frontMemory : WithinMemory budget (workerLog (extents ++ [extent])) := by
      rw [workerLog_append (extents ++ [extent])] at memory
      intro seen located rest split
      exact memory seen located (rest ++ workerLog more) (by rw [split]; simp)
    have frontRouted : ∀ located ∈ extent.located, Routed scope located.2 :=
      fun located member => routed located (by simp [workerLog, member])
    obtain ⟨next, scanned, after⟩ :=
      spec.step_ok here.1 here.2 front frontRouted frontMemory
    obtain ⟨final, accepts, finished⟩ := ih after ascending
      (fun located member => routed located (by
        simp only [workerLog, List.flatMap_cons, List.mem_append] at member ⊢
        exact .inr member)) memory
    refine ⟨final, ?_, by simpa using finished⟩
    rw [List.foldlM_cons, scanned]
    exact accepts

end Spec

end GlifiStore
