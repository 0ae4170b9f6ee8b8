import GlifiStore.Index.SwissTable
import GlifiStore.Persistence.Manifest
import GlifiStore.Segment.File

/-!
# Durable recovery

Scanning the committed extents of one Worker in catalog order, keeping the
record with the greatest sequence of each key, and building the Index from it.
-/

namespace GlifiStore

open CrashFile

/-! ## Memory budget -/

/-- `RecoveryMemoryBudget`: what is retained stays within the maximum, which is
a `std::uint64_t`. -/
structure RecoveryMemoryBudget where
  maximum : Nat
  retained : Nat
  maximumFits : maximum ≤ kUInt64Max
  within : retained ≤ maximum

def kRecoveryBytesPerKey : Nat := 256

namespace RecoveryMemoryBudget

def ensurePeak (budget : RecoveryMemoryBudget) (additional : Nat) : Status :=
  if additional > budget.maximum - budget.retained then
    fail .resourceExhausted "durable recovery exceeds the configured memory budget"
  else
    .ok ()

def retain (budget : RecoveryMemoryBudget) (additional : Nat) : Result RecoveryMemoryBudget :=
  if exceeds : additional > budget.maximum - budget.retained then
    fail .resourceExhausted "durable recovery exceeds the configured memory budget"
  else
    .ok
      { budget with
        retained := budget.retained + additional
        within := by
          have within := budget.within
          omega }

end RecoveryMemoryBudget

/-! ## Scanning -/

structure LatestRecord where
  reference : RecordRef
  keyHash : Nat
  deleted : Bool
  expired : Bool
  deriving DecidableEq

/-- The latest record of each key, `std::unordered_map<std::string, LatestRecord>`. -/
abbrev LatestMap := AList fun _ : Key => LatestRecord

/-- The fixed part of `WorkerScanContext`. -/
structure WorkerScope where
  workerId : Nat
  workerCount : Nat
  routing : WorkerRoutingState
  nowNs : Nat

/-- The part of `WorkerScanContext` that a scan changes. -/
structure WorkerScan where
  maximumSequence : Nat
  latest : LatestMap
  budget : RecoveryMemoryBudget

def recoveryEntryBytes (key : Key) : Nat :=
  kRecoveryBytesPerKey + key.length * 2

def visitRecoveryRecord (scope : WorkerScope) (segmentId : Nat) (scan : WorkerScan)
    (reference : RecordRef) (record : RecordView) : Result WorkerScan :=
  if (hashKeyRouting record.key scope.routing).toNat ≠ record.keyHash then
    fail .corruptedData ("Segment " ++ toString segmentId ++
      " contains a Record whose key hash does not match its key bytes")
  else if routeWorker record.keyHash scope.workerCount ≠ scope.workerId then
    fail .corruptedData ("Segment " ++ toString segmentId ++
      " contains a Record routed to another Worker")
  else
    let maximumSequence := max scan.maximumSequence record.sequence
    if record.key.length > (kUInt64Max - kRecoveryBytesPerKey) / 2 then
      fail .arithmeticOverflow "durable recovery key memory estimate overflow"
    else
      match scan.budget.ensurePeak (recoveryEntryBytes record.key) with
      | .error error => .error error
      | .ok () =>
        let candidate : LatestRecord :=
          { reference := reference
            keyHash := record.keyHash
            deleted := record.opcode = .erase
            expired := record.expired scope.nowNs }
        match scan.latest.lookup record.key with
        | some current =>
          if current.reference.sequence = record.sequence then
            fail .sequenceConflict "duplicate highest sequence for one key during durable recovery"
          else if current.reference.sequence < record.sequence then
            .ok ⟨maximumSequence, scan.latest.insert record.key candidate, scan.budget⟩
          else
            .ok ⟨maximumSequence, scan.latest, scan.budget⟩
        | none =>
          match scan.budget.retain (recoveryEntryBytes record.key) with
          | .error error => .error error
          | .ok budget =>
            .ok ⟨maximumSequence, scan.latest.insert record.key candidate, budget⟩

/-- The Segment files of a directory by identity and generation: the image of a
private file of exactly 64 MiB, or why there is none to read. -/
abbrev SegmentDirectory := Nat → Nat → Result (Image UInt8)

variable (directory : SegmentDirectory)

/-- `DurableSegmentFile::open` of a name in a healthy directory. -/
def openSegment (expected : SegmentHeaderIdentity) : Result DurableSegmentFile :=
  match directory expected.segmentId expected.generation with
  | .error error => .error error
  | .ok image => DurableSegmentFile.openFile image expected false

/-- `segment_error`: a missing file is corruption of the store. -/
def segmentError {α : Type} (entry : ManifestSegmentEntry) (error : Error) : Result α :=
  .error
    { code := if error.code = .notFound then .corruptedData else error.code
      message := "manifest Segment " ++ toString entry.segmentId ++ ": " ++ error.message }

def validateLifecycle (entry : ManifestSegmentEntry) (commit : SegmentCommit) : Result Bool :=
  match entry.role with
  | .sealed =>
    if commit.state ≠ .sealed then
      fail .corruptedData "manifest sealed Segment has an active persisted commit state"
    else
      .ok false
  | .active => .ok (commit.state = .sealed)

structure WorkerScanResult where
  scan : WorkerScan
  activeSegment : Nat
  activeRequiresRotation : Bool
  segments : List (ManifestSegmentEntry × SelectedSegmentCommit)

variable (manifest : Manifest)

/-- The body of the loop of `scan_worker` over the Worker's entries. -/
def scanSegment (scope : WorkerScope)
    (result : WorkerScanResult) (entry : ManifestSegmentEntry) : Result WorkerScanResult :=
  match openSegment directory (manifest.identityOf entry) with
  | .error error => segmentError entry error
  | .ok file =>
    match validateLifecycle entry file.selected.commit with
    | .error error => segmentError entry error
    | .ok requiresRotation =>
      let commit := file.selected.commit
      if commit.recordCount ≠ 0 ∧ result.scan.maximumSequence ≠ 0 ∧
          commit.firstSequence ≤ result.scan.maximumSequence then
        segmentError entry ⟨.corruptedData,
          "committed sequence range overlaps or reverses a preceding Worker Segment"⟩
      else
        match file.visitCommittedRecords (visitRecoveryRecord scope entry.segmentId)
            result.scan with
        | .error error => segmentError entry error
        | .ok scan =>
          .ok
            { scan := scan
              activeSegment :=
                if entry.role = .active then entry.segmentId else result.activeSegment
              activeRequiresRotation :=
                if entry.role = .active then requiresRotation else result.activeRequiresRotation
              segments := result.segments ++ [(entry, file.selected)] }

def Manifest.workerSegments (worker : Nat) : List ManifestSegmentEntry :=
  manifest.segments.filter fun entry => entry.ownerWorker = worker

def Manifest.workerScope (worker nowNs : Nat) : WorkerScope :=
  ⟨worker, manifest.workerCount, manifest.workerRouting, nowNs⟩

def scanWorker (nowNs : Nat)
    (budget : RecoveryMemoryBudget) (worker : Nat) : Result WorkerScanResult :=
  (manifest.workerSegments worker).foldlM
    (scanSegment directory manifest (manifest.workerScope worker nowNs))
    ⟨⟨0, ∅, budget⟩, 0, false, []⟩

/-! ## Building the Index -/

/-- The order in which iteration over the unordered map lists its entries: some
permutation of them. -/
structure IterationOrder where
  list : LatestMap → List (Key × LatestRecord)
  permutes : ∀ latest, (list latest).Perm (latest.entries.map fun entry => (entry.1, entry.2))

def listingOrder : IterationOrder :=
  ⟨fun latest => latest.entries.map fun entry => (entry.1, entry.2), fun _ => .refl _⟩

structure RecoveredWorkerState where
  workerId : Nat
  index : SwissTableIndex
  nextSequence : Nat
  activeSegment : Nat
  activeRequiresRotation : Bool
  activeLiveRecordBytes : Nat
  sealedLiveRecordBytes : Nat

def durableWorkerLiveKeyLimit (workerIndex workerCount totalLimit : Nat) : Nat :=
  if workerCount = 0 ∨ workerIndex ≥ workerCount then
    0
  else
    totalLimit / workerCount + (if workerIndex < totalLimit % workerCount then 1 else 0)

structure LiveIndex where
  index : SwissTableIndex
  activeBytes : Nat
  sealedBytes : Nat

/-- Adds the size of an inserted record to the counter of its Segment. -/
def LiveIndex.addLiveBytes (built : LiveIndex) (activeSegment : Nat) (reference : RecordRef) :
    Result LiveIndex :=
  if reference.segmentId = activeSegment then
    if reference.size > kUInt64Max - built.activeBytes then
      fail .arithmeticOverflow "durable recovery live Record byte count overflows uint64_t"
    else
      .ok { built with activeBytes := built.activeBytes + reference.size }
  else if reference.size > kUInt64Max - built.sealedBytes then
    fail .arithmeticOverflow "durable recovery live Record byte count overflows uint64_t"
  else
    .ok { built with sealedBytes := built.sealedBytes + reference.size }

/-- The body of the loop of `RecoveryIndexBuilder::build` over the latest
records. -/
def insertLatest (routing : WorkerRoutingState) (activeSegment : Nat) (built : LiveIndex)
    (latest : Key × LatestRecord) : Result LiveIndex :=
  if latest.2.deleted then
    .ok built
  else if latest.2.expired then
    .ok built
  else
    match built.index.insertOrAssign (hashKeyRouting · routing) latest.1
        (UInt64.ofNat latest.2.keyHash) latest.2.reference with
    | (_, .error error) => .error error
    | (index, .ok _) =>
      { built with index := index }.addLiveBytes activeSegment latest.2.reference

def buildIndex (maxLiveKeys : Nat) (seed : UInt64) (order : IterationOrder)
    (worker : Nat) (result : WorkerScanResult) : Result RecoveredWorkerState :=
  if result.scan.maximumSequence = kUInt64Max then
    fail .arithmeticOverflow "Worker sequence space is exhausted during durable recovery"
  else
    let latest := order.list result.scan.latest
    let visibleKeys := latest.countP fun entry => !entry.2.deleted && !entry.2.expired
    if visibleKeys > durableWorkerLiveKeyLimit worker manifest.workerCount maxLiveKeys then
      fail .resourceExhausted "durable recovery exceeds a Worker live-key budget partition"
    else
      match ({ seed := seed } : SwissTableIndex).reserve (hashKeyRouting · manifest.workerRouting)
          result.scan.latest.entries.length with
      | .error error => .error error
      | .ok reserved =>
        match latest.foldlM (insertLatest manifest.workerRouting result.activeSegment)
            ⟨reserved, 0, 0⟩ with
        | .error error => .error error
        | .ok built =>
          .ok
            { workerId := worker
              index := built.index
              nextSequence := result.scan.maximumSequence + 1
              activeSegment := result.activeSegment
              activeRequiresRotation := result.activeRequiresRotation
              activeLiveRecordBytes := built.activeBytes
              sealedLiveRecordBytes := built.sealedBytes }

/-- The recovery of one Worker: the scan, then the Index. The budget that is
left goes to the next Worker. -/
def recoverWorker (nowNs maxLiveKeys : Nat)
    (seed : UInt64) (order : IterationOrder) (budget : RecoveryMemoryBudget) (worker : Nat) :
    Result (RecoveredWorkerState × WorkerScanResult) :=
  match scanWorker directory manifest nowNs budget worker with
  | .error error => .error error
  | .ok result =>
    match buildIndex manifest maxLiveKeys seed order worker result with
    | .error error => .error error
    | .ok state => .ok (state, result)

/-- The Workers recovered so far, with the commits selected for their Segments
and the budget that is left. -/
structure RecoveredWorkers where
  workers : List RecoveredWorkerState
  segments : List (ManifestSegmentEntry × SelectedSegmentCommit)
  budget : RecoveryMemoryBudget

def recoverNext (nowNs maxLiveKeys : Nat)
    (seed : UInt64) (order : IterationOrder) (recovered : RecoveredWorkers) (worker : Nat) :
    Result RecoveredWorkers :=
  match recoverWorker directory manifest nowNs maxLiveKeys seed order recovered.budget worker with
  | .error error => .error error
  | .ok (state, result) =>
    .ok ⟨recovered.workers ++ [state], recovered.segments ++ result.segments, result.scan.budget⟩

def recoverWorkers (nowNs maxLiveKeys : Nat)
    (seed : UInt64) (order : IterationOrder) (budget : RecoveryMemoryBudget) :
    Result RecoveredWorkers :=
  (List.range manifest.workerCount).foldlM
    (recoverNext directory manifest nowNs maxLiveKeys seed order) ⟨[], [], budget⟩

end GlifiStore
