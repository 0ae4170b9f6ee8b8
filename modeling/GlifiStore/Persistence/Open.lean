import GlifiStore.Persistence.Transition

/-!
# Opening a durable store

Opening resolves an interrupted compaction, or else completes an interrupted
rotation and recovers every Worker; it then pins each Segment for readers.
-/

namespace GlifiStore

/-! ## Namespace of an interrupted compaction -/

/-- A Segment name of the manifest that an intent does not make authoritative. -/
def allowedUnlisted (obsolete listed : List ManifestSegmentEntry) : List EntryName :=
  (obsolete.filter fun entry => entry ∉ listed).map fun entry =>
    .segment entry.segmentId entry.generation

/-- The loop over the issues: whether the intent was seen so far. -/
def acceptCompactionIssue (allowed : List EntryName) (sawIntent : Bool) (issue : NamespaceIssue) :
    Result Bool :=
  if issue.kind = .staleManifestTemporary ∨ issue.kind = .staleSegmentTemporary ∨
      issue.kind = .staleCompactionTemporary then
    .ok sawIntent
  else if issue.kind = .compactionIntent ∧ issue.name = .compactionIntent ∧ ¬ sawIntent then
    .ok true
  else if issue.kind = .unlistedSegment ∧ issue.name ∈ allowed then
    .ok sawIntent
  else
    fail .corruptedData ("compaction recovery namespace has blocking " ++ issue.kind.text ++
      " '" ++ issue.name.text ++ "'")

def validateNamespaceForCompactionRecovery (report : NamespaceAuditReport) (authority : Manifest)
    (intent : DurableCompactionIntent) : Status :=
  let old := intent.oldManifest.toManifest
  let next := intent.nextManifest.toManifest
  if authority ≠ old ∧ authority ≠ next then
    fail .corruptedData "compaction intent matches neither authoritative manifest generation"
  else
    let allowed :=
      if authority = old then allowedUnlisted next.segments old.segments
      else allowedUnlisted old.segments next.segments
    match report.issues.foldlM (acceptCompactionIssue allowed) false with
    | .error error => .error error
    | .ok sawIntent =>
      if ¬ sawIntent then
        fail .corruptedData "compaction recovery namespace is missing its canonical intent"
      else
        .ok ()

/-! ## Recovery -/

def kRecoveryBytesPerSegment : Nat := 256
def kRecoveryBytesPerWorker : Nat := 1024

def RecoveryMemoryBudget.retainRepeated (budget : RecoveryMemoryBudget) (unit count : Nat) :
    Result RecoveryMemoryBudget :=
  if unit ≠ 0 ∧ count > kUInt64Max / unit then
    fail .arithmeticOverflow "durable recovery memory estimate overflow"
  else
    budget.retain (unit * count)

/-- The memory that a catalog retains. -/
def retainCatalog (budget : RecoveryMemoryBudget) (segmentCount workerCount : Nat) :
    Result RecoveryMemoryBudget := do
  let manifestMemory ← durableManifestBytes segmentCount
  let withManifest ← budget.retain manifestMemory
  let withSegments ← withManifest.retainRepeated kRecoveryBytesPerSegment segmentCount
  withSegments.retainRepeated kRecoveryBytesPerWorker workerCount

structure RecoveryCatalog where
  manifest : Catalog
  namespaceAudit : NamespaceAuditReport
  budget : RecoveryMemoryBudget

def loadRecoveryCatalog (environment : Environment) (directory : Directory)
    (limits : DurableResourceLimits) (intent : Option DurableCompactionIntent)
    (budget : RecoveryMemoryBudget) : Result RecoveryCatalog := do
  validateDurableResourceLimits limits
  let manifest ← directory.readManifest limits.maxManifestBytes
  validateDurableManifestResources environment manifest.toManifest limits
  let retained ← retainCatalog budget manifest.segments.length manifest.workerCount
  let audit ← auditDataDirectory directory manifest.toManifest
  match intent with
  | some intent => validateNamespaceForCompactionRecovery audit manifest.toManifest intent
  | none => validateNamespaceForRecovery audit
  return ⟨manifest, audit, retained⟩

/-- The recovered catalog; the commits are aligned with its Segments. -/
structure DurableRecoveryState where
  manifest : Catalog
  namespaceAudit : NamespaceAuditReport
  segments : List (Option SelectedSegmentCommit)
  workers : List RecoveredWorkerState

def assembleRecoveryState (catalog : RecoveryCatalog) (audit : NamespaceAuditReport)
    (recovered : RecoveredWorkers) : DurableRecoveryState where
  manifest := catalog.manifest
  namespaceAudit := audit
  segments := catalog.manifest.segments.map fun entry =>
    (recovered.segments.find? fun scanned => scanned.1 = entry).map Prod.snd
  workers := recovered.workers

/-- What recovery reads besides the directory: the limits, the clock, and the two
choices the Index makes. -/
structure RecoveryInput where
  environment : Environment
  limits : DurableResourceLimits
  nowNs : Nat
  seed : UInt64
  order : IterationOrder

def RecoveryInput.emptyBudget (input : RecoveryInput) : RecoveryMemoryBudget :=
  ⟨input.limits.maxRecoveryMemoryBytes, 0, input.limits.recoveryMemoryFits, Nat.zero_le _⟩

/-! ## Interrupted rotation -/

/-- The loop over the audit issues: whether the Segment of the next identity was
seen so far. Nothing is returned when the namespace is not that of an interrupted
rotation. -/
def preparedOrphan (manifest : Manifest) : Bool → List NamespaceIssue → Option Bool
  | found, [] => some found
  | found, issue :: rest =>
    if issue.kind = .staleManifestTemporary ∨ issue.kind = .staleSegmentTemporary then
      preparedOrphan manifest found rest
    else if ¬ (issue.kind = .unlistedSegment ∧ issue.segmentId = some manifest.nextSegmentId ∧
        issue.generation = some manifest.nextSegmentGeneration) ∨ found then
      none
    else
      preparedOrphan manifest true rest

variable (directory : SegmentDirectory)

/-- The body of the loop that looks for a sealed Segment in the active role. -/
def findSealedActive (manifest : Manifest)
    (found : Option ManifestSegmentEntry) (entry : ManifestSegmentEntry) :
    Result (Option ManifestSegmentEntry) :=
  if entry.role ≠ .active then
    .ok found
  else
    match openSegment directory (manifest.identityOf entry) with
    | .error error => .error error
    | .ok file =>
      if file.selected.commit.state = .sealed then
        if found.isSome then
          fail .corruptedData "multiple interrupted Worker rotations require operator recovery"
        else
          .ok (some entry)
      else
        .ok found

/-- The commit that creation writes: no records and not sealed. -/
def SegmentCommit.Pristine (commit : SegmentCommit) : Prop :=
  commit.commitGeneration = 1 ∧ commit.recordCount = 0 ∧
    commit.committedEnd = kSegmentHeaderReservedBytes ∧ commit.state = .active

instance (commit : SegmentCommit) : Decidable commit.Pristine :=
  inferInstanceAs (Decidable (_ ∧ _))

/-- The replacement of a sealed active Segment: the prepared file, or a new one. -/
def prepareReplacement (directory : Directory) (identity : SegmentHeaderIdentity)
    (orphan : Bool) : Result Directory :=
  if orphan then
    match openSegment directory.segmentImage identity with
    | .error error => .error error
    | .ok file =>
      if ¬ file.selected.commit.Pristine then
        fail .corruptedData "prepared rotation replacement is not a pristine active Segment"
      else
        .ok directory
  else
    directory.createSegment identity

def rotationBytes (segmentCount : Nat) (orphan : Bool) : Result Nat :=
  match durableManifestBytes segmentCount with
  | .error error => .error error
  | .ok manifestBytes =>
    if orphan then
      .ok manifestBytes
    else if manifestBytes > kUInt64Max - kSegmentSizeBytes then
      fail .arithmeticOverflow "interrupted rotation free-space requirement overflow"
    else
      .ok (manifestBytes + kSegmentSizeBytes)

/-! ## Interrupted compaction -/

/-- The files that an interrupted compaction leaves behind under the authority
that survived: the replacements, or the sources. -/
def obsoleteSegments (intent : DurableCompactionIntent) (oldAuthority : Bool)
    (replacementCount : Nat) : List ManifestSegmentEntry :=
  let sources := compactionSources intent.oldManifest.toManifest intent.workerId
  if oldAuthority then (sources.take replacementCount).map ManifestSegmentEntry.advance
  else sources

def checkObsolete (manifest : Manifest) (entry : ManifestSegmentEntry) : Status :=
  match openSegment directory (manifest.identityOf entry) with
  | .ok _ => .ok ()
  | .error error => if error.code ≠ .notFound then .error error else .ok ()

/-! ## Opening -/

/-- The body of the loop of `initialize_generation_pins`. -/
def pinSegment (manifest : Manifest) (pins : List DurableSegmentFile)
    (slot : ManifestSegmentEntry × Option SelectedSegmentCommit) :
    Result (List DurableSegmentFile) :=
  match openSegment directory (manifest.identityOf slot.1) with
  | .error error => .error error
  | .ok opened =>
    if some opened.selected ≠ slot.2 then
      fail .corruptedData
        "runtime Segment commit boundary changed while generation pins were built"
    else
      .ok (pins ++ [opened])

/-- The body of the loop of `prepare_pin_slot_index`. -/
def placeSlot (slots : List (Option Nat)) (entry : ManifestSegmentEntry × Nat) :
    Result (List (Option Nat)) :=
  if entry.1.segmentId ≥ slots.length then
    fail .corruptedData "Manifest Segment ID is outside its next-ID pin-slot boundary"
  else
    .ok (slots.set entry.1.segmentId (some entry.2))

def preparePinSlotIndex (manifest : Manifest) : Result (List (Option Nat)) :=
  let needed := max manifest.nextSegmentId 1
  if needed > kSizeMax ∨ manifest.segments.length ≥ kUInt32Max then
    fail .resourceExhausted "Segment pin-slot index exceeds runtime addressability"
  else
    manifest.segments.zipIdx.foldlM placeSlot (List.replicate needed none)

/-- A store in service: its directory and catalog, and a pinned file for each
Segment with its slot by identity. -/
structure OpenedCatalog where
  directory : Directory
  recovered : DurableRecoveryState
  pins : List DurableSegmentFile
  pinSlots : List (Option Nat)

def initializeGenerationPins (directory : Directory) (recovered : DurableRecoveryState) :
    Result OpenedCatalog :=
  let manifest := recovered.manifest.toManifest
  if manifest.segments.length ≠ recovered.segments.length then
    fail .corruptedData "runtime Segment catalog is not aligned"
  else do
    let pins ← (manifest.segments.zip recovered.segments).foldlM
      (pinSegment directory.segmentImage manifest) []
    let pinSlots ← preparePinSlotIndex manifest
    return ⟨directory, recovered, pins, pinSlots⟩

/-- The part of `open_locked` that follows recovery. -/
def openRecovered (recovered : DurableRecoveryState) (directory : Directory) :
    Result OpenedCatalog :=
  if recovered.segments.length ≠ recovered.manifest.segments.length ∨
      recovered.workers.length ≠ recovered.manifest.workerCount then
    fail .corruptedData "durable recovery result is not aligned with its manifest"
  else if recovered.workers.any fun worker => worker.activeRequiresRotation then
    fail .unavailable
      "durable Store requires interrupted rotation completion before runtime service"
  else
    initializeGenerationPins directory recovered

end GlifiStore
