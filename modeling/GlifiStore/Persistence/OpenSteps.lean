import GlifiStore.Persistence.Open
import GlifiStore.Persistence.Volume

/-!
# Opening a durable store, step by step

The functions of `open_locked` as programs on a volume: each removal, creation and
publication is a step.
-/

namespace GlifiStore

open StepProgram

/-! ## Operations of the directory -/

def retireCompactionSegmentsSteps (segments : List ManifestSegmentEntry) : OnVolume Unit := do
  segments.forM fun entry => do
    perform (Volume.unlink (.segmentTemporary entry.segmentId entry.generation))
    perform (Volume.unlink (.segment entry.segmentId entry.generation))
  perform Volume.syncDirectory

def removeCompactionIntentSteps : OnVolume Unit := do
  perform (Volume.unlink .compactionTemporary)
  onDirectory fun directory =>
    match directory.lookup .compactionIntent with
    | none => fail .notFound "compaction intent does not exist"
    | some _ => .ok ()
  perform (Volume.unlink .compactionIntent)
  perform Volume.syncDirectory

/-- `cleanup_recovery_temporaries`: every name is checked before the first removal. -/
def cleanupRecoveryTemporariesSteps (names : List EntryName) : OnVolume Unit :=
  if names = [] then
    pure ()
  else do
    onDirectory fun directory => names.forM directory.checkRecoveryTemporary
    names.forM fun name => perform (Volume.unlink name)
    perform Volume.syncDirectory

/-! ## Recovery -/

variable (input : RecoveryInput)

/-- What recovery reads before it removes anything. -/
def readRecoveryState (intent : Option DurableCompactionIntent)
    (directory : Directory) : Result (RecoveryCatalog × RecoveredWorkers) := do
  let catalog ← loadRecoveryCatalog input.environment directory input.limits intent
    input.emptyBudget
  let recovered ← recoverWorkers directory.segmentImage catalog.manifest.toManifest input.nowNs
    input.limits.maxLiveKeys input.seed input.order catalog.budget
  .ok (catalog, recovered)

def staleTemporaries (report : NamespaceAuditReport) : List EntryName :=
  (report.issues.filter fun issue => !issue.kind.blockingForRecovery).map NamespaceIssue.name

def recoverDurableStateSteps (intent : Option DurableCompactionIntent) :
    OnVolume DurableRecoveryState := do
  let (catalog, recovered) ← onDirectory (readRecoveryState input intent)
  if intent.isSome then
    pure (assembleRecoveryState catalog catalog.namespaceAudit recovered)
  else do
    let stale := staleTemporaries catalog.namespaceAudit
    cleanupRecoveryTemporariesSteps stale
    if stale = [] then
      pure (assembleRecoveryState catalog catalog.namespaceAudit recovered)
    else do
      let cleanAudit ← onDirectory fun directory =>
        auditDataDirectory directory catalog.manifest.toManifest
      check (validateNamespaceForRecovery cleanAudit)
      pure (assembleRecoveryState catalog cleanAudit recovered)

/-! ## Interrupted rotation -/

def prepareReplacementSteps (identity : SegmentHeaderIdentity) (orphan : Bool) : OnVolume Unit :=
  if orphan then
    onDirectory fun directory => (prepareReplacement directory identity true).map fun _ => ()
  else
    createSegmentSteps identity

variable (environment : Environment) (limits : DurableResourceLimits)

def completeRotationSteps
    (manifest : Manifest) (source : ManifestSegmentEntry) (orphan : Bool) : OnVolume Unit := do
  let next ← check (rotationManifest manifest source limits)
  let additional ← check (rotationBytes next.segments.length orphan)
  check (requireDurableAvailableSpace environment additional limits)
  prepareReplacementSteps (manifest.identityOf (manifest.nextEntry source)) orphan
  publishManifestSteps next limits.maxManifestBytes

/-- What is found of an interrupted rotation before anything is written: the sealed Segment
in the active role, and whether its replacement is prepared. -/
def findInterruptedRotation
    (directory : Directory) : Result (Catalog × Option (ManifestSegmentEntry × Bool)) := do
  let manifest ← directory.readManifest limits.maxManifestBytes
  validateDurableManifestResources environment manifest.toManifest limits
  let audit ← auditDataDirectory directory manifest.toManifest
  match preparedOrphan manifest.toManifest false audit.issues with
  | none => do
    validateNamespaceForRecovery audit
    .ok (manifest, none)
  | some orphan => do
    let source ← manifest.segments.foldlM
      (findSealedActive directory.segmentImage manifest.toManifest) none
    match source with
    | none =>
      if orphan then
        fail .corruptedData "unlisted next Segment has no sealed-active rotation intent"
      else
        .ok (manifest, none)
    | some source => .ok (manifest, some (source, orphan))

def completeInterruptedRotationSteps : OnVolume Unit := do
  let (manifest, found) ← onDirectory (findInterruptedRotation environment limits)
  match found with
  | none => pure ()
  | some (source, orphan) =>
    completeRotationSteps environment limits manifest.toManifest source orphan

/-! ## Interrupted compaction -/

/-- The part of `resolve_interrupted_compaction` that removes what the surviving authority
does not list, and the intent. -/
def finishCompactionSteps (recovered : DurableRecoveryState) (intent : DurableCompactionIntent)
    (oldAuthority : Bool) (replacementCount : Nat) : OnVolume DurableRecoveryState := do
  let obsolete := obsoleteSegments intent oldAuthority replacementCount
  let obsoleteManifest := if oldAuthority then intent.nextManifest else intent.oldManifest
  onDirectory fun directory =>
    obsolete.forM (checkObsolete directory.segmentImage obsoleteManifest.toManifest)
  retireCompactionSegmentsSteps obsolete
  removeCompactionIntentSteps
  let finalAudit ← onDirectory fun directory =>
    auditDataDirectory directory recovered.manifest.toManifest
  check (validateNamespaceForRecovery finalAudit)
  pure { recovered with namespaceAudit := finalAudit }

/-- The intent of an interrupted compaction and whether its old manifest is the authority. -/
def findInterruptedCompaction (directory : Directory) :
    Result (Option (DurableCompactionIntent × Bool)) :=
  match directory.readCompactionIntent limits.maxManifestBytes with
  | .error error => if error.code = .notFound then .ok none else .error error
  | .ok intent => do
    let authority ← directory.readManifest limits.maxManifestBytes
    let oldAuthority := authority.toManifest = intent.oldManifest.toManifest
    let nextAuthority := authority.toManifest = intent.nextManifest.toManifest
    if ¬ oldAuthority ∧ ¬ nextAuthority then
      fail .corruptedData "compaction intent matches neither authoritative manifest"
    else
      .ok (some (intent, oldAuthority))

def resolveInterruptedCompactionSteps : OnVolume (Option DurableRecoveryState) := do
  let found ← onDirectory (findInterruptedCompaction input.limits)
  match found with
  | none => pure none
  | some (intent, oldAuthority) => do
    let recovered ← recoverDurableStateSteps input (some intent)
    let replacementCount ← check (validateDurableCompactionTransition
      intent.oldManifest.toManifest intent.nextManifest.toManifest intent.workerId)
    let resolved ← finishCompactionSteps recovered intent oldAuthority replacementCount
    pure (some resolved)

/-! ## Opening -/

def openLockedSteps : OnVolume OpenedCatalog := do
  check (validateDurableResourceLimits input.limits)
  let resolved ← resolveInterruptedCompactionSteps input
  match resolved with
  | some recovered => onDirectory (openRecovered recovered)
  | none => do
    completeInterruptedRotationSteps input.environment input.limits
    let recovered ← recoverDurableStateSteps input none
    onDirectory (openRecovered recovered)

end GlifiStore
