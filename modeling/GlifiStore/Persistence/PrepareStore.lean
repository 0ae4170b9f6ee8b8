import GlifiStore.Persistence.Bootstrap
import GlifiStore.Persistence.Volume

/-!
# Preparing a durable store

`prepare_durable_store` on a locked data directory, step by step. A new store
starts with a published bootstrap intent; whoever finds an intent completes it.
-/

namespace GlifiStore

open StepProgram

inductive DurableOpenMode where
  | openOrCreate
  | openExisting
  | createNew
  deriving DecidableEq, Repr

structure WorkerRoutingConfig where
  state : WorkerRoutingState
  seedExplicit : Bool

/-- The arguments of `prepare_durable_store` and what the system reports in one run, to the
checks of a new store and to those of a bootstrap that is completed. As `Store::open` passes
them, a required Worker count is the one for creation. -/
structure PrepareConfig where
  mode : DurableOpenMode
  creationWorkerCount : Nat
  requiredWorkerCount : Option Nat
  limits : DurableResourceLimits
  routing : WorkerRoutingConfig
  environment : Environment
  completion : Environment
  consistent : ∀ required ∈ requiredWorkerCount, required = creationWorkerCount

/-- Another run with the same arguments. -/
def PrepareConfig.under (config : PrepareConfig) (environment completion : Environment) :
    PrepareConfig :=
  { config with environment, completion }

/-! ## Checks -/

def ManifestSegmentEntry.isInitial (entry : ManifestSegmentEntry) (index : Nat) : Bool :=
  entry.segmentId = index + 1 && entry.generation = 1 && entry.ownerWorker = index &&
    entry.role = .active

def validateInitialManifest (manifest : Manifest) : Status :=
  if manifest.manifestGeneration ≠ 1 ∨ manifest.routingEpoch ≠ 1 ∨
      manifest.nextSegmentGeneration ≠ 1 ∨ manifest.segments.length ≠ manifest.workerCount ∨
      manifest.nextSegmentId ≠ manifest.workerCount + 1 then
    fail .corruptedData "bootstrap intent is not a canonical initial manifest"
  else
    match validateWorkerRoutingState manifest.workerRouting with
    | .error error => .error error
    | .ok () =>
      if manifest.segments.zipIdx.all fun slot => slot.1.isInitial slot.2 then
        .ok ()
      else
        fail .corruptedData "bootstrap intent Segment catalog is not canonical"

def requireWorkerCount (manifest : Manifest) (required : Option Nat) : Status :=
  match required with
  | none => .ok ()
  | some count =>
    if count ≠ manifest.workerCount then
      fail .invalidArgument "requested Worker count disagrees with durable Store metadata"
    else
      .ok ()

def requireWorkerRouting (manifest : Manifest) (requested : WorkerRoutingConfig) : Status :=
  if ¬ requested.seedExplicit then
    .ok ()
  else if manifest.workerRouting ≠ requested.state then
    fail .invalidArgument "requested Worker hash seed disagrees with durable Store metadata"
  else
    .ok ()

/-- A missing file is nothing, every other failure stays one. -/
def absentAsNone {α : Type} : Result α → Result (Option α)
  | .ok value => .ok (some value)
  | .error error => if error.code = .notFound then .ok none else .error error

def Directory.readBootstrapIntent (directory : Directory) (maxBytes : Nat) : Result Catalog :=
  directory.readManifestFile .bootstrapIntent "bootstrap intent" maxBytes

def publicationRequired (intent : Manifest) (maxBytes : Nat) (directory : Directory) : Result Bool :=
  match absentAsNone (directory.readManifest maxBytes) with
  | .error error => .error error
  | .ok none => .ok true
  | .ok (some published) =>
    if published.toManifest ≠ intent then
      fail .corruptedData "published manifest disagrees with bootstrap intent"
    else
      .ok false

/-- The body of the loop over the Segments of an intent: those missing so far. -/
def inspectBootstrapSegment (directory : Directory) (intent : Manifest)
    (missing : List ManifestSegmentEntry) (entry : ManifestSegmentEntry) :
    Result (List ManifestSegmentEntry) :=
  match absentAsNone (openSegment directory.segmentImage (intent.identityOf entry)) with
  | .error error => .error error
  | .ok none => .ok (missing ++ [entry])
  | .ok (some existing) =>
    if ¬ existing.selected.commit.Pristine then
      fail .corruptedData "bootstrap Segment is not in its pristine initial state"
    else
      .ok missing

def missingSegments (intent : Manifest) (directory : Directory) :
    Result (List ManifestSegmentEntry) :=
  intent.segments.foldlM (inspectBootstrapSegment directory intent) []

def remainingBytes (segmentCount missingCount : Nat) (publishRequired : Bool) : Result Nat :=
  match durableManifestBytes segmentCount with
  | .error error => .error error
  | .ok manifestBytes =>
    if missingCount > kUInt64Max / kSegmentSizeBytes then
      fail .arithmeticOverflow "bootstrap remaining byte requirement overflow"
    else
      let additional := missingCount * kSegmentSizeBytes
      if publishRequired then
        if manifestBytes > kUInt64Max - additional then
          fail .arithmeticOverflow "bootstrap remaining byte requirement overflow"
        else
          .ok (additional + manifestBytes)
      else
        .ok additional

def creationBytes (workerCount : Nat) : Result Nat :=
  match durableManifestBytes workerCount with
  | .error error => .error error
  | .ok manifestBytes =>
    if workerCount > kUInt64Max / kSegmentSizeBytes then
      fail .arithmeticOverflow "bootstrap byte requirement overflow"
    else
      let required := workerCount * kSegmentSizeBytes
      if manifestBytes > (kUInt64Max - required) / 2 then
        fail .arithmeticOverflow "bootstrap byte requirement overflow"
      else
        .ok (required + manifestBytes * 2)

theorem wellFormed_of_valid {manifest : Manifest} {code : ErrorCode}
    (valid : validateManifest manifest code = .ok ()) : manifest.WellFormed :=
  validateManifest_ok_iff.mp valid

def checkIntentPublication (manifest : Manifest) (maxBytes : Nat) (directory : Directory) :
    Result Catalog :=
  match valid : validateManifest manifest .invalidArgument with
  | .error error => .error error
  | .ok () =>
    if kManifestHeaderBytes + manifest.segments.length * kManifestSegmentEntryBytes >
        maxBytes then
      fail .storageExhausted "bootstrap intent exceeds the configured byte budget"
    else
      match directory.lookup .bootstrapIntent with
      | some _ => fail .sequenceConflict "bootstrap intent already exists"
      | none => .ok ⟨manifest, wellFormed_of_valid valid⟩

def pristineForBootstrap (directory : Directory) : Bool :=
  directory.keys.all fun name => name = .storeLock || name = .bootstrapTemporary

/-! ## Programs -/

def publishBootstrapIntent (manifest : Manifest) (maxBytes : Nat) : OnVolume Unit := do
  let catalog ← onDirectory (checkIntentPublication manifest maxBytes)
  publishFile .bootstrapTemporary .bootstrapIntent (.manifest catalog)

def finishBootstrap : OnVolume Unit := do
  onDirectory fun directory =>
    match directory.lookup .bootstrapIntent with
    | none => fail .notFound "bootstrap intent does not exist"
    | some _ => .ok ()
  perform (Volume.unlink .bootstrapIntent)
  perform Volume.syncDirectory

/-- What `complete_bootstrap` finds out before it writes. -/
structure BootstrapPlan where
  publishRequired : Bool
  missing : List ManifestSegmentEntry

variable (config : PrepareConfig)

def planBootstrap (intent : Manifest) (directory : Directory) : Result BootstrapPlan := do
  validateInitialManifest intent
  requireWorkerCount intent config.requiredWorkerCount
  requireWorkerRouting intent config.routing
  validateDurableBootstrapResources config.completion intent.workerCount config.limits
  let publishRequired ← publicationRequired intent config.limits.maxManifestBytes directory
  let missing ← missingSegments intent directory
  let additional ← remainingBytes intent.segments.length missing.length publishRequired
  requireDurableAvailableSpace config.completion additional config.limits
  .ok ⟨publishRequired, missing⟩

def completeBootstrap (intent : Manifest) : OnVolume Unit := do
  let plan ← onDirectory (planBootstrap config intent)
  if plan.publishRequired then
    publishManifestSteps intent config.limits.maxManifestBytes
  plan.missing.forM fun entry => createSegmentSteps (intent.identityOf entry)
  finishBootstrap

/-- The checks of a store that has its manifest. -/
def checkExisting (manifest : Manifest) : Status := do
  validateDurableManifestResources config.environment manifest config.limits
  requireWorkerCount manifest config.requiredWorkerCount
  requireWorkerRouting manifest config.routing
  validateWorkerRoutingState manifest.workerRouting

/-- The manifest of a new store, if the directory may hold one. -/
def planCreation (entropy : Result StoreId) (directory : Directory) : Result Manifest := do
  if config.mode = .openExisting then
    fail .notFound "durable Store manifest does not exist"
  else if ¬ pristineForBootstrap directory then
    fail .invalidArgument "refusing to initialize a non-empty data directory"
  else
    let created ← initialManifest config.creationWorkerCount config.routing.state entropy
    validateDurableBootstrapResources config.environment config.creationWorkerCount config.limits
    let required ← creationBytes config.creationWorkerCount
    requireDurableAvailableSpace config.environment required config.limits
    .ok created

def prepareDurableStore (entropy : Result StoreId) : OnVolume Unit := do
  check (validateDurableResourceLimits config.limits)
  check (validateWorkerRoutingState config.routing.state)
  let maxBytes := config.limits.maxManifestBytes
  let intent ← onDirectory fun directory => absentAsNone (directory.readBootstrapIntent maxBytes)
  match intent with
  | some intent => completeBootstrap config intent.toManifest
  | none =>
    let manifest ← onDirectory fun directory => absentAsNone (directory.readManifest maxBytes)
    match manifest with
    | some manifest => check (checkExisting config manifest.toManifest)
    | none =>
      let created ← onDirectory (planCreation config entropy)
      publishBootstrapIntent created maxBytes
      completeBootstrap config created

end GlifiStore
