import GlifiStore.Persistence.IntentCodec

/-!
# Planning a compaction

The planner picks the sealed Segments of a Worker as sources, replaces the first
of them by outputs of the next generation, and checks the resources of the plan.
-/

namespace GlifiStore

open Directory

structure CompactionResourceEstimate where
  temporaryBytes : Nat
  reclaimedBytes : Nat
  peakStoreBytes : Nat
  intentBytes : Nat

/-- `segment_bytes` of the estimator. -/
def compactionSegmentBytes (count : Nat) (description : String) : Result Nat :=
  checkedMultiply count kSegmentSizeBytes description

def validateCompactionWriteAmplification (sourceCount outputCount : Nat)
    (limits : DurableResourceLimits) : Status :=
  match compactionSegmentBytes outputCount "compaction temporary byte count overflow" with
  | .error error => .error error
  | .ok temporary =>
    match compactionSegmentBytes (sourceCount - outputCount)
        "compaction reclaimed byte count overflow" with
    | .error error => .error error
    | .ok reclaimed =>
      if temporary = 0 then
        .ok ()
      else if reclaimed = 0 then
        fail .storageExhausted "durable compaction would not reclaim a physical Segment"
      else if reclaimed ≤ kUInt64Max / limits.maxWriteAmplification ∧
          temporary > reclaimed * limits.maxWriteAmplification then
        fail .storageExhausted
          "durable compaction exceeds the configured write-amplification limit"
      else
        .ok ()

def estimateCompactionResources (current next : Manifest) (sourceCount outputCount : Nat) :
    Result CompactionResourceEstimate := do
  let temporary ← compactionSegmentBytes outputCount "compaction temporary byte count overflow"
  let reclaimed ← compactionSegmentBytes (sourceCount - outputCount)
    "compaction reclaimed byte count overflow"
  let currentSegments ← compactionSegmentBytes current.segments.length
    "compaction Store byte count overflow"
  let currentManifest ← durableManifestBytes current.segments.length
  let nextManifest ← durableManifestBytes next.segments.length
  let intentHeader ← checkedAddBytes kCompactionIntentHeaderBytes currentManifest
    "compaction intent byte count overflow"
  let intentBytes ← checkedAddBytes intentHeader nextManifest
    "compaction intent byte count overflow"
  let withOutputs ← checkedAddBytes currentSegments temporary
    "compaction peak Store byte count overflow"
  let withCurrent ← checkedAddBytes withOutputs currentManifest
    "compaction peak Store byte count overflow"
  let withNext ← checkedAddBytes withCurrent nextManifest
    "compaction peak Store byte count overflow"
  let peak ← checkedAddBytes withNext intentBytes "compaction peak Store byte count overflow"
  .ok ⟨temporary, reclaimed, peak, intentBytes⟩

def validateCompactionResources (estimate : CompactionResourceEstimate)
    (limits : DurableResourceLimits) : Status :=
  if estimate.temporaryBytes > limits.maxTemporaryCompactionBytes then
    fail .storageExhausted "durable compaction exceeds the configured temporary-space budget"
  else if estimate.peakStoreBytes > limits.maxStoreBytes then
    fail .storageExhausted "durable compaction exceeds the configured peak Store byte budget"
  else
    .ok ()

structure DurableCompactionPlan where
  workerId : Nat
  nextManifest : Manifest
  sources : List ManifestSegmentEntry
  replacements : List ManifestSegmentEntry
  temporaryBytes : Nat
  reclaimedBytes : Nat

theorem Manifest.succ_generation_le {current : Manifest}
    (generationLeft : current.manifestGeneration ≠ kUInt64Max) :
    current.manifestGeneration + 1 ≤ kUInt64Max :=
  Nat.lt_of_le_of_ne current.manifestGenerationFits generationLeft

/-- The catalog with its generation advanced and other Segments. -/
def Manifest.withSegments (current : Manifest) (segments : List ManifestSegmentEntry)
    (generationLeft : current.manifestGeneration ≠ kUInt64Max) : Manifest :=
  { current with
    manifestGeneration := current.manifestGeneration + 1
    segments := segments
    manifestGenerationFits := succ_generation_le generationLeft }

def checkPlan (current next : Manifest) (workerId outputCount : Nat)
    (sources : List ManifestSegmentEntry) (limits : DurableResourceLimits) :
    Result DurableCompactionPlan := do
  let estimate ← estimateCompactionResources current next sources.length outputCount
  validateCompactionResources estimate limits
  let _ ← encodedManifestSize next
  let replaced ← validateDurableCompactionTransition current next workerId
  if replaced ≠ outputCount then
    fail .internalError "durable compaction planner produced the wrong replacement count"
  else
    .ok
      { workerId := workerId
        nextManifest := next
        sources := sources
        replacements := (sources.take outputCount).map ManifestSegmentEntry.advance
        temporaryBytes := estimate.temporaryBytes
        reclaimedBytes := estimate.reclaimedBytes }

def planDurableWorkerCompaction (environment : Environment) (current : Manifest)
    (workerId outputCount : Nat) (limits : DurableResourceLimits) :
    Result DurableCompactionPlan := do
  validateDurableManifestResources environment current limits
  if workerId ≥ current.workerCount then
    fail .invalidArgument "durable compaction Worker is outside the manifest Worker set"
  else if exhausted : current.manifestGeneration = kUInt64Max then
    fail .arithmeticOverflow "durable compaction manifest generation is exhausted"
  else
    let sources := compactionSources current workerId
    if sources = [] then
      fail .notFound "durable Worker has no sealed Segments to compact"
    else if outputCount > sources.length then
      fail .invalidArgument "durable compaction output exceeds its sealed source set"
    else
      validateCompactionWriteAmplification sources.length outputCount limits
      let segments ← replaceSources workerId outputCount current.segments
      checkPlan current (current.withSegments segments exhausted) workerId outputCount sources
        limits

theorem planDurableWorkerCompaction_ok {environment : Environment} {current : Manifest}
    {workerId outputCount : Nat} {limits : DurableResourceLimits} {plan : DurableCompactionPlan}
    (planned : planDurableWorkerCompaction environment current workerId outputCount limits =
      .ok plan) :
    validateDurableCompactionTransition current plan.nextManifest workerId = .ok outputCount := by
  simp only [planDurableWorkerCompaction, bind_eq_ok, guard_eq_ok] at planned
  obtain ⟨_, -, -, planned⟩ := planned
  split at planned
  · cases planned
  simp only [checkPlan, bind_eq_ok, guard_eq_ok, ne_eq, not_not] at planned
  obtain ⟨-, -, _, -, segments, -, estimate, -, _, -, _, -, replaced, accepted, rfl, planned⟩ := planned
  cases planned
  exact accepted

end GlifiStore
