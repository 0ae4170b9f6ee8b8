import GlifiStore.Persistence.Manifest

/-!
# Resource limits of a durable store

The configured budgets, the validation of a catalog and of a rotation against
them, and the free space that a publication needs.
-/

namespace GlifiStore

variable {segmentCount : Nat} {limits : DurableResourceLimits}

/-- The fields of `DurableResourceLimits` that recovery, rotation and compaction
check. -/
structure DurableResourceLimits where
  maxStoreBytes : Nat
  reservedFreeBytes : Nat
  maxSegmentCount : Nat
  maxManifestBytes : Nat
  maxOpenFiles : Nat
  maxRecoveryMemoryBytes : Nat
  maxLiveKeys : Nat
  maxTemporaryCompactionBytes : Nat
  maxWriteAmplification : Nat
  maxHotCacheValueBytes : Nat
  recoveryMemoryFits : maxRecoveryMemoryBytes ≤ kUInt64Max

/-- What the operating system reports: the free space of the data directory and
the descriptor limit of the process, if any. -/
structure Environment where
  availableSpaceBytes : Nat
  fileLimit : Option Nat

def kManifestHeaderBytes : Nat := 128
def kManifestSegmentEntryBytes : Nat := 32
def kMaximumManifestBytes : Nat :=
  kManifestHeaderBytes + kMaximumManifestSegmentCount * kManifestSegmentEntryBytes

/-- `checked_add` on `std::uint64_t`. -/
def checkedAddBytes (left right : Nat) (description : String) : Result Nat :=
  if right > kUInt64Max - left then
    fail .arithmeticOverflow description
  else
    .ok (left + right)

/-- `checked_multiply` on `std::uint64_t`. -/
def checkedMultiply (left right : Nat) (description : String) : Result Nat :=
  if left ≠ 0 ∧ right > kUInt64Max / left then
    fail .arithmeticOverflow description
  else
    .ok (left * right)

def segmentBytes (count : Nat) : Result Nat :=
  checkedMultiply count kSegmentSizeBytes "durable Segment byte budget overflow"

variable (environment : Environment)

def validateDescriptorBudget (workerCount segmentCount : Nat)
    (limits : DurableResourceLimits) : Status :=
  let nonWorkerDescriptors := 4
  if workerCount > kSizeMax - segmentCount ∨
      workerCount + segmentCount > kSizeMax - nonWorkerDescriptors then
    fail .arithmeticOverflow "durable descriptor requirement overflow"
  else
    let required := workerCount + segmentCount + nonWorkerDescriptors
    if required > limits.maxOpenFiles then
      fail .descriptorExhausted
        "durable Store Worker count exceeds the configured open-file budget"
    else
      match environment.fileLimit with
      | some fileLimit =>
        if required > fileLimit then
          fail .descriptorExhausted "durable Store descriptor requirement exceeds RLIMIT_NOFILE"
        else
          .ok ()
      | none => .ok ()

def validateDurableResourceLimits (limits : DurableResourceLimits) : Status :=
  if limits.maxStoreBytes < kSegmentSizeBytes ∨ limits.maxSegmentCount = 0 ∨
      limits.maxSegmentCount > kMaximumManifestSegmentCount ∨
      limits.maxManifestBytes < kManifestHeaderBytes + kManifestSegmentEntryBytes ∨
      limits.maxManifestBytes > kMaximumManifestBytes ∨ limits.maxOpenFiles < 4 ∨
      limits.maxRecoveryMemoryBytes = 0 ∨ limits.maxLiveKeys = 0 ∨
      limits.maxTemporaryCompactionBytes = 0 ∨
      limits.maxTemporaryCompactionBytes > limits.maxStoreBytes ∨
      limits.maxWriteAmplification = 0 ∨ limits.maxWriteAmplification > 64 ∨
      limits.maxHotCacheValueBytes > kMaxNormalRecordSize then
    fail .invalidArgument "durable resource limits are inconsistent"
  else
    .ok ()

def durableManifestBytes (segmentCount : Nat) : Result Nat :=
  if segmentCount > kMaximumManifestSegmentCount then
    fail .arithmeticOverflow "durable manifest Segment count is exhausted"
  else
    match checkedMultiply segmentCount kManifestSegmentEntryBytes
        "durable manifest byte size overflow" with
    | .error error => .error error
    | .ok entries =>
      checkedAddBytes kManifestHeaderBytes entries "durable manifest byte size overflow"

def validateCountAndManifest (segmentCount : Nat) (limits : DurableResourceLimits) : Result Nat :=
  if segmentCount = 0 ∨ segmentCount > limits.maxSegmentCount then
    fail .storageExhausted "durable Segment count exceeds the configured budget"
  else
    match durableManifestBytes segmentCount with
    | .error error => .error error
    | .ok manifestBytes =>
      if manifestBytes > limits.maxManifestBytes then
        fail .storageExhausted "durable manifest exceeds the configured byte budget"
      else
        .ok manifestBytes

def validateDurableBootstrapResources (workerCount : Nat)
    (limits : DurableResourceLimits) : Status := do
  validateDurableResourceLimits limits
  let manifestBytes ← validateCountAndManifest workerCount limits
  let segments ← segmentBytes workerCount
  let partialPeak ←
    checkedAddBytes segments manifestBytes "durable bootstrap peak byte budget overflow"
  let peak ←
    checkedAddBytes partialPeak manifestBytes "durable bootstrap peak byte budget overflow"
  if peak > limits.maxStoreBytes then
    fail .storageExhausted "durable bootstrap exceeds the configured Store byte budget"
  else if limits.maxLiveKeys < workerCount then
    fail .resourceExhausted "durable live-key budget cannot provide one partition per Worker"
  else
    validateDescriptorBudget environment workerCount workerCount limits

def validateDurableManifestResources (manifest : Manifest)
    (limits : DurableResourceLimits) : Status := do
  validateDurableResourceLimits limits
  let manifestBytes ← validateCountAndManifest manifest.segments.length limits
  let segments ← segmentBytes manifest.segments.length
  let total ← checkedAddBytes segments manifestBytes "durable Store byte budget overflow"
  if total > limits.maxStoreBytes then
    fail .storageExhausted "durable Store exceeds the configured byte budget"
  else if limits.maxLiveKeys < manifest.workerCount then
    fail .resourceExhausted "durable live-key budget cannot provide one partition per Worker"
  else
    validateDescriptorBudget environment manifest.workerCount manifest.segments.length limits

def validateDurableRotationResources (currentSegmentCount : Nat)
    (limits : DurableResourceLimits) : Status :=
  if currentSegmentCount = kSizeMax then
    fail .arithmeticOverflow "durable rotation Segment count overflow"
  else do
    let currentManifest ← durableManifestBytes currentSegmentCount
    let nextManifest ← validateCountAndManifest (currentSegmentCount + 1) limits
    let segments ← segmentBytes (currentSegmentCount + 1)
    let partialPeak ←
      checkedAddBytes segments currentManifest "durable rotation peak byte budget overflow"
    let peak ←
      checkedAddBytes partialPeak nextManifest "durable rotation peak byte budget overflow"
    if peak > limits.maxStoreBytes then
      fail .storageExhausted "durable rotation exceeds the configured Store byte budget"
    else
      .ok ()

def requireDurableAvailableSpace (additionalBytes : Nat)
    (limits : DurableResourceLimits) : Status :=
  match checkedAddBytes additionalBytes limits.reservedFreeBytes
      "durable free-space requirement overflow" with
  | .error error => .error error
  | .ok required =>
    if environment.availableSpaceBytes < required then
      fail .storageExhausted
        "data directory has insufficient available space for the configured reserve"
    else
      .ok ()

theorem durableManifestBytes_eq_ok (bounded : segmentCount ≤ kMaximumManifestSegmentCount) :
    durableManifestBytes segmentCount =
      .ok (kManifestHeaderBytes + segmentCount * kManifestSegmentEntryBytes) := by
  simp only [kMaximumManifestSegmentCount] at bounded
  have product : ¬ (segmentCount ≠ 0 ∧ kManifestSegmentEntryBytes > kUInt64Max / segmentCount) := by
    rintro ⟨nonzero, overflow⟩
    have positive : 0 < segmentCount := Nat.pos_of_ne_zero nonzero
    have enough : kManifestSegmentEntryBytes ≤ kUInt64Max / segmentCount := by
      rw [Nat.le_div_iff_mul_le positive]
      simp only [kManifestSegmentEntryBytes, kUInt64Max]
      omega
    omega
  have sum : ¬ segmentCount * kManifestSegmentEntryBytes > kUInt64Max - kManifestHeaderBytes := by
    simp only [kManifestSegmentEntryBytes, kManifestHeaderBytes, kUInt64Max]
    omega
  rw [durableManifestBytes, if_neg (by simp only [kMaximumManifestSegmentCount]; omega),
    checkedMultiply, if_neg product]
  simp only [checkedAddBytes, if_neg sum]

theorem durableManifestBytes_ok {bytes : Nat}
    (found : durableManifestBytes segmentCount = .ok bytes) :
    bytes = kManifestHeaderBytes + segmentCount * kManifestSegmentEntryBytes := by
  by_cases bounded : segmentCount ≤ kMaximumManifestSegmentCount
  · exact Except.ok.inj (found.symm.trans (durableManifestBytes_eq_ok bounded))
  · rw [durableManifestBytes, if_pos (Nat.lt_of_not_le bounded)] at found
    exact nomatch found

theorem validateCountAndManifest_ok {bytes : Nat}
    (valid : validateCountAndManifest segmentCount limits = .ok bytes) :
    bytes = kManifestHeaderBytes + segmentCount * kManifestSegmentEntryBytes ∧
      bytes ≤ limits.maxManifestBytes := by
  revert valid
  fun_cases validateCountAndManifest segmentCount limits with
  | case4 counted manifestBytes found within =>
    rintro ⟨⟩
    exact ⟨durableManifestBytes_ok found, Nat.le_of_not_lt within⟩
  | _ => exact nofun

theorem checkedAddBytes_ok {left right total : Nat} {description : String} :
    checkedAddBytes left right description = .ok total ↔
      right ≤ kUInt64Max - left ∧ total = left + right := by
  unfold checkedAddBytes
  split
  · next overflow => exact ⟨nofun, fun fits => absurd fits.1 (Nat.not_le.mpr overflow)⟩
  · next fits =>
    rw [Except.ok.injEq, @eq_comm _ total]
    exact ⟨fun same => ⟨Nat.le_of_not_lt fits, same⟩, And.right⟩

/-- A store that had room for its bootstrap has room for its manifest. -/
theorem validateDurableManifestResources_of_bootstrap {environment : Environment}
    {manifest : Manifest} (initial : manifest.segments.length = manifest.workerCount)
    (valid : validateDurableBootstrapResources environment manifest.workerCount limits = .ok ()) :
    validateDurableManifestResources environment manifest limits = .ok () := by
  obtain ⟨_, limited, valid⟩ := bind_eq_ok.mp valid
  obtain ⟨manifestBytes, counted, valid⟩ := bind_eq_ok.mp valid
  obtain ⟨segments, sized, valid⟩ := bind_eq_ok.mp valid
  obtain ⟨_, partly, valid⟩ := bind_eq_ok.mp valid
  obtain ⟨room, rfl⟩ := checkedAddBytes_ok.mp partly
  obtain ⟨_, summed, valid⟩ := bind_eq_ok.mp valid
  obtain ⟨-, rfl⟩ := checkedAddBytes_ok.mp summed
  split at valid
  · cases valid
  next within =>
  refine bind_eq_ok.mpr ⟨_, limited, bind_eq_ok.mpr ⟨_, initial ▸ counted, bind_eq_ok.mpr
    ⟨_, initial ▸ sized, bind_eq_ok.mpr ⟨_, checkedAddBytes_ok.mpr ⟨room, rfl⟩, ?_⟩⟩⟩⟩
  rw [if_neg (by omega), initial]
  exact valid

theorem requireDurableAvailableSpace_mono {environment : Environment} {less more : Nat}
    (fits : less ≤ more) (enough : requireDurableAvailableSpace environment more limits = .ok ()) :
    requireDurableAvailableSpace environment less limits = .ok () := by
  unfold requireDurableAvailableSpace checkedAddBytes at *
  by_cases overflow : limits.reservedFreeBytes > kUInt64Max - more
  · rw [if_pos overflow] at enough
    exact nomatch enough
  · rw [if_neg overflow] at enough
    by_cases short : environment.availableSpaceBytes < more + limits.reservedFreeBytes
    · simp only [if_pos short] at enough
      exact nomatch enough
    · rw [if_neg (by omega)]
      simp only
      rw [if_neg (by omega)]

/-! ## Limits of a small store -/

def roomyLimits : DurableResourceLimits where
  maxStoreBytes := 2 ^ 40
  reservedFreeBytes := 0
  maxSegmentCount := 64
  maxManifestBytes := 65536
  maxOpenFiles := 256
  maxRecoveryMemoryBytes := 2 ^ 30
  maxLiveKeys := 1024
  maxTemporaryCompactionBytes := 2 ^ 40
  maxWriteAmplification := 8
  maxHotCacheValueBytes := 0
  recoveryMemoryFits := by decide

end GlifiStore
