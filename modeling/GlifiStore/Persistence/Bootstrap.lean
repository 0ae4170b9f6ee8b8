import GlifiStore.Persistence.Open

/-!
# Bootstrap of a durable store

The catalog that a new store starts from: one active Segment per Worker, with
identities counted from one.
-/

namespace GlifiStore

@[ext]
structure StoreId where
  bytes : Bytes
  size : bytes.length = 16

instance : DecidableEq StoreId := fun _ _ => decidable_of_iff' _ StoreId.ext_iff

/-- `new_store_id`, given what the entropy source returned. -/
def newStoreId (entropy : Result StoreId) : Result StoreId :=
  match entropy with
  | .error error => .error error
  | .ok id =>
    if allZero id.bytes then
      fail .ioError "entropy source returned an invalid all-zero Store ID"
    else
      .ok id

def initialEntry (worker : Nat) (fits : worker < kMaximumWorkerCount) : ManifestSegmentEntry where
  segmentId := worker + 1
  generation := 1
  ownerWorker := worker
  role := .active
  segmentIdFits := by
    simp only [kMaximumWorkerCount] at fits
    omega
  generationFits := ByteLayout.one_fits4
  ownerFits := by
    simp only [kMaximumWorkerCount] at fits
    omega

theorem next_fits {workerCount : Nat} (supported : workerCount ≤ kMaximumWorkerCount) :
    workerCount + 1 ≤ kUInt64Max := by
  simp only [kMaximumWorkerCount, kUInt64Max] at *
  omega

def initialCatalog (workerCount : Nat) (routing : WorkerRoutingState) (storeId : StoreId)
    (supported : workerCount ≤ kMaximumWorkerCount) : Manifest where
  storeId := storeId.bytes
  manifestGeneration := 1
  routingAlgorithm := routing.algorithm
  workerCount := workerCount
  routingEpoch := 1
  workerHashSeed := routing.seed
  nextSegmentId := workerCount + 1
  nextSegmentGeneration := 1
  segments := (List.finRange workerCount).map fun worker : Fin workerCount =>
    initialEntry worker (Nat.lt_of_lt_of_le worker.isLt supported)
  storeIdSize := storeId.size
  manifestGenerationFits := one_le_uint64Max
  routingEpochFits := one_le_uint64Max
  nextSegmentIdFits := next_fits supported
  nextSegmentGenerationFits := one_le_uint32Max

theorem supported_of_not {workerCount : Nat} (unsupported : ¬ (workerCount = 0 ∨
    workerCount > kMaximumWorkerCount ∨ workerCount ≥ kUInt32Max)) :
    workerCount ≤ kMaximumWorkerCount := by
  omega

def initialManifest (workerCount : Nat) (routing : WorkerRoutingState)
    (entropy : Result StoreId) : Result Manifest :=
  if unsupported : workerCount = 0 ∨ workerCount > kMaximumWorkerCount ∨
      workerCount ≥ kUInt32Max then
    fail .invalidArgument "bootstrap Worker count is outside supported bounds"
  else
    match validateWorkerRoutingState routing with
    | .error error => .error error
    | .ok () =>
      match newStoreId entropy with
      | .error error => .error error
      | .ok storeId => .ok (initialCatalog workerCount routing storeId (supported_of_not unsupported))

section Initial

variable {workerCount : Nat} {routing : WorkerRoutingState} {storeId : StoreId}
  {supported : workerCount ≤ kMaximumWorkerCount}

theorem mem_initialCatalog {entry : ManifestSegmentEntry} :
    entry ∈ (initialCatalog workerCount routing storeId supported).segments ↔
      ∃ (worker : Nat) (inside : worker < workerCount),
        initialEntry worker (Nat.lt_of_lt_of_le inside supported) = entry := by
  simp only [initialCatalog, List.mem_map, List.mem_finRange, true_and]
  constructor
  · rintro ⟨worker, same⟩
    exact ⟨worker, worker.isLt, same⟩
  · rintro ⟨worker, inside, same⟩
    exact ⟨⟨worker, inside⟩, same⟩

theorem initialCatalog_pairwise {relation : ManifestSegmentEntry → ManifestSegmentEntry → Prop}
    (related : ∀ earlier later : Nat, earlier < later → ∀ fitsEarlier fitsLater,
      relation (initialEntry earlier fitsEarlier) (initialEntry later fitsLater)) :
    (initialCatalog workerCount routing storeId supported).segments.Pairwise relation := by
  simp only [initialCatalog, List.pairwise_map]
  exact (List.pairwise_lt_finRange workerCount).imp fun less => related _ _ less _ _

theorem initialCatalog_wellFormed (workers : workerCount ≠ 0)
    (valid : validateWorkerRoutingState routing = .ok ()) (store : allZero storeId.bytes = false) :
    (initialCatalog workerCount routing storeId supported).WellFormed where
  store := store
  generation := Nat.one_ne_zero
  routing := valid
  workers := ⟨Nat.pos_of_ne_zero workers, supported⟩
  epoch := Nat.one_ne_zero
  nextIdentity := ⟨Nat.succ_ne_zero _, Nat.one_ne_zero⟩
  bounded := by
    simp only [initialCatalog, List.length_map, List.length_finRange]
    exact supported.trans (by decide)
  nonzero := by
    simp only [mem_initialCatalog]
    rintro entry ⟨worker, inside, rfl⟩
    exact ⟨Nat.succ_ne_zero _, Nat.one_ne_zero⟩
  ordered := initialCatalog_pairwise fun _ _ less _ _ => Nat.succ_lt_succ less
  owned := by
    simp only [mem_initialCatalog]
    rintro entry ⟨worker, inside, rfl⟩
    exact inside
  oneActive := initialCatalog_pairwise fun _ _ less _ _ _ _ => Nat.ne_of_lt less
  active := fun worker inside => ⟨_, mem_initialCatalog.mpr ⟨worker, inside, rfl⟩, rfl, rfl⟩
  next := by
    simp only [mem_initialCatalog]
    rintro entry ⟨worker, inside, rfl⟩
    exact Nat.succ_lt_succ inside

end Initial

theorem initialManifest_ok {workerCount : Nat} {routing : WorkerRoutingState}
    {entropy : Result StoreId} {manifest : Manifest}
    (created : initialManifest workerCount routing entropy = .ok manifest) :
    ∃ (storeId : StoreId) (supported : workerCount ≤ kMaximumWorkerCount),
      manifest = initialCatalog workerCount routing storeId supported ∧ manifest.WellFormed := by
  revert created
  fun_cases initialManifest workerCount routing entropy with
  | case4 supported valid storeId created =>
    rintro ⟨⟩
    have store : allZero storeId.bytes = false := by
      unfold newStoreId at created
      split at created
      · simp at created
      · split at created
        · simp [fail] at created
        · next nonzero => exact Except.ok.inj created ▸ Bool.eq_false_of_not_eq_true nonzero
    exact ⟨storeId, _, rfl, initialCatalog_wellFormed (by omega) valid store⟩
  | _ => rintro ⟨⟩

end GlifiStore
