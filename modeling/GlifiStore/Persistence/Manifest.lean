import GlifiStore.Core.KeyHash
import GlifiStore.Segment.Header

/-!
# Manifests

The catalog of a durable store: its Segments in strictly increasing identity
order, one active Segment per Worker, and the identity the next Segment gets.
-/

namespace GlifiStore

inductive ManifestSegmentRole where
  | active
  | sealed
  deriving DecidableEq, Repr

def RoutingAlgorithm.raw : RoutingAlgorithm → Nat
  | .fnv1a64V1 => 1
  | .siphash24V1 => 2

def RoutingAlgorithm.ofRaw? : Nat → Option RoutingAlgorithm
  | 1 => some .fnv1a64V1
  | 2 => some .siphash24V1
  | _ => none

def ManifestSegmentRole.raw : ManifestSegmentRole → Nat
  | .active => 1
  | .sealed => 2

def ManifestSegmentRole.ofRaw? : Nat → Option ManifestSegmentRole
  | 1 => some .active
  | 2 => some .sealed
  | _ => none

@[simp]
theorem RoutingAlgorithm.ofRaw?_raw (algorithm : RoutingAlgorithm) :
    RoutingAlgorithm.ofRaw? algorithm.raw = some algorithm := by
  cases algorithm <;> rfl

theorem RoutingAlgorithm.ofRaw?_eq_some {raw : Nat} {algorithm : RoutingAlgorithm} :
    RoutingAlgorithm.ofRaw? raw = some algorithm ↔ raw = algorithm.raw := by
  constructor
  · fun_cases RoutingAlgorithm.ofRaw? raw with
    | case3 => nofun
    | _ =>
      rintro ⟨⟩
      rfl
  · rintro rfl
    exact ofRaw?_raw algorithm

@[simp]
theorem ManifestSegmentRole.ofRaw?_raw (role : ManifestSegmentRole) :
    ManifestSegmentRole.ofRaw? role.raw = some role := by
  cases role <;> rfl

theorem ManifestSegmentRole.ofRaw?_eq_some {raw : Nat} {role : ManifestSegmentRole} :
    ManifestSegmentRole.ofRaw? raw = some role ↔ raw = role.raw := by
  constructor
  · fun_cases ManifestSegmentRole.ofRaw? raw with
    | case3 => nofun
    | _ =>
      rintro ⟨⟩
      rfl
  · rintro rfl
    exact ofRaw?_raw role

/-- A catalog entry, each field within the width of its type. -/
@[ext]
structure ManifestSegmentEntry where
  segmentId : Nat
  generation : Nat
  ownerWorker : Nat
  role : ManifestSegmentRole
  segmentIdFits : segmentId < 256 ^ 8
  generationFits : generation < 256 ^ 4
  ownerFits : ownerWorker < 256 ^ 4

instance : DecidableEq ManifestSegmentEntry := fun _ _ =>
  decidable_of_iff' _ ManifestSegmentEntry.ext_iff

@[ext]
structure Manifest where
  storeId : Bytes
  manifestGeneration : Nat
  routingAlgorithm : RoutingAlgorithm
  workerCount : Nat
  routingEpoch : Nat
  workerHashSeed : UInt64
  nextSegmentId : Nat
  nextSegmentGeneration : Nat
  segments : List ManifestSegmentEntry
  storeIdSize : storeId.length = 16
  manifestGenerationFits : manifestGeneration ≤ kUInt64Max
  routingEpochFits : routingEpoch ≤ kUInt64Max
  nextSegmentIdFits : nextSegmentId ≤ kUInt64Max
  nextSegmentGenerationFits : nextSegmentGeneration ≤ kUInt32Max

instance : DecidableEq Manifest := fun _ _ => decidable_of_iff' _ Manifest.ext_iff

def kMaximumManifestSegmentCount : Nat := 1000000
def kMaximumWorkerCount : Nat := 256

def Manifest.workerRouting (manifest : Manifest) : WorkerRoutingState :=
  ⟨manifest.routingAlgorithm, manifest.workerHashSeed⟩

/-- The header identity that the file of an entry must carry. -/
def Manifest.identityOf (manifest : Manifest) (entry : ManifestSegmentEntry) :
    SegmentHeaderIdentity where
  storeId := manifest.storeId
  segmentId := entry.segmentId
  generation := entry.generation
  ownerWorker := entry.ownerWorker
  storeIdSize := manifest.storeIdSize
  segmentIdFits := entry.segmentIdFits
  generationFits := entry.generationFits
  ownerFits := entry.ownerFits

/-! ## Validation -/

/-- A Segment entry whose role may be no enumerator. -/
structure DecodedSegmentEntry where
  segmentId : Nat
  generation : Nat
  ownerWorker : Nat
  role : Nat
  segmentIdFits : segmentId < 256 ^ 8
  generationFits : generation < 256 ^ 4
  ownerFits : ownerWorker < 256 ^ 4

/-- A manifest whose algorithm and roles may be no enumerators. -/
structure DecodedManifest where
  storeId : Bytes
  manifestGeneration : Nat
  routingAlgorithm : Nat
  workerCount : Nat
  routingEpoch : Nat
  workerHashSeed : UInt64
  nextSegmentId : Nat
  nextSegmentGeneration : Nat
  segments : List DecodedSegmentEntry
  storeIdSize : storeId.length = 16
  manifestGenerationFits : manifestGeneration ≤ kUInt64Max
  routingEpochFits : routingEpoch ≤ kUInt64Max
  nextSegmentIdFits : nextSegmentId ≤ kUInt64Max
  nextSegmentGenerationFits : nextSegmentGeneration ≤ kUInt32Max

def ManifestSegmentEntry.decoded (segment : ManifestSegmentEntry) : DecodedSegmentEntry :=
  { segment with role := segment.role.raw }

def Manifest.decoded (manifest : Manifest) : DecodedManifest :=
  { manifest with
    routingAlgorithm := manifest.routingAlgorithm.raw
    segments := manifest.segments.map ManifestSegmentEntry.decoded }

/-- The entry under the role that validation has found. -/
def DecodedSegmentEntry.typed (segment : DecodedSegmentEntry) : ManifestSegmentEntry :=
  { segment with role := (ManifestSegmentRole.ofRaw? segment.role).getD .sealed }

def DecodedManifest.typed (decoded : DecodedManifest) : Manifest :=
  { decoded with
    routingAlgorithm := (RoutingAlgorithm.ofRaw? decoded.routingAlgorithm).getD .siphash24V1
    segments := decoded.segments.map DecodedSegmentEntry.typed }

/-- The loop of `validate_manifest` over the entries: the previous identity and
the Workers that have an active Segment so far. -/
def validateSegments (workerCount : Nat) (errorCode : ErrorCode) :
    Nat → List Nat → List DecodedSegmentEntry → Result (List Nat)
  | _, activeWorkers, [] => .ok activeWorkers
  | previousId, activeWorkers, segment :: rest =>
    if segment.segmentId = 0 ∨ segment.generation = 0 then
      fail errorCode "manifest Segment identity must be non-zero"
    else if segment.segmentId ≤ previousId then
      fail errorCode "manifest Segment entries are not strictly ordered"
    else if segment.ownerWorker ≥ workerCount then
      fail errorCode "manifest Segment owner is outside the Worker set"
    else
      match ManifestSegmentRole.ofRaw? segment.role with
      | none => fail errorCode "manifest Segment role is invalid"
      | some .active =>
        if segment.ownerWorker ∈ activeWorkers then
          fail errorCode "manifest contains multiple active Segments for a Worker"
        else
          validateSegments workerCount errorCode segment.segmentId
            (segment.ownerWorker :: activeWorkers) rest
      | some .sealed => validateSegments workerCount errorCode segment.segmentId activeWorkers rest

def DecodedManifest.validateRouting (decoded : DecodedManifest) : Status :=
  match RoutingAlgorithm.ofRaw? decoded.routingAlgorithm with
  | none => fail .invalidArgument "unsupported Worker routing algorithm"
  | some algorithm => validateWorkerRoutingState ⟨algorithm, decoded.workerHashSeed⟩

/-- `validate_manifest`. -/
def DecodedManifest.validate (decoded : DecodedManifest) (errorCode : ErrorCode) : Status :=
  if allZero decoded.storeId then
    fail errorCode "manifest Store ID cannot be all zero"
  else if decoded.manifestGeneration = 0 then
    fail errorCode "manifest generation must be non-zero"
  else
    match decoded.validateRouting with
    | .error error => fail errorCode error.message
    | .ok () =>
      if decoded.workerCount = 0 ∨ decoded.workerCount > kMaximumWorkerCount then
        fail errorCode "manifest Worker count is outside supported bounds"
      else if decoded.routingEpoch = 0 then
        fail errorCode "manifest routing epoch must be non-zero"
      else if decoded.nextSegmentId = 0 ∨ decoded.nextSegmentGeneration = 0 then
        fail errorCode "manifest next Segment identity must be non-zero"
      else if decoded.segments.length > kMaximumManifestSegmentCount then
        fail errorCode "manifest Segment count exceeds the supported limit"
      else
        match validateSegments decoded.workerCount errorCode 0 [] decoded.segments with
        | .error error => .error error
        | .ok activeWorkers =>
          if ¬ ∀ worker < decoded.workerCount, worker ∈ activeWorkers then
            fail errorCode "manifest must contain one active Segment per Worker"
          else
            match decoded.segments.getLast? with
            | some last =>
              if decoded.nextSegmentId ≤ last.segmentId then
                fail errorCode "manifest next Segment ID does not advance beyond the catalog"
              else
                .ok ()
            | none => .ok ()

def validateManifest (manifest : Manifest) (errorCode : ErrorCode) : Status :=
  manifest.decoded.validate errorCode

/-! ## Well-formed manifests -/

structure Manifest.WellFormed (manifest : Manifest) : Prop where
  store : allZero manifest.storeId = false
  generation : manifest.manifestGeneration ≠ 0
  routing : validateWorkerRoutingState manifest.workerRouting = .ok ()
  workers : 0 < manifest.workerCount ∧ manifest.workerCount ≤ kMaximumWorkerCount
  epoch : manifest.routingEpoch ≠ 0
  nextIdentity : manifest.nextSegmentId ≠ 0 ∧ manifest.nextSegmentGeneration ≠ 0
  bounded : manifest.segments.length ≤ kMaximumManifestSegmentCount
  nonzero : ∀ entry ∈ manifest.segments, entry.segmentId ≠ 0 ∧ entry.generation ≠ 0
  ordered : manifest.segments.Pairwise fun earlier later => earlier.segmentId < later.segmentId
  owned : ∀ entry ∈ manifest.segments, entry.ownerWorker < manifest.workerCount
  oneActive : manifest.segments.Pairwise fun earlier later =>
    earlier.role = .active → later.role = .active → earlier.ownerWorker ≠ later.ownerWorker
  active : ∀ worker < manifest.workerCount,
    ∃ entry ∈ manifest.segments, entry.role = .active ∧ entry.ownerWorker = worker
  next : ∀ entry ∈ manifest.segments, entry.segmentId < manifest.nextSegmentId

variable {errorCode : ErrorCode} {segments : List ManifestSegmentEntry}

private theorem validateSegments_ok {workerCount : Nat} {previousId : Nat}
    {activeWorkers final : List Nat} :
    validateSegments workerCount errorCode previousId activeWorkers
        (segments.map ManifestSegmentEntry.decoded) = .ok final ↔
      ((∀ entry ∈ segments, entry.segmentId ≠ 0 ∧ entry.generation ≠ 0) ∧
        (∀ entry ∈ segments, previousId < entry.segmentId) ∧
        segments.Pairwise (fun earlier later => earlier.segmentId < later.segmentId) ∧
        (∀ entry ∈ segments, entry.ownerWorker < workerCount) ∧
        (∀ entry ∈ segments, entry.role = .active → entry.ownerWorker ∉ activeWorkers) ∧
        segments.Pairwise (fun earlier later =>
          earlier.role = .active → later.role = .active →
            earlier.ownerWorker ≠ later.ownerWorker)) ∧
      final = ((segments.filter fun entry => entry.role = .active).map
        ManifestSegmentEntry.ownerWorker).reverse ++ activeWorkers := by
  induction segments generalizing previousId activeWorkers with
  | nil => simp [validateSegments, eq_comm]
  | cons segment rest ih =>
    have known : ManifestSegmentRole.ofRaw? segment.decoded.role = some segment.role :=
      ManifestSegmentRole.ofRaw?_raw _
    rw [List.map_cons, validateSegments, guard_eq_ok, guard_eq_ok, guard_eq_ok, known]
    cases role : segment.role with
    | active =>
      dsimp only
      rw [guard_eq_ok, ih]
      simp only [role, ManifestSegmentEntry.decoded, List.pairwise_cons, List.mem_cons, not_or,
        List.filter_cons, decide_true, if_true, List.map_cons, List.reverse_cons,
        List.append_assoc, List.singleton_append, forall_const]
      grind
    | «sealed» =>
      dsimp only
      rw [ih]
      simp only [role, ManifestSegmentEntry.decoded, List.forall_mem_cons, List.pairwise_cons,
        List.filter_cons, reduceCtorEq, decide_false, Bool.false_eq_true, if_false, false_implies, implies_true, true_and]
      grind

private theorem lt_iff_last_lt {bound : Nat} {last : ManifestSegmentEntry}
    (ordered : segments.Pairwise fun earlier later => earlier.segmentId < later.segmentId)
    (ends : segments.getLast? = some last) :
    (∀ entry ∈ segments, entry.segmentId < bound) ↔ last.segmentId < bound := by
  obtain ⟨front, rfl⟩ := List.getLast?_eq_some_iff.mp ends
  rw [List.pairwise_append] at ordered
  simp only [List.mem_append, List.mem_singleton, or_imp, forall_and, forall_eq]
  refine ⟨And.right, fun least => ⟨fun entry member => ?_, least⟩⟩
  exact Nat.lt_trans (ordered.2.2 entry member last (List.mem_singleton_self last)) least

/-- The last check: no Segment reaches the next identity. -/
private theorem nextSegmentId_ok {nextSegmentId : Nat}
    (ordered : segments.Pairwise fun earlier later => earlier.segmentId < later.segmentId) :
    (match segments.getLast?.map ManifestSegmentEntry.decoded with
      | some last =>
        if nextSegmentId ≤ last.segmentId then
          fail errorCode "manifest next Segment ID does not advance beyond the catalog"
        else
          .ok ()
      | none => .ok ()) = Except.ok () ↔ ∀ entry ∈ segments, entry.segmentId < nextSegmentId := by
  cases ends : segments.getLast? with
  | some last =>
    rw [lt_iff_last_lt ordered ends, ← Nat.not_le]
    exact guard_eq_ok.trans (and_iff_left rfl)
  | none =>
    rw [List.getLast?_eq_none_iff] at ends
    simp [ends]

private theorem validateRouting_decoded (manifest : Manifest) :
    manifest.decoded.validateRouting = validateWorkerRoutingState manifest.workerRouting := by
  have known : RoutingAlgorithm.ofRaw? manifest.decoded.routingAlgorithm =
      some manifest.routingAlgorithm := RoutingAlgorithm.ofRaw?_raw _
  rw [DecodedManifest.validateRouting, known]
  rfl

theorem validateManifest_ok_iff {manifest : Manifest} :
    validateManifest manifest errorCode = .ok () ↔ manifest.WellFormed := by
  have active (activeWorkers : List Nat) (listed : activeWorkers =
      ((manifest.segments.filter fun entry => entry.role = .active).map
        ManifestSegmentEntry.ownerWorker).reverse ++ []) (worker : Nat) :
      worker ∈ activeWorkers ↔
        ∃ entry ∈ manifest.segments, entry.role = .active ∧ entry.ownerWorker = worker := by
    simp [listed, and_assoc]
  have last : manifest.decoded.segments.getLast? =
      manifest.segments.getLast?.map ManifestSegmentEntry.decoded := List.getLast?_map
  have count : manifest.decoded.segments.length = manifest.segments.length := List.length_map _
  rw [validateManifest, DecodedManifest.validate, guard_eq_ok, guard_eq_ok, validateRouting_decoded,
    last, count]
  constructor
  · rintro ⟨store, generation, accepted⟩
    split at accepted
    · exact nomatch accepted
    next routing =>
    rw [guard_eq_ok, guard_eq_ok, guard_eq_ok, guard_eq_ok] at accepted
    obtain ⟨workers, epoch, identity, bounded, accepted⟩ := accepted
    split at accepted
    · exact nomatch accepted
    next activeWorkers loop =>
    rw [guard_eq_ok] at accepted
    obtain ⟨everyActive, accepted⟩ := accepted
    obtain ⟨⟨nonzero, -, ordered, owned, -, oneActive⟩, listed⟩ := validateSegments_ok.mp loop
    exact
      { store := Bool.eq_false_iff.mpr store
        generation := generation
        routing := routing
        workers := by simp only [Manifest.decoded] at workers; omega
        epoch := epoch
        nextIdentity := by simp only [Manifest.decoded] at identity; omega
        bounded := Nat.le_of_not_lt bounded
        nonzero := nonzero
        ordered := ordered
        owned := owned
        oneActive := oneActive
        active := fun worker inside =>
          (active _ listed worker).mp (Classical.not_not.mp everyActive worker inside)
        next := (nextSegmentId_ok ordered).mp accepted }
  · intro wellFormed
    have loop : validateSegments manifest.decoded.workerCount errorCode 0 []
        manifest.decoded.segments = .ok _ :=
      validateSegments_ok.mpr ⟨⟨wellFormed.nonzero,
        fun entry member => Nat.pos_of_ne_zero (wellFormed.nonzero entry member).1,
        wellFormed.ordered, wellFormed.owned, fun _ _ _ => List.not_mem_nil,
        wellFormed.oneActive⟩, rfl⟩
    have workers := wellFormed.workers
    have identity := wellFormed.nextIdentity
    refine ⟨by simp [Manifest.decoded, wellFormed.store], wellFormed.generation, ?_⟩
    rw [wellFormed.routing]
    dsimp only
    rw [guard_eq_ok, guard_eq_ok, guard_eq_ok, guard_eq_ok, loop]
    refine ⟨by simp only [Manifest.decoded]; omega, wellFormed.epoch,
      by simp only [Manifest.decoded]; omega, Nat.not_lt.mpr wellFormed.bounded, ?_⟩
    dsimp only
    rw [guard_eq_ok]
    exact ⟨Classical.not_not.mpr fun worker inside =>
        (active _ rfl worker).mpr (wellFormed.active worker inside),
      (nextSegmentId_ok wellFormed.ordered).mpr wellFormed.next⟩

section Unique

variable {manifest : Manifest} {left right : ManifestSegmentEntry}

theorem Manifest.WellFormed.eq_of_segmentId (wellFormed : manifest.WellFormed)
    (leftListed : left ∈ manifest.segments) (rightListed : right ∈ manifest.segments)
    (same : left.segmentId = right.segmentId) : left = right := by
  apply Classical.byContradiction
  intro differs
  have distinct : manifest.segments.Pairwise fun earlier later =>
      earlier.segmentId ≠ later.segmentId := wellFormed.ordered.imp Nat.ne_of_lt
  have : Std.Symm fun earlier later : ManifestSegmentEntry =>
      earlier.segmentId ≠ later.segmentId := ⟨fun _ _ => Ne.symm⟩
  exact distinct.forall leftListed rightListed differs same

theorem Manifest.WellFormed.eq_of_active (wellFormed : manifest.WellFormed)
    (leftListed : left ∈ manifest.segments) (rightListed : right ∈ manifest.segments)
    (leftActive : left.role = .active) (rightActive : right.role = .active)
    (same : left.ownerWorker = right.ownerWorker) : left = right := by
  apply Classical.byContradiction
  intro differs
  have : Std.Symm fun earlier later : ManifestSegmentEntry =>
      earlier.role = .active → later.role = .active → earlier.ownerWorker ≠ later.ownerWorker :=
    ⟨fun _ _ apart first second => (apart second first).symm⟩
  exact wellFormed.oneActive.forall leftListed rightListed differs leftActive rightActive same

end Unique

/-- A manifest as `read_manifest` returns it. -/
structure Catalog extends Manifest where
  wellFormed : toManifest.WellFormed

/-! ## A catalog with one Segment -/

def sampleEntry : ManifestSegmentEntry :=
  ⟨1, 1, 0, .active, by decide, by decide, by decide⟩

def sampleManifest : Manifest :=
  ⟨List.replicate 16 1, 1, .fnv1a64V1, 1, 1, 0, 2, 1, [sampleEntry], by decide, by decide,
    by decide, by decide, by decide⟩

def sampleCatalog : Catalog :=
  ⟨sampleManifest, validateManifest_ok_iff.mp
    (show validateManifest sampleManifest .corruptedData = .ok () by decide)⟩

end GlifiStore
