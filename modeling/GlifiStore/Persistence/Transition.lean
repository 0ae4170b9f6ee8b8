import GlifiStore.Persistence.NamespaceAudit

/-!
# Manifest transitions

The two ways a catalog advances: rotation seals the active Segment of a Worker
and lists a new one under the next identity; compaction replaces the sealed
Segments of a Worker by fewer or as many of the next generation.
-/

namespace GlifiStore

open Manifest

/-! ## Rotation -/

theorem Manifest.nextSegmentId_lt (current : Manifest) : current.nextSegmentId < 256 ^ 8 := by
  have fits := current.nextSegmentIdFits
  simp only [kUInt64Max] at fits
  omega

theorem Manifest.nextSegmentGeneration_lt (current : Manifest) :
    current.nextSegmentGeneration < 256 ^ 4 := by
  have fits := current.nextSegmentGenerationFits
  simp only [kUInt32Max] at fits
  omega

def Manifest.nextEntry (current : Manifest) (source : ManifestSegmentEntry) :
    ManifestSegmentEntry where
  segmentId := current.nextSegmentId
  generation := current.nextSegmentGeneration
  ownerWorker := source.ownerWorker
  role := .active
  segmentIdFits := current.nextSegmentId_lt
  generationFits := current.nextSegmentGeneration_lt
  ownerFits := source.ownerFits

def sealSource (source entry : ManifestSegmentEntry) : ManifestSegmentEntry :=
  if entry.segmentId = source.segmentId then { entry with role := .sealed } else entry

/-- The canonical successor of a catalog under a rotation of the source. -/
def Manifest.rotated (current : Manifest) (source : ManifestSegmentEntry)
    (generationLeft : current.manifestGeneration ≠ kUInt64Max)
    (identityLeft : current.nextSegmentId ≠ kUInt64Max) : Manifest :=
  { current with
    manifestGeneration := current.manifestGeneration + 1
    nextSegmentId := current.nextSegmentId + 1
    segments := current.segments.map (sealSource source) ++ [current.nextEntry source]
    manifestGenerationFits := Nat.lt_of_le_of_ne current.manifestGenerationFits generationLeft
    nextSegmentIdFits := Nat.lt_of_le_of_ne current.nextSegmentIdFits identityLeft }

def rotationManifest (current : Manifest) (oldActive : ManifestSegmentEntry)
    (limits : DurableResourceLimits) : Result Manifest :=
  if exhausted : current.manifestGeneration = kUInt64Max ∨ current.nextSegmentId = kUInt64Max ∨
      current.segments.length = kMaximumManifestSegmentCount then
    fail .arithmeticOverflow "durable rotation catalog space is exhausted"
  else
    match validateDurableRotationResources current.segments.length limits with
    | .error error => .error error
    | .ok () =>
      match current.lowerBound oldActive.segmentId with
      | none => fail .corruptedData "rotation source is not the catalog active Segment"
      | some found =>
        if found.segmentId ≠ oldActive.segmentId ∨ found.role ≠ .active then
          fail .corruptedData "rotation source is not the catalog active Segment"
        else
          .ok (current.rotated oldActive (fun full => exhausted (.inl full))
            (fun full => exhausted (.inr (.inl full))))

section Rotated

variable {current : Manifest} {source : ManifestSegmentEntry}
  {generationLeft : current.manifestGeneration ≠ kUInt64Max}
  {identityLeft : current.nextSegmentId ≠ kUInt64Max}

@[simp] theorem sealSource_segmentId (entry : ManifestSegmentEntry) :
    (sealSource source entry).segmentId = entry.segmentId := by
  unfold sealSource
  split <;> rfl

@[simp] theorem sealSource_generation (entry : ManifestSegmentEntry) :
    (sealSource source entry).generation = entry.generation := by
  unfold sealSource
  split <;> rfl

@[simp] theorem sealSource_ownerWorker (entry : ManifestSegmentEntry) :
    (sealSource source entry).ownerWorker = entry.ownerWorker := by
  unfold sealSource
  split <;> rfl

theorem sealSource_active {entry : ManifestSegmentEntry} :
    (sealSource source entry).role = .active ↔
      entry.role = .active ∧ entry.segmentId ≠ source.segmentId := by
  unfold sealSource
  split
  · next same => simp [same]
  · next differs => simp [differs]

theorem Manifest.WellFormed.rotated (wellFormed : current.WellFormed)
    (listed : source ∈ current.segments) (active : source.role = .active)
    (room : current.segments.length < kMaximumManifestSegmentCount) :
    (current.rotated source generationLeft identityLeft).WellFormed where
  store := wellFormed.store
  generation := Nat.succ_ne_zero _
  routing := wellFormed.routing
  workers := wellFormed.workers
  epoch := wellFormed.epoch
  nextIdentity := ⟨Nat.succ_ne_zero _, wellFormed.nextIdentity.2⟩
  bounded := by
    simp only [Manifest.rotated, List.length_append, List.length_map, List.length_singleton]
    exact room
  nonzero := by
    simp only [Manifest.rotated, List.forall_mem_append, List.forall_mem_map, sealSource_segmentId,
      sealSource_generation, List.forall_mem_singleton, nextEntry]
    exact ⟨wellFormed.nonzero, wellFormed.nextIdentity⟩
  ordered := by
    simp only [Manifest.rotated, List.pairwise_append, List.pairwise_map, sealSource_segmentId,
      List.pairwise_singleton, List.forall_mem_map, List.forall_mem_singleton, true_and,
      nextEntry]
    exact ⟨wellFormed.ordered, wellFormed.next⟩
  owned := by
    simp only [Manifest.rotated, List.forall_mem_append, List.forall_mem_map,
      sealSource_ownerWorker, List.forall_mem_singleton, nextEntry]
    exact ⟨wellFormed.owned, wellFormed.owned source listed⟩
  oneActive := by
    simp only [Manifest.rotated, List.pairwise_append, List.pairwise_map, sealSource_active,
      sealSource_ownerWorker, List.pairwise_singleton, List.forall_mem_map,
      List.forall_mem_singleton, true_and, nextEntry, forall_const]
    refine ⟨wellFormed.oneActive.imp fun apart first second => apart first.1 second.1, ?_⟩
    rintro entry member ⟨role, differs⟩ same
    exact differs (congrArg _ (wellFormed.eq_of_active member listed role active same))
  active := by
    intro worker inside
    by_cases owner : source.ownerWorker = worker
    · exact ⟨current.nextEntry source, by simp [Manifest.rotated], rfl, owner⟩
    · obtain ⟨entry, member, role, owned⟩ := wellFormed.active worker inside
      have differs : entry.segmentId ≠ source.segmentId := fun same =>
        owner (wellFormed.eq_of_segmentId member listed same ▸ owned)
      refine ⟨sealSource source entry, ?_, sealSource_active.mpr ⟨role, differs⟩, by simpa using owned⟩
      exact List.mem_append_left _ (List.mem_map_of_mem member)
  next := by
    simp only [Manifest.rotated, List.forall_mem_append, List.forall_mem_map, sealSource_segmentId,
      List.forall_mem_singleton, nextEntry]
    exact ⟨fun entry member => Nat.lt_succ_of_lt (wellFormed.next entry member), Nat.lt_succ_self _⟩

theorem rotationManifest_ok {limits : DurableResourceLimits} {next : Manifest}
    (wellFormed : current.WellFormed) (listed : source ∈ current.segments)
    (active : source.role = .active) :
    rotationManifest current source limits = .ok next ↔
      ∃ (generationLeft : current.manifestGeneration ≠ kUInt64Max)
        (identityLeft : current.nextSegmentId ≠ kUInt64Max),
        current.segments.length ≠ kMaximumManifestSegmentCount ∧
        validateDurableRotationResources current.segments.length limits = .ok () ∧
        next = current.rotated source generationLeft identityLeft := by
  unfold rotationManifest
  split
  · next exhausted =>
    simp only [fail, reduceCtorEq, false_iff, not_exists]
    omega
  · next roomy =>
    cases resources : validateDurableRotationResources current.segments.length limits with
    | error error => simp
    | ok _ =>
      simp only [wellFormed.lowerBound_eq listed, active, ne_eq, not_true_eq_false, or_self,
        if_false, Except.ok.injEq, true_and]
      constructor
      · rintro rfl
        exact ⟨by omega, by omega, by omega, rfl⟩
      · rintro ⟨-, -, -, rfl⟩
        rfl

theorem rotationManifest_active {limits : DurableResourceLimits} {next : Manifest}
    (wellFormed : current.WellFormed) (listed : source ∈ current.segments)
    (rotated : rotationManifest current source limits = .ok next) : source.role = .active := by
  revert rotated
  fun_cases rotationManifest current source limits with
  | case5 _ _ found lookup isActive =>
    intro _
    rw [wellFormed.lowerBound_eq listed] at lookup
    obtain rfl := Option.some.inj lookup
    exact Classical.byContradiction fun role => isActive (.inr role)
  | _ => nofun

end Rotated

/-! ## Compaction -/

def ManifestSegmentEntry.advance (entry : ManifestSegmentEntry) : ManifestSegmentEntry :=
  { entry with
    generation := (entry.generation + 1) % 2 ^ 32
    generationFits := Nat.mod_lt _ (by decide) }

/-- The loop of `validate_durable_compaction_transition`: the first sealed
Segments of the Worker advance their generation and the others go. -/
def replaceSources (worker : Nat) : Nat → List ManifestSegmentEntry →
    Result (List ManifestSegmentEntry)
  | _, [] => .ok []
  | remaining, entry :: rest =>
    if entry.ownerWorker ≠ worker ∨ entry.role ≠ .sealed then
      (replaceSources worker remaining rest).map (entry :: ·)
    else if remaining = 0 then
      replaceSources worker remaining rest
    else if entry.generation = kUInt32Max then
      fail .arithmeticOverflow "durable compaction Segment generation is exhausted"
    else
      (replaceSources worker (remaining - 1) rest).map (entry.advance :: ·)

def compactionSources (manifest : Manifest) (workerId : Nat) : List ManifestSegmentEntry :=
  manifest.segments.filter fun entry => entry.ownerWorker = workerId ∧ entry.role = .sealed

def validateDurableCompactionTransition (current next : Manifest) (workerId : Nat) : Result Nat :=
  if validateManifest current .invalidArgument ≠ .ok () ∨
      validateManifest next .invalidArgument ≠ .ok () then
    fail .invalidArgument "durable compaction transition contains an invalid v1 manifest"
  else if workerId ≥ current.workerCount ∨ current.storeId ≠ next.storeId ∨
      current.workerCount ≠ next.workerCount ∨
      current.routingAlgorithm ≠ next.routingAlgorithm ∨
      current.routingEpoch ≠ next.routingEpoch ∨ current.workerHashSeed ≠ next.workerHashSeed ∨
      current.nextSegmentId ≠ next.nextSegmentId ∨
      current.nextSegmentGeneration ≠ next.nextSegmentGeneration ∨
      current.manifestGeneration = kUInt64Max ∨
      next.manifestGeneration ≠ current.manifestGeneration + 1 then
    fail .invalidArgument "durable compaction transition changes immutable catalog metadata"
  else
    let sources := compactionSources current workerId
    if sources.length = 0 ∨ next.segments.length > current.segments.length then
      fail .invalidArgument
        "durable compaction transition has no sealed source set or grows the catalog"
    else
      let retainedEntries := current.segments.length - sources.length
      if next.segments.length < retainedEntries then
        fail .invalidArgument "durable compaction transition removes a non-source catalog entry"
      else
        let outputCount := next.segments.length - retainedEntries
        match replaceSources workerId outputCount current.segments with
        | .error error => .error error
        | .ok segments =>
          let expected : Manifest :=
            { current with
              manifestGeneration := next.manifestGeneration
              manifestGenerationFits := next.manifestGenerationFits
              segments := segments }
          if expected ≠ next then
            fail .invalidArgument
              "durable compaction next manifest is not the canonical sealed-set replacement"
          else
            .ok outputCount

end GlifiStore
