import GlifiStore.Persistence.Verify

/-!
# The source of a migration

What `migrate_durable_store` does to the directory it copies from: it verifies the
directory, opens it as a store and reads from the opened store. Opening is where
the directory may change.
-/

namespace GlifiStore

open StepProgram DurableSegmentFile Volume

/-- What a migration depends on besides its source: the recovery of the source, and what
its arguments, its checkpoint and its destination decide. -/
structure MigrateInput where
  recovery : RecoveryInput
  scanRecords : Bool
  arguments : Status
  destination : Manifest → Status

def MigrateInput.sourceConfig (input : MigrateInput) (manifest : Manifest) : PrepareConfig where
  mode := .openExisting
  creationWorkerCount := manifest.workerCount
  requiredWorkerCount := some manifest.workerCount
  limits := input.recovery.limits
  routing := ⟨⟨.fnv1a64V1, kDefaultWorkerHashSeed⟩, false⟩
  environment := input.recovery.environment
  completion := input.recovery.environment
  consistent := fun _ same => (Option.some.inj same).symm

/-- The part of `migrate_durable_store` that reaches the source directory. What follows
reads the pinned files of the opened store and closes it. -/
def migrateSource (input : MigrateInput) : OnVolume OpenedCatalog := do
  check input.arguments
  let report ← onDirectory
    (verifyDurableStore input.recovery.environment input.scanRecords input.recovery.limits)
  check (input.destination report.manifest.toManifest)
  prepareDurableStore (input.sourceConfig report.manifest.toManifest)
    (fail .ioError "entropy source is unavailable")
  openLockedSteps input.recovery

/-- The manifest and the Segments of a directory are as they were. -/
def SourceKept (start directory : Directory) : Prop :=
  directory.lookup .manifest = start.lookup .manifest ∧
    ∀ segmentId generation, directory.lookup (.segment segmentId generation) =
      start.lookup (.segment segmentId generation)

/-- An interrupted rotation that opening completes: exactly one active entry has a sealed
Segment, no compaction temporary is left, and the catalog, the limits and the free space
have room for the replacement. -/
def RepairsRotation (environment : Environment) (limits : DurableResourceLimits)
    (directory : Directory) (manifest : Manifest) : Prop :=
  directory.lookup .compactionTemporary = none ∧
    ∃ source next additional,
      manifest.segments.foldlM (findSealedActive directory.segmentImage manifest) none =
        .ok (some source) ∧
      rotationManifest manifest source limits = .ok next ∧
      rotationBytes next.segments.length false = .ok additional ∧
      requireDurableAvailableSpace environment additional limits = .ok ()

/-! ## Steps that keep the source -/

variable {input : MigrateInput} {start directory : Directory} {manifest : Catalog} {volume : Volume}

theorem SourceKept.refl (directory : Directory) : SourceKept directory directory :=
  ⟨rfl, fun _ _ => rfl⟩

theorem SourceKept.erase (kept : SourceKept start directory) {name : EntryName}
    (temporary : Directory.isRecoveryTemporary name = true) :
    SourceKept start (directory.erase name) := by
  refine ⟨(AList.lookup_erase_ne ?_).trans kept.1, fun segmentId generation =>
    (AList.lookup_erase_ne ?_).trans (kept.2 segmentId generation)⟩
  · rintro rfl
    exact nomatch temporary
  · rintro rfl
    exact nomatch temporary

theorem isRecoveryTemporary_of_checked {name : EntryName}
    (checked : directory.checkRecoveryTemporary name = .ok ()) :
    Directory.isRecoveryTemporary name = true := by
  unfold Directory.checkRecoveryTemporary at checked
  split at checked
  · exact nomatch checked
  · next temporary => exact Classical.not_not.mp temporary

theorem forM_checked {names : List EntryName}
    (checked : names.forM directory.checkRecoveryTemporary = .ok ()) :
    ∀ name ∈ names, Directory.isRecoveryTemporary name = true := by
  induction names with
  | nil => exact nofun
  | cons name rest ih =>
    obtain ⟨_, first, others⟩ := bind_eq_ok.mp (List.forM_cons.symm.trans checked)
    exact List.forall_mem_cons.mpr ⟨isRecoveryTemporary_of_checked first, ih others⟩

structure Removing (start : Directory) (rest : List EntryName) (volume : Volume) : Prop where
  temporary : ∀ name ∈ rest, Directory.isRecoveryTemporary name = true
  kept : SourceKept start volume.current

theorem cleanupRecoveryTemporariesSteps_keeps (kept : SourceKept start volume.current)
    (names : List EntryName) :
    Meets (cleanupRecoveryTemporariesSteps names) volume
      (fun reached => SourceKept start reached.current)
      (fun _ left => SourceKept start left.current) (fun _ _ => True) := by
  unfold cleanupRecoveryTemporariesSteps
  split
  · exact meets_pure kept
  · refine meets_query_bind (fun _ checked => ?_) fun _ _ => trivial
    have removing : Removing start names volume := ⟨forM_checked checked, kept⟩
    refine (meets_forM removing fun name rest next removing => ?_).bind fun _ next removed => ?_
    · obtain ⟨first, others⟩ := List.forall_mem_cons.mp removing.temporary
      exact meets_perform (removing.kept.erase first) ⟨others, removing.kept.erase first⟩
    · exact meets_perform removed.kept removed.kept

theorem recoverDurableStateSteps_keeps (kept : SourceKept start volume.current)
    (recovery : RecoveryInput) (intent : Option DurableCompactionIntent) :
    Meets (recoverDurableStateSteps recovery intent) volume
      (fun reached => SourceKept start reached.current) (fun _ _ => True) (fun _ _ => True) := by
  unfold recoverDurableStateSteps
  refine meets_query_bind (fun found _ => ?_) fun _ _ => trivial
  obtain ⟨catalog, recovered⟩ := found
  simp only
  split
  · exact meets_pure trivial
  · refine (cleanupRecoveryTemporariesSteps_keeps kept _).bind fun _ next _ => ?_
    split
    · exact meets_pure trivial
    · refine meets_query_bind (fun _ _ => ?_) fun _ _ => trivial
      exact meets_query_bind (fun _ _ => meets_pure trivial) fun _ _ => trivial

/-! ## Opening a verified source -/

section Source

variable (verified : Verified input.recovery.environment input.recovery.limits directory manifest)
include verified

theorem prepare_verified (entropy : Result StoreId) :
    Meets (prepareDurableStore (input.sourceConfig manifest.toManifest) entropy)
      (settled directory) (fun _ => False) (fun _ left => left = settled directory)
      (fun _ _ => False) := by
  have noIntent : absentAsNone (directory.readBootstrapIntent
      input.recovery.limits.maxManifestBytes) = .ok none := by
    simp only [Directory.readBootstrapIntent, Directory.readManifestFile,
      verified.no_bootstrapIntent, fail, absentAsNone, if_true]
  have published : absentAsNone (directory.readManifest
      input.recovery.limits.maxManifestBytes) = .ok (some manifest) := by
    rw [verified.read]
    rfl
  have existing : checkExisting (input.sourceConfig manifest.toManifest) manifest.toManifest =
      .ok () := by
    refine bind_eq_ok.mpr ⟨(), verified.resources, bind_eq_ok.mpr ⟨(), ?_, ?_⟩⟩
    · simp [requireWorkerCount, MigrateInput.sourceConfig]
    · exact bind_eq_ok.mpr ⟨(), rfl, manifest.wellFormed.routing⟩
  refine meets_query_bind_ok verified.limited (meets_query_bind (fun _ _ => ?_) fun error failed => ?_)
  · refine meets_query_bind_ok noIntent (meets_query_bind_ok published ?_)
    exact meets_query (fun _ _ => rfl) fun error failed => by
      cases existing.symm.trans failed
  · cases failed

theorem resolve_verified :
    Meets (resolveInterruptedCompactionSteps input.recovery) (settled directory)
      (fun _ => False) (fun found left => found = none ∧ left = settled directory)
      (fun _ _ => False) := by
  have bounded : ¬ input.recovery.limits.maxManifestBytes > kMaximumManifestBytes := by
    intro large
    have limited := verified.limited
    unfold validateDurableResourceLimits at limited
    rw [if_pos (by simp [large])] at limited
    exact nomatch limited
  have none : findInterruptedCompaction input.recovery.limits directory = .ok none := by
    simp only [findInterruptedCompaction, Directory.readCompactionIntent, if_neg bounded,
      verified.no_compactionIntent, fail, if_true]
  exact meets_query_bind_ok none (meets_pure ⟨rfl, rfl⟩)

theorem findInterruptedRotation_verified :
    findInterruptedRotation input.recovery.environment input.recovery.limits directory =
      if directory.lookup .compactionTemporary = none then
        (manifest.segments.foldlM
          (findSealedActive directory.segmentImage manifest.toManifest) none).map
          fun source => (manifest, source.map fun source => (source, false))
      else
        .ok (manifest, none) := by
  obtain ⟨audit, audited, safe⟩ := verified.audited
  have orphan : preparedOrphan manifest.toManifest false audit.issues = _ :=
    preparedOrphan_of_tolerated (validateNamespaceForRecovery_ok.mp safe)
  simp only [findInterruptedRotation, verified.read, verified.resources, audited, orphan, bind,
    Except.bind]
  by_cases absent : directory.lookup .compactionTemporary = none
  · rw [if_neg fun stale => (verified.stale_iff audited).mp stale absent, if_pos absent]
    simp only
    cases manifest.segments.foldlM
        (findSealedActive directory.segmentImage manifest.toManifest) none with
    | error error => rfl
    | ok source => cases source <;> rfl
  · rw [if_pos ((verified.stale_iff audited).mpr absent), if_neg absent]
    simp only [safe]

/-- Opening a verified source touches it only to complete a rotation. -/
theorem completeInterruptedRotation_verified
    (unneeded : ¬ RepairsRotation input.recovery.environment input.recovery.limits directory
      manifest.toManifest) :
    Meets (completeInterruptedRotationSteps input.recovery.environment input.recovery.limits)
      (settled directory) (fun _ => False) (fun _ left => left = settled directory)
      (fun _ _ => True) := by
  refine meets_query_bind (fun found read => ?_) fun _ _ => trivial
  have found_eq := (findInterruptedRotation_verified verified).symm.trans read
  by_cases absent : directory.lookup .compactionTemporary = none
  · rw [if_pos absent] at found_eq
    cases searched : manifest.segments.foldlM
        (findSealedActive directory.segmentImage manifest.toManifest) none with
    | error error =>
      rw [searched] at found_eq
      exact nomatch found_eq
    | ok source =>
      rw [searched] at found_eq
      obtain rfl := Except.ok.inj found_eq
      cases source with
      | none => exact meets_pure rfl
      | some source =>
        refine meets_query_bind (fun next rotated => ?_) fun _ _ => trivial
        refine meets_query_bind (fun additional counted => ?_) fun _ _ => trivial
        refine meets_query_bind (fun _ enough => ?_) fun _ _ => trivial
        exact absurd ⟨absent, source, next, additional, searched, rotated, counted, enough⟩ unneeded
  · rw [if_neg absent] at found_eq
    obtain rfl := Except.ok.inj found_eq
    exact meets_pure rfl

theorem completeInterruptedRotation_creates
    (needed : RepairsRotation input.recovery.environment input.recovery.limits directory
      manifest.toManifest) :
    ∃ reached ∈ (completeInterruptedRotationSteps input.recovery.environment input.recovery.limits
      (settled directory)).passed, ¬ SourceKept directory reached.current := by
  obtain ⟨absent, source, next, additional, searched, rotated, counted, enough⟩ := needed
  have found := findInterruptedRotation_verified verified
  rw [if_pos absent, searched] at found
  have nextAbsent := verified.next_absent manifest.nextSegmentGeneration
  have identity : validateIdentity (manifest.identityOf (manifest.nextEntry source)) = .ok () := by
    have store : ¬ allZero manifest.storeId = true := by
      rw [Bool.not_eq_true]
      exact manifest.wellFormed.store
    have nonzero := manifest.wellFormed.nextIdentity
    exact (if_neg store).trans (if_neg (not_or.mpr nonzero))
  have checked : checkCreation (manifest.identityOf (manifest.nextEntry source)) directory = .ok _ :=
    checkCreation_ok.mpr ⟨identity, nextAbsent, rfl⟩
  refine ⟨_, mem_passed_query_bind found (mem_passed_query_bind rotated (mem_passed_query_bind
    counted (mem_passed_query_bind enough (mem_passed_bind (mem_passed_query_bind checked
      (publishFile_left_mem _)))))), fun kept => ?_⟩
  obtain ⟨_, -, installed⟩ := (publishFile_meets (settled directory)).succeeds
  have created := kept.2 manifest.nextSegmentId manifest.nextSegmentGeneration
  have named : EntryName.segment (manifest.identityOf (manifest.nextEntry source)).segmentId
      (manifest.identityOf (manifest.nextEntry source)).generation =
      .segment manifest.nextSegmentId manifest.nextSegmentGeneration := rfl
  rw [installed.current, lookup_published, named, if_pos rfl, nextAbsent] at created
  exact nomatch created

theorem openLockedSteps_keeps
    (unneeded : ¬ RepairsRotation input.recovery.environment input.recovery.limits directory
      manifest.toManifest) :
    Meets (openLockedSteps input.recovery) (settled directory)
      (fun reached => SourceKept directory reached.current) (fun _ _ => True) (fun _ _ => True) := by
  refine meets_query_bind (fun _ _ => ?_) fun _ _ => trivial
  refine ((resolve_verified verified).mono (fun _ => False.elim) (fun _ _ => id)
    fun _ _ => False.elim).bind fun found left none => ?_
  obtain ⟨rfl, rfl⟩ := none
  refine ((completeInterruptedRotation_verified verified unneeded).mono (fun _ => False.elim)
    (fun _ _ => id) fun _ _ => id).bind fun _ left same => ?_
  subst same
  refine (recoverDurableStateSteps_keeps (.refl directory) input.recovery none).bind
    fun recovered next _ => ?_
  exact meets_query (fun _ _ => trivial) fun _ _ => trivial

theorem openLockedSteps_creates
    (needed : RepairsRotation input.recovery.environment input.recovery.limits directory
      manifest.toManifest) :
    ∃ reached ∈ (openLockedSteps input.recovery (settled directory)).passed,
      ¬ SourceKept directory reached.current := by
  obtain ⟨reached, member, touched⟩ := completeInterruptedRotation_creates verified needed
  obtain ⟨found, ended, rfl, left⟩ := (resolve_verified verified).succeeds
  refine ⟨reached, mem_passed_query_bind verified.limited (mem_passed_bind_right ended ?_), touched⟩
  rw [left]
  exact mem_passed_bind member

end Source

/-! ## Migration -/

section Migration

variable {report : DurableStoreVerifyReport}
  (verified : verifyDurableStore input.recovery.environment input.scanRecords
    input.recovery.limits directory = .ok report)
include verified

theorem migrateSource_keeps (unneeded : ¬ (input.arguments = .ok () ∧
      input.destination report.manifest.toManifest = .ok () ∧
      RepairsRotation input.recovery.environment input.recovery.limits directory
        report.manifest.toManifest)) :
    Meets (migrateSource input) (settled directory)
      (fun reached => SourceKept directory reached.current) (fun _ _ => True) (fun _ _ => True) := by
  have accepted := verifyDurableStore_ok verified
  refine meets_query_bind (fun _ started => ?_) fun _ _ => trivial
  refine meets_query_bind (fun found read => ?_) fun _ _ => trivial
  obtain rfl := Except.ok.inj (verified.symm.trans read)
  refine meets_query_bind (fun _ ready => ?_) fun _ _ => trivial
  refine ((prepare_verified accepted _).mono (fun _ => False.elim) (fun _ _ => id)
    fun _ _ => False.elim).bind fun _ left same => ?_
  subst same
  exact openLockedSteps_keeps accepted fun needed => unneeded ⟨started, ready, needed⟩

theorem migrateSource_creates (started : input.arguments = .ok ())
    (ready : input.destination report.manifest.toManifest = .ok ())
    (needed : RepairsRotation input.recovery.environment input.recovery.limits directory
      report.manifest.toManifest) :
    ∃ reached ∈ (migrateSource input (settled directory)).passed,
      ¬ SourceKept directory reached.current := by
  have accepted := verifyDurableStore_ok verified
  obtain ⟨reached, member, touched⟩ := openLockedSteps_creates accepted needed
  obtain ⟨_, prepared, left⟩ := (prepare_verified accepted
    (fail .ioError "entropy source is unavailable")).succeeds
  refine ⟨reached, mem_passed_query_bind started (mem_passed_query_bind verified
    (mem_passed_query_bind ready (mem_passed_bind_right prepared ?_))), touched⟩
  rw [left]
  exact member

end Migration

/-! ## Stores with one Segment -/

def sampleMigration : MigrateInput where
  recovery := ⟨⟨2 ^ 40, none⟩, roomyLimits, 0, 0, listingOrder⟩
  scanRecords := true
  arguments := .ok ()
  destination := fun _ => .ok ()

def sampleSegment : SegmentHeaderIdentity := sampleManifest.identityOf sampleEntry

def sampleStore (image : CrashFile.Image UInt8) : Directory :=
  (((∅ : Directory).insert .storeLock ⟨true, .unreadable ⟨.invalidRecord, ""⟩⟩).insert .manifest
    ⟨true, .manifest sampleCatalog⟩).insert (.segment 1 1) ⟨true, .segment image⟩

section Sample

variable {image : CrashFile.Image UInt8} {commit : SelectedSegmentCommit}
  (opens : openFile image sampleSegment false =
    .ok (opened image sampleSegment commit false))
include opens

theorem openSegment_sampleStore :
    openSegment (sampleStore image).segmentImage sampleSegment =
      .ok (opened image sampleSegment commit false) := by
  have held : (sampleStore image).lookup (.segment 1 1) = some ⟨true, .segment image⟩ :=
    AList.lookup_insert _
  have found : (sampleStore image).segmentImage 1 1 = .ok image := by
    simp only [Directory.segmentImage, held, not_true_eq_false, if_false]
  rw [openSegment, show (sampleStore image).segmentImage sampleSegment.segmentId
    sampleSegment.generation = _ from found]
  exact opens

theorem sampleStore_verified (empty : commit.commit.recordCount = 0) : ∃ report,
    verifyDurableStore sampleMigration.recovery.environment sampleMigration.scanRecords
      sampleMigration.recovery.limits (sampleStore image) = .ok report ∧
      report.manifest = sampleCatalog := by
  have read : (sampleStore image).readManifest roomyLimits.maxManifestBytes = .ok sampleCatalog :=
    rfl
  have resources : validateDurableManifestResources ⟨2 ^ 40, none⟩ sampleManifest roomyLimits =
      .ok () := by decide +kernel
  have issues : auditIssues (sampleStore image) sampleManifest = [] := rfl
  have audited : auditDataDirectory (sampleStore image) sampleManifest = .ok ⟨3, 1, []⟩ := by
    refine auditDataDirectory_ok.mpr ⟨sampleCatalog.wellFormed, ?_, ?_, ?_⟩
    · show 3 ≤ _
      decide
    · rw [issues]
      exact Nat.zero_le _
    · rw [issues, List.mergeSort_nil]
      rfl
  have counted : countRecords (opened image sampleSegment commit false) true =
      .ok 0 := by
    simp [countRecords, visitCommittedRecords, opened, empty]
  have segment : verifySegment (sampleStore image) true ⟨sampleCatalog, ⟨3, 1, []⟩, [], 0, 0⟩
      sampleEntry = .ok ⟨sampleCatalog, ⟨3, 1, []⟩,
        [⟨sampleEntry, commit, commit.commit.state = .sealed, 0⟩], 0,
        0 + if decide (commit.commit.state = .sealed) then 1 else 0⟩ :=
    bind_eq_ok.mpr ⟨_, openSegment_sampleStore opens, bind_eq_ok.mpr ⟨_, rfl, bind_eq_ok.mpr
      ⟨0, counted, rfl⟩⟩⟩
  refine ⟨_, bind_eq_ok.mpr ⟨(), ?_, bind_eq_ok.mpr ⟨_, read, bind_eq_ok.mpr ⟨(), resources,
    bind_eq_ok.mpr ⟨_, audited, bind_eq_ok.mpr ⟨(), rfl, List.foldlM_cons.trans (bind_eq_ok.mpr
      ⟨_, segment, rfl⟩)⟩⟩⟩⟩⟩, rfl⟩
  decide +kernel

theorem findSealedActive_sampleStore :
    sampleManifest.segments.foldlM
        (findSealedActive (sampleStore image).segmentImage sampleManifest) none =
      .ok (if commit.commit.state = .sealed then some sampleEntry else none) := by
  have opened := openSegment_sampleStore opens
  refine List.foldlM_cons.trans (bind_eq_ok.mpr
    ⟨if commit.commit.state = .sealed then some sampleEntry else none, ?_, rfl⟩)
  unfold findSealedActive
  rw [if_neg (by decide), show openSegment _ (sampleManifest.identityOf sampleEntry) = _ from opened]
  simp only [DurableSegmentFile.opened, Option.isSome_none, Bool.false_eq_true, if_false]
  split <;> rfl

end Sample

theorem sealedSegment_opens :
    openFile (sealedImage sampleSegment) sampleSegment false = .ok
      (opened (sealedImage sampleSegment) sampleSegment ⟨1, emptySeal⟩ false) :=
  openFile_sealedImage (by decide) false

theorem freshSegment_opens :
    openFile (freshImage sampleSegment) sampleSegment false = .ok
      (opened (freshImage sampleSegment) sampleSegment ⟨0, initialCommit⟩ false) :=
  (fresh_freshImage (by decide)).openFile false

theorem sealedStore_repairs :
    RepairsRotation sampleMigration.recovery.environment sampleMigration.recovery.limits
      (sampleStore (sealedImage sampleSegment)) sampleManifest := by
  have found := findSealedActive_sampleStore sealedSegment_opens
  obtain ⟨next, rotated, length⟩ : ∃ next, rotationManifest sampleManifest sampleEntry roomyLimits =
      .ok next ∧ next.segments.length = 2 := ⟨_, rfl, rfl⟩
  refine ⟨rfl, sampleEntry, next, kManifestHeaderBytes + 2 * kManifestSegmentEntryBytes +
    kSegmentSizeBytes, found, rotated, ?_, by decide +kernel⟩
  rw [length]
  decide +kernel

/-! ## Migration of a verified source -/

/-- A migration leaves the manifest and the Segments of a verified source alone exactly when
it stops before it opens the source, or finds no rotation there to complete. -/
theorem migration_keeps_source (input : MigrateInput) (directory : Directory)
    (report : DurableStoreVerifyReport)
    (verified : verifyDurableStore input.recovery.environment input.scanRecords
      input.recovery.limits directory = .ok report) :
    (∀ reached ∈ (migrateSource input (Volume.settled directory)).passed,
        SourceKept directory reached.current) ↔
      ¬ (input.arguments = .ok () ∧ input.destination report.manifest.toManifest = .ok () ∧
        RepairsRotation input.recovery.environment input.recovery.limits directory
          report.manifest.toManifest) := by
  constructor
  · rintro keeps ⟨started, ready, needed⟩
    obtain ⟨reached, member, touched⟩ := migrateSource_creates verified started ready needed
    exact touched (keeps reached member)
  · exact fun unneeded => (migrateSource_keeps verified unneeded).passed

theorem migration_keeps_fresh_source : ∃ report,
    verifyDurableStore sampleMigration.recovery.environment sampleMigration.scanRecords
        sampleMigration.recovery.limits (sampleStore (freshImage sampleSegment)) = .ok report ∧
      ∀ reached ∈ (migrateSource sampleMigration
          (Volume.settled (sampleStore (freshImage sampleSegment)))).passed,
        SourceKept (sampleStore (freshImage sampleSegment)) reached.current := by
  obtain ⟨report, verified, same⟩ := sampleStore_verified freshSegment_opens rfl
  refine ⟨report, verified, (migration_keeps_source sampleMigration _ report verified).mpr ?_⟩
  rintro ⟨-, -, -, source, next, additional, found, -⟩
  rw [same] at found
  exact nomatch found.symm.trans (findSealedActive_sampleStore freshSegment_opens)

/-- The source of an interrupted rotation gets a new Segment. -/
theorem migration_creates_source_segment : ∃ report,
    verifyDurableStore sampleMigration.recovery.environment sampleMigration.scanRecords
        sampleMigration.recovery.limits (sampleStore (sealedImage sampleSegment)) = .ok report ∧
      ∃ reached ∈ (migrateSource sampleMigration
          (Volume.settled (sampleStore (sealedImage sampleSegment)))).passed,
        ¬ SourceKept (sampleStore (sealedImage sampleSegment)) reached.current := by
  obtain ⟨report, verified, same⟩ := sampleStore_verified sealedSegment_opens rfl
  refine ⟨report, verified, migrateSource_creates verified rfl rfl ?_⟩
  rw [same]
  exact sealedStore_repairs

end GlifiStore
