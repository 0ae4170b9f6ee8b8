import GlifiStore.Persistence.BootstrapSteps

/-!
# Parts of a bootstrap

The directories that hold a part of what a bootstrap intent asks for. The steps of
a bootstrap and the crashes between them lead from one to another, and the checks
that passed before the first step pass again.
-/

namespace GlifiStore

open StepProgram

variable {maxBytes : Nat} {name : EntryName} {entry : ManifestSegmentEntry}

/-! ## Directories of a bootstrap -/

/-- A catalog that a configuration starts from. -/
def Initial (config : PrepareConfig) (intent : Catalog) : Prop :=
  ∃ (storeId : StoreId) (supported : config.creationWorkerCount ≤ kMaximumWorkerCount),
    intent.toManifest =
      initialCatalog config.creationWorkerCount config.routing.state storeId supported

def Unbegun (directory : Directory) : Prop :=
  ∀ name, directory.lookup name ≠ none → name = .storeLock ∨ name = .bootstrapTemporary

/-- A part of what an intent asks for. -/
structure Begun (intent : Catalog) (directory : Directory) : Prop where
  intended : directory.lookup .bootstrapIntent = some ⟨true, .manifest intent⟩
  manifest : directory.lookup .manifest = none ∨
    directory.lookup .manifest = some ⟨true, .manifest intent⟩
  segments : ∀ entry ∈ intent.segments, directory.lookup entry.name = none ∨
    directory.lookup entry.name = some (intent.freshFile entry)

structure Bootstrapped (intent : Catalog) (directory : Directory) : Prop where
  finished : directory.lookup .bootstrapIntent = none
  manifest : directory.lookup .manifest = some ⟨true, .manifest intent⟩
  segments : ∀ entry ∈ intent.segments, directory.lookup entry.name = some (intent.freshFile entry)

/-- Nothing but what a bootstrap of the intent puts there. -/
def OnlyOf (intent : Catalog) (directory : Directory) : Prop :=
  ∀ name, directory.lookup name ≠ none →
    name = .storeLock ∨ name.isBootstrapTemporary = true ∨ name = .bootstrapIntent ∨
      name = .manifest ∨ ∃ entry ∈ intent.segments, name = entry.name

variable {config : PrepareConfig} {intent : Catalog} {start survived : Directory}
  {volume : Volume} {plan : BootstrapPlan} {found : Option DirectoryFile}

/-! ## What a crash leaves -/

theorem Completing.allowed_of_crash (completing : Completing start intent volume)
    (crash : volume.Crash survived) (name : EntryName) :
    Allowed start intent name (survived.lookup name) := by
  rcases crash name with old | seen | ⟨unsynced, -⟩
  · exact old ▸ completing.durable name
  · exact seen ▸ completing.current name
  · exact .temporary (completing.unsynced name unsynced)

theorem Finishing.allowed_of_crash (finishing : Finishing start intent plan volume)
    (crash : volume.Crash survived) (name : EntryName) (other : name ≠ .bootstrapIntent) :
    Allowed start intent name (survived.lookup name) := by
  rcases crash name with old | seen | ⟨unsynced, -⟩
  · exact old ▸ finishing.durable name other
  · exact seen ▸ finishing.current name other
  · exact .temporary (finishing.unsynced name unsynced)

theorem Finishing.intent_of_crash (finishing : Finishing start intent plan volume)
    (crash : volume.Crash survived) :
    survived.lookup .bootstrapIntent = start.lookup .bootstrapIntent ∨
      survived.lookup .bootstrapIntent = none := by
  rcases crash .bootstrapIntent with old | seen | ⟨unsynced, -⟩
  · rw [old]
    exact finishing.durableIntent
  · exact .inr (seen.trans finishing.currentIntent)
  · exact nomatch finishing.unsynced _ unsynced

theorem Finishing.installs_of_crash (finishing : Finishing start intent plan volume)
    (crash : volume.Crash survived) : Installs intent plan survived := by
  have kept {name : EntryName} {file : Option DirectoryFile}
      (lasting : name.isBootstrapTemporary = false) (durable : volume.durable.lookup name = file)
      (current : volume.current.lookup name = file) : survived.lookup name = file := by
    rcases crash name with old | seen | ⟨unsynced, -⟩
    · exact old.trans durable
    · exact seen.trans current
    · exact nomatch lasting.symm.trans (finishing.unsynced name unsynced)
  exact ⟨fun required => kept rfl (finishing.durableInstalls.manifest required)
      (finishing.currentInstalls.manifest required),
    fun entry member => kept rfl (finishing.durableInstalls.segments entry member)
      (finishing.currentInstalls.segments entry member)⟩

/-! ## What the steps allow -/

theorem Allowed.manifest_cases (begun : Begun intent start)
    (allowed : Allowed start intent .manifest found) :
    found = none ∨ found = some ⟨true, .manifest intent⟩ := by
  cases allowed with
  | kept => exact begun.manifest
  | temporary temporary => exact nomatch temporary
  | manifest => exact .inr rfl
  | segment listed named absent => exact nomatch named

theorem Allowed.segment_cases (begun : Begun intent start) (listed : entry ∈ intent.segments)
    (named : name = entry.name) (allowed : Allowed start intent name found) :
    found = none ∨ found = some (intent.freshFile entry) := by
  cases allowed with
  | kept => exact named ▸ begun.segments entry listed
  | temporary temporary => exact nomatch (named ▸ temporary :)
  | manifest published => exact nomatch published.symm.trans named
  | @segment other otherListed otherNamed absent =>
    have same := (EntryName.segment.inj (otherNamed.symm.trans named)).1
    rw [intent.wellFormed.eq_of_segmentId otherListed listed same]
    exact .inr rfl

theorem Allowed.keeps {file : DirectoryFile} (allowed : Allowed start intent name found)
    (held : start.lookup name = some file) (lasting : name.isBootstrapTemporary = false)
    (other : name ≠ .manifest) :
    found = some file := by
  cases allowed with
  | kept => exact held
  | temporary temporary => exact nomatch lasting.symm.trans temporary
  | manifest published => exact absurd published other
  | segment listed named absent => exact nomatch absent.symm.trans held

theorem Allowed.onlyOf (only : OnlyOf intent start) (allowed : Allowed start intent name found)
    (present : found ≠ none) :
    name = .storeLock ∨ name.isBootstrapTemporary = true ∨ name = .bootstrapIntent ∨
      name = .manifest ∨ ∃ entry ∈ intent.segments, name = entry.name := by
  cases allowed with
  | kept => exact only name present
  | temporary temporary => exact .inr (.inl temporary)
  | manifest published => exact .inr (.inr (.inr (.inl published)))
  | @segment entry listed named absent =>
    exact .inr (.inr (.inr (.inr ⟨entry, listed, named⟩)))

structure Covers (intent : Catalog) (start : Directory) (plan : BootstrapPlan) : Prop where
  manifest : plan.publishRequired = true ∨ start.lookup .manifest ≠ none
  segments : ∀ entry ∈ intent.segments, entry ∈ plan.missing ∨ start.lookup entry.name ≠ none

section Allowed

variable
  (allowed : ∀ name, name ≠ .bootstrapIntent → Allowed start intent name (survived.lookup name))
include allowed

theorem Begun.of_allowed (begun : Begun intent start)
    (intended : survived.lookup .bootstrapIntent = start.lookup .bootstrapIntent) :
    Begun intent survived where
  intended := intended.trans begun.intended
  manifest := (allowed .manifest nofun).manifest_cases begun
  segments entry listed := (allowed entry.name nofun).segment_cases begun listed rfl

theorem Bootstrapped.of_allowed (begun : Begun intent start) (covers : Covers intent start plan)
    (finished : survived.lookup .bootstrapIntent = none)
    (installs : Installs intent plan survived) :
    Bootstrapped intent survived where
  finished := finished
  manifest := by
    rcases covers.manifest with required | held
    · exact installs.manifest required
    · refine ((allowed .manifest nofun).manifest_cases begun).resolve_left fun absent => held ?_
      exact (allowed .manifest nofun).absent absent rfl
  segments entry listed := by
    rcases covers.segments entry listed with missing | held
    · exact installs.segments entry missing
    · refine ((allowed entry.name nofun).segment_cases begun listed rfl).resolve_left
        fun absent => held ?_
      exact (allowed entry.name nofun).absent absent rfl

theorem OnlyOf.of_allowed (only : OnlyOf intent start) : OnlyOf intent survived := by
  intro name present
  by_cases other : name = .bootstrapIntent
  · exact .inr (.inr (.inl other))
  · exact (allowed name other).onlyOf only present

end Allowed

/-! ## Checks of a resumed bootstrap -/

/-- What the arguments must satisfy. -/
structure Bootable (config : PrepareConfig) : Prop where
  limits : validateDurableResourceLimits config.limits = .ok ()
  routing : validateWorkerRoutingState config.routing.state = .ok ()
  creates : config.mode ≠ .openExisting
  workers : 0 < config.creationWorkerCount ∧ config.creationWorkerCount ≤ kMaximumWorkerCount
  fits : kManifestHeaderBytes + config.creationWorkerCount * kManifestSegmentEntryBytes ≤
    config.limits.maxManifestBytes

/-- What the system must report to a run on the directory: descriptors for the store, on a
directory without a bootstrap the space for a whole one, and otherwise, unless it is finished,
the space for the Segments and the manifest that it lacks. Stale temporaries hold their space
until they are replaced. -/
structure Provided (config : PrepareConfig) (directory : Directory) : Prop where
  resources : ∀ environment ∈ [config.environment, config.completion],
    validateDurableBootstrapResources environment config.creationWorkerCount config.limits = .ok ()
  creation : Unbegun directory → ∃ required, creationBytes config.creationWorkerCount = .ok required ∧
    requireDurableAvailableSpace config.environment required config.limits = .ok ()
  completion : directory.lookup .manifest = none ∨ directory.lookup .bootstrapIntent ≠ none →
    ∀ intent, Initial config intent → ∃ additional,
      remainingBytes config.creationWorkerCount
          (intent.segments.countP fun entry => directory.lookup entry.name = none)
          (directory.lookup .manifest).isNone = .ok additional ∧
        requireDurableAvailableSpace config.completion additional config.limits = .ok ()

theorem Initial.workerCount_eq (initial : Initial config intent) :
    intent.workerCount = config.creationWorkerCount := by
  obtain ⟨storeId, supported, same⟩ := initial
  rw [same]
  rfl

theorem Initial.length_segments (initial : Initial config intent) :
    intent.segments.length = config.creationWorkerCount := by
  obtain ⟨storeId, supported, same⟩ := initial
  rw [same, initialCatalog, List.length_map, List.length_finRange]

theorem validateInitialManifest_initialCatalog {workerCount : Nat} {routing : WorkerRoutingState}
    {storeId : StoreId} {supported : workerCount ≤ kMaximumWorkerCount}
    (valid : validateWorkerRoutingState routing = .ok ()) :
    validateInitialManifest (initialCatalog workerCount routing storeId supported) = .ok () := by
  have canonical : ((initialCatalog workerCount routing storeId supported).segments.zipIdx.all
      fun slot => slot.1.isInitial slot.2) = true := by
    rw [List.all_eq_true]
    rintro ⟨entry, index⟩ member
    rw [List.mk_mem_zipIdx_iff_getElem?] at member
    simp only [initialCatalog, List.getElem?_map, Option.map_eq_some_iff] at member
    obtain ⟨worker, place, rfl⟩ := member
    obtain ⟨inside, here⟩ := List.getElem?_eq_some_iff.mp place
    have same : worker.val = index := by
      rw [← here, List.getElem_finRange]
      rfl
    simp [ManifestSegmentEntry.isInitial, initialEntry, same]
  have counted : ((initialCatalog workerCount routing storeId supported).segments).length =
      workerCount := by
    rw [initialCatalog, List.length_map, List.length_finRange]
  have routed : validateWorkerRoutingState
      (initialCatalog workerCount routing storeId supported).workerRouting = .ok () := valid
  unfold validateInitialManifest
  rw [if_neg (by rw [counted]; simp [initialCatalog]), routed]
  exact if_pos canonical

theorem Initial.validates (initial : Initial config intent)
    (routing : validateWorkerRoutingState config.routing.state = .ok ()) :
    validateInitialManifest intent.toManifest = .ok () := by
  obtain ⟨storeId, supported, same⟩ := initial
  rw [same]
  exact validateInitialManifest_initialCatalog routing

theorem Initial.requireWorkerCount_ok (initial : Initial config intent) :
    requireWorkerCount intent.toManifest config.requiredWorkerCount = .ok () := by
  unfold requireWorkerCount
  cases required : config.requiredWorkerCount with
  | none => rfl
  | some count =>
    have same : count = intent.workerCount :=
      (config.consistent count required).trans initial.workerCount_eq.symm
    simp only [same, ne_eq, not_true_eq_false, if_false]

theorem Initial.requireWorkerRouting_ok (initial : Initial config intent) :
    requireWorkerRouting intent.toManifest config.routing = .ok () := by
  obtain ⟨storeId, supported, same⟩ := initial
  have routed : intent.toManifest.workerRouting = config.routing.state := by
    rw [same]
    rfl
  unfold requireWorkerRouting
  rw [routed]
  split
  · rfl
  · simp only [ne_eq, not_true_eq_false, if_false]

theorem fits_of_resources {environment : Environment} {workerCount : Nat}
    {limits : DurableResourceLimits}
    (resources : validateDurableBootstrapResources environment workerCount limits = .ok ()) :
    kManifestHeaderBytes + workerCount * kManifestSegmentEntryBytes ≤ limits.maxManifestBytes := by
  obtain ⟨_, -, resources⟩ := bind_eq_ok.mp resources
  obtain ⟨_, counted, -⟩ := bind_eq_ok.mp resources
  obtain ⟨rfl, within⟩ := validateCountAndManifest_ok counted
  exact within

theorem readManifestFile_ok {description : String}
    (held : start.lookup name = some ⟨true, .manifest intent⟩)
    (fits : kManifestHeaderBytes + intent.segments.length * kManifestSegmentEntryBytes ≤ maxBytes) :
    start.readManifestFile name description maxBytes = .ok intent := by
  simp only [Directory.readManifestFile, held, not_true_eq_false, if_false, gt_iff_lt,
    if_neg (Nat.not_lt.mpr fits)]

theorem readManifestFile_absent {description : String} (absent : start.lookup name = none) :
    absentAsNone (start.readManifestFile name description maxBytes) = .ok none := by
  simp only [Directory.readManifestFile, absent, fail, absentAsNone, if_true]

theorem checkPublication_of_absent
    (fits : kManifestHeaderBytes + intent.segments.length * kManifestSegmentEntryBytes ≤ maxBytes)
    (absent : start.lookup .manifest = none) :
    ∃ catalog, checkPublication intent.toManifest maxBytes start = .ok catalog := by
  have missing : start.readManifest maxBytes = fail .notFound "manifest does not exist" := by
    simp only [Directory.readManifest, Directory.readManifestFile, absent]
    rfl
  unfold checkPublication
  split
  · next error invalid =>
    exact nomatch (validateManifest_ok_iff.mpr intent.wellFormed).symm.trans invalid
  · rw [if_neg (Nat.not_lt.mpr fits), missing]
    exact ⟨_, rfl⟩

theorem remainingBytes_mono {workerCount missing more total : Nat} {publishRequired : Bool}
    (whole : remainingBytes workerCount more publishRequired = .ok total) (part : missing ≤ more) :
    ∃ additional, remainingBytes workerCount missing publishRequired = .ok additional ∧
      additional ≤ total := by
  have product : missing * kSegmentSizeBytes ≤ more * kSegmentSizeBytes :=
    Nat.mul_le_mul_right _ part
  unfold remainingBytes at whole ⊢
  cases found : durableManifestBytes workerCount with
  | error error => rw [found] at whole; cases whole
  | ok manifestBytes =>
    simp only [found] at whole ⊢
    split at whole
    · cases whole
    · next counted =>
      rw [if_neg (by omega)]
      cases publishRequired with
      | false => exact ⟨_, rfl, Except.ok.inj whole ▸ product⟩
      | true =>
        rw [if_pos rfl] at whole ⊢
        split at whole
        · cases whole
        · rw [if_neg (by omega)]
          cases whole
          exact ⟨_, rfl, by omega⟩

theorem remainingBytes_le {workerCount missing required : Nat} (publishRequired : Bool)
    (whole : creationBytes workerCount = .ok required) (part : missing ≤ workerCount) :
    ∃ additional, remainingBytes workerCount missing publishRequired = .ok additional ∧
      additional ≤ required := by
  revert whole
  fun_cases creationBytes workerCount with
  | case4 manifestBytes found counted total within =>
    rintro ⟨⟩
    have product : missing * kSegmentSizeBytes ≤ workerCount * kSegmentSizeBytes :=
      Nat.mul_le_mul_right _ part
    have total_eq : total = workerCount * kSegmentSizeBytes := rfl
    unfold remainingBytes
    rw [found]
    simp only
    rw [if_neg (by omega)]
    cases publishRequired with
    | false => exact ⟨_, rfl, by omega⟩
    | true =>
      rw [if_pos rfl, if_neg (by omega)]
      exact ⟨_, rfl, by omega⟩
  | _ => exact nofun

/-- Room for a whole bootstrap is room for every part of one. -/
theorem Provided.of_room {required : Nat}
    (resources : ∀ environment ∈ [config.environment, config.completion],
      validateDurableBootstrapResources environment config.creationWorkerCount config.limits = .ok ())
    (created : creationBytes config.creationWorkerCount = .ok required)
    (space : ∀ environment ∈ [config.environment, config.completion],
      requireDurableAvailableSpace environment required config.limits = .ok ())
    (directory : Directory) : Provided config directory where
  resources := resources
  creation _ := ⟨required, created, space _ (by simp)⟩
  completion _ intent initial := by
    obtain ⟨additional, remaining, less⟩ := remainingBytes_le _ created
      (List.countP_le_length.trans_eq initial.length_segments)
    exact ⟨additional, remaining, requireDurableAvailableSpace_mono less (space _ (by simp))⟩

/-! ## Segments of a resumed bootstrap -/

theorem Catalog.validIdentity (listed : entry ∈ intent.segments) :
    validateIdentity (intent.identityOf entry) = .ok () := by
  obtain ⟨identity, generation⟩ := intent.wellFormed.nonzero entry listed
  have store : ¬ allZero (intent.identityOf entry).storeId = true := by
    rw [Bool.not_eq_true]
    exact intent.wellFormed.store
  rw [validateIdentity, if_neg store]
  exact if_neg (not_or.mpr ⟨identity, generation⟩)

theorem lacks_of_absent (absent : start.lookup entry.name = none) :
    Lacks start intent.toManifest entry := by
  refine ⟨⟨.notFound, "Segment does not exist"⟩, ?_, rfl⟩
  have missing : start.lookup (.segment entry.segmentId entry.generation) = none := absent
  simp only [openSegment, Directory.segmentImage, Manifest.identityOf, missing, fail]

theorem holdsPristine_of_fresh (listed : entry ∈ intent.segments)
    (held : start.lookup entry.name = some (intent.freshFile entry)) :
    HoldsPristine start intent.toManifest entry := by
  have present : start.lookup (.segment entry.segmentId entry.generation) =
    some (intent.freshFile entry) := held
  have image : start.segmentImage entry.segmentId entry.generation =
      .ok (freshImage (intent.identityOf entry)) := by
    simp only [Directory.segmentImage, present, Manifest.freshFile, not_true_eq_false, if_false]
  have opened : openSegment start.segmentImage (intent.identityOf entry) =
      .ok (DurableSegmentFile.opened (freshImage (intent.identityOf entry))
        (intent.identityOf entry) ⟨0, initialCommit⟩ false) := by
    rw [openSegment, show start.segmentImage (intent.identityOf entry).segmentId
      (intent.identityOf entry).generation = _ from image]
    exact (fresh_freshImage (Catalog.validIdentity listed)).openFile false
  exact ⟨_, opened, rfl, rfl, rfl, rfl⟩

theorem Begun.held (begun : Begun intent start) (listed : entry ∈ intent.segments) :
    Lacks start intent.toManifest entry ∨ HoldsPristine start intent.toManifest entry :=
  (begun.segments entry listed).imp lacks_of_absent (holdsPristine_of_fresh listed)

theorem Begun.absent_of_lacks (begun : Begun intent start) (listed : entry ∈ intent.segments)
    (lacks : Lacks start intent.toManifest entry) :
    start.lookup entry.name = none := by
  refine (begun.segments entry listed).resolve_right fun held => ?_
  obtain ⟨error, failed, -⟩ := lacks
  obtain ⟨file, opened, -⟩ := holdsPristine_of_fresh listed held
  exact nomatch failed.symm.trans opened

end GlifiStore
