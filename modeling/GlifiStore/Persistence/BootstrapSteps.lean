import GlifiStore.Persistence.PrepareStore

/-!
# The steps of a bootstrap

What the steps that complete a bootstrap leave alone, and that they complete it
from every directory that holds a part of it.
-/

namespace GlifiStore

open StepProgram

/-! ## Names and files of a bootstrap -/

/-- Names under which a bootstrap writes before it renames. -/
def EntryName.isBootstrapTemporary : EntryName → Bool
  | .manifestTemporary | .bootstrapTemporary | .segmentTemporary _ _ => true
  | _ => false

def ManifestSegmentEntry.name (entry : ManifestSegmentEntry) : EntryName :=
  .segment entry.segmentId entry.generation

def Manifest.freshFile (manifest : Manifest) (entry : ManifestSegmentEntry) : DirectoryFile :=
  ⟨true, .segment (freshImage (manifest.identityOf entry))⟩

variable {config : PrepareConfig} {intent : Catalog} {start : Directory} {volume : Volume}

/-- What a name may hold while an intent is completed. -/
inductive Allowed (start : Directory) (intent : Catalog) (name : EntryName) :
    Option DirectoryFile → Prop
  | kept : Allowed start intent name (start.lookup name)
  | temporary {found : Option DirectoryFile} (temporary : name.isBootstrapTemporary = true) :
      Allowed start intent name found
  | manifest (published : name = .manifest) :
      Allowed start intent name (some ⟨true, .manifest intent⟩)
  | segment {entry : ManifestSegmentEntry} (listed : entry ∈ intent.segments)
      (named : name = entry.name) (absent : start.lookup name = none) :
      Allowed start intent name (some (intent.freshFile entry))

structure Completing (start : Directory) (intent : Catalog) (volume : Volume) : Prop where
  durable : ∀ name, Allowed start intent name (volume.durable.lookup name)
  current : ∀ name, Allowed start intent name (volume.current.lookup name)
  unsynced : ∀ name ∈ volume.unsynced, name.isBootstrapTemporary = true

theorem Completing.settled (allowed : ∀ name, Allowed start intent name (start.lookup name)) :
    Completing start intent (Volume.settled start) :=
  ⟨allowed, allowed, nofun⟩

variable {content : FileContent}

theorem Completing.publish (completing : Completing start intent volume)
    {temporary target : EntryName} (stale : temporary.isBootstrapTemporary = true)
    (allowed : Allowed start intent target (some ⟨true, content⟩)) :
    Meets (publishFile temporary target content) volume (Completing start intent)
      (fun _ left => Installed volume temporary target content left ∧ Completing start intent left)
      (fun _ _ => False) := by
  have aimed {name : EntryName} {found : Option DirectoryFile}
      (here : name = target ∧ found = some ⟨true, content⟩) : Allowed start intent name found := by
    obtain ⟨rfl, rfl⟩ := here
    exact allowed
  have reached {next : Volume} (publishing : Publishing volume temporary target content next) :
      Completing start intent next := by
    refine ⟨fun name => ?_, fun name => ?_, fun name member => ?_⟩
    · by_cases other : name = temporary
      · exact .temporary (other ▸ stale)
      · rcases publishing.durable name other with old | seen | here
        · exact old ▸ completing.durable name
        · exact seen ▸ completing.current name
        · exact aimed here
    · by_cases other : name = temporary
      · exact .temporary (other ▸ stale)
      · rcases publishing.current name other with seen | here
        · exact seen ▸ completing.current name
        · exact aimed here
    · rcases publishing.unsynced name member with rfl | old
      · exact stale
      · exact completing.unsynced name old
  have installed {next : Volume} (installed : Installed volume temporary target content next) :
      Completing start intent next := by
    have allowedIn (name : EntryName) :
        Allowed start intent name
          ((volume.current.published temporary target content).lookup name) := by
      rw [lookup_published]
      split
      · next here => exact aimed ⟨here, rfl⟩
      · split
        · next old => exact .temporary (old ▸ stale)
        · exact completing.current name
    refine ⟨fun name => ?_, fun name => ?_, fun name member =>
      completing.unsynced name (installed.unsynced name member)⟩
    · rw [installed.durable]
      exact allowedIn name
    · rw [installed.current]
      exact allowedIn name
  exact (publishFile_meets volume).mono (fun _ => reached) (fun _ _ done => ⟨done, installed done⟩)
    (fun _ _ => id)

/-! ## Checks of the steps -/

def Lacks (directory : Directory) (intent : Manifest) (entry : ManifestSegmentEntry) : Prop :=
  ∃ error, openSegment directory.segmentImage (intent.identityOf entry) = .error error ∧
    error.code = .notFound

def HoldsPristine (directory : Directory) (intent : Manifest) (entry : ManifestSegmentEntry) :
    Prop :=
  ∃ file, openSegment directory.segmentImage (intent.identityOf entry) = .ok file ∧
    file.selected.commit.Pristine

variable {manifest : Manifest} {entry : ManifestSegmentEntry} {missing : List ManifestSegmentEntry}

theorem inspectBootstrapSegment_ok {next : List ManifestSegmentEntry} :
    inspectBootstrapSegment start manifest missing entry = .ok next ↔
      Lacks start manifest entry ∧ next = missing ++ [entry] ∨
        HoldsPristine start manifest entry ∧ next = missing := by
  unfold inspectBootstrapSegment Lacks HoldsPristine
  cases openSegment start.segmentImage (manifest.identityOf entry) with
  | error error =>
    by_cases absent : error.code = .notFound <;> simp [absentAsNone, absent, @eq_comm _ next]
  | ok file =>
    by_cases pristine : file.selected.commit.Pristine <;>
      simp [absentAsNone, pristine, @eq_comm _ next, fail]

variable {segments : List ManifestSegmentEntry}

theorem inspectSegments_ok {found : List ManifestSegmentEntry}
    (inspected : segments.foldlM (inspectBootstrapSegment start manifest) missing = .ok found) :
    ∃ picked, picked.Sublist segments ∧ found = missing ++ picked ∧
      (∀ entry ∈ picked, Lacks start manifest entry) ∧
      ∀ entry ∈ segments, entry ∈ picked ∨ HoldsPristine start manifest entry := by
  induction segments generalizing missing with
  | nil =>
    exact ⟨[], List.Sublist.slnil, by rw [List.append_nil, Except.ok.inj inspected], nofun, nofun⟩
  | cons entry rest ih =>
    obtain ⟨next, first, inspected⟩ := bind_eq_ok.mp (List.foldlM_cons.symm.trans inspected)
    obtain ⟨picked, sublist, same, lacking, held⟩ := ih inspected
    rcases inspectBootstrapSegment_ok.mp first with ⟨lacks, rfl⟩ | ⟨pristine, rfl⟩
    · refine ⟨entry :: picked, sublist.cons_cons entry, ?_,
        List.forall_mem_cons.mpr ⟨lacks, lacking⟩, List.forall_mem_cons.mpr
          ⟨.inl List.mem_cons_self, fun other member => ?_⟩⟩
      · rw [same, List.append_assoc, List.singleton_append]
      · exact (held other member).imp_left (List.mem_cons_of_mem entry)
    · exact ⟨picked, sublist.cons entry, same, lacking,
        List.forall_mem_cons.mpr ⟨.inr pristine, held⟩⟩

theorem inspectSegments_of_held (missing : List ManifestSegmentEntry)
    (held : ∀ entry ∈ segments, Lacks start manifest entry ∨ HoldsPristine start manifest entry) :
    ∃ found, segments.foldlM (inspectBootstrapSegment start manifest) missing = .ok found := by
  induction segments generalizing missing with
  | nil => exact ⟨missing, rfl⟩
  | cons entry rest ih =>
    obtain ⟨first, others⟩ := List.forall_mem_cons.mp held
    obtain ⟨next, inspected⟩ :
        ∃ next, inspectBootstrapSegment start manifest missing entry = .ok next := by
      rcases first with lacks | pristine
      · exact ⟨_, inspectBootstrapSegment_ok.mpr (.inl ⟨lacks, rfl⟩)⟩
      · exact ⟨_, inspectBootstrapSegment_ok.mpr (.inr ⟨pristine, rfl⟩)⟩
    obtain ⟨found, rest⟩ := ih next others
    exact ⟨found, List.foldlM_cons.trans (bind_eq_ok.mpr ⟨next, inspected, rest⟩)⟩

variable {name : EntryName} {found : Option DirectoryFile}

theorem Allowed.absent (allowed : Allowed start intent name found) (nothing : found = none)
    (lasting : name.isBootstrapTemporary = false) : start.lookup name = none := by
  cases allowed with
  | kept => exact nothing
  | temporary temporary => exact nomatch lasting.symm.trans temporary
  | manifest published => exact nomatch nothing
  | segment listed named absent => exact absent

/-! ## Completing an intent -/

structure Installs (intent : Catalog) (plan : BootstrapPlan) (directory : Directory) : Prop where
  manifest : plan.publishRequired = true →
    directory.lookup .manifest = some ⟨true, .manifest intent⟩
  segments : ∀ entry ∈ plan.missing, directory.lookup entry.name = some (intent.freshFile entry)

/-- The intent goes when everything is in place. -/
structure Finishing (start : Directory) (intent : Catalog) (plan : BootstrapPlan)
    (volume : Volume) : Prop where
  durable : ∀ name, name ≠ .bootstrapIntent → Allowed start intent name (volume.durable.lookup name)
  current : ∀ name, name ≠ .bootstrapIntent → Allowed start intent name (volume.current.lookup name)
  durableIntent : volume.durable.lookup .bootstrapIntent = start.lookup .bootstrapIntent ∨
    volume.durable.lookup .bootstrapIntent = none
  currentIntent : volume.current.lookup .bootstrapIntent = none
  durableInstalls : Installs intent plan volume.durable
  currentInstalls : Installs intent plan volume.current
  unsynced : ∀ name ∈ volume.unsynced, name.isBootstrapTemporary = true

theorem publishManifestSteps_meets (completing : Completing start intent volume) (maxBytes : Nat) :
    Meets (publishManifestSteps intent.toManifest maxBytes) volume (Completing start intent)
      (fun _ left =>
        Installed volume .manifestTemporary .manifest (.manifest intent) left ∧
          Completing start intent left)
      (fun error left => left = volume ∧
        checkPublication intent.toManifest maxBytes volume.current = .error error) := by
  refine meets_query_bind (fun catalog checked => ?_) (fun error failed => ⟨rfl, failed⟩)
  obtain rfl : catalog = intent := by
    have same := checkPublication_ok checked
    cases catalog
    cases intent
    cases same
    rfl
  exact (completing.publish rfl (.manifest rfl)).mono (fun _ => id) (fun _ _ => id) (fun _ _ => nofun)

theorem createSegmentSteps_meets (completing : Completing start intent volume)
    (listed : entry ∈ intent.segments) :
    Meets (createSegmentSteps (intent.identityOf entry)) volume (Completing start intent)
      (fun _ left => volume.current.lookup entry.name = none ∧
        Installed volume (.segmentTemporary entry.segmentId entry.generation) entry.name
            (intent.freshFile entry).content left ∧
          Completing start intent left)
      (fun error left => left = volume ∧
        checkCreation (intent.identityOf entry) volume.current = .error error) := by
  refine meets_query_bind (fun image checked => ?_) (fun error failed => ⟨rfl, failed⟩)
  obtain ⟨-, absent, rfl⟩ := checkCreation_ok.mp checked
  have missing : start.lookup entry.name = none :=
    (completing.current entry.name).absent absent rfl
  exact (completing.publish rfl (.segment listed rfl missing)).mono (fun _ => id)
    (fun _ _ done => ⟨absent, done⟩) (fun _ _ => nofun)

/-- Steps that no check stops. -/
structure Unobstructed (start : Directory) (intent : Catalog) (maxBytes : Nat)
    (plan : BootstrapPlan) : Prop where
  intended : start.lookup .bootstrapIntent ≠ none
  publication : plan.publishRequired = true →
    ∃ catalog, checkPublication intent.toManifest maxBytes start = .ok catalog
  segments : ∀ entry ∈ plan.missing,
    start.lookup entry.name = none ∧ validateIdentity (intent.identityOf entry) = .ok ()

/-- How a check that fails leaves the steps. -/
def Stopped (start : Directory) (intent : Catalog) (maxBytes : Nat) (plan : BootstrapPlan)
    (left : Volume) : Prop :=
  Completing start intent left ∧ ¬ Unobstructed start intent maxBytes plan

/-- Steps that finish the plan, unless a check stops them. -/
def Finishes (start : Directory) (intent : Catalog) (maxBytes : Nat) (plan : BootstrapPlan)
    (program : Program Volume Error Unit) (volume : Volume) : Prop :=
  Meets program volume
    (fun reached => Completing start intent reached ∨ Finishing start intent plan reached)
    (fun _ left => left.durable = left.current ∧ Finishing start intent plan left)
    (fun _ => Stopped start intent maxBytes plan)

/-- The loop over the missing Segments, with those that are left. -/
structure Creating (start : Directory) (intent : Catalog) (plan : BootstrapPlan)
    (rest : List ManifestSegmentEntry) (volume : Volume) : Prop where
  completing : Completing start intent volume
  synced : volume.durable = volume.current
  manifest : plan.publishRequired = true →
    volume.current.lookup .manifest = some ⟨true, .manifest intent⟩
  created : ∀ entry ∈ plan.missing, entry ∈ rest ∨
    volume.current.lookup entry.name = some (intent.freshFile entry)
  distinct : rest.Pairwise fun earlier later => earlier.name ≠ later.name
  among : ∀ entry ∈ rest, entry ∈ plan.missing
  listed : ∀ entry ∈ rest, entry ∈ intent.segments
  absent : ∀ entry ∈ rest, start.lookup entry.name = none →
    volume.current.lookup entry.name = none

section Loop

variable {plan : BootstrapPlan} {rest : List ManifestSegmentEntry} {maxBytes : Nat}

theorem Installed.lookup_segment {next : Volume}
    (installed : Installed volume (.segmentTemporary entry.segmentId entry.generation) entry.name
      content next) (lasting : name.isBootstrapTemporary = false) (other : name ≠ entry.name) :
    next.current.lookup name = volume.current.lookup name := by
  rw [installed.current, lookup_published, if_neg other, if_neg]
  rintro rfl
  exact nomatch lasting

theorem Creating.turn (creating : Creating start intent plan (entry :: rest) volume)
    (maxBytes : Nat) :
    Meets (createSegmentSteps (intent.identityOf entry)) volume (Completing start intent)
      (fun _ => Creating start intent plan rest) (fun _ => Stopped start intent maxBytes plan) := by
  have listed := creating.listed entry List.mem_cons_self
  have apart := (List.pairwise_cons.mp creating.distinct).1
  refine (createSegmentSteps_meets creating.completing listed).mono (fun _ => id) ?_ ?_
  · rintro _ next ⟨absent, installed, completing⟩
    have kept (name : EntryName) (lasting : name.isBootstrapTemporary = false)
        (other : name ≠ entry.name) : next.current.lookup name = volume.current.lookup name :=
      installed.lookup_segment lasting other
    refine ⟨completing, installed.durable.trans installed.current.symm, fun required => ?_,
      fun other member => ?_, (List.pairwise_cons.mp creating.distinct).2,
      fun other member => creating.among other (List.mem_cons_of_mem _ member),
      fun other member => creating.listed other (List.mem_cons_of_mem _ member),
      fun other member missing => ?_⟩
    · exact (kept .manifest rfl nofun).trans (creating.manifest required)
    · rcases creating.created other member with inside | done
      · rcases List.mem_cons.mp inside with rfl | later
        · refine .inr ?_
          rw [installed.current, lookup_published, if_pos rfl]
          rfl
        · exact .inl later
      · refine .inr ((kept other.name rfl fun same => ?_).trans done)
        rw [← same, done] at absent
        exact nomatch absent
    · exact (kept other.name rfl (apart other member).symm).trans
        (creating.absent other (List.mem_cons_of_mem _ member) missing)
  · rintro error next ⟨rfl, failed⟩
    refine ⟨creating.completing, fun clear => ?_⟩
    obtain ⟨missing, valid⟩ := clear.segments entry (creating.among entry List.mem_cons_self)
    have checked := checkCreation_ok.mpr
      ⟨valid, creating.absent entry List.mem_cons_self missing, rfl⟩
    exact nomatch failed.symm.trans checked

theorem Allowed.intent_kept (allowed : Allowed start intent .bootstrapIntent found) :
    found = start.lookup .bootstrapIntent := by
  cases allowed with
  | kept => rfl
  | temporary temporary => exact nomatch temporary
  | manifest published => exact nomatch published
  | segment listed named absent => exact nomatch named

theorem finishBootstrap_meets (creating : Creating start intent plan [] volume) :
    Finishes start intent maxBytes plan finishBootstrap volume := by
  have installs : Installs intent plan volume.current :=
    ⟨creating.manifest, fun entry member =>
      (creating.created entry member).resolve_left (List.not_mem_nil)⟩
  have unlinked (name : EntryName) (other : name ≠ .bootstrapIntent) :
      (volume.current.erase .bootstrapIntent).lookup name = volume.current.lookup name :=
    AList.lookup_erase_ne other
  have left : Installs intent plan (volume.current.erase .bootstrapIntent) :=
    ⟨fun required => (unlinked .manifest nofun).trans (installs.manifest required),
      fun entry member => (unlinked entry.name nofun).trans (installs.segments entry member)⟩
  have allowed (name : EntryName) (other : name ≠ .bootstrapIntent) :
      Allowed start intent name ((volume.current.erase .bootstrapIntent).lookup name) := by
    rw [unlinked name other]
    exact creating.completing.current name
  have unsynced : ∀ name ∈ (volume.unlink .bootstrapIntent).unsynced,
      name.isBootstrapTemporary = true := fun name member =>
    creating.completing.unsynced name (List.mem_of_mem_filter member)
  refine meets_query_bind (fun _ found => ?_) (fun error missing => ?_)
  · refine meets_perform_bind (.inr ⟨fun name _ => creating.completing.durable name, allowed, .inl ?_,
      AList.lookup_erase _ _, ?_, left, unsynced⟩) ?_
    · exact (creating.completing.durable _).intent_kept
    · rw [show (volume.unlink .bootstrapIntent).durable = volume.current from creating.synced]
      exact installs
    · have finished : Finishing start intent plan (volume.unlink .bootstrapIntent).syncDirectory :=
        ⟨allowed, allowed, .inr (AList.lookup_erase _ _), AList.lookup_erase _ _, left, left, unsynced⟩
      exact meets_perform (.inr finished) ⟨rfl, finished⟩
  · refine ⟨creating.completing, fun clear => clear.intended ?_⟩
    rw [← (creating.completing.current _).intent_kept]
    cases found : volume.current.lookup .bootstrapIntent with
    | none => rfl
    | some file => simp [found] at missing

theorem planBootstrap_ok (planned : planBootstrap config intent.toManifest start = .ok plan) :
    validateInitialManifest intent.toManifest = .ok () ∧
      publicationRequired intent.toManifest config.limits.maxManifestBytes start =
        .ok plan.publishRequired ∧
      plan.missing.Sublist intent.segments ∧
      (∀ entry ∈ plan.missing, Lacks start intent.toManifest entry) ∧
      ∀ entry ∈ intent.segments, entry ∈ plan.missing ∨
        HoldsPristine start intent.toManifest entry := by
  unfold planBootstrap at planned
  obtain ⟨_, initial, planned⟩ := bind_eq_ok.mp planned
  obtain ⟨_, -, planned⟩ := bind_eq_ok.mp planned
  obtain ⟨_, -, planned⟩ := bind_eq_ok.mp planned
  obtain ⟨_, -, planned⟩ := bind_eq_ok.mp planned
  obtain ⟨required, publication, planned⟩ := bind_eq_ok.mp planned
  obtain ⟨missing, inspected, planned⟩ := bind_eq_ok.mp planned
  obtain ⟨_, -, planned⟩ := bind_eq_ok.mp planned
  obtain ⟨_, -, planned⟩ := bind_eq_ok.mp planned
  obtain rfl := Except.ok.inj planned
  obtain ⟨picked, sublist, same, lacking, held⟩ := inspectSegments_ok inspected
  rw [List.nil_append] at same
  exact ⟨initial, publication, same ▸ sublist, same ▸ lacking, same ▸ held⟩

theorem distinct_names (sublist : plan.missing.Sublist intent.segments) :
    plan.missing.Pairwise fun earlier later => earlier.name ≠ later.name := by
  refine (intent.wellFormed.ordered.sublist sublist).imp fun {earlier later} less same => ?_
  exact Nat.ne_of_lt less (EntryName.segment.inj same).1

/-- The steps of a plan complete it, unless a check stops them. -/
theorem completeBootstrap_meets
    (planned : planBootstrap config intent.toManifest start = .ok plan) :
    Finishes start intent config.limits.maxManifestBytes plan
      (completeBootstrap config intent.toManifest) (Volume.settled start) := by
  obtain ⟨-, -, sublist, -, -⟩ := planBootstrap_ok planned
  have settled : Completing start intent (Volume.settled start) := .settled fun _ => .kept
  have begins {volume : Volume} (completing : Completing start intent volume)
      (synced : volume.durable = volume.current)
      (manifest : plan.publishRequired = true →
        volume.current.lookup .manifest = some ⟨true, .manifest intent⟩)
      (kept : ∀ entry : ManifestSegmentEntry,
        volume.current.lookup entry.name = start.lookup entry.name) :
      Creating start intent plan plan.missing volume :=
    ⟨completing, synced, manifest, fun _ member => .inl member, distinct_names sublist,
      fun _ => id, fun _ member => sublist.subset member, fun entry _ absent => (kept entry).trans absent⟩
  have rest {volume : Volume} (creating : Creating start intent plan plan.missing volume) :
      Finishes start intent config.limits.maxManifestBytes plan (do
          plan.missing.forM fun entry => createSegmentSteps (intent.identityOf entry)
          finishBootstrap) volume := by
    have created := meets_forM creating fun entry rest next turning =>
      turning.turn config.limits.maxManifestBytes
    refine (created.mono (fun _ => .inl) (fun _ _ => id) (fun _ _ => id)).bind fun _ next done => ?_
    exact finishBootstrap_meets done
  refine meets_query_bind (fun other found => ?_) (fun error failed => ?_)
  · obtain rfl : plan = other := Except.ok.inj (planned.symm.trans found)
    cases required : plan.publishRequired with
    | false =>
      have creating : Creating start intent plan plan.missing (Volume.settled start) :=
        begins settled rfl (fun publish => nomatch required.symm.trans publish) fun _ => rfl
      exact rest creating
    | true =>
      have published := publishManifestSteps_meets settled config.limits.maxManifestBytes
      refine Meets.bind (published.mono (fun _ => .inl) (fun _ _ => id) ?_)
        fun _ next ⟨installed, completing⟩ => ?_
      · rintro error left ⟨rfl, failed⟩
        refine ⟨settled, fun clear => ?_⟩
        obtain ⟨catalog, checked⟩ := clear.publication required
        exact nomatch failed.symm.trans checked
      · refine rest (begins completing (installed.durable.trans installed.current.symm)
          (fun _ => ?_) fun entry => ?_)
        · rw [installed.current, lookup_published, if_pos rfl]
        · rw [installed.current, lookup_published, if_neg nofun, if_neg nofun]
          rfl
  · exact nomatch planned.symm.trans failed

end Loop

end GlifiStore
