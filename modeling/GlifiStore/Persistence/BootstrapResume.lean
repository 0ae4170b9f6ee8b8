import GlifiStore.Persistence.BootstrapParts

/-!
# Resuming a bootstrap

Preparing a directory that an interrupted bootstrap left completes the bootstrap,
however often it is interrupted; under an intent that does not fit the directory
it takes no step.
-/

namespace GlifiStore

open StepProgram Volume

variable {config : PrepareConfig} {intent : Catalog} {start survived : Directory}
  {volume : Volume} {plan : BootstrapPlan}
variable {entropy : Result StoreId}

/-! ## Completing what was begun -/

section Plan

variable (begun : Begun intent start)
  (fits : kManifestHeaderBytes + intent.segments.length * kManifestSegmentEntryBytes ≤
    config.limits.maxManifestBytes)
include begun fits

theorem Begun.publicationRequired_eq :
    publicationRequired intent.toManifest config.limits.maxManifestBytes start =
      .ok (start.lookup .manifest).isNone := by
  unfold publicationRequired Directory.readManifest
  rcases begun.manifest with absent | held
  · rw [readManifestFile_absent absent, absent]
    rfl
  · rw [readManifestFile_ok held fits, held]
    simp only [absentAsNone, ne_eq, not_true_eq_false, if_false, Option.isNone_some]

/-- What the plan finds out lets its steps pass. -/
theorem Begun.clear (planned : planBootstrap config intent.toManifest start = .ok plan) :
    Covers intent start plan ∧ Unobstructed start intent config.limits.maxManifestBytes plan := by
  obtain ⟨-, publication, sublist, lacking, held⟩ := planBootstrap_ok planned
  obtain same := Except.ok.inj (publication.symm.trans (begun.publicationRequired_eq fits))
  refine ⟨⟨?_, fun entry listed => ?_⟩, ?_, fun publishing => ?_, fun entry member => ?_⟩
  · rw [same]
    cases start.lookup .manifest with
    | none => exact .inl rfl
    | some file => exact .inr (Option.some_ne_none file)
  · refine (held entry listed).imp_right fun found absent => ?_
    obtain ⟨file, opened, -⟩ := found
    have lacks : Lacks start intent.toManifest entry := lacks_of_absent absent
    obtain ⟨error, failed, -⟩ := lacks
    cases failed.symm.trans opened
  · rw [begun.intended]
    simp
  · exact checkPublication_of_absent fits (Option.isNone_iff_eq_none.mp (same.symm.trans publishing))
  · exact ⟨begun.absent_of_lacks (sublist.subset member) (lacking entry member),
      Catalog.validIdentity (sublist.subset member)⟩

theorem Begun.planned (initial : Initial config intent) (bootable : Bootable config)
    (provided : Provided config start) :
    ∃ plan, planBootstrap config intent.toManifest start = .ok plan := by
  have intended : start.lookup .bootstrapIntent ≠ none := by
    rw [begun.intended]
    exact Option.some_ne_none _
  obtain ⟨missing, inspected⟩ := inspectSegments_of_held [] fun entry listed => begun.held listed
  obtain ⟨picked, sublist, same, lacking, -⟩ := inspectSegments_ok inspected
  rw [List.nil_append] at same
  subst same
  have fewer : missing.length ≤
      intent.segments.countP fun entry => start.lookup entry.name = none := by
    rw [← List.countP_eq_length.mpr fun entry member => decide_eq_true
      (begun.absent_of_lacks (sublist.subset member) (lacking entry member))]
    exact sublist.countP_le
  obtain ⟨total, whole, enough⟩ := provided.completion (.inr intended) intent initial
  obtain ⟨additional, remaining, less⟩ := remainingBytes_mono whole fewer
  refine ⟨⟨(start.lookup .manifest).isNone, missing⟩, ?_⟩
  unfold planBootstrap
  refine bind_eq_ok.mpr ⟨(), initial.validates bootable.routing, ?_⟩
  refine bind_eq_ok.mpr ⟨(), initial.requireWorkerCount_ok, ?_⟩
  refine bind_eq_ok.mpr ⟨(), initial.requireWorkerRouting_ok, ?_⟩
  refine bind_eq_ok.mpr ⟨(), initial.workerCount_eq ▸ provided.resources _ (by simp), ?_⟩
  refine bind_eq_ok.mpr ⟨_, begun.publicationRequired_eq fits, ?_⟩
  refine bind_eq_ok.mpr ⟨missing, inspected, ?_⟩
  refine bind_eq_ok.mpr ⟨additional, initial.length_segments ▸ remaining, ?_⟩
  exact bind_eq_ok.mpr ⟨(), requireDurableAvailableSpace_mono less enough, rfl⟩

end Plan

/-- What a bootstrap of the intent leaves of a directory at any time. -/
def Resumable (intent : Catalog) (start survived : Directory) : Prop :=
  (Begun intent survived ∨ Bootstrapped intent survived) ∧
    (OnlyOf intent start → OnlyOf intent survived)

def Completed (intent : Catalog) (start : Directory) (left : Volume) : Prop :=
  left.durable = left.current ∧ Bootstrapped intent left.current ∧
    (OnlyOf intent start → OnlyOf intent left.current)

theorem Begun.complete (begun : Begun intent start) (initial : Initial config intent)
    (bootable : Bootable config) :
    Meets (completeBootstrap config intent.toManifest) (settled start)
      (fun reached => ∀ survived, reached.Crash survived → Resumable intent start survived)
      (fun _ left => Completed intent start left) (fun _ _ => ¬ Provided config start) := by
  have fits := bootable.fits
  rw [← initial.length_segments] at fits
  cases planned : planBootstrap config intent.toManifest start with
  | error error =>
    refine meets_query_bind (fun plan found => ?_) fun _ _ provided => ?_
    · cases planned.symm.trans found
    · obtain ⟨plan, found⟩ := begun.planned fits initial bootable provided
      cases planned.symm.trans found
  | ok plan =>
  obtain ⟨covers, clear⟩ := begun.clear fits planned
  refine (completeBootstrap_meets planned).mono ?_ ?_ ?_
  · rintro reached (completing | finishing) survived crash
    · have allowed := completing.allowed_of_crash crash
      have intended := (allowed .bootstrapIntent).intent_kept
      exact ⟨.inl (begun.of_allowed (fun name _ => allowed name) intended),
        fun only => only.of_allowed fun name _ => allowed name⟩
    · have allowed := finishing.allowed_of_crash crash
      refine ⟨?_, fun only => only.of_allowed allowed⟩
      rcases finishing.intent_of_crash crash with intended | finished
      · exact .inl (begun.of_allowed allowed intended)
      · exact .inr (.of_allowed allowed begun covers finished (finishing.installs_of_crash crash))
  · rintro _ left ⟨synced, finishing⟩
    exact ⟨synced, .of_allowed finishing.current begun covers finishing.currentIntent
      finishing.currentInstalls, fun only => only.of_allowed finishing.current⟩
  · rintro error left ⟨-, obstructed⟩
    exact absurd clear obstructed

theorem Initial.checkExisting_ok (initial : Initial config intent)
    (provided : Provided config start) :
    checkExisting config intent.toManifest = .ok () := by
  have counted : intent.segments.length = intent.workerCount :=
    initial.length_segments.trans initial.workerCount_eq.symm
  have resources : validateDurableManifestResources config.environment intent.toManifest
      config.limits = .ok () :=
    validateDurableManifestResources_of_bootstrap counted
      (initial.workerCount_eq ▸ provided.resources _ (by simp))
  refine bind_eq_ok.mpr ⟨(), resources, bind_eq_ok.mpr ⟨(), initial.requireWorkerCount_ok, ?_⟩⟩
  exact bind_eq_ok.mpr ⟨(), initial.requireWorkerRouting_ok, intent.wellFormed.routing⟩

theorem prepareDurableStore_resumes (entropy : Result StoreId)
    (state : Begun intent start ∨ Bootstrapped intent start) (initial : Initial config intent)
    (bootable : Bootable config) :
    Meets (prepareDurableStore config entropy) (settled start)
      (fun reached => ∀ survived, reached.Crash survived → Resumable intent start survived)
      (fun _ left => Completed intent start left) (fun _ _ => ¬ Provided config start) := by
  have fits := bootable.fits
  rw [← initial.length_segments] at fits
  refine meets_query_bind_ok bootable.limits (meets_query_bind_ok bootable.routing ?_)
  rcases state with begun | bootstrapped
  · have intended : absentAsNone (start.readBootstrapIntent config.limits.maxManifestBytes) =
        .ok (some intent) := by
      rw [Directory.readBootstrapIntent, readManifestFile_ok begun.intended fits]
      rfl
    exact meets_query_bind_ok intended (begun.complete initial bootable)
  · have finished : absentAsNone (start.readBootstrapIntent config.limits.maxManifestBytes) =
        .ok none := readManifestFile_absent bootstrapped.finished
    have published : absentAsNone (start.readManifest config.limits.maxManifestBytes) =
        .ok (some intent) := by
      rw [Directory.readManifest, readManifestFile_ok bootstrapped.manifest fits]
      rfl
    refine meets_query_bind_ok finished (meets_query_bind_ok published ?_)
    exact meets_query (fun _ _ => ⟨rfl, bootstrapped, id⟩) fun error failed provided => by
      cases (initial.checkExisting_ok provided).symm.trans failed

/-! ## Beginning a bootstrap -/

theorem pristineForBootstrap_iff : pristineForBootstrap start = true ↔ Unbegun start := by
  simp only [pristineForBootstrap, List.all_eq_true, Bool.or_eq_true, decide_eq_true_eq, Unbegun]
  refine forall_congr' fun name => imp_congr_left ?_
  rw [← AList.mem_keys, ← AList.lookup_isSome, Option.isSome_iff_ne_none]

theorem planCreation_ok {created : Manifest}
    (limits : validateDurableResourceLimits config.limits = .ok ())
    (routing : validateWorkerRoutingState config.routing.state = .ok ())
    (planned : planCreation config entropy start = .ok created) :
    Bootable config ∧ Unbegun start ∧ ∃ intent : Catalog,
      intent.toManifest = created ∧ Initial config intent := by
  unfold planCreation at planned
  by_cases existing : config.mode = .openExisting
  · rw [if_pos existing] at planned
    exact nomatch planned
  by_cases pristine : pristineForBootstrap start = true
  · rw [if_neg existing, if_neg (not_not_intro pristine)] at planned
    obtain ⟨initial, drawn, planned⟩ := bind_eq_ok.mp planned
    obtain ⟨_, resources, planned⟩ := bind_eq_ok.mp planned
    obtain ⟨_, -, planned⟩ := bind_eq_ok.mp planned
    obtain ⟨_, -, planned⟩ := bind_eq_ok.mp planned
    obtain rfl := Except.ok.inj planned
    obtain ⟨storeId, supported, same, wellFormed⟩ := initialManifest_ok drawn
    have workers := wellFormed.workers
    rw [same] at workers
    exact ⟨⟨limits, routing, existing, workers, fits_of_resources resources⟩,
      pristineForBootstrap_iff.mp pristine, ⟨initial, wellFormed⟩, rfl, storeId, supported, same⟩
  · rw [if_neg existing, if_pos pristine] at planned
    exact nomatch planned

theorem planCreation_of_bootable {storeId : StoreId} (bootable : Bootable config)
    (provided : Provided config start) (unbegun : Unbegun start) (drawn : newStoreId entropy = .ok storeId) :
    ∃ created, planCreation config entropy start = .ok created := by
  obtain ⟨positive, supported⟩ := bootable.workers
  obtain ⟨required, whole, enough⟩ := provided.creation unbegun
  have known : ¬ (config.creationWorkerCount = 0 ∨
      config.creationWorkerCount > kMaximumWorkerCount ∨
      config.creationWorkerCount ≥ kUInt32Max) := by
    simp only [kMaximumWorkerCount, kUInt32Max] at supported ⊢
    omega
  have created : initialManifest config.creationWorkerCount config.routing.state entropy =
      .ok (initialCatalog config.creationWorkerCount config.routing.state storeId supported) := by
    rw [initialManifest, dif_neg known, bootable.routing, drawn]
  refine ⟨initialCatalog config.creationWorkerCount config.routing.state storeId supported, ?_⟩
  rw [planCreation, if_neg bootable.creates,
    if_neg (not_not_intro (pristineForBootstrap_iff.mpr unbegun))]
  refine bind_eq_ok.mpr ⟨_, created, bind_eq_ok.mpr ⟨(), provided.resources _ (by simp), ?_⟩⟩
  exact bind_eq_ok.mpr ⟨required, whole, bind_eq_ok.mpr ⟨(), enough, rfl⟩⟩

/-- What interrupted bootstraps of a configuration leave. -/
def Interruptible (config : PrepareConfig) (directory : Directory) : Prop :=
  Unbegun directory ∨ ∃ intent, Initial config intent ∧
    (Begun intent directory ∨ Bootstrapped intent directory) ∧ OnlyOf intent directory

theorem Publishing.crash_intent
    (publishing : Publishing (settled start) .bootstrapTemporary .bootstrapIntent
      (.manifest intent) volume) (crash : volume.Crash survived) (name : EntryName)
    (other : name ≠ .bootstrapTemporary) :
    survived.lookup name = start.lookup name ∨
      name = .bootstrapIntent ∧ survived.lookup name = some ⟨true, .manifest intent⟩ := by
  rcases crash name with old | seen | ⟨unsynced, -⟩
  · rw [old]
    exact (publishing.durable name other).elim .inl id
  · rw [seen]
    exact publishing.current name other
  · exact absurd unsynced fun pending =>
      (publishing.unsynced name pending).elim other List.not_mem_nil

/-- A bootstrap of the intent and nothing else, on disk as the process sees it. -/
def PreparedAs (config : PrepareConfig) (intent : Catalog) (left : Volume) : Prop :=
  Initial config intent ∧ left.durable = left.current ∧ Bootstrapped intent left.current ∧
    OnlyOf intent left.current

section Intent

variable (unbegun : Unbegun start)
include unbegun

theorem Unbegun.lookup_eq_none {name : EntryName} (other : name ≠ .storeLock)
    (lasting : name ≠ .bootstrapTemporary) : start.lookup name = none := by
  refine Classical.byContradiction fun present => ?_
  exact (unbegun name present).elim other lasting

theorem Unbegun.begun (directory : Directory)
    (intended : directory.lookup .bootstrapIntent = some ⟨true, .manifest intent⟩)
    (others : ∀ name, name ≠ .bootstrapTemporary → name ≠ .bootstrapIntent →
      directory.lookup name = start.lookup name) :
    Begun intent directory ∧ OnlyOf intent directory := by
  refine ⟨⟨intended, .inl ?_, fun entry _ => .inl ?_⟩, fun name present => ?_⟩
  · exact (others .manifest nofun nofun).trans (unbegun.lookup_eq_none nofun nofun)
  · exact (others entry.name nofun nofun).trans (unbegun.lookup_eq_none nofun nofun)
  · by_cases stale : name = .bootstrapTemporary
    · exact .inr (.inl (stale ▸ rfl))
    by_cases aimed : name = .bootstrapIntent
    · exact .inr (.inr (.inl aimed))
    rw [others name stale aimed] at present
    exact .inl ((unbegun name present).resolve_right stale)

theorem Unbegun.interruptible (initial : Initial config intent)
    (publishing : Publishing (settled start) .bootstrapTemporary .bootstrapIntent
      (.manifest intent) volume) (crash : volume.Crash survived) :
    Interruptible config survived := by
  have others (name : EntryName) (stale : name ≠ .bootstrapTemporary)
      (other : name ≠ .bootstrapIntent) : survived.lookup name = start.lookup name :=
    (publishing.crash_intent crash name stale).resolve_right fun aimed => other aimed.1
  rcases publishing.crash_intent crash .bootstrapIntent nofun with kept | ⟨-, intended⟩
  · refine .inl fun name present => ?_
    by_cases stale : name = .bootstrapTemporary
    · exact .inr stale
    by_cases aimed : name = .bootstrapIntent
    · rw [aimed, kept] at present
      exact (present (unbegun.lookup_eq_none nofun nofun)).elim
    rw [others name stale aimed] at present
    exact unbegun name present
  · obtain ⟨begun, only⟩ := unbegun.begun survived intended others
    exact .inr ⟨intent, initial, .inl begun, only⟩

theorem checkIntentPublication_of_unbegun {maxBytes : Nat}
    (fits : kManifestHeaderBytes + intent.segments.length * kManifestSegmentEntryBytes ≤ maxBytes) :
    checkIntentPublication intent.toManifest maxBytes start = .ok intent := by
  have absent : start.lookup .bootstrapIntent = none := unbegun.lookup_eq_none nofun nofun
  unfold checkIntentPublication
  split
  · next error invalid =>
    exact nomatch (validateManifest_ok_iff.mpr intent.wellFormed).symm.trans invalid
  · rw [if_neg (Nat.not_lt.mpr fits), absent]

theorem publishBootstrapIntent_meets {maxBytes : Nat} (initial : Initial config intent)
    (fits : kManifestHeaderBytes + intent.segments.length * kManifestSegmentEntryBytes ≤ maxBytes) :
    Meets (publishBootstrapIntent intent.toManifest maxBytes) (settled start)
      (fun reached => ∀ survived, reached.Crash survived → Interruptible config survived)
      (fun _ left => left = settled
        (start.published .bootstrapTemporary .bootstrapIntent (.manifest intent)))
      (fun _ _ => False) := by
  have checked := checkIntentPublication_of_unbegun unbegun fits
  refine meets_query_bind_ok checked <| (publishFile_meets _).mono
    (fun reached publishing survived => unbegun.interruptible initial publishing)
    (fun _ left installed => ?_) (fun _ _ => id)
  have unsynced : left.unsynced = [] :=
    List.eq_nil_iff_forall_not_mem.mpr fun name member =>
      List.not_mem_nil (installed.unsynced name member)
  calc left = ⟨left.durable, left.current, left.unsynced⟩ := rfl
    _ = _ := by
      rw [installed.durable, installed.current, unsynced]
      rfl

theorem Unbegun.provided (provided : Provided config start) :
    Provided config (start.published .bootstrapTemporary .bootstrapIntent (.manifest intent)) := by
  have kept (name : EntryName) (other : name ≠ .bootstrapTemporary) (aimed : name ≠ .bootstrapIntent) :
      (start.published .bootstrapTemporary .bootstrapIntent (.manifest intent)).lookup name =
        start.lookup name := by
    rw [lookup_published, if_neg aimed, if_neg other]
  refine ⟨provided.resources, fun fresh => ?_, fun _ other initial => ?_⟩
  · have intended := fresh .bootstrapIntent (by rw [lookup_published, if_pos rfl]; simp)
    exact intended.elim nofun nofun
  · have segments (entry : ManifestSegmentEntry) := kept entry.name nofun nofun
    simp only [kept .manifest nofun nofun, segments]
    exact provided.completion (.inl (unbegun.lookup_eq_none nofun nofun)) other initial

end Intent

/-- Preparing a directory without an intent begins a bootstrap of the configuration, if
that is possible at all. -/
theorem prepareDurableStore_begins (entropy : Result StoreId) (unbegun : Unbegun start) :
    Meets (prepareDurableStore config entropy) (settled start)
      (fun reached => Bootable config ∧
        ∀ survived, reached.Crash survived → Interruptible config survived)
      (fun _ left => ∃ intent, PreparedAs config intent left)
      (fun _ _ => Bootable config → Provided config start →
        ∀ storeId, newStoreId entropy ≠ .ok storeId) := by
  refine meets_query_bind (fun _ limits => ?_) fun error failed bootable =>
    nomatch bootable.limits.symm.trans failed
  refine meets_query_bind (fun _ routing => ?_) fun error failed bootable =>
    nomatch bootable.routing.symm.trans failed
  refine meets_query_bind_ok (readManifestFile_absent (unbegun.lookup_eq_none nofun nofun)) ?_
  refine meets_query_bind_ok (readManifestFile_absent (unbegun.lookup_eq_none nofun nofun)) ?_
  refine meets_query_bind (fun created planned => ?_)
    fun error failed bootable provided storeId drawn => ?_
  · obtain ⟨bootable, -, intent, rfl, initial⟩ := planCreation_ok limits routing planned
    have fits := bootable.fits
    rw [← initial.length_segments] at fits
    have published := publishBootstrapIntent_meets unbegun initial fits
    refine Meets.bind (published.mono (fun _ resumable => ⟨bootable, resumable⟩) (fun _ _ => id)
      fun _ _ => nofun) fun _ left same => ?_
    have intended : (start.published .bootstrapTemporary .bootstrapIntent
        (.manifest intent)).lookup .bootstrapIntent = some ⟨true, .manifest intent⟩ := by
      rw [lookup_published, if_pos rfl]
    obtain ⟨begun, only⟩ := unbegun.begun _ intended fun name stale aimed => by
      rw [lookup_published, if_neg aimed, if_neg stale]
    rw [same]
    refine (begun.complete initial bootable).mono (fun reached resumable => ⟨bootable, ?_⟩) ?_
      fun _ _ short _ provided => absurd (unbegun.provided provided) short
    · intro survived crash
      obtain ⟨state, kept⟩ := resumable survived crash
      exact .inr ⟨intent, initial, state, kept only⟩
    · rintro _ next ⟨synced, bootstrapped, kept⟩
      exact ⟨intent, initial, synced, bootstrapped, kept only⟩
  · obtain ⟨created, planned⟩ := planCreation_of_bootable bootable provided unbegun drawn
    exact nomatch planned.symm.trans failed

/-! ## Interrupted bootstraps -/

/-- The directories that crashes leave, from an empty directory on, whatever the system
reported to the runs. -/
inductive Interrupted (config : PrepareConfig) : Directory → Prop
  | empty {directory : Directory}
      (nothing : ∀ name, directory.lookup name ≠ none → name = .storeLock) :
      Interrupted config directory
  | crash {environment completion : Environment} {directory survived : Directory}
      {entropy : Result StoreId} {reached : Volume} (before : Interrupted config directory)
      (stopped : reached ∈
        (prepareDurableStore (config.under environment completion) entropy (settled directory)).passed)
      (crash : reached.Crash survived) : Interrupted config survived

theorem Interruptible.crash {environment completion : Environment} {directory : Directory}
    {reached : Volume} (before : Unbegun directory ∨ Bootable config ∧ Interruptible config directory)
    (stopped : reached ∈
      (prepareDurableStore (config.under environment completion) entropy (settled directory)).passed)
    (crash : reached.Crash survived) : Bootable config ∧ Interruptible config survived := by
  have unbegunCase (unbegun : Unbegun directory) :
      Bootable config ∧ Interruptible config survived := by
    obtain ⟨⟨limits, routing, creates, workers, fits⟩, resumable⟩ :=
      (prepareDurableStore_begins entropy unbegun).passed reached stopped
    exact ⟨⟨limits, routing, creates, workers, fits⟩, resumable survived crash⟩
  rcases before with unbegun | ⟨bootable, unbegun | ⟨intent, initial, state, only⟩⟩
  · exact unbegunCase unbegun
  · exact unbegunCase unbegun
  · have here : Initial (config.under environment completion) intent := initial
    obtain ⟨next, kept⟩ := (prepareDurableStore_resumes entropy state here { bootable with }).passed
      reached stopped survived crash
    exact ⟨bootable, .inr ⟨intent, initial, next, kept only⟩⟩

theorem Interrupted.interruptible {directory : Directory} (interrupted : Interrupted config directory) :
    Unbegun directory ∨ Bootable config ∧ Interruptible config directory := by
  induction interrupted with
  | empty nothing => exact .inl fun name present => .inl (nothing name present)
  | crash before stopped crash ih => exact .inr (Interruptible.crash ih stopped crash)

theorem intent_eq_of_held {other : Catalog} (state : Begun intent start ∨ Bootstrapped intent start)
    (held : start.lookup .bootstrapIntent = some ⟨true, .manifest other⟩ ∨
      start.lookup .manifest = some ⟨true, .manifest other⟩) : intent = other := by
  have same {name : EntryName} (left : start.lookup name = some ⟨true, .manifest intent⟩)
      (right : start.lookup name = some ⟨true, .manifest other⟩) : intent = other := by
    simpa using left.symm.trans right
  rcases state with begun | bootstrapped
  · rcases held with intended | published
    · exact same begun.intended intended
    · rcases begun.manifest with absent | manifest
      · exact nomatch absent.symm.trans published
      · exact same manifest published
  · rcases held with intended | published
    · exact nomatch bootstrapped.finished.symm.trans intended
    · exact same bootstrapped.manifest published

theorem Interruptible.prepare (bootable : Bootable config) (provided : Provided config start)
    (interruptible : Interruptible config start)
    (drawn : Unbegun start → ∃ storeId, newStoreId entropy = .ok storeId) :
    Meets (prepareDurableStore config entropy) (settled start) (fun _ => True)
      (fun _ left => ∃ intent, PreparedAs config intent left ∧
        ∀ begun, start.lookup .bootstrapIntent = some ⟨true, .manifest begun⟩ ∨
          start.lookup .manifest = some ⟨true, .manifest begun⟩ → intent = begun)
      (fun _ _ => False) := by
  rcases interruptible with unbegun | ⟨intent, initial, state, only⟩
  · obtain ⟨storeId, drawn⟩ := drawn unbegun
    refine (prepareDurableStore_begins entropy unbegun).mono (fun _ _ => trivial) ?_
      fun _ _ failed => failed bootable provided storeId drawn
    rintro _ left ⟨intent, prepared⟩
    refine ⟨intent, prepared, fun begun held => ?_⟩
    rcases held with intended | published
    · exact (unbegun _ (ne_of_eq_of_ne intended nofun)).elim nofun nofun
    · exact (unbegun _ (ne_of_eq_of_ne published nofun)).elim nofun nofun
  · refine (prepareDurableStore_resumes entropy state initial bootable).mono (fun _ _ => trivial) ?_
      fun _ _ short => short provided
    rintro _ left ⟨synced, bootstrapped, kept⟩
    exact ⟨intent, ⟨initial, synced, bootstrapped, kept only⟩,
      fun begun held => intent_eq_of_held state held⟩

/-! ## Directories that an intent does not fit -/

/-- A directory on which an intent can be completed, resources apart. -/
structure Continues (intent : Catalog) (maxBytes : Nat) (directory : Directory) : Prop where
  canonical : validateInitialManifest intent.toManifest = .ok ()
  manifest : ∃ required, publicationRequired intent.toManifest maxBytes directory = .ok required
  segments : ∀ entry ∈ intent.segments, Lacks directory intent.toManifest entry ∨
    HoldsPristine directory intent.toManifest entry

theorem Continues.of_planned (planned : planBootstrap config intent.toManifest start = .ok plan) :
    Continues intent config.limits.maxManifestBytes start := by
  obtain ⟨canonical, publication, -, lacking, held⟩ := planBootstrap_ok planned
  exact ⟨canonical, ⟨_, publication⟩, fun entry listed =>
    (held entry listed).imp_left (lacking entry)⟩

/-- Under an intent every step keeps the Segment files, and there is none when the intent
does not fit. -/
theorem prepareDurableStore_keeps (entropy : Result StoreId)
    (read : start.readBootstrapIntent config.limits.maxManifestBytes = .ok intent) :
    Meets (prepareDurableStore config entropy) (settled start)
      (fun reached => Continues intent config.limits.maxManifestBytes start ∧
        ∀ segmentId generation file, start.lookup (.segment segmentId generation) = some file →
          reached.durable.lookup (.segment segmentId generation) = some file ∧
            reached.current.lookup (.segment segmentId generation) = some file)
      (fun _ _ => Continues intent config.limits.maxManifestBytes start) (fun _ _ => True) := by
  have intended : absentAsNone (start.readBootstrapIntent config.limits.maxManifestBytes) =
      .ok (some intent) := by
    rw [read]
    rfl
  refine meets_query_bind (fun _ _ => ?_) fun _ _ => trivial
  refine meets_query_bind (fun _ _ => ?_) fun _ _ => trivial
  refine meets_query_bind (fun found reading => ?_) fun _ _ => trivial
  obtain rfl := Except.ok.inj (intended.symm.trans reading)
  cases planned : planBootstrap config intent.toManifest start with
  | error error =>
    refine meets_query_bind (fun plan found => ?_) fun _ _ => trivial
    exact nomatch planned.symm.trans found
  | ok plan =>
    refine (completeBootstrap_meets planned).mono ?_ (fun _ _ _ => .of_planned planned)
      fun _ _ _ => trivial
    rintro reached (completing | finishing)
    · exact ⟨.of_planned planned, fun segmentId generation file held =>
        ⟨(completing.durable _).keeps held rfl nofun, (completing.current _).keeps held rfl nofun⟩⟩
    · exact ⟨.of_planned planned, fun segmentId generation file held =>
        ⟨(finishing.durable (.segment segmentId generation) nofun).keeps held rfl nofun,
          (finishing.current (.segment segmentId generation) nofun).keeps held rfl nofun⟩⟩

/-! ## A store with one Worker -/

def sampleConfig : PrepareConfig where
  mode := .openOrCreate
  creationWorkerCount := 1
  requiredWorkerCount := none
  limits := roomyLimits
  routing := ⟨⟨.fnv1a64V1, 0⟩, false⟩
  environment := ⟨2 ^ 40, none⟩
  completion := ⟨2 ^ 40, none⟩
  consistent := nofun

def sampleStoreId : StoreId := ⟨List.replicate 16 1, length_ones⟩

theorem sampleConfig_bootable : Bootable sampleConfig where
  limits := by decide +kernel
  routing := by decide
  creates := by decide
  workers := by decide
  fits := by decide

def sampleBytes : Nat :=
  kSegmentSizeBytes + (kManifestHeaderBytes + kManifestSegmentEntryBytes) * 2

theorem sampleConfig_provided (directory : Directory) : Provided sampleConfig directory := by
  have created : creationBytes sampleConfig.creationWorkerCount = .ok sampleBytes := by
    decide +kernel
  refine .of_room ?_ created ?_ directory <;> decide +kernel

theorem sampleCatalog_initial : Initial sampleConfig sampleCatalog :=
  ⟨sampleStoreId, by decide, rfl⟩

def damagedDirectory : Directory :=
  ((∅ : Directory).insert .bootstrapIntent ⟨true, .manifest sampleCatalog⟩).insert .manifest
    ⟨true, .unreadable ⟨.checksumMismatch, "manifest checksum mismatch"⟩⟩

/-- A directory with a Segment that its bootstrap intent does not list. -/
def strayDirectory : Directory :=
  ((∅ : Directory).insert .bootstrapIntent ⟨true, .manifest sampleCatalog⟩).insert (.segment 9 1)
    ⟨true, .segment fun _ => 0⟩

/-! ## Resumption -/

/-- Preparing again the directory that a crash left after any step, after any number of
interrupted runs, ends with the manifest of the intent and one pristine active Segment
per Worker, when the system then provides for what is left to do. Under an intent whose
catalog is not initial, or with another manifest, or with a listed Segment that is not
pristine, it fails without a step; files that the intent does not list are left alone. No
step changes a Segment file that exists. -/
theorem bootstrap_resumes (config : PrepareConfig) :
    let prepare entropy directory := prepareDurableStore config entropy (Volume.settled directory)
    (∀ environment completion directory first reached survived, Interrupted config directory →
      reached ∈ (prepareDurableStore (config.under environment completion) first
        (Volume.settled directory)).passed →
      reached.Crash survived → Provided config survived → ∀ entropy,
        (Unbegun survived → ∃ storeId, newStoreId entropy = .ok storeId) →
        (prepare entropy survived).result = .ok () ∧
          ∃ intent, Initial config intent ∧
            (prepare entropy survived).left.durable = (prepare entropy survived).left.current ∧
            Bootstrapped intent (prepare entropy survived).left.current ∧
            OnlyOf intent (prepare entropy survived).left.current ∧
            (∀ entry ∈ intent.segments,
              HoldsPristine (prepare entropy survived).left.current intent.toManifest entry) ∧
            ∀ begun, survived.lookup .bootstrapIntent = some ⟨true, .manifest begun⟩ ∨
              survived.lookup .manifest = some ⟨true, .manifest begun⟩ → intent = begun) ∧
      ∀ directory intent entropy,
        directory.readBootstrapIntent config.limits.maxManifestBytes = .ok intent →
        (¬ Continues intent config.limits.maxManifestBytes directory →
          (prepare entropy directory).passed = [] ∧
            ∃ error, (prepare entropy directory).result = .error error) ∧
        ∀ reached ∈ (prepare entropy directory).passed, ∀ segmentId generation file,
          directory.lookup (.segment segmentId generation) = some file →
          reached.durable.lookup (.segment segmentId generation) = some file ∧
            reached.current.lookup (.segment segmentId generation) = some file := by
  intro prepare
  refine ⟨fun environment completion directory first reached survived interrupted stopped crash
    provided entropy drawn => ?_, fun directory intent entropy read => ?_⟩
  · obtain ⟨bootable, interruptible⟩ :=
      Interruptible.crash interrupted.interruptible stopped crash
    obtain ⟨_, ended, intent, ⟨initial, synced, bootstrapped, only⟩, kept⟩ :=
      (interruptible.prepare bootable provided drawn).succeeds
    exact ⟨ended, intent, initial, synced, bootstrapped, only,
      fun entry listed => holdsPristine_of_fresh listed (bootstrapped.segments entry listed), kept⟩
  · have meets := @prepareDurableStore_keeps config intent directory entropy read
    refine ⟨fun unfit => ⟨?_, ?_⟩, fun reached member => (meets.passed reached member).2⟩
    · exact List.eq_nil_iff_forall_not_mem.mpr fun reached member =>
        unfit (meets.passed reached member).1
    · cases ended : (prepare entropy directory).result with
      | error error => exact ⟨error, rfl⟩
      | ok value => exact (unfit (meets.done value ended)).elim

/-- A run with just enough space crashes under its intent while it writes the Segment; the
next one has more. -/
theorem bootstrap_resumes_sample :
    (∃ reached ∈ (prepareDurableStore (sampleConfig.under ⟨sampleBytes, none⟩ ⟨sampleBytes, none⟩)
        (.ok sampleStoreId) (Volume.settled ∅)).passed,
      reached.current.lookup .bootstrapIntent = some ⟨true, .manifest sampleCatalog⟩ ∧
      reached.current.lookup (.segmentTemporary 1 1) =
        some ⟨true, .unreadable ⟨.invalidRecord, ""⟩⟩ ∧
      ∀ entropy, (prepareDurableStore sampleConfig entropy
        (Volume.settled reached.current)).result = .ok ()) ∧
      (prepareDurableStore sampleConfig (.ok sampleStoreId)
        (Volume.settled damagedDirectory)).passed = [] := by
  obtain ⟨resumed, refused⟩ := bootstrap_resumes sampleConfig
  refine ⟨?_, ((refused damagedDirectory sampleCatalog _ (by rfl)).1 ?_).1⟩
  · have found : (prepareDurableStore (sampleConfig.under ⟨sampleBytes, none⟩ ⟨sampleBytes, none⟩)
        (.ok sampleStoreId) (Volume.settled ∅)).passed[13]? = some _ := rfl
    refine ⟨_, List.mem_of_getElem? found, rfl, rfl, fun entropy => ?_⟩
    refine (resumed _ _ ∅ _ _ _ (.empty fun name present => absurd (AList.lookup_empty name) present)
      (List.mem_of_getElem? found) (fun name => .inr (.inl rfl)) (sampleConfig_provided _) entropy
      fun unbegun => ?_).1
    exact (unbegun .bootstrapIntent nofun).elim nofun nofun
  · rintro ⟨-, ⟨required, publication⟩, -⟩
    exact nomatch publication

/-- A Segment that the intent does not list is no reason to fail. -/
theorem stray_segment_ignored :
    strayDirectory.readBootstrapIntent sampleConfig.limits.maxManifestBytes = .ok sampleCatalog ∧
      strayDirectory.lookup (.segment 9 1) ≠ none ∧
      (∀ entry ∈ sampleCatalog.segments, entry.name ≠ .segment 9 1) ∧
      ∀ entropy, (prepareDurableStore sampleConfig entropy
        (Volume.settled strayDirectory)).result = .ok () := by
  have begun : Begun sampleCatalog strayDirectory := by
    refine ⟨rfl, .inl rfl, fun entry listed => .inl ?_⟩
    obtain rfl := List.mem_singleton.mp listed
    rfl
  refine ⟨rfl, nofun, fun entry listed => ?_, fun entropy => ?_⟩
  · obtain rfl := List.mem_singleton.mp listed
    exact nofun
  · obtain ⟨_, ended, -⟩ := ((prepareDurableStore_resumes entropy (.inl begun)
      sampleCatalog_initial sampleConfig_bootable).mono (fun _ => id) (fun _ _ => id)
      fun _ _ short => short (sampleConfig_provided _)).succeeds
    exact ended

end GlifiStore
