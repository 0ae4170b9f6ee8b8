import GlifiStore.Persistence.Bootstrap
import GlifiStore.Persistence.Planner

/-!
# Evolution of the catalog

Every published manifest descends from the initial one by rotations and
compactions of any Workers. Along such a history identities are never reused and
the sealed Segments of a Worker stay before its active one.
-/

namespace GlifiStore

open Directory

variable {current next : Manifest} {history : List Manifest}
  {segments replaced : List ManifestSegmentEntry}

/-- One publication: a rotation of a listed Segment, a planned compaction, or the
next manifest of an intent that recovery accepts. -/
inductive CatalogStep (current : Manifest) : Manifest → Prop where
  | rotate {source : ManifestSegmentEntry} {limits : DurableResourceLimits} {next : Manifest}
      (listed : source ∈ current.segments)
      (rotated : rotationManifest current source limits = .ok next) : CatalogStep current next
  | compact {environment : Environment} {workerId outputCount : Nat}
      {limits : DurableResourceLimits} {plan : DurableCompactionPlan}
      (planned : planDurableWorkerCompaction environment current workerId outputCount limits =
        .ok plan) : CatalogStep current plan.nextManifest
  | resume {workerId outputCount : Nat} {next : Manifest}
      (accepted : validateDurableCompactionTransition current next workerId = .ok outputCount) :
      CatalogStep current next

/-- The manifests published so far, newest first. -/
inductive Evolves : List Manifest → Prop where
  | initial {workerCount : Nat} {routing : WorkerRoutingState} {entropy : Result StoreId}
      {manifest : Manifest} (created : initialManifest workerCount routing entropy = .ok manifest) :
      Evolves [manifest]
  | advance {current next : Manifest} {earlier : List Manifest}
      (history : Evolves (current :: earlier)) (step : CatalogStep current next) :
      Evolves (next :: current :: earlier)

def Manifest.identities (manifest : Manifest) : List (Nat × Nat) :=
  manifest.segments.map fun entry => (entry.segmentId, entry.generation)

/-- The sealed Segments of a Worker come before its active one. -/
def Manifest.SealedFirst (manifest : Manifest) : Prop :=
  manifest.segments.Pairwise fun earlier later =>
    earlier.ownerWorker = later.ownerWorker → earlier.role = .active → later.role ≠ .sealed

variable {manifest : Manifest} {worker : Nat}

theorem Manifest.WellFormed.workerSegments_eq (wellFormed : manifest.WellFormed)
    (sealedFirst : manifest.SealedFirst) (inside : worker < manifest.workerCount) :
    ∃ older active, manifest.workerSegments worker = older ++ [active] ∧
      active.role = .active ∧ ∀ entry ∈ older, entry.role = .sealed := by
  obtain ⟨active, listed, role, owner⟩ := wellFormed.active worker inside
  have member : active ∈ manifest.workerSegments worker :=
    List.mem_filter.mpr ⟨listed, decide_eq_true owner⟩
  have owned : ∀ entry ∈ manifest.workerSegments worker, entry.ownerWorker = worker :=
    fun entry member => of_decide_eq_true (List.mem_filter.mp member).2
  have apart := wellFormed.oneActive.filter fun entry => entry.ownerWorker = worker
  have before := sealedFirst.filter fun entry => entry.ownerWorker = worker
  change (manifest.workerSegments worker).Pairwise _ at apart before
  obtain ⟨older, newer, split⟩ := List.append_of_mem member
  rw [split] at owned apart before ⊢
  simp only [List.pairwise_append, List.pairwise_cons, List.forall_mem_cons] at apart before
  -- An entry after the active one could be neither sealed nor active.
  have none : newer = [] := by
    rw [List.eq_nil_iff_forall_not_mem]
    intro entry later
    have same : active.ownerWorker = entry.ownerWorker :=
      owner.trans (owned entry (by simp [later])).symm
    cases entryRole : entry.role with
    | active => exact apart.2.1.1 entry later role entryRole same
    | «sealed» => exact before.2.1.1 entry later same role entryRole
  refine ⟨older, active, by rw [none], role, fun entry earlier => ?_⟩
  have same : entry.ownerWorker = active.ownerWorker :=
    (owned entry (by simp [earlier])).trans owner.symm
  cases entryRole : entry.role with
  | active => exact absurd same ((apart.2.2 entry earlier).1 entryRole role)
  | «sealed» => rfl

/-! ## Replacing the sources -/

/-- The entry stands in the place of one from before, of no later generation. -/
structure ManifestSegmentEntry.Continues (after before : ManifestSegmentEntry) : Prop where
  segmentId : before.segmentId = after.segmentId
  ownerWorker : before.ownerWorker = after.ownerWorker
  role : before.role = after.role
  generation : before.generation ≤ after.generation

theorem ManifestSegmentEntry.continues_self (entry : ManifestSegmentEntry) :
    entry.Continues entry :=
  ⟨rfl, rfl, rfl, Nat.le_refl _⟩

variable {entry : ManifestSegmentEntry}

theorem ManifestSegmentEntry.advance_continues (unexhausted : entry.generation ≠ kUInt32Max) :
    entry.advance.Continues entry := by
  refine ⟨rfl, rfl, rfl, ?_⟩
  have fits := entry.generationFits
  simp only [ManifestSegmentEntry.advance, kUInt32Max] at unexhausted ⊢
  omega

theorem replaceSources_continues {remaining : Nat}
    (accepted : replaceSources worker remaining segments = .ok replaced) :
    List.SublistForall₂ ManifestSegmentEntry.Continues replaced segments := by
  fun_induction replaceSources worker remaining segments generalizing replaced with
  | case1 =>
    cases accepted
    exact .nil
  | case2 remaining entry rest _ ih =>
    obtain ⟨others, tail, rfl⟩ := map_eq_ok.mp accepted
    exact .cons entry.continues_self (ih tail)
  | case3 entry rest _ ih => exact .cons_right (ih accepted)
  | case4 => exact nomatch accepted
  | case5 remaining entry rest _ _ unexhausted ih =>
    obtain ⟨others, tail, rfl⟩ := map_eq_ok.mp accepted
    exact .cons (entry.advance_continues unexhausted) (ih tail)

private theorem exists_of_forall₂ {α β : Type} {relation : α → β → Prop} {left : List α}
    {right : List β} (related : List.Forall₂ relation left right) {value : α}
    (member : value ∈ left) : ∃ image ∈ right, relation value image := by
  induction related with
  | nil => simp at member
  | cons first _ ih =>
    rcases List.mem_cons.mp member with rfl | inside
    · exact ⟨_, List.mem_cons_self, first⟩
    · obtain ⟨image, listed, same⟩ := ih inside
      exact ⟨image, List.mem_cons_of_mem _ listed, same⟩

theorem pairwise_of_continues {relation : ManifestSegmentEntry → ManifestSegmentEntry → Prop}
    (continued : List.SublistForall₂ ManifestSegmentEntry.Continues replaced segments)
    (respects : ∀ {earlier later before after : ManifestSegmentEntry}, earlier.Continues before →
      later.Continues after → relation before after → relation earlier later)
    (related : segments.Pairwise relation) : replaced.Pairwise relation := by
  obtain ⟨kept, places, sublist⟩ := List.sublistForall₂_iff.mp continued
  have remains := related.sublist sublist
  clear related sublist continued
  induction places with
  | nil => exact .nil
  | cons first rest ih =>
    obtain ⟨below, tail⟩ := List.pairwise_cons.mp remains
    refine List.pairwise_cons.mpr ⟨fun later listed => ?_, ih tail⟩
    obtain ⟨after, member, same⟩ := exists_of_forall₂ rest listed
    exact respects first same (below after member)

theorem mem_of_continues
    (continued : List.SublistForall₂ ManifestSegmentEntry.Continues replaced segments)
    (listed : entry ∈ replaced) :
    ∃ before ∈ segments, entry.Continues before := by
  obtain ⟨kept, places, sublist⟩ := List.sublistForall₂_iff.mp continued
  obtain ⟨before, member, same⟩ := exists_of_forall₂ places listed
  exact ⟨before, sublist.subset member, same⟩

variable {workerId count : Nat}

theorem validateDurableCompactionTransition_ok
    (accepted : validateDurableCompactionTransition current next workerId = .ok count) :
    ∃ (segments : List ManifestSegmentEntry)
      (generationLeft : current.manifestGeneration ≠ kUInt64Max),
      replaceSources workerId count current.segments = .ok segments ∧
        next = current.withSegments segments generationLeft ∧ next.WellFormed := by
  revert accepted
  fun_cases validateDurableCompactionTransition current next workerId with
  | case7 valid metadata _ _ _ _ _ segments replaced expected same =>
    intro accepted
    rw [← Except.ok.inj accepted]
    have generationLeft : current.manifestGeneration ≠ kUInt64Max := fun full => metadata (by tauto)
    have advanced : next.manifestGeneration = current.manifestGeneration + 1 := by
      by_contra stays
      exact metadata (by tauto)
    refine ⟨segments, generationLeft, replaced, ?_, ?_⟩
    · rw [← Classical.not_not.mp same]
      simp only [expected, Manifest.withSegments, advanced]
    · exact validateManifest_ok_iff.mp (Classical.byContradiction fun invalid => valid (.inr invalid))
  | _ => rintro ⟨⟩

/-! ## One step -/

structure Manifest.Sound (manifest : Manifest) : Prop where
  wellFormed : manifest.WellFormed
  sealedFirst : manifest.SealedFirst

/-- A later catalog lists no identity below the counter of an earlier one that
the earlier one did not list already, except under a later generation. -/
structure Manifest.Descends (later earlier : Manifest) : Prop where
  counter : earlier.nextSegmentId ≤ later.nextSegmentId
  entries : ∀ entry ∈ later.segments, entry.segmentId < earlier.nextSegmentId →
    ∃ before ∈ earlier.segments, before.segmentId = entry.segmentId ∧
      before.generation ≤ entry.generation

variable {middle : Manifest}

theorem Manifest.Descends.trans {later earlier : Manifest} (last : later.Descends middle)
    (first : middle.Descends earlier) : later.Descends earlier where
  counter := first.counter.trans last.counter
  entries := by
    intro entry listed below
    obtain ⟨between, inside, sameId, atMost⟩ :=
      last.entries entry listed (Nat.lt_of_lt_of_le below first.counter)
    obtain ⟨before, member, same, least⟩ := first.entries between inside (sameId ▸ below)
    exact ⟨before, member, same.trans sameId, least.trans atMost⟩

/-- The next catalog of a step. -/
structure Manifest.Succeeds (next current : Manifest) : Prop where
  sound : next.Sound
  generation : next.manifestGeneration = current.manifestGeneration + 1
  descends : next.Descends current

theorem Manifest.Sound.rotated {source : ManifestSegmentEntry} (sound : current.Sound)
    (listed : source ∈ current.segments) (active : source.role = .active)
    (room : current.segments.length < kMaximumManifestSegmentCount)
    (generationLeft : current.manifestGeneration ≠ kUInt64Max)
    (identityLeft : current.nextSegmentId ≠ kUInt64Max) :
    (current.rotated source generationLeft identityLeft).Succeeds current where
  generation := rfl
  sound :=
    { wellFormed := sound.wellFormed.rotated listed active room
      sealedFirst := by
        simp only [Manifest.SealedFirst, Manifest.rotated, List.pairwise_append, List.pairwise_map,
          sealSource_active, sealSource_ownerWorker, List.pairwise_singleton,
          List.forall_mem_singleton, Manifest.nextEntry, ne_eq, reduceCtorEq,
          not_false_eq_true, implies_true, and_true]
        refine sound.sealedFirst.imp_of_mem fun {earlier later} first second ordered => ?_
        rintro same ⟨role, differs⟩ laterSealed
        by_cases isSource : later.segmentId = source.segmentId
        · -- The later entry is the source itself, so the earlier one was active next to it.
          obtain rfl := sound.wellFormed.eq_of_segmentId second listed isSource
          exact differs (congrArg _ (sound.wellFormed.eq_of_active first listed role active same))
        · rw [sealSource, if_neg isSource] at laterSealed
          exact ordered same role laterSealed }
  descends :=
    { counter := Nat.le_succ _
      entries := by
        intro entry member below
        rcases List.mem_append.mp member with kept | fresh
        · obtain ⟨before, inside, rfl⟩ := List.mem_map.mp kept
          exact ⟨before, inside, by simp, by simp⟩
        · rw [List.mem_singleton.mp fresh] at below
          exact absurd below (Nat.lt_irrefl _) }

theorem Manifest.Sound.compacted (sound : current.Sound)
    (accepted : validateDurableCompactionTransition current next workerId = .ok count) :
    next.Succeeds current := by
  obtain ⟨segments, generationLeft, replaced, rfl, wellFormed⟩ :=
    validateDurableCompactionTransition_ok accepted
  have continued := replaceSources_continues replaced
  refine
    { generation := rfl
      sound := ⟨wellFormed, ?_⟩
      descends := ⟨Nat.le_refl _, fun entry listed _ => ?_⟩ }
  · refine pairwise_of_continues continued (fun first second ordered same role => ?_)
      sound.sealedFirst
    rw [← second.role]
    exact ordered (first.ownerWorker.trans (same.trans second.ownerWorker.symm))
      (first.role.trans role)
  · obtain ⟨before, member, same⟩ := mem_of_continues continued listed
    exact ⟨before, member, same.segmentId, same.generation⟩

theorem CatalogStep.succeeds (sound : current.Sound) (step : CatalogStep current next) :
    next.Succeeds current := by
  cases step with
  | rotate listed rotated =>
    have active := rotationManifest_active sound.wellFormed listed rotated
    obtain ⟨generationLeft, identityLeft, notFull, -, rfl⟩ :=
      (rotationManifest_ok sound.wellFormed listed active).mp rotated
    exact sound.rotated listed active (Nat.lt_of_le_of_ne sound.wellFormed.bounded notFull) _ _
  | compact planned => exact sound.compacted (planDurableWorkerCompaction_ok planned)
  | resume accepted => exact sound.compacted accepted

/-! ## Whole histories -/

theorem initialManifest_sound {workerCount : Nat} {routing : WorkerRoutingState}
    {entropy : Result StoreId}
    (created : initialManifest workerCount routing entropy = .ok manifest) : manifest.Sound := by
  obtain ⟨storeId, supported, rfl, wellFormed⟩ := initialManifest_ok created
  exact ⟨wellFormed, initialCatalog_pairwise fun _ _ _ _ _ _ _ => nofun⟩

theorem Evolves.sound (evolved : Evolves history) : ∀ manifest ∈ history, manifest.Sound := by
  induction evolved with
  | initial created => simpa using initialManifest_sound created
  | advance _ step ih =>
    exact List.forall_mem_cons.mpr ⟨(step.succeeds (ih _ List.mem_cons_self)).sound, ih⟩

theorem Evolves.chain (evolved : Evolves history) : history.IsChain Manifest.Succeeds := by
  induction evolved with
  | initial _ => exact .singleton _
  | advance history step ih =>
    exact .cons_cons (step.succeeds (history.sound _ List.mem_cons_self)) ih

theorem Evolves.descends (evolved : Evolves history) : history.Pairwise Manifest.Descends := by
  have : IsTrans Manifest Manifest.Descends := ⟨fun _ _ _ => Manifest.Descends.trans⟩
  exact (evolved.chain.imp fun _ _ step => step.descends).pairwise

theorem Manifest.Descends.identity_mem {last first : Manifest} (sound : first.WellFormed)
    (lastMiddle : last.Descends middle) (middleFirst : middle.Descends first) {identity : Nat × Nat}
    (listed : identity ∈ first.identities) (again : identity ∈ last.identities) :
    identity ∈ middle.identities := by
  obtain ⟨oldest, oldestListed, rfl⟩ := List.mem_map.mp listed
  obtain ⟨newest, newestListed, same⟩ := List.mem_map.mp again
  obtain ⟨sameId, sameGeneration⟩ := Prod.mk.inj same
  have below : oldest.segmentId < first.nextSegmentId := sound.next oldest oldestListed
  obtain ⟨between, inside, betweenId, atMost⟩ := lastMiddle.entries newest newestListed
    (sameId ▸ Nat.lt_of_lt_of_le below middleFirst.counter)
  obtain ⟨before, member, beforeId, atLeast⟩ := middleFirst.entries between inside
    (betweenId ▸ sameId ▸ below)
  -- The entry of the first catalog is unique, so the generation between is pinned.
  obtain rfl := sound.eq_of_segmentId member oldestListed
    (beforeId.trans (betweenId.trans sameId))
  exact List.mem_map.mpr ⟨between, inside, Prod.ext (betweenId.trans sameId)
    (Nat.le_antisymm (sameGeneration ▸ atMost) atLeast)⟩

/-- Over every history of rotations and compactions, each manifest is valid, ends
the recovery order of each Worker with its only active Segment, advances the
generation by one and never takes the identity counter back; an identity that
leaves the catalog does not return. -/
theorem manifest_evolution {history : List Manifest} (evolved : Evolves history) :
    (∀ manifest ∈ history,
      validateManifest manifest .corruptedData = .ok () ∧
      (∀ entry ∈ manifest.segments, entry.segmentId < manifest.nextSegmentId) ∧
      ∀ worker < manifest.workerCount, ∃ older active,
        manifest.workerSegments worker = older ++ [active] ∧ active.role = .active ∧
          ∀ entry ∈ older, entry.role = .sealed) ∧
    history.IsChain (fun next current =>
      next.manifestGeneration = current.manifestGeneration + 1 ∧
        current.nextSegmentId ≤ next.nextSegmentId) ∧
    ∀ last middle first, [last, middle, first].Sublist history →
      ∀ identity ∈ first.identities, identity ∈ last.identities →
        identity ∈ middle.identities := by
  refine ⟨fun manifest listed => ?_, ?_, fun last middle first within identity listed again => ?_⟩
  · have sound := evolved.sound manifest listed
    exact ⟨validateManifest_ok_iff.mpr sound.wellFormed, sound.wellFormed.next,
      fun _ inside => sound.wellFormed.workerSegments_eq sound.sealedFirst inside⟩
  · exact evolved.chain.imp fun _ _ step => ⟨step.generation, step.descends.counter⟩
  · have related := evolved.descends.sublist within
    simp only [List.pairwise_cons, List.forall_mem_cons] at related
    have sound := evolved.sound first (within.subset (by simp))
    exact related.1.1.identity_mem sound.wellFormed related.2.1.1 listed again

/-! ## A short history -/

def firstCatalog : Manifest :=
  initialCatalog 1 ⟨.fnv1a64V1, 0⟩ ⟨List.replicate 16 1, length_ones⟩ (by decide)

def secondCatalog : Manifest :=
  firstCatalog.rotated (initialEntry 0 (by decide)) (by decide) (by decide)

theorem zero_lt_workers : 0 < kMaximumWorkerCount := by decide

theorem secondCatalog_continues : secondCatalog.manifestGeneration ≠ kUInt64Max := by decide

def thirdCatalog : Manifest :=
  secondCatalog.withSegments [firstCatalog.nextEntry (initialEntry 0 zero_lt_workers)]
    secondCatalog_continues

theorem manifest_evolution_compacted :
    Evolves [thirdCatalog, secondCatalog, firstCatalog] ∧
      (1, 1) ∈ firstCatalog.identities ∧ (1, 1) ∉ thirdCatalog.identities ∧
      validateManifest thirdCatalog .corruptedData = .ok () := by
  obtain ⟨plan, planned, next⟩ := map_eq_ok.mp
    (show (planDurableWorkerCompaction ⟨2 ^ 40, none⟩ secondCatalog 0 0 roomyLimits).map
      DurableCompactionPlan.nextManifest = .ok thirdCatalog by decide +kernel)
  have evolved : Evolves [thirdCatalog, secondCatalog, firstCatalog] :=
    .advance
      (.advance (.initial (show initialManifest 1 ⟨.fnv1a64V1, 0⟩
          (.ok ⟨List.replicate 16 1, rfl⟩) = .ok firstCatalog from rfl))
        (.rotate (show initialEntry 0 (by decide) ∈ firstCatalog.segments by decide)
          (show rotationManifest firstCatalog _ roomyLimits = .ok secondCatalog from rfl)))
      (next ▸ .compact planned)
  exact ⟨evolved, by decide, by decide,
    ((manifest_evolution evolved).1 thirdCatalog List.mem_cons_self).1⟩

end GlifiStore
