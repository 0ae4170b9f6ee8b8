import GlifiStore.Persistence.Evolution

/-!
# What the transition validator accepts

The validator accepts exactly the catalogs that the planner builds. The planner
returns one of them when its resources suffice, which they never do for as many
outputs as sources.
-/

namespace GlifiStore

variable {workerId count : Nat} {current : Manifest}

section Replacement

variable {worker remaining : Nat} {segments replaced : List ManifestSegmentEntry}

def sealedOf (worker : Nat) (segments : List ManifestSegmentEntry) : List ManifestSegmentEntry :=
  segments.filter fun entry => entry.ownerWorker = worker ∧ entry.role = .sealed

theorem sealedOf_cons {entry : ManifestSegmentEntry} {rest : List ManifestSegmentEntry}
    (source : ¬ (entry.ownerWorker ≠ worker ∨ entry.role ≠ .sealed)) :
    sealedOf worker (entry :: rest) = entry :: sealedOf worker rest ∧ entry.role ≠ .active := by
  simp only [not_or, ne_eq, not_not] at source
  exact ⟨List.filter_cons_of_pos (by simpa using source), by rw [source.2]; exact nofun⟩

theorem replaceSources_spec (accepted : replaceSources worker remaining segments = .ok replaced) :
    replaced.length + (sealedOf worker segments).length =
        segments.length + min remaining (sealedOf worker segments).length ∧
      ∀ entry ∈ segments, entry.role = .active → entry ∈ replaced := by
  fun_induction replaceSources worker remaining segments generalizing replaced with
  | case1 =>
    cases accepted
    exact ⟨by simp [sealedOf], by simp⟩
  | case2 remaining entry rest other ih =>
    obtain ⟨others, tail, rfl⟩ := map_eq_ok.mp accepted
    obtain ⟨length, kept⟩ := ih tail
    have skipped : sealedOf worker (entry :: rest) = sealedOf worker rest :=
      List.filter_cons_of_neg (by simpa [or_iff_not_imp_left] using other)
    refine ⟨by rw [skipped, List.length_cons, List.length_cons]; omega, ?_⟩
    rintro listed (_ | ⟨_, member⟩) active
    · exact List.mem_cons_self
    · exact List.mem_cons_of_mem _ (kept listed member active)
  | case3 entry rest source ih =>
    obtain ⟨length, kept⟩ := ih accepted
    obtain ⟨counted, passive⟩ := sealedOf_cons source
    refine ⟨by rw [counted, List.length_cons, List.length_cons]; omega, ?_⟩
    rintro listed (_ | ⟨_, member⟩) active
    · exact absurd active passive
    · exact kept listed member active
  | case4 => cases accepted
  | case5 remaining entry rest source _ _ ih =>
    obtain ⟨others, tail, rfl⟩ := map_eq_ok.mp accepted
    obtain ⟨length, kept⟩ := ih tail
    obtain ⟨counted, passive⟩ := sealedOf_cons source
    refine ⟨by rw [counted, List.length_cons, List.length_cons, List.length_cons]; omega, ?_⟩
    rintro listed (_ | ⟨_, member⟩) active
    · exact absurd active passive
    · exact List.mem_cons_of_mem _ (kept listed member active)

end Replacement

theorem Manifest.WellFormed.withSegments {segments : List ManifestSegmentEntry}
    (wellFormed : current.WellFormed) (generationLeft : current.manifestGeneration ≠ kUInt64Max)
    (replaced : replaceSources workerId count current.segments = .ok segments) :
    (current.withSegments segments generationLeft).WellFormed := by
  have continued := replaceSources_continues replaced
  obtain ⟨length, kept⟩ := replaceSources_spec replaced
  have fewer : segments.length ≤ current.segments.length := by omega
  exact
    { wellFormed with
      generation := Nat.succ_ne_zero _
      bounded := fewer.trans wellFormed.bounded
      nonzero := fun entry listed => by
        obtain ⟨before, member, same⟩ := mem_of_continues continued listed
        obtain ⟨identified, generated⟩ := wellFormed.nonzero before member
        have grown := same.generation
        exact ⟨same.segmentId ▸ identified, by omega⟩
      ordered := pairwise_of_continues continued
        (fun first second ordered => first.segmentId ▸ second.segmentId ▸ ordered) wellFormed.ordered
      owned := fun entry listed => by
        obtain ⟨before, member, same⟩ := mem_of_continues continued listed
        exact same.ownerWorker ▸ wellFormed.owned before member
      oneActive := pairwise_of_continues continued
        (fun first second apart => by
          rw [← first.role, ← second.role, ← first.ownerWorker, ← second.ownerWorker]
          exact apart) wellFormed.oneActive
      active := fun worker inside => by
        obtain ⟨entry, member, role, owner⟩ := wellFormed.active worker inside
        exact ⟨entry, kept entry member role, role, owner⟩
      next := fun entry listed => by
        obtain ⟨before, member, same⟩ := mem_of_continues continued listed
        exact same.segmentId ▸ wellFormed.next before member }

/-- The validator accepts exactly the catalog that the planner builds for the
count it reports. -/
theorem validateDurableCompactionTransition_iff {next : Manifest} :
    validateDurableCompactionTransition current next workerId = .ok count ↔
      current.WellFormed ∧ workerId < current.workerCount ∧
        compactionSources current workerId ≠ [] ∧
        count ≤ (compactionSources current workerId).length ∧
        ∃ (segments : List ManifestSegmentEntry)
          (generationLeft : current.manifestGeneration ≠ kUInt64Max),
          replaceSources workerId count current.segments = .ok segments ∧
            next = current.withSegments segments generationLeft := by
  constructor
  · intro accepted
    obtain ⟨segments, generationLeft, replaced, same, -⟩ :=
      validateDurableCompactionTransition_ok accepted
    revert accepted
    fun_cases validateDurableCompactionTransition current next workerId with
    | case7 valid metadata sources sized _ _ outputCount =>
      intro accepted
      obtain rfl := Except.ok.inj accepted
      refine ⟨?_, by omega, fun none => sized (.inl (congrArg List.length none)), ?_, segments,
        generationLeft, replaced, same⟩
      · exact validateManifest_ok_iff.mp (Classical.byContradiction fun invalid => valid (.inl invalid))
      · have total : sources.length ≤ current.segments.length := List.length_filter_le _ _
        change next.segments.length - (current.segments.length - sources.length) ≤ sources.length
        omega
    | _ => rintro ⟨⟩
  · rintro ⟨wellFormed, inside, filled, fits, segments, generationLeft, replaced, rfl⟩
    have built := wellFormed.withSegments generationLeft replaced
    have length := (replaceSources_spec replaced).1
    have total : (compactionSources current workerId).length ≤ current.segments.length :=
      List.length_filter_le _ _
    rw [show sealedOf workerId current.segments = compactionSources current workerId from rfl,
      Nat.min_eq_left fits] at length
    have some : (compactionSources current workerId).length ≠ 0 :=
      fun none => filled (List.length_eq_zero_iff.mp none)
    have outputs : (current.withSegments segments generationLeft).segments.length -
        (current.segments.length - (compactionSources current workerId).length) = count := by
      simp only [Manifest.withSegments]
      omega
    unfold validateDurableCompactionTransition
    rw [if_neg (by simp [validateManifest_ok_iff.mpr wellFormed, validateManifest_ok_iff.mpr built]),
      if_neg (by simp [Manifest.withSegments, generationLeft, inside])]
    simp only [outputs, replaced]
    rw [if_neg (by simp only [Manifest.withSegments]; omega),
      if_neg (by simp only [Manifest.withSegments]; omega), if_neg (by simp [Manifest.withSegments])]

def Affordable (environment : Environment) (current next : Manifest) (workerId outputCount : Nat)
    (limits : DurableResourceLimits) : Prop :=
  validateDurableManifestResources environment current limits = .ok () ∧
  validateCompactionWriteAmplification (compactionSources current workerId).length outputCount
    limits = .ok () ∧
  ∃ estimate, estimateCompactionResources current next (compactionSources current workerId).length
    outputCount = .ok estimate ∧ validateCompactionResources estimate limits = .ok ()

/-- The planner returns the catalog of an accepted transition exactly when its
resources suffice. -/
theorem planDurableWorkerCompaction_iff {next : Manifest}
    (accepted : validateDurableCompactionTransition current next workerId = .ok count)
    (environment : Environment) (limits : DurableResourceLimits) :
    (∃ plan, planDurableWorkerCompaction environment current workerId count limits = .ok plan ∧
        plan.nextManifest = next) ↔
      Affordable environment current next workerId count limits := by
  obtain ⟨wellFormed, inside, filled, fits, segments, generationLeft, replaced, rfl⟩ :=
    validateDurableCompactionTransition_iff.mp accepted
  have built := wellFormed.withSegments generationLeft replaced
  have sized : ∃ size, encodedManifestSize (current.withSegments segments generationLeft) =
      .ok size := by
    rw [encodedManifestSize, validateManifest_ok_iff.mpr built]
    exact ⟨_, manifestSizeForCount_eq_ok built.bounded⟩
  obtain ⟨size, sized⟩ := sized
  simp only [planDurableWorkerCompaction, Affordable, checkPlan, bind_eq_ok,
    if_neg (Nat.not_le.mpr inside), dif_neg generationLeft, if_neg filled, gt_iff_lt,
    if_neg (Nat.not_lt.mpr fits), replaced, sized, accepted, Except.ok.injEq, exists_eq_left',
    ne_eq, not_true_eq_false, if_false]
  constructor
  · rintro ⟨plan, ⟨_, resources, _, amplification, estimate, estimated, _, affordable, -⟩, -⟩
    exact ⟨resources, amplification, estimate, estimated, affordable⟩
  · rintro ⟨resources, amplification, estimate, estimated, affordable⟩
    exact ⟨_, ⟨_, resources, _, amplification, estimate, estimated, _, affordable, rfl⟩, rfl⟩

theorem count_of_validated {outputCount : Nat} {segments : List ManifestSegmentEntry}
    {generationLeft : current.manifestGeneration ≠ kUInt64Max}
    (fits : outputCount ≤ (compactionSources current workerId).length)
    (replaced : replaceSources workerId outputCount current.segments = .ok segments)
    (accepted : validateDurableCompactionTransition current
      (current.withSegments segments generationLeft) workerId = .ok count) :
    count = outputCount := by
  obtain ⟨-, -, -, counted, others, _, again, same⟩ :=
    validateDurableCompactionTransition_iff.mp accepted
  obtain rfl : segments = others := congrArg Manifest.segments same
  have built := (replaceSources_spec replaced).1
  have checked := (replaceSources_spec again).1
  rw [show sealedOf workerId current.segments = compactionSources current workerId from rfl]
    at built checked
  omega

/-- A compaction that reclaims nothing is refused, whatever the limits. -/
theorem validateCompactionWriteAmplification_all (some : count ≠ 0) (limits : DurableResourceLimits) :
    validateCompactionWriteAmplification count count limits ≠ .ok () := by
  have none : compactionSegmentBytes (count - count) "compaction reclaimed byte count overflow" =
      .ok 0 := by
    rw [Nat.sub_self]
    simp [compactionSegmentBytes, checkedMultiply]
  unfold validateCompactionWriteAmplification
  cases temporary : compactionSegmentBytes count "compaction temporary byte count overflow" with
  | error error => simp
  | ok bytes =>
    have filled : bytes ≠ 0 := by
      revert temporary
      unfold compactionSegmentBytes checkedMultiply
      split
      · simp [fail]
      · rintro ⟨⟩
        simp [some, kSegmentSizeBytes]
    simp only [none, if_neg filled]
    simp [fail]

/-- The catalog that the planner builds is accepted under its output count, so its
check of the count never fails; an accepted catalog is the one the planner builds
for the reported count, and is planned exactly when the resources suffice. -/
theorem compaction_transition_exact :
    (∀ (current : Manifest) (workerId outputCount : Nat) (segments : List ManifestSegmentEntry)
        (generationLeft : current.manifestGeneration ≠ kUInt64Max),
      current.WellFormed → workerId < current.workerCount →
      compactionSources current workerId ≠ [] →
      outputCount ≤ (compactionSources current workerId).length →
      replaceSources workerId outputCount current.segments = .ok segments →
      validateDurableCompactionTransition current (current.withSegments segments generationLeft)
        workerId = .ok outputCount) ∧
    (∀ (current : Manifest) (workerId outputCount count : Nat)
        (segments : List ManifestSegmentEntry)
        (generationLeft : current.manifestGeneration ≠ kUInt64Max),
      outputCount ≤ (compactionSources current workerId).length →
      replaceSources workerId outputCount current.segments = .ok segments →
      validateDurableCompactionTransition current (current.withSegments segments generationLeft)
        workerId = .ok count → ¬ count ≠ outputCount) ∧
    (∀ (current next : Manifest) (workerId count : Nat),
      validateDurableCompactionTransition current next workerId = .ok count →
      (∃ (segments : List ManifestSegmentEntry)
        (generationLeft : current.manifestGeneration ≠ kUInt64Max),
        replaceSources workerId count current.segments = .ok segments ∧
          next = current.withSegments segments generationLeft) ∧
      ∀ (environment : Environment) (limits : DurableResourceLimits),
        (∃ plan, planDurableWorkerCompaction environment current workerId count limits = .ok plan ∧
          plan.nextManifest = next) ↔
        Affordable environment current next workerId count limits) := by
  refine ⟨fun current workerId outputCount segments generationLeft wellFormed inside filled fits
    replaced => ?_, fun current workerId outputCount count segments generationLeft fits replaced
    accepted wrong => wrong (count_of_validated fits replaced accepted),
    fun current next workerId count accepted => ⟨?_, planDurableWorkerCompaction_iff accepted⟩⟩
  · exact validateDurableCompactionTransition_iff.mpr
      ⟨wellFormed, inside, filled, fits, segments, generationLeft, replaced, rfl⟩
  · exact (validateDurableCompactionTransition_iff.mp accepted).2.2.2.2

theorem compaction_transition_exact_dropped :
    Affordable ⟨2 ^ 40, none⟩ secondCatalog thirdCatalog 0 0 roomyLimits := by
  have accepted : validateDurableCompactionTransition secondCatalog thirdCatalog 0 = .ok 0 := rfl
  exact ((compaction_transition_exact.2.2 _ _ _ _ accepted).2 _ _).mp
    (map_eq_ok.mp (by decide +kernel))

/-- The second catalog with its sealed Segment under the next generation. -/
def regenerated : Manifest :=
  secondCatalog.withSegments
    [(sealSource (initialEntry 0 zero_lt_workers) (initialEntry 0 zero_lt_workers)).advance,
      firstCatalog.nextEntry (initialEntry 0 zero_lt_workers)] secondCatalog_continues

/-- As many outputs as sources are accepted, but no plan has them. -/
theorem regenerated_never_planned :
    validateDurableCompactionTransition secondCatalog regenerated 0 = .ok 1 ∧
    ∀ environment outputCount limits plan,
      planDurableWorkerCompaction environment secondCatalog 0 outputCount limits = .ok plan →
        plan.nextManifest ≠ regenerated := by
  have accepted : validateDurableCompactionTransition secondCatalog regenerated 0 = .ok 1 := rfl
  refine ⟨accepted, fun environment outputCount limits plan planned same => ?_⟩
  have counted := planDurableWorkerCompaction_ok planned
  rw [same] at counted
  obtain rfl := Except.ok.inj (accepted.symm.trans counted)
  have affordable := (planDurableWorkerCompaction_iff accepted environment limits).mp
    ⟨plan, planned, same⟩
  exact validateCompactionWriteAmplification_all (by decide) limits affordable.2.1

end GlifiStore
