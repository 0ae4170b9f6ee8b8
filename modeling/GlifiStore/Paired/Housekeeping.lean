import GlifiStore.Lib.Runs
import GlifiStore.Paired.Admission

/-!
# The writer's merges

The writer publishes with its merge, starts one only when it has none, and drops it when a
quantum or the end of it fails. Merges that are given up leave their arena in the newest
delta, so a batch that `can_publish_incremental` admits may still be refused.
-/

namespace GlifiStore

open ByteLayout OpenAddressing ReadTable CopyOnWrite ReadLane

inductive WriterAction where
  | publish (mutations : List ReadMutation)
  | startMerge (maximumPostEntries : Nat) (raw : RawStorage)
  | advanceMerge (maximumSlots : Nat)
  | finishMerge
  /-- A quantum of the merge or its end ran out of memory. -/
  | abandonMerge
  | replaceSnapshot (records : List PublishedReadRecord) (raw : RawStorage)

def WriterAction.Valid (hash : Key → UInt64) : WriterAction → Prop
  | .replaceSnapshot records _ => ImmutableReadIndex.SnapshotValid hash records
  | _ => True

namespace ReadLane

variable (hash : Key → UInt64)

def dropMerge (lane : ReadLane) : ReadLane :=
  { lane with merge := none }

/-- One action of the writer, as `combiner_housekeeping` and the writer's loop take it. -/
def act (lane : ReadLane) : WriterAction → ReadLane × Status
  | .publish mutations => lane.step hash (.publish mutations true)
  | .startMerge maximumPostEntries raw =>
    if lane.merge.isSome then (lane, .ok ())
    else lane.step hash (.startMerge maximumPostEntries raw)
  | .advanceMerge maximumSlots =>
    match lane.step hash (.advanceMerge maximumSlots) with
    | (next, .error error) => (next.dropMerge, .error error)
    | (next, .ok ()) => (next, .ok ())
  | .finishMerge =>
    -- An error gives the merge up, and a success has no more use for it.
    let (next, status) := lane.step hash .finishMerge
    (next.dropMerge, status)
  | .abandonMerge => (lane.dropMerge, .ok ())
  | .replaceSnapshot records raw =>
    match lane.step hash (.replaceSnapshot records raw) with
    | (next, .error error) => (next, .error error)
    | (next, .ok ()) => (next.dropMerge, .ok ())

def acts (lane : ReadLane) (actions : List WriterAction) : ReadLane :=
  Runs.run (fun lane action => (lane.act hash action).1) lane actions

/-- The lane is sound, and its merge follows the newest generation. -/
structure Kept (lane : ReadLane) : Prop where
  sound : lane.Sound hash
  current : ∀ merge ∈ lane.merge, merge.current = lane.number

end ReadLane

/-! ## Runs of the writer -/

variable {hash : Key → UInt64} {lane : ReadLane}

namespace ReadLane

namespace Kept

theorem publish_current (kept : lane.Kept hash) (mutations : List ReadMutation) :
    ∀ merge ∈ (lane.publish hash mutations true).1.merge,
      merge.current = (lane.publish hash mutations true).1.number := by
  obtain ⟨history, tracked⟩ := kept.sound.tracked
  unfold publish
  simp only [if_true]
  rcases done : publishIncremental hash lane.heap lane.newest lane.number mutations lane.merge
    with ⟨heap, outcome⟩
  obtain ⟨-, -, publishes⟩ := publishIncremental_sound tracked.heap tracked.newest.valid.delta
    (fun active stands => (tracked.merge active stands).post) done
  cases outcome with
  | error error => exact kept.current
  | ok published =>
    cases published with
    | none => exact kept.current
    | some published =>
      obtain ⟨next, post⟩ := published
      obtain ⟨-, -, published⟩ := publishes next post rfl
      have both := published.postOverrides
      cases stands : lane.merge with
      | none => exact nofun
      | some active =>
        rw [stands] at both
        cases post with
        | none => exact nomatch both
        | some state =>
          rintro _ ⟨⟩
          rfl

end Kept

theorem Sound.dropMerge (sound : lane.Sound hash) : lane.dropMerge.Kept hash :=
  ⟨sound.step (show LaneAction.Valid hash .dropMerge from trivial), nofun⟩

namespace Kept

theorem startMerge_current (kept : lane.Kept hash) (maximumPostEntries : Nat) (raw : RawStorage) :
    ∀ merge ∈ (lane.step hash (.startMerge maximumPostEntries raw)).1.merge,
      merge.current = (lane.step hash (.startMerge maximumPostEntries raw)).1.number := by
  rcases done : startIncrementalMerge lane.heap lane.newest lane.number maximumPostEntries raw
    with ⟨heap, outcome⟩
  simp only [step, done]
  cases outcome with
  | error error => exact kept.current
  | ok merge =>
    rintro _ ⟨⟩
    exact (startIncrementalMerge_measured kept.sound.measured.base kept.sound.measured.delta done).2

theorem advanceMerge_current (kept : lane.Kept hash) (maximumSlots : Nat) :
    ∀ merge ∈ (lane.step hash (.advanceMerge maximumSlots)).1.merge,
      merge.current = (lane.step hash (.advanceMerge maximumSlots)).1.number := by
  obtain ⟨history, tracked⟩ := kept.sound.tracked
  cases stands : lane.merge with
  | none =>
    simp only [step, stands]
    exact nofun
  | some active =>
    have advances := PairReadMerge.advance_sound tracked.heap (tracked.merge active stands).sound
      maximumSlots
    have current : (active.advance lane.heap maximumSlots).1.current = lane.number :=
      advances.current.trans (kept.current active stands)
    rcases done : active.advance lane.heap maximumSlots with ⟨after, outcome⟩
    rw [done] at current
    simp only [step, stands, done]
    cases outcome <;>
    · rintro _ ⟨⟩
      exact current

theorem act (kept : lane.Kept hash) {action : WriterAction} (valid : action.Valid hash) :
    (lane.act hash action).1.Kept hash := by
  have stepped : ∀ action : LaneAction, action.Valid hash →
      (lane.step hash action).1.Sound hash := fun action valid => kept.sound.step valid
  cases action with
  | publish mutations => exact ⟨stepped _ trivial, kept.publish_current mutations⟩
  | startMerge maximumPostEntries raw =>
    unfold ReadLane.act
    dsimp only
    split
    · exact kept
    · exact ⟨stepped _ trivial, kept.startMerge_current maximumPostEntries raw⟩
  | advanceMerge maximumSlots =>
    have next : (lane.step hash (.advanceMerge maximumSlots)).1.Kept hash :=
      ⟨stepped _ trivial, kept.advanceMerge_current maximumSlots⟩
    unfold ReadLane.act
    dsimp only
    rcases done : lane.step hash (.advanceMerge maximumSlots) with ⟨after, error | ok⟩
    · rw [done] at next
      exact next.sound.dropMerge
    · rw [done] at next
      exact next
  | finishMerge => exact (stepped .finishMerge trivial).dropMerge
  | abandonMerge => exact kept.sound.dropMerge
  | replaceSnapshot records raw =>
    have next := stepped (.replaceSnapshot records raw) valid
    unfold ReadLane.act
    dsimp only
    rcases done : lane.step hash (.replaceSnapshot records raw) with ⟨after, error | ok⟩
    · rw [done] at next
      refine ⟨next, ?_⟩
      rcases replaced : replaceDurableSnapshot lane.heap lane.newest records raw with ⟨heap, _ | _⟩
      · simp only [step, replaced] at done
        obtain ⟨rfl, -⟩ := Prod.mk.inj done
        exact kept.current
      · simp only [step, replaced] at done
        exact nomatch (Prod.mk.inj done).2
    · rw [done] at next
      exact next.dropMerge

theorem acts (kept : lane.Kept hash) {actions : List WriterAction}
    (valid : ∀ action ∈ actions, action.Valid hash) : (lane.acts hash actions).Kept hash := by
  induction actions generalizing lane with
  | nil => exact kept
  | cons action rest ih =>
    exact ih (kept.act (valid action List.mem_cons_self))
      fun other member => valid other (List.mem_cons_of_mem _ member)

end Kept

end ReadLane

theorem openReadLane_kept {records : List PublishedReadRecord}
    {raw : RawStorage} (valid : ImmutableReadIndex.SnapshotValid hash records)
    (opened : openReadLane records raw = .ok lane) : lane.Kept hash := by
  refine ⟨openReadLane_sound valid opened, ?_⟩
  obtain ⟨heap, generation, -, rfl⟩ := openReadLane_built opened
  exact nofun

/-! ## Admitted batches -/

/-- A batch of the lane is not refused for anything but its size: an epoch is left, and the
newest delta has the arena of the merge already or has only one. -/
def ReadLane.TakesMerge (lane : ReadLane) : Prop :=
  lane.newest.epoch < kMaximumEpoch ∧
    ∀ merge ∈ lane.merge, lane.newest.delta.Joins merge.postDelta.allocationArena

instance (lane : ReadLane) : Decidable lane.TakesMerge :=
  inferInstanceAs (Decidable (_ ∧ ∀ merge ∈ lane.merge, _))

theorem ReadLane.publish_ok_iff {mutations : List ReadMutation} :
    (lane.act hash (.publish mutations)).2 = .ok () ↔
      ∃ published, (publishIncremental hash lane.heap lane.newest lane.number mutations
        lane.merge).2 = .ok published := by
  show (lane.publish hash mutations true).2 = .ok () ↔ _
  unfold publish
  simp only [if_true]
  rcases done : publishIncremental hash lane.heap lane.newest lane.number mutations lane.merge
    with ⟨heap, outcome⟩
  cases outcome with
  | error error =>
    refine ⟨fun same => (nomatch same), ?_⟩
    rintro ⟨published, same⟩
    exact nomatch same
  | ok published =>
    refine ⟨fun _ => ⟨published, rfl⟩, fun _ => ?_⟩
    obtain _ | ⟨next, post⟩ := published
    · rfl
    · dsimp only
      split <;> rfl

theorem ReadMutation.wellFormed_erase : ReadMutation.WellFormed hash
    { key := [], record := ⟨0, 0, 0, 0, 0⟩, opcode := .erase } := by
  refine ⟨?_, Nat.zero_le _⟩
  simp [Publication.checkMutation]

theorem ReadLane.Kept.publishes_iff (kept : lane.Kept hash) {count : Nat}
    (few : count ≤ kMaximumPublicationBatch)
    (admitted : canPublishIncremental lane.heap lane.newest lane.merge count = true) :
    (∀ mutations : List ReadMutation, mutations.length ≤ count →
      (∀ mutation ∈ mutations, mutation.WellFormed hash) →
      (lane.act hash (.publish mutations)).2 = .ok ()) ↔ count = 0 ∨ lane.TakesMerge := by
  obtain ⟨history, tracked⟩ := kept.sound.tracked
  have measured := kept.sound.measured
  have exactly : ∀ mutations : List ReadMutation, mutations ≠ [] → mutations.length ≤ count →
      (∀ mutation ∈ mutations, mutation.WellFormed hash) →
      ((lane.act hash (.publish mutations)).2 = .ok () ↔ lane.TakesMerge) := by
    intro mutations nonempty short wellFormed
    rw [publish_ok_iff]
    exact publishIncremental_ok_iff tracked.heap tracked.newest.valid.delta
      (fun active stands => (tracked.merge active stands).post) measured.delta measured.merge
      kept.current wellFormed nonempty (short.trans few)
      (canPublishIncremental_mono short admitted)
  constructor
  · intro publishes
    by_cases none : count = 0
    · exact .inl none
    · obtain ⟨erase, erases⟩ : ∃ erase : ReadMutation, erase.WellFormed hash :=
        ⟨_, ReadMutation.wellFormed_erase⟩
      have short : [erase].length ≤ count := Nat.one_le_iff_ne_zero.mpr none
      have wellFormed : ∀ mutation ∈ [erase], mutation.WellFormed hash := by
        rintro _ (_ | ⟨_, ⟨⟩⟩)
        exact erases
      have nonempty : [erase] ≠ [] := nofun
      exact .inr ((exactly [erase] nonempty short wellFormed).mp (publishes _ short wellFormed))
  · rintro takes mutations short wellFormed
    by_cases empty : mutations = []
    · subst empty
      rw [publish_ok_iff]
      refine ⟨none, ?_⟩
      unfold publishIncremental
      rw [if_neg, if_pos rfl]
      rintro (many | other)
      · exact absurd many (by decide)
      · cases stands : lane.merge with
        | none =>
          rw [stands] at other
          exact nomatch other
        | some active =>
          rw [stands] at other
          exact of_decide_eq_true other (kept.current active stands)
    · have length := List.length_pos_iff.mpr empty
      exact (exactly mutations empty short wellFormed).mpr (takes.resolve_left (by omega))

/-- In every run of the writer: if a number of mutations is admitted, all batches of at most
so many well-formed mutations are published, exactly if the newest delta takes the arena of
the merge and there is an epoch left. -/
theorem admitted_batches_published {records : List PublishedReadRecord} {raw : RawStorage}
    {lane : ReadLane} (snapshot : ImmutableReadIndex.SnapshotValid hash records)
    (opened : openReadLane records raw = .ok lane) (actions : List WriterAction)
    (valid : ∀ action ∈ actions, action.Valid hash) {count : Nat}
    (few : count ≤ kMaximumPublicationBatch)
    (admitted : canPublishIncremental (lane.acts hash actions).heap (lane.acts hash actions).newest
      (lane.acts hash actions).merge count = true) :
    (∀ mutations : List ReadMutation, mutations.length ≤ count →
      (∀ mutation ∈ mutations, mutation.WellFormed hash) →
      ((lane.acts hash actions).act hash (.publish mutations)).2 = .ok ()) ↔
    count = 0 ∨ (lane.acts hash actions).TakesMerge :=
  ((openReadLane_kept snapshot opened).acts valid).publishes_iff few admitted

/-- A merge that starts on a delta with one arena: the lane takes its batches. -/
theorem admitted_batches_published_of_merge :
    ∃ lane, openReadLane [] ⟨fun _ => 0, fun _ => 0⟩ = .ok lane ∧
      let actions : List WriterAction :=
        [.publish [{ key := [1], record := ⟨1, 0, 64, 1, 1⟩, segment := some ⟨1, 1⟩ }],
          .startMerge 65536 ⟨fun _ => 0, fun _ => 0⟩]
      let final := lane.acts (fun _ => 0) actions
      final.merge.isSome ∧ ∀ mutations : List ReadMutation, mutations.length ≤ 32 →
        (∀ mutation ∈ mutations, mutation.WellFormed fun _ => 0) →
        (final.act (fun _ => 0) (.publish mutations)).2 = .ok () := by
  have opened : openReadLane [] ⟨fun _ => 0, fun _ => 0⟩ = .ok _ := rfl
  refine ⟨_, opened, ?_⟩
  intro actions final
  have valid : ∀ action ∈ actions, action.Valid (fun _ => 0) := by
    simp [actions, WriterAction.Valid]
  have takes : final.TakesMerge := by decide +kernel
  exact ⟨by decide +kernel, (admitted_batches_published .nil opened actions valid (by decide)
    (by decide +kernel)).mpr (.inr takes)⟩

/-- A merge is given up after a batch, and the next one starts on the delta that has kept its
arena. A put is admitted then, and refused with an internal error. -/
theorem third_arena_refused :
    ∃ lane, openReadLane [] ⟨fun _ => 0, fun _ => 0⟩ = .ok lane ∧
      let put (key sequence : Nat) : ReadMutation :=
        { key := [key.toUInt8], record := ⟨1, 64 * sequence, 64, sequence, 1⟩,
          segment := some ⟨1, 1⟩ }
      let final := lane.acts (fun _ => 0)
        [.publish [put 1 1], .startMerge 65536 ⟨fun _ => 0, fun _ => 0⟩, .publish [put 2 2],
          .abandonMerge, .startMerge 65536 ⟨fun _ => 0, fun _ => 0⟩]
      canPublishIncremental final.heap final.newest final.merge 1 = true ∧
        (put 3 3).WellFormed (fun _ => 0) ∧
        (final.act (fun _ => 0) (.publish [put 3 3])).2 =
          fail .internalError "incremental read publication failed" := by
  refine ⟨_, rfl, ?_⟩
  intro put final
  refine ⟨by decide +kernel, ⟨by decide +kernel, by decide⟩, by decide +kernel⟩

end GlifiStore
