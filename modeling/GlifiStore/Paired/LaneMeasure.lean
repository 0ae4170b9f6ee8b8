import GlifiStore.Paired.DeltaCounts
import GlifiStore.Paired.MergeProgress
import GlifiStore.Paired.ReadLane

/-!
# The sizes in a lane

All deltas of a lane have one capacity, the capacity of a base is bounded by the width of
its record indices, and a merge has at most as many entries after its cut as its delta
takes.
-/

namespace GlifiStore

open ByteLayout OpenAddressing ReadTable CopyOnWrite ImmutableReadIndex

variable {index : ImmutableReadIndex}

/-- The capacity of a delta for `kMaximumIncrementalDeltaEntries` and one batch more. -/
def kIncrementalDeltaCapacity : Nat := 65536

/-- No table of records with 32-bit indices is larger. -/
def kMaximumBaseCapacity : Nat := 4 * kUInt32Max

structure DeltaState.Standard (state : DeltaState) : Prop where
  maximum : state.maximumEntries = kMaximumIncrementalDeltaEntries
  capacity : state.capacity = kIncrementalDeltaCapacity

structure PairReadMerge.Measured (merge : PairReadMerge) : Prop where
  cutBase : merge.cut.base.capacity ≤ kMaximumBaseCapacity
  cutDelta : merge.cut.delta.Standard
  post : merge.postDelta.Standard
  postEntries : merge.maximumPostEntries ≤ kMaximumIncrementalDeltaEntries
  postSize : merge.postDelta.size ≤ merge.maximumPostEntries
  builder : ∀ builder, merge.builder = some builder →
    builder.index.capacity ≤ kMaximumBaseCapacity
  settled : merge.Settled

structure ReadLane.Measured (lane : ReadLane) : Prop where
  base : lane.newest.base.capacity ≤ kMaximumBaseCapacity
  delta : lane.newest.delta.Standard
  merge : ∀ merge ∈ lane.merge, merge.Measured

/-! ## New tables -/

theorem capacityFrom_le {required fuel start capacity bound : Nat}
    (found : capacityFrom required fuel start = some capacity) (small : start ≤ bound)
    (room : 4 * required ≤ bound) : capacity ≤ bound := by
  induction fuel generalizing start with
  | zero => cases found
  | succ fuel ih =>
    rw [capacityFrom] at found
    split at found
    · split at found
      · cases found
      · exact ih found (by omega)
    · obtain rfl := Option.some.inj found
      exact small

variable {raw : RawStorage}

theorem initializeTable_capacity {maximumRecords : Nat} {initializeControl : Bool}
    (done : initializeTable maximumRecords initializeControl raw =
      some index) : index.capacity ≤ kMaximumBaseCapacity := by
  unfold initializeTable at done
  split at done
  · exact nomatch done
  next small =>
  obtain ⟨capacity, found, rfl⟩ := Option.map_eq_some_iff.mp done
  refine capacityFrom_le found (by decide) ?_
  unfold kMaximumBaseCapacity
  omega

theorem appendAll_capacity {final : ImmutableReadIndex} {sources : List ReadRecordView}
    (done : index.appendAll sources = some final) : final.capacity = index.capacity := by
  induction sources generalizing index with
  | nil =>
    obtain rfl := Option.some.inj done
    rfl
  | cons source rest ih =>
    obtain ⟨next, here, later⟩ := Option.bind_eq_some_iff.mp done
    obtain ⟨-, -, slot, -, rfl⟩ := append_cases here
    exact (ih later).trans rfl

variable {records : List PublishedReadRecord}

theorem ofSnapshot_capacity (done : ofSnapshot records raw = some index) :
    index.capacity ≤ kMaximumBaseCapacity := by
  obtain ⟨start, begun, finished⟩ := Option.bind_eq_some_iff.mp done
  rw [appendAll_capacity finished]
  exact initializeTable_capacity begun

variable {state : DeltaState}

theorem makeEmptyDelta_standard {heap next : DeltaHeap}
    (done : makeEmptyDelta heap kMaximumIncrementalDeltaEntries = some (state, next)) :
    state.Standard ∧ state.size = 0 := by
  have capacity : capacityFrom (kMaximumIncrementalDeltaEntries + kMaximumPublicationBatch) 64
      kDeltaPageSlots = some kIncrementalDeltaCapacity := by decide
  unfold makeEmptyDelta at done
  rw [if_neg (by decide), capacity, Option.map_some] at done
  obtain ⟨rfl, -⟩ := by simpa only [Option.some.injEq, Prod.mk.injEq] using done
  exact ⟨⟨rfl, rfl⟩, rfl⟩

theorem DeltaState.Grows.standard {count : Nat} {after : DeltaState}
    (grows : state.Grows count after) (standard : state.Standard) : after.Standard :=
  ⟨grows.maximum.trans standard.maximum, grows.capacity.trans standard.capacity⟩

/-! ## Actions -/

section Actions

variable {hash : Key → UInt64}
variable {heap : DeltaHeap} {merge : PairReadMerge} {next : PairReadGeneration}

theorem buildDurableSnapshot_measured {start : DeltaHeap} {epoch visibleFloor : Nat}
    (done : buildDurableSnapshot start records raw epoch visibleFloor = (heap, .ok next)) :
    next.base.capacity ≤ kMaximumBaseCapacity ∧ next.delta.Standard := by
  unfold buildDurableSnapshot at done
  cases first : ofSnapshot records raw with
  | none => simp [first, fail] at done
  | some base =>
    cases second : makeEmptyDelta start kMaximumIncrementalDeltaEntries with
    | none => simp [first, second, fail] at done
    | some made =>
      simp only [first, second, Prod.mk.injEq, Except.ok.injEq] at done
      obtain ⟨-, rfl⟩ := done
      exact ⟨ofSnapshot_capacity first, (makeEmptyDelta_standard second).1⟩

theorem startIncrementalMerge_measured {next : DeltaHeap} {cut : PairReadGeneration}
    {number maximumPostEntries : Nat} (base : cut.base.capacity ≤ kMaximumBaseCapacity)
    (delta : cut.delta.Standard)
    (done : startIncrementalMerge heap cut number maximumPostEntries raw = (next, .ok merge)) :
    merge.Measured ∧ merge.current = number := by
  unfold startIncrementalMerge at done
  split at done
  · cases (Prod.mk.inj done).2
  split at done
  · cases (Prod.mk.inj done).2
  cases first : initializeTable (cut.base.size + cut.delta.size) false raw with
  | none => simp [first, fail] at done
  | some index =>
    rw [delta.maximum] at done
    cases second : makeEmptyDelta heap kMaximumIncrementalDeltaEntries with
    | none => simp [first, second, fail] at done
    | some made =>
      simp only [first, second, Prod.mk.injEq, Except.ok.injEq] at done
      obtain ⟨-, rfl⟩ := done
      obtain ⟨standard, empty⟩ := makeEmptyDelta_standard second
      refine ⟨⟨base, delta, standard, ?_, ?_, ?_, ⟨?_, by simp, ?_⟩⟩, rfl⟩
      · dsimp only
        omega
      · dsimp only
        omega
      · rintro builder ⟨⟩
        exact initializeTable_capacity first
      · exact fun builder _ early => absurd rfl early
      · -- The slots of the delta are still to be visited.
        refine ⟨fun none => ?_, by simp⟩
        have slots := delta.capacity
        unfold PairReadMerge.slotsLeft at none
        dsimp only at none
        simp only [true_or, if_true, ne_eq, reduceCtorEq, not_false_eq_true] at none
        unfold kIncrementalDeltaCapacity at slots
        omega

theorem PairReadMerge.Measured.republish (measured : merge.Measured) {post : DeltaState}
    (standard : post.Standard) (size : post.size ≤ merge.maximumPostEntries) (current : Nat) :
    ({ merge with postDelta := post, current := current } : PairReadMerge).Measured :=
  ⟨measured.cutBase, measured.cutDelta, standard, measured.postEntries, size, measured.builder,
    measured.settled.cleared, measured.settled.finished, measured.settled.ready⟩

theorem PairReadMerge.Measured.advance (measured : merge.Measured) (sound : merge.Sound hash heap)
    (heapSound : heap.Valid hash) (maximumSlots : Nat) :
    (merge.advance heap maximumSlots).1.Measured := by
  obtain ⟨settled, -, postEntries, builders, -⟩ :=
    advance_spends heapSound sound measured.settled maximumSlots
  have advances := advance_sound heapSound sound maximumSlots
  refine ⟨by rw [advances.cut]; exact measured.cutBase, by rw [advances.cut]; exact measured.cutDelta,
    by rw [advances.postDelta]; exact measured.post, by rw [postEntries]; exact measured.postEntries,
    by rw [advances.postDelta, postEntries]; exact measured.postSize, fun after stands => ?_, settled⟩
  obtain ⟨builder, stood, same⟩ := builders after stands
  rw [same]
  exact measured.builder builder stood

theorem PairReadMerge.Measured.finish (measured : merge.Measured) (ready : merge.phase = .ready) :
    ({ merge with builder := none } : PairReadMerge).Measured :=
  ⟨measured.cutBase, measured.cutDelta, measured.post, measured.postEntries, measured.postSize,
    nofun, nofun, fun _ => ready, fun _ => ready, fun _ => rfl⟩

theorem finishIncrementalMerge_measured {current : PairReadGeneration} {number : Nat}
    (measured : merge.Measured) (done : finishIncrementalMerge current number merge = .ok next) :
    next.base.capacity ≤ kMaximumBaseCapacity ∧ next.delta.Standard ∧ merge.phase = .ready := by
  revert done
  fun_cases finishIncrementalMerge current number merge with
  | case4 builder stands accepted =>
    rintro ⟨⟩
    exact ⟨measured.builder builder stands, measured.post, by simpa using (not_or.mp accepted).2⟩
  | _ => rintro ⟨⟩

end Actions

/-! ## Steps and runs -/

section Runs

variable {hash : Key → UInt64} {lane : ReadLane} {history : ReadHistory}

theorem ReadLane.Measured.publish (measured : lane.Measured) (mutations : List ReadMutation)
    (withMerge : Bool) : (lane.publish hash mutations withMerge).1.Measured := by
  unfold ReadLane.publish
  dsimp only
  rcases done : publishIncremental hash lane.heap lane.newest lane.number mutations
    (if withMerge then lane.merge else none) with ⟨heap, outcome⟩
  cases outcome with
  | error error => exact ⟨measured.base, measured.delta, measured.merge⟩
  | ok published =>
    cases published with
    | none => exact ⟨measured.base, measured.delta, measured.merge⟩
    | some published =>
      obtain ⟨next, post⟩ := published
      obtain ⟨admitted, base, -, delta, postDelta⟩ := publishIncremental_counts done
      have installed : (({ lane with heap := heap } : ReadLane).install next).Measured :=
        ⟨by rw [ReadLane.install, base]; exact measured.base, delta.standard measured.delta,
          measured.merge⟩
      dsimp only
      split
      · next merge state stands =>
        have active : merge ∈ lane.merge := by
          cases withMerge
          · cases stands
          · exact stands
        have grows := postDelta merge stands state rfl
        have fits : mutations.length ≤ merge.maximumPostEntries - merge.postDelta.size := by
          rw [stands] at admitted
          unfold canPublishIncremental at admitted
          dsimp only at admitted
          split at admitted
          · cases admitted
          · simp only [Bool.and_eq_true, decide_eq_true_eq] at admitted
            exact admitted.1.2
        refine ⟨installed.base, installed.delta, ?_⟩
        rintro _ ⟨⟩
        have size := grows.size
        have before := (measured.merge merge active).postSize
        exact (measured.merge merge active).republish
          (grows.standard (measured.merge merge active).post) (by omega) _
      · exact installed

theorem ReadLane.Measured.step (measured : lane.Measured) (tracked : lane.Tracked hash history)
    (action : LaneAction) : (lane.step hash action).1.Measured := by
  have advanced {merge after : PairReadMerge} {outcome : Result Nat} {maximumSlots : Nat}
      (stands : lane.merge = some merge)
      (done : merge.advance lane.heap maximumSlots = (after, outcome)) : after.Measured := by
    have advanced := (measured.merge merge stands).advance (tracked.merge merge stands).sound
      tracked.heap maximumSlots
    rwa [done] at advanced
  fun_cases ReadLane.step hash lane action with
  | case1 mutations withMerge => exact measured.publish mutations withMerge
  | case2 | case10 => exact ⟨measured.base, measured.delta, measured.merge⟩
  | case3 _ _ heap merge done =>
    refine ⟨measured.base, measured.delta, ?_⟩
    rintro _ ⟨⟩
    exact (startIncrementalMerge_measured measured.base measured.delta done).1
  | case4 | case7 | case8 => exact measured
  | case5 _ merge stands after error done | case6 _ merge stands after _ done =>
    refine ⟨measured.base, measured.delta, ?_⟩
    rintro _ ⟨⟩
    exact advanced stands done
  | case9 merge stands next done =>
    obtain ⟨base, delta, ready⟩ :=
      finishIncrementalMerge_measured (measured.merge merge stands) done
    refine ⟨base, delta, ?_⟩
    rintro _ ⟨⟩
    exact (measured.merge merge stands).finish ready
  | case11 records raw heap next done =>
    unfold replaceDurableSnapshot at done
    split at done
    · cases (Prod.mk.inj done).2
    obtain ⟨base, delta⟩ := buildDurableSnapshot_measured done
    exact ⟨base, delta, measured.merge⟩
  | case12 => exact ⟨measured.base, measured.delta, by simp⟩

theorem openReadLane_measured (opened : openReadLane records raw = .ok lane) :
    lane.Measured := by
  obtain ⟨heap, generation, built, rfl⟩ := openReadLane_built opened
  obtain ⟨base, delta⟩ := buildDurableSnapshot_measured built
  exact ⟨base, delta, nofun⟩

structure ReadLane.Sound (hash : Key → UInt64) (lane : ReadLane) : Prop where
  tracked : ∃ history, lane.Tracked hash history
  measured : lane.Measured

theorem ReadLane.Sound.step (sound : lane.Sound hash) {action : LaneAction}
    (valid : action.Valid hash) : (lane.step hash action).1.Sound hash := by
  obtain ⟨history, tracked⟩ := sound.tracked
  exact ⟨⟨_, (tracked.step valid rfl).2⟩, sound.measured.step tracked action⟩

theorem ReadLane.Sound.run (sound : lane.Sound hash) {actions : List LaneAction}
    (valid : ∀ action ∈ actions, action.Valid hash) : (lane.run hash actions).1.Sound hash := by
  induction actions generalizing lane with
  | nil => exact sound
  | cons action rest ih =>
    exact ih (sound.step (valid action List.mem_cons_self))
      fun action member => valid action (List.mem_cons_of_mem _ member)

theorem openReadLane_sound (valid : ImmutableReadIndex.SnapshotValid hash records)
    (opened : openReadLane records raw = .ok lane) : lane.Sound hash :=
  ⟨⟨_, openReadLane_tracked valid opened⟩, openReadLane_measured opened⟩

end Runs

end GlifiStore
