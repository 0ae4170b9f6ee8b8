import GlifiStore.Paired.ReadHistory

/-!
# Runs of a lane

Whatever a lane does, lookups in a generation give the last published mutation of
the key, at the time the generation is published and ever after.
-/

namespace GlifiStore

open ByteLayout OpenAddressing ReadTable CopyOnWrite

variable {hash : Key → UInt64}
variable {heap : DeltaHeap} {raw : RawStorage} {records : List PublishedReadRecord}

/-! ## Snapshots -/

theorem ofSnapshot_lookup {base : ImmutableReadIndex}
    (valid : ImmutableReadIndex.SnapshotValid hash records)
    (done : ImmutableReadIndex.ofSnapshot records raw = some base) :
    base.Valid hash ∧ base.lookup hash = PublicationLog.lookup hash { snapshot := records } := by
  obtain ⟨baseValid, binds⟩ := ImmutableReadIndex.ofSnapshot_valid valid done
  refine ⟨baseValid, funext fun key => ?_⟩
  show _ = (records.find? (·.key = key)).map PublishedReadRecord.view
  cases found : records.find? (·.key = key) with
  | none =>
    refine baseValid.lookup_of_absent fun record bound => ?_
    obtain ⟨published, member, own, -⟩ := (binds key record).mp bound
    simpa [own] using List.find?_eq_none.mp found published member
  | some published =>
    have own : published.key = key := by simpa using List.find?_some found
    have bound := (binds key _).mpr ⟨published, List.mem_of_find?_eq_some found, own, rfl⟩
    exact baseValid.lookup_of_binds bound

variable {start : DeltaHeap} {outcome : Result PairReadGeneration}

theorem buildDurableSnapshot_tracks {epoch visibleFloor : Nat} (sound : start.Valid hash)
    (valid : ImmutableReadIndex.SnapshotValid hash records)
    (done : buildDurableSnapshot start records raw epoch visibleFloor = (heap, outcome)) :
    start.Kept hash heap ∧
      ∀ next, outcome = .ok next → Tracks hash heap next { snapshot := records } := by
  have unchanged : start.Kept hash start := ⟨sound, .refl _⟩
  revert done
  fun_cases buildDurableSnapshot start records raw epoch visibleFloor with
  | case3 _ base first delta _ second =>
    rintro ⟨⟩
    obtain ⟨deltaValid, grown, sound', nothing⟩ := makeEmptyDelta_valid sound second
    obtain ⟨baseValid, lookups⟩ := ofSnapshot_lookup valid first
    refine ⟨⟨sound', grown⟩, ?_⟩
    rintro next ⟨⟩
    refine ⟨⟨baseValid, deltaValid⟩, ?_⟩
    rw [nothing, ← lookups]
    rfl
  | _ =>
    rintro ⟨⟩
    exact ⟨unchanged, nofun⟩

theorem replaceDurableSnapshot_tracks {previous : PairReadGeneration} (sound : start.Valid hash)
    (valid : ImmutableReadIndex.SnapshotValid hash records)
    (done : replaceDurableSnapshot start previous records raw = (heap, outcome)) :
    start.Kept hash heap ∧
      ∀ next, outcome = .ok next → Tracks hash heap next { snapshot := records } := by
  unfold replaceDurableSnapshot at done
  split at done
  · obtain ⟨rfl, rfl⟩ := Prod.mk.inj done
    exact ⟨⟨sound, .refl _⟩, nofun⟩
  · exact buildDurableSnapshot_tracks sound valid done

/-! ## Steps and runs -/

variable {generation : PairReadGeneration}

namespace ReadLane.Tracked

variable {lane : ReadLane} {history : ReadHistory}

section Tracked

variable (tracked : lane.Tracked hash history)
include tracked

theorem step {action : LaneAction} (valid : action.Valid hash) {next : ReadLane} {status : Status}
    (done : lane.step hash action = (next, status)) :
    lane.heap.Kept hash next.heap ∧ next.Tracked hash (history.after action status) := by
  have unchanged : lane.heap.Kept hash lane.heap := ⟨tracked.heap, .refl _⟩
  have advanced {merge after : PairReadMerge} {outcome : Result Nat} {maximumSlots : Nat}
      (stands : lane.merge = some merge)
      (finished : merge.advance lane.heap maximumSlots = (after, outcome)) :
      ({ lane with merge := some after } : ReadLane).Tracked hash history := by
    have merging := tracked.merge merge stands
    have advances := PairReadMerge.advance_sound tracked.heap merging.sound maximumSlots
    rw [finished] at advances
    refine tracked.withMerge ⟨advances.sound, ?_, ?_, ?_⟩
    · rw [advances.postDelta]
      exact merging.post
    · rw [advances.current]
      exact merging.started
    · rw [advances.current, advances.cut, advances.postDelta]
      exact merging.layers
  revert done valid
  fun_cases ReadLane.step hash lane action with
  | case1 mutations withMerge => exact fun _ => tracked.publish
  | case2 _ _ heap error finished =>
    rintro - ⟨⟩
    have kept := (tracked.startMerge finished).1
    exact ⟨kept, tracked.kept kept⟩
  | case3 _ _ heap merge finished =>
    rintro - ⟨⟩
    obtain ⟨kept, merging⟩ := tracked.startMerge finished
    exact ⟨kept, (tracked.kept kept).withMerge (merging merge rfl)⟩
  | case4 | case7 | case8 =>
    rintro - ⟨⟩
    exact ⟨unchanged, tracked⟩
  | case5 _ merge stands after error finished | case6 _ merge stands after _ finished =>
    rintro - ⟨⟩
    exact ⟨unchanged, advanced stands finished⟩
  | case9 merge stands generation finished =>
    rintro - ⟨⟩
    have installed := tracked.install (tracked.finishMerge stands finished)
    have left := installed.merge merge stands
    exact ⟨unchanged, installed.withMerge
      ⟨⟨left.sound.cut, nofun⟩, left.post, left.started, left.layers⟩⟩
  | case10 records raw heap error finished =>
    rintro valid ⟨⟩
    have kept := (replaceDurableSnapshot_tracks tracked.heap valid finished).1
    exact ⟨kept, tracked.kept kept⟩
  | case11 records raw heap generation finished =>
    rintro valid ⟨⟩
    obtain ⟨kept, tracks⟩ := replaceDurableSnapshot_tracks tracked.heap valid finished
    exact ⟨kept, (tracked.kept kept).install (tracks generation rfl)⟩
  | case12 =>
    rintro - ⟨⟩
    exact ⟨unchanged, tracked.heap, tracked.newest, tracked.earlier, nofun⟩

theorem run {actions : List LaneAction} (valid : ∀ action ∈ actions, action.Valid hash) :
    lane.heap.Kept hash (lane.run hash actions).1.heap ∧
      (lane.run hash actions).1.Tracked hash
        (history.replay actions (lane.run hash actions).2) := by
  induction actions generalizing lane history with
  | nil => exact ⟨⟨tracked.heap, .refl _⟩, tracked⟩
  | cons action rest ih =>
    obtain ⟨next, status, done⟩ : ∃ next status, lane.step hash action = (next, status) :=
      ⟨_, _, rfl⟩
    obtain ⟨kept, here⟩ := tracked.step (valid action List.mem_cons_self) done
    obtain ⟨later, final⟩ := ih here fun action member => valid action (List.mem_cons_of_mem _ member)
    simp only [ReadLane.run, done]
    exact ⟨kept.trans later, final⟩

theorem lookup_newest (key : Key) :
    lane.newest.lookup hash lane.heap key = history.newest.lookup hash key := by
  rw [lookup_eq_layered, tracked.newest.answers]

theorem all : List.Forall₂ (Tracks hash lane.heap) lane.generations history.logs :=
  List.rel_append tracked.earlier (.cons tracked.newest .nil)

theorem valid_of_mem (member : generation ∈ lane.generations) :
    generation.Valid hash lane.heap := by
  obtain ⟨index, inside, rfl⟩ := List.getElem_of_mem member
  exact (tracked.all.get inside (tracked.all.length_eq ▸ inside)).valid

end Tracked

end ReadLane.Tracked

theorem ReadLane.step_generations (lane : ReadLane) (action : LaneAction) :
    lane.generations <+: (lane.step hash action).1.generations := by
  have installed : ∀ (heap : DeltaHeap) (next : PairReadGeneration) (merge : Option PairReadMerge),
      lane.generations <+: ReadLane.generations
        { ({ lane with heap := heap } : ReadLane).install next with merge := merge } :=
    fun heap next merge => List.prefix_append _ _
  fun_cases ReadLane.step hash lane action with
  | case1 mutations withMerge =>
    fun_cases ReadLane.publish hash lane mutations withMerge with
    | case1 | case2 => exact List.prefix_rfl
    | case3 | case4 => exact installed _ _ _
  | case9 | case11 => exact installed _ _ _
  | _ => exact List.prefix_rfl

theorem ReadLane.run_generations (lane : ReadLane) (actions : List LaneAction) :
    lane.generations <+: (lane.run hash actions).1.generations := by
  induction actions generalizing lane with
  | nil => exact List.prefix_rfl
  | cons action rest ih => exact (lane.step_generations action).trans (ih _)

/-! ## Durable reads -/

/-- What `prepare_durable` makes of a lookup. -/
def durableAnswer : Option ReadRecordView → Result ReadRecordView
  | none => fail .notFound "key not found"
  | some record =>
    if ¬ record.durable.any (·.matches record.record) then
      fail .invalidReference "durable read generation has no exact file-generation pin"
    else
      .ok record

theorem PairReadGeneration.Valid.prepareDurable_eq (valid : generation.Valid hash heap)
    (sound : heap.Valid hash) (key : Key) :
    generation.prepareDurable hash heap key = durableAnswer (generation.lookup hash heap key) := by
  rw [PairReadGeneration.lookup_eq]
  unfold PairReadGeneration.prepareDurable
  cases found : generation.delta.find heap (hash key) key with
  | some record =>
    obtain ⟨slot, holds⟩ := (valid.delta.find_iff sound).mp found
    have own := PairReadMerge.cells_key holds
    cases opcode : record.opcode with
    | erase => simp [DeltaRecord.answer, DeltaRecord.view, opcode, durableAnswer]
    | put => simp [DeltaRecord.answer, DeltaRecord.view, opcode, durableAnswer, own]
  | none =>
    unfold ImmutableReadIndex.prepareDurable ImmutableReadIndex.lookup
    cases below : generation.base.find (hash key) key with
    | none => rfl
    | some record =>
      obtain ⟨reference, recordHash, recordKey, pin, durable, opcode⟩ := record
      cases opcode <;> cases durable <;>
        simp [CompactReadRecord.view, durableAnswer]

/-! ## The refinement -/

theorem openReadLane_built {lane : ReadLane} (opened : openReadLane records raw = .ok lane) :
    ∃ heap generation, buildDurableSnapshot {} records raw 0 0 = (heap, .ok generation) ∧
      lane = ⟨heap, [], generation, none⟩ := by
  unfold openReadLane at opened
  split at opened
  · cases opened
  · exact ⟨_, _, ‹_›, (Except.ok.inj opened).symm⟩

theorem openReadLane_tracked {lane : ReadLane}
    (valid : ImmutableReadIndex.SnapshotValid hash records)
    (opened : openReadLane records raw = .ok lane) :
    lane.Tracked hash { earlier := [], newest := { snapshot := records } } := by
  obtain ⟨heap, generation, built, rfl⟩ := openReadLane_built opened
  have sound : DeltaHeap.Valid hash {} := ⟨nofun, nofun, nofun, nofun⟩
  obtain ⟨kept, tracks⟩ := buildDurableSnapshot_tracks sound valid built
  exact ⟨kept.sound, tracks generation rfl, .nil, nofun⟩

/-- In every run of a lane, all its generations answer as the published history
says; finishing a merge publishes a generation that answers as the one before,
and whatever follows, generations answer as they did. -/
theorem readGenerations_refine_history {records : List PublishedReadRecord} {raw : RawStorage}
    {lane : ReadLane} (snapshot : ImmutableReadIndex.SnapshotValid hash records)
    (opened : openReadLane records raw = .ok lane) (actions : List LaneAction)
    (valid : ∀ action ∈ actions, action.Valid hash) :
    let final := (lane.run hash actions).1
    let history := ReadHistory.replay { earlier := [], newest := { snapshot := records } } actions
      (lane.run hash actions).2
    (∀ key, final.newest.lookup hash final.heap key = history.newest.lookup hash key ∧
      final.newest.prepareDurable hash final.heap key =
        durableAnswer (history.newest.lookup hash key)) ∧
    List.Forall₂ (fun generation log => ∀ key,
      generation.lookup hash final.heap key = log.lookup hash key)
      final.generations history.logs ∧
    (∀ finished, final.step hash .finishMerge = (finished, .ok ()) → ∀ key,
      finished.newest.lookup hash finished.heap key = final.newest.lookup hash final.heap key) ∧
    (∀ later, (∀ action ∈ later, action.Valid hash) →
      final.generations <+: (final.run hash later).1.generations ∧
      ∀ generation ∈ final.generations, ∀ key,
        generation.lookup hash (final.run hash later).1.heap key =
          generation.lookup hash final.heap key) := by
  intro final history
  obtain ⟨-, tracked⟩ := (openReadLane_tracked snapshot opened).run valid
  refine ⟨fun key => ⟨tracked.lookup_newest key, ?_⟩, ?_, ?_, ?_⟩
  · rw [tracked.newest.valid.prepareDurable_eq tracked.heap, tracked.lookup_newest]
  · refine tracked.all.imp fun generation log tracks key => ?_
    rw [lookup_eq_layered, tracks.answers]
  · intro finished done key
    obtain ⟨-, tracked'⟩ := tracked.step (show LaneAction.Valid hash .finishMerge from trivial) done
    rw [tracked'.lookup_newest, tracked.lookup_newest]
    rfl
  · intro later laterValid
    obtain ⟨kept, -⟩ := tracked.run laterValid
    refine ⟨final.run_generations later, fun generation member key => ?_⟩
    rw [lookup_eq_layered, lookup_eq_layered, kept.grown.overrides_eq
      (tracked.valid_of_mem member).delta tracked.heap kept.sound]

/-- An empty lane with a put and, after a merge has started, an erase of its key. -/
theorem readGenerations_of_empty :
    ∃ lane, openReadLane [] ⟨fun _ => 0, fun _ => 0⟩ = .ok lane ∧
      let actions : List LaneAction :=
        [.publish [{ key := [1], record := ⟨1, 0, 64, 1, 1⟩, segment := some ⟨1, 1⟩ }] false,
          .startMerge 4 ⟨fun _ => 0, fun _ => 0⟩,
          .publish [{ key := [1], record := ⟨1, 64, 64, 2, 1⟩, opcode := .erase }] true]
      let final := (lane.run (fun _ => 0) actions).1
      final.generations.length = 3 ∧
        final.newest.lookup (fun _ => 0) final.heap [1] = none := by
  have opened : openReadLane [] ⟨fun _ => 0, fun _ => 0⟩ = .ok _ := rfl
  refine ⟨_, opened, ?_⟩
  intro actions final
  have valid : ∀ action ∈ actions, action.Valid (fun _ => 0) := by
    simp [actions, LaneAction.Valid]
  have refined := readGenerations_refine_history .nil opened actions valid
  exact ⟨rfl, (refined.1 [1]).1.trans rfl⟩

end GlifiStore
