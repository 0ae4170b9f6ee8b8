import GlifiStore.Paired.MergedBase

/-!
# Publications

A publication stages a batch on a copy of the newest delta and, while a merge is
active, on a copy of the delta after the cut. Both builders write to one heap.
Every staged mutation updates both deltas at its key, and whatever the outcome,
nothing changes that was in the heap before.
-/

namespace GlifiStore

open ByteLayout OpenAddressing ReadTable CopyOnWrite

variable {hash : Key → UInt64}

/-! ## Deltas as maps -/

/-- The mutations a delta holds. -/
def DeltaState.overrides (hash : Key → UInt64) (heap : DeltaHeap) (state : DeltaState) :
    Key → Option DeltaRecord :=
  fun key => state.find heap (hash key) key

variable {record : DeltaRecord}

section Overrides

variable {heap next : DeltaHeap} {state after : DeltaState}

theorem overrides_of_vacant (valid : state.Valid hash heap) (sound : heap.Valid hash)
    (vacant : ∀ slot, state.spine.cells heap slot = .vacant) :
    state.overrides hash heap = fun _ => none := by
  funext key
  refine (valid.find_eq_none sound).mpr ?_
  rintro record ⟨slot, holds⟩
  rw [vacant] at holds
  exact nomatch holds

theorem overrides_of_cells (valid : state.Valid hash heap) (sound : heap.Valid hash)
    (valid' : after.Valid hash next) (sound' : next.Valid hash)
    (cells : after.spine.cells next = state.spine.cells heap) :
    after.overrides hash next = state.overrides hash heap := by
  funext key
  refine Option.ext fun record => ?_
  rw [DeltaState.overrides, DeltaState.overrides, valid.find_iff sound, valid'.find_iff sound',
    cells]

theorem overrides_of_binds {key : Key} (valid : state.Valid hash heap) (sound : heap.Valid hash)
    (valid' : after.Valid hash next) (sound' : next.Valid hash)
    (binds : ∀ other payload, Binds (after.spine.cells next) other payload ↔
      (other = key ∧ payload = record) ∨ (other ≠ key ∧ Binds (state.spine.cells heap) other payload))
    :
    after.overrides hash next = Function.update (state.overrides hash heap) key (some record) := by
  funext other
  refine Option.ext fun payload => ?_
  rw [DeltaState.overrides, valid'.find_iff sound', binds, Function.update_apply]
  by_cases same : other = key
  · rw [if_pos same, Option.some.injEq]
    exact ⟨fun either => either.elim (fun mine => mine.2.symm) fun old => absurd same old.1,
      fun equal => .inl ⟨same, equal.symm⟩⟩
  · rw [if_neg same, DeltaState.overrides, valid.find_iff sound]
    exact ⟨fun either => either.elim (fun mine => absurd mine.1 same) And.right,
      fun old => .inr ⟨same, old⟩⟩

theorem DeltaHeap.Grown.overrides_eq (grown : heap.Grown next) (valid : state.Valid hash heap)
    (sound : heap.Valid hash) (sound' : next.Valid hash) :
    state.overrides hash next = state.overrides hash heap :=
  overrides_of_cells valid sound (grown.valid valid sound) sound' (grown.cells_eq valid sound)

end Overrides

/-! ## Empty deltas -/

theorem getD_replicate_none (count index : Nat) :
    (List.replicate count (none : Option Nat)).getD index none = none := by
  rw [List.getD_eq_getElem?_getD, List.getElem?_replicate]
  split <;> rfl

theorem bare_spine {spine : DeltaSpine} {flat chunks : Nat}
    (flatPages : spine.flatPages = List.replicate flat none)
    (directoryChunks : spine.directoryChunks = List.replicate chunks none) (heap : DeltaHeap) :
    spine.Reachable heap ∧ ∀ slot, spine.cells heap slot = .vacant := by
  have chunk : ∀ index, spine.chunkTable index = none := by
    intro index
    rw [DeltaSpine.chunkTable, directoryChunks, getD_replicate_none]
  have block : ∀ index, spine.blockTable heap index = none := fun index => through_none (chunk _)
  have page : ∀ index, spine.pageTable heap index = none := by
    intro index
    unfold DeltaSpine.pageTable
    split
    · rw [flatPages]
      exact getD_replicate_none _ _
    · exact through_none (block _)
  refine ⟨⟨?_, ?_, ?_⟩, fun slot => through_none (page _)⟩
  · intro index address reached
    rw [chunk] at reached
    cases reached
  · intro index address reached
    rw [block] at reached
    cases reached
  · intro index address reached
    rw [page] at reached
    cases reached

variable {heap next : DeltaHeap} {maximumEntries : Nat} {state : DeltaState}

theorem makeEmptyDelta_cases (done : makeEmptyDelta heap maximumEntries = some (state, next)) :
    DeltaCapacity state.capacity ∧ state.spine.Covers state.capacity ∧ state.size = 0 ∧
      (∃ flat chunks, state.spine.flatPages = List.replicate flat none ∧
        state.spine.directoryChunks = List.replicate chunks none) ∧
      next = { heap with arenas := heap.arenas ++ [{ maximumRecords := maximumEntries }] } := by
  unfold makeEmptyDelta at done
  split at done
  · simp at done
  · obtain ⟨capacity, found, made⟩ := Option.map_eq_some_iff.mp done
    clear done
    obtain ⟨rfl, rfl⟩ := Prod.mk.inj made
    obtain ⟨-, divides, positive⟩ := capacityFrom_spec found (by decide)
    have paged := Nat.mod_eq_zero_of_dvd divides
    refine ⟨⟨⟨positive, ?_⟩, paged⟩, ?_, rfl, ?_, rfl⟩
    · simp only [kSwissGroupSize, kDeltaPageSlots] at *
      omega
    · by_cases small : capacity / kDeltaPageSlots ≤ kFlatDeltaMaximumPages
      · simp only [if_pos small, DeltaSpine.Covers, List.length_replicate, if_true]
        simp only [kDeltaPageSlots] at *
        omega
      · have some : ((capacity / kDeltaPageSlots + kDeltaDirectoryBlockPages - 1) /
            kDeltaDirectoryBlockPages + kDeltaDirectoryChunkBlocks - 1) /
              kDeltaDirectoryChunkBlocks ≠ 0 := by
          simp only [kDeltaPageSlots, kFlatDeltaMaximumPages, kDeltaDirectoryBlockPages,
            kDeltaDirectoryChunkBlocks] at *
          omega
        simp only [if_neg small, DeltaSpine.Covers, List.length_replicate,
          List.replicate_eq_nil_iff, if_neg some]
        simp only [kDeltaPageSlots, kDeltaDirectoryBlockPages, kDeltaDirectoryChunkBlocks] at *
        omega
    · simp only
      split
      · exact ⟨_, 0, rfl, rfl⟩
      · exact ⟨0, _, rfl, rfl⟩

theorem makeEmptyDelta_valid (sound : heap.Valid hash)
    (done : makeEmptyDelta heap maximumEntries = some (state, next)) :
    state.Valid hash next ∧ heap.Grown next ∧ next.Valid hash ∧
      state.overrides hash next = fun _ => none := by
  obtain ⟨capacity, covers, size, ⟨flat, chunks, flatPages, directoryChunks⟩, rfl⟩ :=
    makeEmptyDelta_cases done
  obtain ⟨reachable, vacant⟩ := bare_spine flatPages directoryChunks
    { heap with arenas := heap.arenas ++ [{ maximumRecords := maximumEntries }] }
  have cells := funext vacant
  have valid : state.Valid hash
      { heap with arenas := heap.arenas ++ [{ maximumRecords := maximumEntries }] } := by
    refine ⟨capacity, covers, reachable, ?_, ?_⟩
    · rw [cells]
      exact Probed.vacant _
    · rw [cells, size]
      exact List.countP_eq_zero.mpr fun slot _ => nofun
  have sound' : DeltaHeap.Valid hash
      { heap with arenas := heap.arenas ++ [{ maximumRecords := maximumEntries }] } :=
    ⟨sound.pages, sound.blocks, sound.chunks, sound.small⟩
  exact ⟨valid, ⟨Frame.refl _ _, Frame.refl _ _, Frame.refl _ _, List.prefix_rfl⟩, sound',
    overrides_of_vacant valid sound' vacant⟩

/-! ## Staging -/

def ReadMutation.stored (hash : Key → UInt64) (mutation : ReadMutation) : DeltaRecord :=
  DeltaRecord.ofView (mutation.view hash)

/-- What a batch makes of the mutations a delta holds. -/
def ReadMutation.applyAll (hash : Key → UInt64) (mutations : List ReadMutation)
    (overrides : Key → Option DeltaRecord) : Key → Option DeltaRecord :=
  mutations.foldl
    (fun overrides mutation =>
      Function.update overrides mutation.key (some (mutation.stored hash)))
    overrides

variable {start : DeltaHeap}

theorem DeltaBuilder.Staging.overrides_eq {builder after : DeltaBuilder}
    (after_staging : after.Staging hash start next) (staging : builder.Staging hash start heap)
    (sound' : next.Valid hash) (sound : heap.Valid hash)
    (cells : after.spine.cells next = builder.spine.cells heap) :
    after.freeze.overrides hash next = builder.freeze.overrides hash heap :=
  overrides_of_cells staging.freeze sound after_staging.freeze sound' cells

/-- A heap that publications may leave behind. -/
structure DeltaHeap.Kept (hash : Key → UInt64) (start heap : DeltaHeap) : Prop where
  sound : heap.Valid hash
  grown : start.Grown heap

theorem DeltaHeap.Kept.trans (first : start.Kept hash heap) (second : heap.Kept hash next) :
    start.Kept hash next :=
  ⟨second.sound, first.grown.trans second.grown⟩

variable {mutations : List ReadMutation}

namespace Publication

variable {publication : Publication} {post : Option (PreparedSlot × DeltaBuilder)}

structure Sound (hash : Key → UInt64) (start : DeltaHeap) (publication : Publication) : Prop where
  kept : start.Kept hash publication.heap
  current : publication.current.Staging hash start publication.heap
  post : ∀ builder ∈ publication.post,
    builder.Staging hash start publication.heap ∧ builder.Apart publication.current

structure Slots (hash : Key → UInt64) (start heap : DeltaHeap) (key : Key) (slot : PreparedSlot)
    (current : DeltaBuilder) (post : Option (PreparedSlot × DeltaBuilder)) : Prop where
  kept : start.Kept hash heap
  ready : current.Ready hash start heap key slot
  postReady : ∀ prepared ∈ post,
    prepared.2.Ready hash start heap key prepared.1 ∧ prepared.2.Apart current

structure Holds (hash : Key → UInt64) (heap : DeltaHeap) (current : DeltaBuilder)
    (post : Option DeltaBuilder) (overrides : Key → Option DeltaRecord)
    (postOverrides : Option (Key → Option DeltaRecord)) : Prop where
  current : current.freeze.overrides hash heap = overrides
  post : post.map (·.freeze.overrides hash heap) = postOverrides

variable {key : Key} {slot : PreparedSlot} {builder current after other further : DeltaBuilder}

theorem beside (sound : heap.Valid hash) (mine : builder.Writing start heap)
    (theirs : other.Writing start heap) (apart : builder.Apart other)
    (effect : other.Effect heap further next) (records : next.records = heap.records) :
    builder.spine.Apart (Touched other.mutableChunks) (Touched other.mutableBlocks)
        (Touched other.mutablePages) heap ∧
      heap.Framed (Touched other.mutableChunks) (Touched other.mutableBlocks)
        (Touched other.mutablePages) next ∧
      builder.spine.cells next = builder.spine.cells heap ∧ builder.Apart further := by
  have separate := mine.apart theirs apart
  have framed := effect.framed (records ▸ List.prefix_rfl)
  exact ⟨separate, framed, separate.cells_eq framed sound, effect.apart mine apart⟩

theorem Sound.keptByPrepare (sound : publication.Sound hash start)
    (first : publication.current.prepare publication.heap (hash key) key =
      some (slot, heap, current)) : start.Kept hash heap := by
  have prepares := sound.current.prepare sound.kept.sound first
  exact ⟨prepares.sound, sound.kept.grown.effect sound.current.writing prepares.effect
    (prepares.records ▸ List.prefix_rfl)⟩

theorem prepared (sound : publication.Sound hash start)
    (first : publication.current.prepare publication.heap (hash key) key =
      some (slot, heap, current))
    (second : preparePost hash publication.post heap key = some (post, next)) :
    Slots hash start next key slot current post ∧
      Holds hash next current (post.map (·.2))
        (publication.current.freeze.overrides hash publication.heap)
        (publication.post.map (·.freeze.overrides hash publication.heap)) := by
  have prepares := sound.current.prepare sound.kept.sound first
  have kept := sound.keptByPrepare first
  cases stands : publication.post with
  | none =>
    rw [stands] at second
    cases second
    refine ⟨⟨kept, prepares.ready, nofun⟩, prepares.ready.staging.overrides_eq sound.current
      kept.sound sound.kept.sound prepares.cells, ?_⟩
    simp only [Option.map_none]
  | some builder =>
    obtain ⟨staging, apart⟩ := sound.post builder stands
    rw [stands] at second
    obtain ⟨⟨postSlot, heap', after⟩, done, made⟩ := Option.map_eq_some_iff.mp second
    obtain ⟨rfl, rfl⟩ := Prod.mk.inj made
    obtain ⟨separate, framed, cells, apart'⟩ := beside sound.kept.sound staging.writing
      sound.current.writing apart prepares.effect prepares.records
    have staging' := staging.framed sound.kept.sound separate framed
    have postPrepares := staging'.prepare kept.sound done
    obtain ⟨separate', framed', cells', apart''⟩ := beside kept.sound
      prepares.ready.staging.writing staging'.writing apart'.symm postPrepares.effect
      postPrepares.records
    have kept' : start.Kept hash heap' := ⟨postPrepares.sound,
      kept.grown.effect staging'.writing postPrepares.effect
        (postPrepares.records ▸ List.prefix_rfl)⟩
    have ready := prepares.ready.framed kept.sound separate' framed'
    refine ⟨⟨kept', ready, ?_⟩, ?_, ?_⟩
    · rintro prepared ⟨⟩
      exact ⟨postPrepares.ready, apart''.symm⟩
    · exact ready.staging.overrides_eq sound.current kept'.sound sound.kept.sound
        (cells'.trans prepares.cells)
    · rw [Option.map_some, Option.map_some, Option.map_some,
        postPrepares.ready.staging.overrides_eq staging kept'.sound sound.kept.sound
          (postPrepares.cells.trans cells)]

variable {address : Nat}

theorem stored {source : ReadRecordView} {arena : Nat}
    (slots : Slots hash start heap key slot current post)
    (done : heap.store arena source = some (address, next)) :
    Slots hash start next key slot current post ∧
      Holds hash next current (post.map (·.2)) (current.freeze.overrides hash heap)
        ((post.map (·.2)).map (·.freeze.overrides hash heap)) := by
  have sound := slots.kept.sound
  have sound' := sound.store done
  obtain ⟨grown, -⟩ := DeltaHeap.store_grown done
  have separate := DeltaHeap.Grown.apart slots.ready.staging.writing.reachable
  refine ⟨⟨⟨sound', slots.kept.grown.trans grown⟩, slots.ready.framed sound separate grown, ?_⟩,
    grown.overrides_eq slots.ready.staging.freeze sound sound', ?_⟩
  · intro prepared stands
    obtain ⟨ready, apart⟩ := slots.postReady prepared stands
    exact ⟨ready.framed sound (DeltaHeap.Grown.apart ready.staging.writing.reachable) grown, apart⟩
  · cases post with
    | none => simp only [Option.map_none]
    | some prepared =>
      have staging := (slots.postReady prepared rfl).1.staging
      rw [Option.map_some, Option.map_some, Option.map_some,
        grown.overrides_eq staging.freeze sound sound']

theorem committed (visible : Nat) {heap' : DeltaHeap} {further : Option DeltaBuilder}
    (slots : Slots hash start heap key slot current post)
    (stored : heap.records[address]? = some record) (own : record.key = key)
    (first : current.commit heap slot address = (heap', after))
    (second : commitPost post heap' address = (next, further)) :
    Sound hash start ⟨next, after, further, visible⟩ ∧
      Holds hash next after further
        (Function.update (current.freeze.overrides hash heap) key (some record))
        (((post.map (·.2)).map (·.freeze.overrides hash heap)).map
          (Function.update · key (some record))) := by
  have sound := slots.kept.sound
  have ready := slots.ready
  have commits := ready.commit sound stored own first
  have kept : start.Kept hash heap' := ⟨commits.sound,
    slots.kept.grown.effect ready.staging.writing commits.effect
      (commits.records ▸ List.prefix_rfl)⟩
  have updated : after.freeze.overrides hash heap' =
      Function.update (current.freeze.overrides hash heap) key (some record) :=
    overrides_of_binds ready.staging.freeze sound commits.staging.freeze kept.sound commits.binds
  cases post with
  | none =>
    cases second
    exact ⟨⟨kept, commits.staging, nofun⟩, updated, rfl⟩
  | some prepared =>
    obtain ⟨postSlot, builder⟩ := prepared
    obtain ⟨heap'', finished, done⟩ : ∃ heap'' finished,
        builder.commit heap' postSlot address = (heap'', finished) := ⟨_, _, rfl⟩
    simp only [commitPost, done, Prod.mk.injEq] at second
    obtain ⟨rfl, rfl⟩ := second
    obtain ⟨postReady, apart⟩ := slots.postReady _ rfl
    obtain ⟨separate, framed, cells, apart'⟩ := beside sound postReady.staging.writing
      ready.staging.writing apart commits.effect commits.records
    have postReady' := postReady.framed sound separate framed
    have postCommits := postReady'.commit kept.sound (by rw [commits.records]; exact stored) own done
    obtain ⟨separate', framed', cells', apart''⟩ := beside kept.sound commits.staging.writing
      postReady'.staging.writing apart'.symm postCommits.effect postCommits.records
    have kept' : start.Kept hash heap'' := ⟨postCommits.sound,
      kept.grown.effect postReady'.staging.writing postCommits.effect
        (postCommits.records ▸ List.prefix_rfl)⟩
    have staging := commits.staging.framed kept.sound separate' framed'
    refine ⟨⟨kept', staging, ?_⟩, ?_, ?_⟩
    · rintro builder ⟨⟩
      exact ⟨postCommits.staging, apart''.symm⟩
    · rw [← updated]
      exact staging.overrides_eq commits.staging kept'.sound kept.sound cells'
    · have same : builder.freeze.overrides hash heap' = builder.freeze.overrides hash heap :=
        postReady'.staging.overrides_eq postReady.staging kept.sound sound cells
      have postUpdated := overrides_of_binds postReady'.staging.freeze kept.sound
        postCommits.staging.freeze kept'.sound postCommits.binds
      exact congrArg some (postUpdated.trans (by rw [same]))

/-- A staged mutation updates both builders at its key. -/
structure Stages (hash : Key → UInt64) (start : DeltaHeap) (publication : Publication)
    (mutation : ReadMutation) (next : Publication) : Prop where
  sound : next.Sound hash start
  holds : Holds hash next.heap next.current next.post
    (Function.update (publication.current.freeze.overrides hash publication.heap) mutation.key
      (some (mutation.stored hash)))
    ((publication.post.map (·.freeze.overrides hash publication.heap)).map
      (Function.update · mutation.key (some (mutation.stored hash))))

variable {status : Status}

/-- Whatever one mutation ends in, the heap is fit for the states before it. -/
theorem stage_sound {staged : Publication} {mutation : ReadMutation}
    (sound : publication.Sound hash start)
    (done : publication.stage hash mutation = (staged, status)) :
    start.Kept hash staged.heap ∧
      (status = .ok () → Stages hash start publication mutation staged) := by
  revert done
  fun_cases stage hash publication mutation with
  | case1 | case2 =>
    rintro ⟨⟩
    exact ⟨sound.kept, nofun⟩
  | case3 _ slot heap current first =>
    rintro ⟨⟩
    exact ⟨sound.keptByPrepare first, nofun⟩
  | case4 _ slot heap current first post heap' second =>
    rintro ⟨⟩
    exact ⟨(prepared sound first second).1.kept, nofun⟩
  | case5 _ slot heap current first post heap' second address heap'' third committed' after fourth
      final further fifth =>
    rintro ⟨⟩
    obtain ⟨slots, holds⟩ := prepared sound first second
    obtain ⟨slots', holds'⟩ := stored slots third
    obtain ⟨-, record, -⟩ := DeltaHeap.store_grown third
    obtain ⟨sound', updated⟩ :=
      committed (max publication.visibleThrough mutation.record.sequence) slots' record rfl
        fourth fifth
    rw [holds'.current, holds'.post, holds.current, holds.post] at updated
    exact ⟨sound'.kept, fun _ => ⟨sound', updated⟩⟩

theorem stageAll_sound {final : Publication} (sound : publication.Sound hash start)
    (done : publication.stageAll hash mutations = (final, status)) :
    start.Kept hash final.heap ∧
      (status = .ok () → final.Sound hash start ∧
        Holds hash final.heap final.current final.post
          (ReadMutation.applyAll hash mutations
            (publication.current.freeze.overrides hash publication.heap))
          ((publication.post.map (·.freeze.overrides hash publication.heap)).map
            (ReadMutation.applyAll hash mutations))) := by
  induction mutations generalizing publication with
  | nil =>
    cases done
    exact ⟨sound.kept, fun _ => ⟨sound, rfl, Option.map_id_fun'.symm ▸ rfl⟩⟩
  | cons mutation rest ih =>
    obtain ⟨staged, outcome, here⟩ : ∃ staged outcome,
        publication.stage hash mutation = (staged, outcome) := ⟨_, _, rfl⟩
    obtain ⟨kept, stages⟩ := stage_sound sound here
    cases outcome with
    | error error =>
      simp only [stageAll, here, Prod.mk.injEq] at done
      obtain ⟨rfl, rfl⟩ := done
      exact ⟨kept, nofun⟩
    | ok _ =>
      simp only [stageAll, here] at done
      obtain ⟨sound', holds⟩ := stages rfl
      obtain ⟨kept', final'⟩ := ih sound' done
      refine ⟨kept', fun succeeded => ?_⟩
      obtain ⟨finalSound, finalHolds⟩ := final' succeeded
      rw [holds.current, holds.post, Option.map_map] at finalHolds
      exact ⟨finalSound, finalHolds⟩

variable {previous : PairReadGeneration} {merge : Option PairReadMerge}

theorem started {arena : Option Nat} (sound : heap.Valid hash) (valid : state.Valid hash heap)
    (done : DeltaBuilder.start state arena = some builder) :
    builder.Staging hash heap heap ∧
      builder.freeze.overrides hash heap = state.overrides hash heap := by
  obtain ⟨staging, spine, -⟩ := DeltaBuilder.Staging.of_start valid done
  refine ⟨staging, overrides_of_cells valid sound staging.freeze sound ?_⟩
  show builder.spine.cells heap = _
  rw [spine]

theorem start_sound (sound : heap.Valid hash) (valid : previous.delta.Valid hash heap)
    (postValid : ∀ active ∈ merge, active.postDelta.Valid hash heap)
    (done : Publication.start heap previous merge = some publication) :
    publication.Sound hash heap ∧ publication.heap = heap ∧
      Holds hash heap publication.current publication.post (previous.delta.overrides hash heap)
        (merge.map (·.postDelta.overrides hash heap)) := by
  have kept : heap.Kept hash heap := ⟨sound, .refl heap⟩
  revert done
  fun_cases Publication.start heap previous merge with
  | case1 =>
    intro done
    obtain ⟨current, begun, rfl⟩ := Option.map_eq_some_iff.mp done
    obtain ⟨staging, same⟩ := started sound valid begun
    exact ⟨⟨kept, staging, nofun⟩, rfl, same, rfl⟩
  | case2 => nofun
  | case3 active post first =>
    intro done
    obtain ⟨current, begun, rfl⟩ := Option.map_eq_some_iff.mp done
    obtain ⟨staging, same⟩ := started sound valid begun
    obtain ⟨postStaging, postSame⟩ := started sound (postValid active rfl) first
    obtain ⟨-, -, -, pages, blocks, chunks⟩ :=
      DeltaBuilder.Staging.of_start (postValid active rfl) first
    refine ⟨⟨kept, staging, ?_⟩, rfl, same, congrArg some postSame⟩
    rintro builder ⟨⟩
    refine ⟨postStaging, ?_, ?_, ?_⟩
    · rw [chunks]
      exact fun address ⟨_, copied⟩ => nomatch copied
    · rw [blocks]
      exact fun address ⟨_, copied⟩ => nomatch copied
    · rw [pages]
      exact fun address ⟨_, copied⟩ => nomatch copied

end Publication

/-! ## Whole publications -/

/-- The deltas a publication freezes: the newest one and the one after the cut,
each with the batch applied. -/
structure PairReadGeneration.Publishes (hash : Key → UInt64) (heap next : DeltaHeap)
    (previous : PairReadGeneration) (mutations : List ReadMutation) (merge : Option PairReadMerge)
    (published : PairReadGeneration) (post : Option DeltaState) : Prop where
  base : published.base = previous.base
  delta : published.delta.Valid hash next
  overrides : published.delta.overrides hash next =
    ReadMutation.applyAll hash mutations (previous.delta.overrides hash heap)
  postDelta : ∀ state ∈ post, state.Valid hash next
  postOverrides : post.map (·.overrides hash next) =
    (merge.map (·.postDelta.overrides hash heap)).map (ReadMutation.applyAll hash mutations)

theorem publishIncremental_sound {previous : PairReadGeneration} {number : Nat}
    {merge : Option PairReadMerge} {outcome : Result Published} (sound : heap.Valid hash)
    (valid : previous.delta.Valid hash heap)
    (postValid : ∀ active ∈ merge, active.postDelta.Valid hash heap)
    (done : publishIncremental hash heap previous number mutations merge = (next, outcome)) :
    heap.Kept hash next ∧ (outcome = .ok none → mutations = []) ∧
      ∀ published post, outcome = .ok (some (published, post)) →
        mutations ≠ [] ∧ (∀ active ∈ merge, active.current = number) ∧
        previous.Publishes hash heap next mutations merge published post := by
  have kept : heap.Kept hash heap := ⟨sound, .refl heap⟩
  revert done
  fun_cases publishIncremental hash heap previous number mutations merge with
  | case1 | case3 | case4 | case5 =>
    rintro ⟨⟩
    exact ⟨kept, nofun, nofun⟩
  | case2 _ empty =>
    rintro ⟨⟩
    exact ⟨kept, fun _ => empty, nofun⟩
  | case6 _ _ _ _ publication begun final error staged =>
    rintro ⟨⟩
    obtain ⟨pubSound, -, -⟩ := Publication.start_sound sound valid postValid begun
    exact ⟨(Publication.stageAll_sound pubSound staged).1, nofun, nofun⟩
  | case7 accepted some _ _ publication begun final staged =>
    rintro ⟨⟩
    obtain ⟨pubSound, same, holds⟩ := Publication.start_sound sound valid postValid begun
    obtain ⟨finalKept, succeeds⟩ := Publication.stageAll_sound pubSound staged
    obtain ⟨finalSound, finalHolds⟩ := succeeds rfl
    rw [same, holds.current, holds.post] at finalHolds
    refine ⟨finalKept, nofun, ?_⟩
    rintro published post ⟨⟩
    refine ⟨some, ?_, rfl, finalSound.current.freeze, finalHolds.current, ?_, ?_⟩
    · intro active stands
      rw [not_or, stands] at accepted
      simpa using accepted.2
    · intro state stands
      obtain ⟨builder, member, rfl⟩ := Option.map_eq_some_iff.mp stands
      exact (finalSound.post builder member).1.freeze
    · rw [Option.map_map]
      exact finalHolds.post

end GlifiStore
