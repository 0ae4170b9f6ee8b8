import GlifiStore.Lib.Runs
import GlifiStore.Paired.LaneMeasure

/-!
# Admitted publications

`can_publish_incremental` looks at sizes only. A batch that it admits is published, unless
epochs are exhausted or the newest delta already has two arenas and the merge brings a
third. That happens after a merge was given up that had published: its arena stays in the
delta, and the next merge has one of its own.
-/

namespace GlifiStore

open ByteLayout OpenAddressing ReadTable CopyOnWrite DeltaBuilder

variable {hash : Key → UInt64} {heap : DeltaHeap} {builder : DeltaBuilder}

/-! ## Slots are found -/

section Prepare

variable {start : DeltaHeap}

theorem DeltaBuilder.Staging.prepare_isSome (staging : builder.Staging hash start heap)
    (sound : heap.Valid hash) (key : Key)
    (room : builder.size < builder.previous.maximumEntries)
    (spare : builder.previous.maximumEntries < builder.previous.capacity) :
    ∃ found, builder.prepare heap (hash key) key = some found := by
  obtain ⟨slot, inside, vacant⟩ := exists_vacant (cells_ne_tombstone _ heap)
    (by rw [staging.counted]; omega :
      occupancy builder.previous.capacity (builder.spine.cells heap) < builder.previous.capacity)
  have placed : (place (builder.spine.cells heap) key none
      (readPath builder.previous.capacity (hash key))).isSome :=
    place_isSome (mem_readPath staging.capacity.toWhole (hash key) inside) vacant none
  unfold DeltaBuilder.prepare
  cases found : builder.prepareFrom heap (hash key) key (builder.previous.capacity / kSwissGroupSize)
      (probeStart builder.previous.capacity (hash key)) with
  | none =>
    have missing := (prepareFrom_place staging.writing.pages.settled sound key
      (staging.capacity.probeStart (hash key))).2 found
    rw [readPath, missing] at placed
    cases placed
  | some chosen =>
    dsimp only
    rw [if_neg fun full => absurd full.2 (by omega)]
    exact ⟨_, rfl⟩

end Prepare

/-! ## Staging succeeds -/

/-- A mutation that passes the pin checks, with a key that an arena takes. -/
def ReadMutation.WellFormed (hash : Key → UInt64) (mutation : ReadMutation) : Prop :=
  Publication.checkMutation hash mutation = .ok () ∧ mutation.key.length ≤ kUInt32Max

structure DeltaBuilder.Room (builder : DeltaBuilder) (count : Nat) : Prop where
  entries : builder.size + count ≤ builder.previous.maximumEntries
  spare : builder.previous.maximumEntries < builder.previous.capacity

def ArenaRoom (arenas : List DeltaArena) (arena count : Nat) : Prop :=
  (arenas.getD arena default).recordCount + count ≤ (arenas.getD arena default).maximumRecords

variable {count : Nat}

theorem ArenaRoom.charge {arenas : List DeltaArena} {arena : Nat}
    (room : ArenaRoom arenas arena (count + 1)) :
    ArenaRoom (DeltaHeap.charge arenas arena) arena count := by
  unfold ArenaRoom at room ⊢
  have inside : arena < arenas.length := by
    refine Classical.byContradiction fun outside => ?_
    rw [List.getD_eq_getElem?_getD, List.getElem?_eq_none (by omega)] at room
    exact absurd room (by show ¬ 0 + (count + 1) ≤ 0; omega)
  have updated : (DeltaHeap.charge arenas arena).getD arena default =
      { arenas.getD arena default with
        recordCount := (arenas.getD arena default).recordCount + 1 } := by
    unfold DeltaHeap.charge
    rw [List.getD_eq_getElem?_getD, List.getElem?_set_self inside]
    rfl
  rw [updated]
  dsimp only
  omega

variable {heap : DeltaHeap} {publication : Publication} {mutations : List ReadMutation}

namespace Publication

structure Room (publication : Publication) (count : Nat) : Prop where
  current : publication.current.Room count
  post : ∀ builder ∈ publication.post, builder.Room count
  arena : ArenaRoom publication.heap.arenas publication.current.allocationArena count

theorem Grows.room {after : DeltaBuilder} (grows : Grows 1 builder after)
    (room : builder.Room (count + 1)) : after.Room count := by
  obtain ⟨entries, spare⟩ := room
  have atMost := grows.atMost
  constructor
  · rw [grows.keeps.previous]
    omega
  · rw [grows.keeps.previous]
    exact spare

variable {start : DeltaHeap}

theorem preparePost_isSome {post : Option DeltaBuilder}
    (staging : ∀ builder ∈ post, builder.Staging hash start heap) (sound : heap.Valid hash)
    (room : ∀ builder ∈ post, builder.Room (count + 1)) (key : Key) :
    ∃ found, preparePost hash post heap key = some found := by
  cases post with
  | none => exact ⟨_, rfl⟩
  | some builder =>
    obtain ⟨entries, spare⟩ := room builder rfl
    obtain ⟨found, done⟩ := (staging builder rfl).prepare_isSome sound key (by omega) spare
    unfold preparePost
    dsimp only
    rw [done]
    exact ⟨_, rfl⟩

theorem stage_succeeds (sound : publication.Sound hash start) (room : publication.Room (count + 1))
    {mutation : ReadMutation} (wellFormed : mutation.WellFormed hash) :
    ∃ staged, publication.stage hash mutation = (staged, .ok ()) ∧ staged.Sound hash start ∧
      staged.Room count := by
  have succeeds : ∃ staged, publication.stage hash mutation = (staged, .ok ()) := by
    obtain ⟨entries, spare⟩ := room.current
    obtain ⟨⟨slot, heap, current⟩, first⟩ :=
      sound.current.prepare_isSome sound.kept.sound mutation.key (by omega) spare
    have prepares := sound.current.prepare sound.kept.sound first
    have kept := sound.keptByPrepare first
    have staging : ∀ builder ∈ publication.post, builder.Staging hash start heap := by
      intro builder stands
      obtain ⟨staging, apart⟩ := sound.post builder stands
      obtain ⟨separate, framed, -, -⟩ := beside sound.kept.sound staging.writing
        sound.current.writing apart prepares.effect prepares.records
      exact staging.framed sound.kept.sound separate framed
    obtain ⟨⟨post, heap'⟩, second⟩ :=
      preparePost_isSome staging kept.sound room.post mutation.key
    have arenas : heap'.arenas = publication.heap.arenas := by
      have arenas := prepares.arenas
      cases stands : publication.post with
      | none =>
        rw [stands] at second
        cases second
        exact arenas
      | some builder =>
        rw [stands] at second
        obtain ⟨⟨postSlot, moved, copier⟩, prepared, made⟩ := Option.map_eq_some_iff.mp second
        obtain ⟨-, rfl⟩ := Prod.mk.inj made
        exact (prepare_keeps prepared).2.2.1.trans arenas
    have stores : ∃ stored,
        heap'.store current.allocationArena (mutation.view hash) = some stored := by
      have arena := room.arena
      unfold ArenaRoom at arena
      unfold DeltaHeap.store
      dsimp only
      rw [arenas, prepares.arena, if_neg]
      · exact ⟨_, rfl⟩
      · have small : (mutation.view hash).key.length ≤ kUInt32Max := wellFormed.2
        omega
    obtain ⟨⟨address, heap''⟩, third⟩ := stores
    unfold stage
    rw [wellFormed.1]
    simp only [first, second, third]
    exact ⟨_, rfl⟩
  obtain ⟨staged, done⟩ := succeeds
  obtain ⟨-, stages⟩ := stage_sound sound done
  obtain ⟨current, post, arenas⟩ := stage_counts done
  refine ⟨staged, done, (stages rfl).sound, current.room room.current, ?_, ?_⟩
  · intro builder stands
    rw [stands] at post
    cases before : publication.post with
    | none =>
      rw [before] at post
      exact post.elim
    | some earlier =>
      rw [before] at post
      exact Grows.room post (room.post earlier before)
  · rw [arenas, current.keeps.arena]
    exact room.arena.charge

theorem stageAll_succeeds (sound : publication.Sound hash start)
    (room : publication.Room mutations.length)
    (wellFormed : ∀ mutation ∈ mutations, mutation.WellFormed hash) :
    ∃ final, publication.stageAll hash mutations = (final, .ok ()) := by
  induction mutations generalizing publication with
  | nil => exact ⟨publication, rfl⟩
  | cons mutation rest ih =>
    obtain ⟨staged, done, sound', room'⟩ :=
      stage_succeeds sound room (wellFormed mutation List.mem_cons_self)
    obtain ⟨final, later⟩ := ih sound' room' fun other member =>
      wellFormed other (List.mem_cons_of_mem _ member)
    refine ⟨final, ?_⟩
    rw [stageAll, done]
    exact later

end Publication

/-! ## Arenas -/

/-- A delta can have the arena: it has it already, or has only one. -/
def DeltaState.Joins (state : DeltaState) (arena : Nat) : Prop :=
  arena = state.primaryArena ∨ state.secondaryArena = none ∨ state.secondaryArena = some arena

instance (state : DeltaState) (arena : Nat) : Decidable (state.Joins arena) :=
  inferInstanceAs (Decidable (_ ∨ _ ∨ _))

section Arenas

variable {state : DeltaState} {arena : Nat}

theorem DeltaBuilder.start_isSome_iff :
    (∃ builder, start state (some arena) = some builder) ↔ state.Joins arena := by
  unfold start DeltaState.Joins
  dsimp only
  cases second : state.secondaryArena with
  | none => split <;> simp
  | some other =>
    by_cases own : arena = state.primaryArena
    · simp [own]
    · by_cases same : other = arena
      · simp [own, same]
      · have different : ¬ arena = other := fun equal => same equal.symm
        simp [own, same, different]

theorem DeltaBuilder.start_arena (done : start state (some arena) = some builder) :
    builder.allocationArena = state.allocationArena ∨ builder.allocationArena = arena := by
  unfold start at done
  dsimp only at done
  split at done
  · split at done
    · exact nomatch done
    · obtain rfl := Option.some.inj done
      exact .inr rfl
  · obtain rfl := Option.some.inj done
    exact .inl rfl

end Arenas

theorem arenaRoom_of_available {state : DeltaState} (positive : 0 < count)
    (available : count ≤ state.availableRecordVersions heap) :
    ArenaRoom heap.arenas state.allocationArena count := by
  unfold DeltaState.availableRecordVersions DeltaArena.availableRecords at available
  unfold ArenaRoom
  omega

variable {current : PairReadGeneration} {merge : Option PairReadMerge}

theorem canPublishIncremental_cases
    (admitted : canPublishIncremental heap current merge count = true) :
    current.delta.size + count ≤ current.delta.maximumEntries ∧
      count ≤ current.delta.availableRecordVersions heap ∧
      ∀ active ∈ merge, active.postDelta.size + count ≤ active.maximumPostEntries ∧
        count ≤ active.postDelta.availableRecordVersions heap := by
  unfold canPublishIncremental at admitted
  dsimp only at admitted
  split at admitted
  · exact nomatch admitted
  next fits =>
  refine ⟨by omega, by omega, ?_⟩
  rintro active ⟨⟩
  simp only [Bool.and_eq_true, decide_eq_true_eq] at admitted
  omega

theorem canPublishIncremental_mono {fewer : Nat} (le : fewer ≤ count)
    (admitted : canPublishIncremental heap current merge count = true) :
    canPublishIncremental heap current merge fewer = true := by
  obtain ⟨entries, available, post⟩ := canPublishIncremental_cases admitted
  unfold canPublishIncremental
  dsimp only
  rw [if_neg (by omega)]
  cases merge with
  | none => rfl
  | some active =>
    obtain ⟨postEntries, postAvailable⟩ := post active rfl
    simp only [Bool.and_eq_true, decide_eq_true_eq]
    omega

namespace Publication

variable {previous : PairReadGeneration} {merge : Option PairReadMerge}

theorem start_isSome_iff :
    (∃ publication, Publication.start heap previous merge = some publication) ↔
      ∀ active ∈ merge, previous.delta.Joins active.postDelta.allocationArena := by
  cases merge with
  | none => exact ⟨nofun, fun _ => ⟨_, rfl⟩⟩
  | some active =>
    constructor
    · rintro ⟨publication, done⟩ _ ⟨⟩
      obtain ⟨current, begun, -⟩ := Option.map_eq_some_iff.mp done
      exact start_isSome_iff.mp ⟨current, begun⟩
    · intro joins
      obtain ⟨current, begun⟩ := start_isSome_iff.mpr (joins active rfl)
      exact ⟨_, Option.map_eq_some_iff.mpr ⟨current, begun, rfl⟩⟩

/-- The sizes that admission looks at are those that staging needs. The arena of the newest
delta and the one the merge brings are both checked. -/
theorem start_room (standard : previous.delta.Standard)
    (measured : ∀ active ∈ merge, active.Measured) (positive : 0 < count)
    (admitted : canPublishIncremental heap previous merge count = true)
    (begun : Publication.start heap previous merge = some publication) :
    publication.Room count := by
  obtain ⟨entries, available, further⟩ := canPublishIncremental_cases admitted
  have room : ∀ {state : DeltaState} {arena : Option Nat} {builder : DeltaBuilder},
      state.Standard → state.size + count ≤ state.maximumEntries →
      DeltaBuilder.start state arena = some builder → builder.Room count := by
    intro state arena builder standard fits started
    obtain ⟨previous, size, -⟩ := start_keeps started
    refine ⟨by rw [previous, size]; exact fits, ?_⟩
    rw [previous, standard.maximum, standard.capacity]
    decide
  unfold Publication.start at begun
  cases merge with
  | none =>
    obtain ⟨current, started, rfl⟩ := Option.map_eq_some_iff.mp begun
    refine ⟨room standard entries started, nofun, ?_⟩
    obtain rfl := Option.some.inj started
    exact arenaRoom_of_available positive available
  | some active =>
    obtain ⟨postEntries, postAvailable⟩ := further active rfl
    have bounded := (measured active rfl).postEntries
    have postStandard := (measured active rfl).post
    obtain ⟨current, started, rfl⟩ := Option.map_eq_some_iff.mp begun
    refine ⟨room standard entries started, ?_, ?_⟩
    · rintro _ ⟨⟩
      refine @room active.postDelta none _ postStandard ?_ rfl
      rw [postStandard.maximum]
      omega
    · obtain own | brought := start_arena started
      · show ArenaRoom heap.arenas current.allocationArena count
        rw [own]
        exact arenaRoom_of_available positive available
      · show ArenaRoom heap.arenas current.allocationArena count
        rw [brought]
        exact arenaRoom_of_available positive postAvailable

end Publication

/-! ## Whole publications -/

/-- An admitted batch is published exactly if there is an epoch left and the delta can have
the arena of the merge. -/
theorem publishIncremental_ok_iff {previous : PairReadGeneration} {number : Nat}
    (sound : heap.Valid hash) (valid : previous.delta.Valid hash heap)
    (postValid : ∀ active ∈ merge, active.postDelta.Valid hash heap)
    (standard : previous.delta.Standard) (measured : ∀ active ∈ merge, active.Measured)
    (current : ∀ active ∈ merge, active.current = number)
    (wellFormed : ∀ mutation ∈ mutations, mutation.WellFormed hash) (nonempty : mutations ≠ [])
    (few : mutations.length ≤ kMaximumPublicationBatch)
    (admitted : canPublishIncremental heap previous merge mutations.length = true) :
    (∃ published, (publishIncremental hash heap previous number mutations merge).2 =
        .ok published) ↔
      previous.epoch < kMaximumEpoch ∧
        ∀ active ∈ merge, previous.delta.Joins active.postDelta.allocationArena := by
  rw [← @Publication.start_isSome_iff heap previous merge]
  unfold publishIncremental
  rw [if_neg, if_neg nonempty]
  · by_cases exhausted : previous.epoch ≥ kMaximumEpoch
    · rw [if_pos exhausted]
      constructor
      · rintro ⟨published, done⟩
        exact nomatch done
      · rintro ⟨left, -⟩
        omega
    · rw [if_neg exhausted, if_neg (by rw [admitted]; decide)]
      cases begun : Publication.start heap previous merge with
      | none =>
        constructor
        · rintro ⟨published, done⟩
          exact nomatch done
        · rintro ⟨-, publication, done⟩
          exact nomatch done
      | some publication =>
        have positive : 0 < mutations.length := List.length_pos_iff.mpr nonempty
        have room := Publication.start_room standard measured positive admitted begun
        obtain ⟨pubSound, -, -⟩ := Publication.start_sound sound valid postValid begun
        obtain ⟨final, staged⟩ := Publication.stageAll_succeeds pubSound room wellFormed
        simp only [staged]
        exact ⟨fun _ => ⟨by omega, publication, rfl⟩, fun _ => ⟨_, rfl⟩⟩
  · rintro (many | other)
    · omega
    · cases merge with
      | none => exact nomatch other
      | some active => exact of_decide_eq_true other (current active rfl)

end GlifiStore
