import GlifiStore.Paired.DeltaSharing

/-!
# Mutations of a delta

Preparing a slot, storing a record and committing it, for one builder while
another one works on the same heap, and what all of that leaves to the states
that were there before.
-/

namespace GlifiStore

open ByteLayout OpenAddressing ReadTable CopyOnWrite DeltaSpine

/-! ## Frames -/

/-- Objects outside the touched addresses are as they were, and records stay. -/
structure DeltaHeap.Framed (chunks blocks pages : Nat → Prop) (heap next : DeltaHeap) : Prop where
  chunks : Frame chunks heap.chunks next.chunks
  blocks : Frame blocks heap.blocks next.blocks
  pages : Frame pages heap.pages next.pages
  records : heap.records <+: next.records

/-- A spine reaches allocated and untouched objects only. -/
structure DeltaSpine.Apart (chunks blocks pages : Nat → Prop) (heap : DeltaHeap)
    (spine : DeltaSpine) : Prop where
  chunks : ∀ {index address}, spine.chunkTable index = some address →
    address < heap.chunks.length ∧ ¬ chunks address
  blocks : ∀ {index address}, spine.blockTable heap index = some address →
    address < heap.blocks.length ∧ ¬ blocks address
  pages : ∀ {index address}, spine.pageTable heap index = some address →
    address < heap.pages.length ∧ ¬ pages address

variable {hash : Key → UInt64} {chunks blocks pages : Nat → Prop} {heap next : DeltaHeap}
  {spine : DeltaSpine}

theorem DeltaSpine.Apart.blockTable_eq (apart : spine.Apart chunks blocks pages heap)
    (framed : heap.Framed chunks blocks pages next) :
    spine.blockTable next = spine.blockTable heap :=
  through_frame framed.chunks apart.chunks

theorem DeltaSpine.Apart.pageTable_eq (apart : spine.Apart chunks blocks pages heap)
    (framed : heap.Framed chunks blocks pages next) :
    spine.pageTable next = spine.pageTable heap := by
  unfold pageTable
  split
  · rfl
  · next directory =>
    rw [apart.blockTable_eq framed]
    refine through_frame framed.blocks fun reached => apart.blocks reached

variable {address : Nat}

theorem getElem?_of_prefix {α : Type} {objects more : List α} {object : α}
    (grown : objects <+: more) (stored : objects[address]? = some object) :
    more[address]? = some object := by
  obtain ⟨tail, rfl⟩ := grown
  rw [List.getElem?_append_left (List.getElem?_eq_some_iff.mp stored).1]
  exact stored

variable {page : DeltaPage} {records more : List DeltaRecord}

theorem DeltaPage.Valid.pageCell_eq (valid : page.Valid hash records) (grown : records <+: more)
    (offset : Nat) :
    pageCell more page offset = pageCell records page offset := by
  unfold pageCell
  split
  · rfl
  · next full =>
    obtain ⟨address, record, pointer, stored, -⟩ := valid.full full
    simp only [pointer, Option.bind_some, stored, getElem?_of_prefix grown stored]

theorem DeltaPage.Valid.mono (valid : page.Valid hash records) (grown : records <+: more) :
    page.Valid hash more := by
  refine ⟨valid.control, valid.hashes, valid.cells, fun full => ?_⟩
  obtain ⟨address, record, pointer, stored, rest⟩ := valid.full full
  exact ⟨address, record, pointer, getElem?_of_prefix grown stored, rest⟩

theorem DeltaSpine.Apart.cells_eq (apart : spine.Apart chunks blocks pages heap)
    (framed : heap.Framed chunks blocks pages next) (sound : heap.Valid hash) :
    spine.cells next = spine.cells heap := by
  unfold cells
  rw [apart.pageTable_eq framed, through_frame framed.pages apart.pages]
  funext slot
  cases reached : spine.pageTable heap (slot / kDeltaPageSlots) with
  | none => rw [through_none reached, through_none reached]
  | some address =>
    have stored := getElem?_of_lt (apart.pages reached).1
    rw [through_some reached stored, through_some reached stored]
    exact (sound.pages _ (List.mem_of_getElem? stored)).pageCell_eq framed.records _

theorem DeltaSpine.Apart.reachable (apart : spine.Apart chunks blocks pages heap)
    (framed : heap.Framed chunks blocks pages next) : spine.Reachable next where
  chunks := fun reached => Nat.lt_of_lt_of_le (apart.chunks reached).1 framed.chunks.grows
  blocks := by
    rw [apart.blockTable_eq framed]
    exact fun reached => Nat.lt_of_lt_of_le (apart.blocks reached).1 framed.blocks.grows
  pages := by
    rw [apart.pageTable_eq framed]
    exact fun reached => Nat.lt_of_lt_of_le (apart.pages reached).1 framed.pages.grows

/-! ## States that were there before -/

abbrev DeltaHeap.Grown (heap next : DeltaHeap) : Prop :=
  heap.Framed (fun _ => False) (fun _ => False) (fun _ => False) next

namespace DeltaHeap.Grown

variable {middle : DeltaHeap} {state : DeltaState}

theorem refl (heap : DeltaHeap) : heap.Grown heap :=
  ⟨Frame.refl _ _, Frame.refl _ _, Frame.refl _ _, List.prefix_rfl⟩

theorem trans (first : heap.Grown middle) (second : middle.Grown next) : heap.Grown next :=
  ⟨first.chunks.trans second.chunks, first.blocks.trans second.blocks,
    first.pages.trans second.pages, first.records.trans second.records⟩

theorem apart (reachable : spine.Reachable heap) :
    spine.Apart (fun _ => False) (fun _ => False) (fun _ => False) heap :=
  ⟨fun reached => ⟨reachable.chunks reached, id⟩, fun reached => ⟨reachable.blocks reached, id⟩,
    fun reached => ⟨reachable.pages reached, id⟩⟩

theorem cells_eq (grown : heap.Grown next) (valid : state.Valid hash heap)
    (sound : heap.Valid hash) : state.spine.cells next = state.spine.cells heap :=
  (apart valid.reachable).cells_eq grown sound

theorem valid (grown : heap.Grown next) (valid : state.Valid hash heap) (sound : heap.Valid hash) :
    state.Valid hash next where
  capacity := valid.capacity
  covers := valid.covers
  reachable := (apart valid.reachable).reachable grown
  probed := by
    rw [grown.cells_eq valid sound]
    exact valid.probed
  counted := by
    rw [grown.cells_eq valid sound]
    exact valid.counted

theorem effect {builder after : DeltaBuilder} (grown : heap.Grown middle)
    (writing : builder.Writing heap middle) (effect : builder.Effect middle after next)
    (records : middle.records <+: next.records) : heap.Grown next where
  chunks := grown.chunks.trans_above effect.chunks.frame writing.chunks.not_touched_of_lt
  blocks := grown.blocks.trans_above effect.blocks.frame writing.blocks.not_touched_of_lt
  pages := grown.pages.trans_above effect.pages.frame writing.pages.not_touched_of_lt
  records := grown.records.trans records

end DeltaHeap.Grown

/-! ## Two builders on one heap -/

structure DeltaBuilder.Apart (left right : DeltaBuilder) : Prop where
  chunks : ∀ address, Touched left.mutableChunks address → ¬ Touched right.mutableChunks address
  blocks : ∀ address, Touched left.mutableBlocks address → ¬ Touched right.mutableBlocks address
  pages : ∀ address, Touched left.mutablePages address → ¬ Touched right.mutablePages address

theorem DeltaBuilder.Apart.symm {left right : DeltaBuilder} (apart : left.Apart right) :
    right.Apart left :=
  ⟨fun address hit both => apart.chunks address both hit,
    fun address hit both => apart.blocks address both hit,
    fun address hit both => apart.pages address both hit⟩

/-- A builder whose cells form a probed table with `size` entries. -/
structure DeltaBuilder.Staging (hash : Key → UInt64) (start heap : DeltaHeap)
    (builder : DeltaBuilder) : Prop where
  writing : builder.Writing start heap
  capacity : DeltaCapacity builder.previous.capacity
  probed : Probed (fun key => readPath builder.previous.capacity (hash key))
    (builder.spine.cells heap)
  counted : occupancy builder.previous.capacity (builder.spine.cells heap) = builder.size

structure DeltaBuilder.Ready (hash : Key → UInt64) (start heap : DeltaHeap) (builder : DeltaBuilder)
    (key : Key) (prepared : PreparedSlot) : Prop where
  staging : builder.Staging hash start heap
  target : ∃ pageIndex, (pageIndex, prepared.page) ∈ builder.mutablePages ∧
    Target builder.spine heap builder.previous.capacity key
      (readPath builder.previous.capacity (hash key)) pageIndex prepared.slot prepared.inserted
  hashed : prepared.hash = hash key
  control : prepared.control = fingerprint (hash key)

namespace DeltaBuilder

variable {start : DeltaHeap} {builder after other further : DeltaBuilder} {key : Key}
  {prepared : PreparedSlot}

theorem Writing.framed (writing : builder.Writing start heap)
    (apart : builder.spine.Apart chunks blocks pages heap)
    (framed : heap.Framed chunks blocks pages next) : builder.Writing start next where
  chunks := writing.chunks.mono framed.chunks.grows
  blocks := by
    rw [apart.blockTable_eq framed]
    exact writing.blocks.mono framed.blocks.grows
  pages := by
    rw [apart.pageTable_eq framed]
    exact writing.pages.mono framed.pages.grows
  covers := writing.covers

theorem Staging.framed (staging : builder.Staging hash start heap) (sound : heap.Valid hash)
    (apart : builder.spine.Apart chunks blocks pages heap)
    (framed : heap.Framed chunks blocks pages next) : builder.Staging hash start next where
  writing := staging.writing.framed apart framed
  capacity := staging.capacity
  probed := by
    rw [apart.cells_eq framed sound]
    exact staging.probed
  counted := by
    rw [apart.cells_eq framed sound]
    exact staging.counted

theorem Ready.framed (ready : builder.Ready hash start heap key prepared) (sound : heap.Valid hash)
    (apart : builder.spine.Apart chunks blocks pages heap)
    (framed : heap.Framed chunks blocks pages next) :
    builder.Ready hash start next key prepared := by
  refine ⟨ready.staging.framed sound apart framed, ?_, ready.hashed, ready.control⟩
  obtain ⟨pageIndex, copied, target⟩ := ready.target
  have cells := apart.cells_eq framed sound
  exact ⟨pageIndex, copied, by rw [cells]; exact target.placed, target.small, target.inside,
    by rw [cells]; exact target.vacant⟩

theorem Writing.reachable (writing : builder.Writing start heap) : builder.spine.Reachable heap :=
  ⟨writing.chunks.settled, writing.blocks.settled, writing.pages.settled⟩

theorem Writing.apart (mine : builder.Writing start heap) (theirs : other.Writing start heap)
    (apart : builder.Apart other) :
    builder.spine.Apart (Touched other.mutableChunks) (Touched other.mutableBlocks)
      (Touched other.mutablePages) heap :=
  ⟨mine.chunks.untouched theirs.chunks apart.chunks,
    mine.blocks.untouched theirs.blocks apart.blocks,
    mine.pages.untouched theirs.pages apart.pages⟩

theorem Effect.framed (effect : other.Effect heap further next)
    (records : heap.records <+: next.records) :
    heap.Framed (Touched other.mutableChunks) (Touched other.mutableBlocks)
      (Touched other.mutablePages) next :=
  ⟨effect.chunks.frame, effect.blocks.frame, effect.pages.frame, records⟩

theorem Effect.apart (effect : other.Effect heap further next) (mine : builder.Writing start heap)
    (apart : builder.Apart other) : builder.Apart further :=
  ⟨effect.chunks.apart apart.chunks fun copied => (mine.chunks.fresh copied).2,
    effect.blocks.apart apart.blocks fun copied => (mine.blocks.fresh copied).2,
    effect.pages.apart apart.pages fun copied => (mine.pages.fresh copied).2⟩

/-! ## One builder -/

theorem Staging.of_start {previous : DeltaState} {arena : Option Nat}
    (valid : previous.Valid hash heap) (done : DeltaBuilder.start previous arena = some builder) :
    builder.Staging hash heap heap ∧ builder.spine = previous.spine ∧ builder.previous = previous ∧
      builder.mutablePages = [] ∧ builder.mutableBlocks = [] ∧ builder.mutableChunks = [] := by
  have fields : builder.spine = previous.spine ∧ builder.previous = previous ∧
      builder.size = previous.size ∧ builder.mutablePages = [] ∧ builder.mutableBlocks = [] ∧
      builder.mutableChunks = [] := by
    revert done
    fun_cases DeltaBuilder.start previous arena with
    | case2 => nofun
    | _ =>
      intro made
      rw [← Option.some.inj made]
      exact ⟨rfl, rfl, rfl, rfl, rfl, rfl⟩
  obtain ⟨spine, same, size, pages, blocks, chunks⟩ := fields
  refine ⟨⟨⟨?_, ?_, ?_, ?_⟩, ?_, ?_, ?_⟩, spine, same, pages, blocks, chunks⟩
  · rw [spine, chunks]
    exact Settled.private valid.reachable.chunks
  · rw [spine, blocks]
    exact Settled.private valid.reachable.blocks
  · rw [spine, pages]
    exact Settled.private valid.reachable.pages
  · rw [spine, same]
    exact valid.covers
  · rw [same]
    exact valid.capacity
  · rw [spine, same]
    exact valid.probed
  · rw [spine, same, size]
    exact valid.counted

theorem Staging.freeze (staging : builder.Staging hash start heap) :
    builder.freeze.Valid hash heap where
  capacity := staging.capacity
  covers := staging.writing.covers
  reachable := staging.writing.reachable
  probed := staging.probed
  counted := staging.counted

structure Prepares (hash : Key → UInt64) (start heap : DeltaHeap) (builder : DeltaBuilder)
    (key : Key) (prepared : PreparedSlot) (next : DeltaHeap) (after : DeltaBuilder) : Prop where
  ready : after.Ready hash start next key prepared
  effect : builder.Effect heap after next
  cells : after.spine.cells next = builder.spine.cells heap
  sound : next.Valid hash
  records : next.records = heap.records
  arenas : next.arenas = heap.arenas
  previous : after.previous = builder.previous
  arena : after.allocationArena = builder.allocationArena

theorem Staging.prepare (staging : builder.Staging hash start heap) (sound : heap.Valid hash)
    (done : builder.prepare heap (hash key) key = some (prepared, next, after)) :
    Prepares hash start heap builder key prepared next after := by
  revert done
  fun_cases DeltaBuilder.prepare builder heap (hash key) key with
  | case1 => nofun
  | case2 => nofun
  | case3 pageIndex slot inserted found _ page _ _ copying =>
    rintro ⟨⟩
    have target := (prepareFrom_place staging.writing.pages.settled sound key
      (staging.capacity.probeStart (hash key))).1 found
    have copied := mutablePage_copied staging.writing sound
      (Nat.lt_of_le_of_lt (Nat.le_add_right _ slot) target.inside) copying
    have same : after.previous = builder.previous := by rw [copied.after_eq]
    have size : after.size = builder.size := by rw [copied.after_eq]
    constructor
    case ready =>
      refine ⟨⟨copied.writing, ?_, ?_, ?_⟩, ⟨pageIndex, copied.copied, ?_⟩, rfl, rfl⟩
      · rw [same]
        exact staging.capacity
      · rw [same, copied.cells]
        exact staging.probed
      · rw [same, copied.cells, size]
        exact staging.counted
      · refine ⟨?_, target.small, ?_, ?_⟩
        · rw [copied.cells, same]
          exact target.placed
        · rw [same]
          exact target.inside
        · rw [copied.cells]
          exact target.vacant
    case effect => exact copied.effect
    case cells => exact copied.cells
    case sound => exact copied.sound
    case records => exact copied.records
    case arenas => exact copied.arenas
    case previous => exact same
    case arena =>
      unfold allocationArena
      rw [copied.after_eq]

theorem cells_ne_tombstone (spine : DeltaSpine) (heap : DeltaHeap) (slot : Nat) :
    spine.cells heap slot ≠ .tombstone := by
  unfold cells through
  split
  · exact pageCell_ne_tombstone _
  · exact nofun

section Written

variable {record : DeltaRecord}

theorem pageCell_write (valid : page.Valid hash records) (small : prepared.slot < kDeltaPageSlots)
    (control : prepared.control = fingerprint (hash key)) (stored : records[address]? = some record)
    (own : record.key = key) (offset : Nat) :
    pageCell records (page.write prepared address) offset =
      if offset = prepared.slot then .occupied key record
      else pageCell records page offset := by
  have byte : (page.write prepared address).control.getD offset kSwissEmpty =
      if offset = prepared.slot then prepared.control else page.control.getD offset kSwissEmpty :=
    getD_set _ _ (by rw [valid.control]; exact small) _
  have pointer : (page.write prepared address).records.getD offset none =
      if offset = prepared.slot then some address else page.records.getD offset none :=
    getD_set _ _ (by rw [valid.cells]; exact small) _
  by_cases here : offset = prepared.slot
  · rw [if_pos here] at byte pointer ⊢
    refine pageCell_eq_occupied.mpr ⟨?_, by rw [pointer]; exact stored, own⟩
    rw [byte, control]
    exact fingerprint_ne_empty _
  · rw [if_neg here] at byte pointer ⊢
    simp only [pageCell, byte, pointer]

theorem write_valid (valid : page.Valid hash records) (small : prepared.slot < kDeltaPageSlots)
    (hashed : prepared.hash = hash key) (control : prepared.control = fingerprint (hash key))
    (stored : records[address]? = some record) (own : record.key = key) :
    (page.write prepared address).Valid hash records := by
  refine ⟨List.length_set.trans valid.control, List.length_set.trans valid.hashes,
    List.length_set.trans valid.cells, ?_⟩
  intro offset full
  simp only [DeltaPage.write] at full ⊢
  rw [getD_set _ _ (by rw [valid.control]; exact small)] at full
  rw [getD_set _ _ (by rw [valid.cells]; exact small), getD_set _ _ (by rw [valid.hashes]; exact small),
    getD_set _ _ (by rw [valid.control]; exact small)]
  by_cases here : offset = prepared.slot
  · rw [if_pos here, if_pos here, if_pos here]
    exact ⟨address, record, rfl, stored, by rw [hashed, own], by rw [control, own]⟩
  · rw [if_neg here] at full
    rw [if_neg here, if_neg here, if_neg here]
    exact valid.full full

end Written

structure Commits (hash : Key → UInt64) (start heap : DeltaHeap) (builder : DeltaBuilder)
    (key : Key) (record : DeltaRecord) (next : DeltaHeap) (after : DeltaBuilder) : Prop where
  staging : after.Staging hash start next
  effect : builder.Effect heap after next
  binds : ∀ other payload, Binds (after.spine.cells next) other payload ↔
    (other = key ∧ payload = record) ∨ (other ≠ key ∧ Binds (builder.spine.cells heap) other payload)
  sound : next.Valid hash
  records : next.records = heap.records
  arenas : next.arenas = heap.arenas
  previous : after.previous = builder.previous
  arena : after.allocationArena = builder.allocationArena

variable {pageIndex : Nat}

/-- A prepared slot is the key's own or a vacant one, and its flag says which; so
writing it keeps the table probed and its size right. -/
theorem Ready.update (ready : builder.Ready hash start heap key prepared)
    (target : Target builder.spine heap builder.previous.capacity key
      (readPath builder.previous.capacity (hash key)) pageIndex prepared.slot prepared.inserted)
    (record : DeltaRecord) {cells : Nat → Cell Key DeltaRecord}
    (written : cells = Function.update (builder.spine.cells heap)
      (pageIndex * kDeltaPageSlots + prepared.slot) (.occupied key record)) :
    Probed (fun key => readPath builder.previous.capacity (hash key)) cells ∧
      occupancy builder.previous.capacity cells =
        (if prepared.inserted then builder.size + 1 else builder.size) ∧
      ∀ other payload, Binds cells other payload ↔
        (other = key ∧ payload = record) ∨
          (other ≠ key ∧ Binds (builder.spine.cells heap) other payload) := by
  have staging := ready.staging
  rw [written]
  rcases staging.probed.place_spec target.placed with ⟨old, holds⟩ | free
  · have kept : ¬ prepared.inserted = true := by
      rw [target.vacant, holds]
      exact nofun
    rw [if_neg kept, occupancy_assign holds, staging.counted]
    exact ⟨staging.probed.assign holds record, rfl, (staging.probed.owned holds).binds_occupied record⟩
  · have vacant := free.unoccupied.resolve_right (cells_ne_tombstone _ _ _)
    rw [if_pos (target.vacant.mpr vacant), occupancy_insert target.inside (by rw [vacant]; rfl),
      staging.counted]
    exact ⟨staging.probed.insert free record, rfl, free.owned.binds_occupied record⟩

variable {record : DeltaRecord}

theorem Ready.cells (ready : builder.Ready hash start heap key prepared) (sound : heap.Valid hash)
    (copied : (pageIndex, prepared.page) ∈ builder.mutablePages)
    (small : prepared.slot < kDeltaPageSlots) (stored : heap.records[address]? = some record)
    (own : record.key = key) :
    builder.spine.cells (heap.setPage prepared.page
        ((heap.pages.getD prepared.page default).write prepared address)) =
      Function.update (builder.spine.cells heap) (pageIndex * kDeltaPageSlots + prepared.slot)
        (.occupied key record) := by
  have pages := ready.staging.writing.pages
  have page := getElem?_of_lt (pages.fresh copied).2
  have entries := pageCell_write (sound.pages _ (List.mem_of_getElem? page)) small ready.control
    stored own
  have quotient : (pageIndex * kDeltaPageSlots + prepared.slot) / kDeltaPageSlots = pageIndex := by
    simp only [kDeltaPageSlots] at *
    omega
  have remainder : (pageIndex * kDeltaPageSlots + prepared.slot) % kDeltaPageSlots =
      prepared.slot := by
    simp only [kDeltaPageSlots] at *
    omega
  refine through_write pages (by rw [quotient]; exact copied) page ?_ ?_
  · rw [remainder]
    exact (entries prepared.slot).trans (if_pos rfl)
  · intro offset different
    rw [remainder] at different
    exact (entries offset).trans (if_neg different)

theorem Ready.commit (ready : builder.Ready hash start heap key prepared) (sound : heap.Valid hash)
    (stored : heap.records[address]? = some record) (own : record.key = key)
    (done : builder.commit heap prepared address = (next, after)) :
    Commits hash start heap builder key record next after := by
  obtain ⟨pageIndex, copied, target⟩ := ready.target
  have writing := ready.staging.writing
  obtain ⟨probed, counted, binds⟩ := ready.update target record
    (ready.cells sound copied target.small stored own)
  obtain ⟨rfl, rfl⟩ := by simpa only [DeltaBuilder.commit, Prod.mk.injEq] using done
  constructor
  case staging =>
    refine ⟨⟨writing.chunks, writing.blocks, ?_, writing.covers⟩, ready.staging.capacity, probed,
      counted⟩
    show Private _ (heap.pages.set _ _).length _ _
    rw [List.length_set]
    exact writing.pages
  case effect => exact ⟨Change.refl _ _, Change.refl _ _, Change.write ⟨_, copied⟩ _ _⟩
  case binds => exact binds
  case sound =>
    refine ⟨?_, sound.blocks, sound.chunks, sound.small⟩
    have page := getElem?_of_lt (writing.pages.fresh copied).2
    intro other member
    rcases List.mem_or_eq_of_mem_set member with old | rfl
    · exact sound.pages other old
    · exact write_valid (sound.pages _ (List.mem_of_getElem? page)) target.small ready.hashed
        ready.control stored own
  case records => rfl
  case arenas => rfl
  case previous => rfl
  case arena => rfl

end DeltaBuilder

/-! ## Storing records -/

def DeltaRecord.ofView (source : ReadRecordView) : DeltaRecord where
  record := source.record
  key := source.key
  pin := source.pin.1
  opcode := source.opcode
  durable := source.pin.2

variable {arena : Nat} {source : ReadRecordView}

theorem DeltaHeap.store_grown (done : heap.store arena source = some (address, next)) :
    heap.Grown next ∧ next.records[address]? = some (DeltaRecord.ofView source) ∧
      source.key.length ≤ kUInt32Max ∧ next.records = heap.records ++ [DeltaRecord.ofView source] ∧
      next.pages = heap.pages ∧ next.blocks = heap.blocks ∧ next.chunks = heap.chunks := by
  revert done
  fun_cases DeltaHeap.store heap arena source with
  | case1 => nofun
  | case2 _ refused =>
    rintro ⟨⟩
    refine ⟨⟨Frame.refl _ _, Frame.refl _ _, Frame.refl _ _, List.prefix_append _ _⟩, ?_, ?_, rfl,
      rfl, rfl, rfl⟩
    · rw [List.getElem?_append_right (Nat.le_refl _), Nat.sub_self]
      rfl
    · rw [not_or] at refused
      omega

theorem DeltaHeap.Valid.store (sound : heap.Valid hash)
    (done : heap.store arena source = some (address, next)) : next.Valid hash := by
  obtain ⟨grown, -, small, records, pages, blocks, chunks⟩ := DeltaHeap.store_grown done
  refine ⟨?_, by rw [blocks]; exact sound.blocks, by rw [chunks]; exact sound.chunks, ?_⟩
  · rw [pages]
    exact fun page member => (sound.pages page member).mono grown.records
  · rw [records]
    intro record member
    rcases List.mem_append.mp member with old | new
    · exact sound.small record old
    · rw [List.mem_singleton.mp new]
      exact small

end GlifiStore
