import GlifiStore.Paired.DeltaState

/-!
# What a delta builder changes

A spine is read as tables of addresses, each through the objects of the level
above, and a delta as the cells of an open-addressing table read through its
pages. A builder then writes one cell with every committed mutation, and only
objects that are its own copies.
-/

namespace GlifiStore

open ByteLayout OpenAddressing ReadTable CopyOnWrite

/-! ## Tables of addresses -/

namespace DeltaSpine

variable (spine : DeltaSpine)

def chunkTable (index : Nat) : Option Nat :=
  spine.directoryChunks.getD index none

variable (heap : DeltaHeap)

def blockTable : Nat → Option Nat :=
  through kDeltaDirectoryChunkBlocks (fun chunk offset => chunk.blocks.getD offset none) none
    spine.chunkTable heap.chunks

def pageTable : Nat → Option Nat :=
  if spine.directoryChunks = [] then
    (spine.flatPages.getD · none)
  else
    through kDeltaDirectoryBlockPages (fun block offset => block.pages.getD offset none) none
      (spine.blockTable heap) heap.blocks

def pageCell (records : List DeltaRecord) (page : DeltaPage) (offset : Nat) :
    Cell Key DeltaRecord :=
  if page.control.getD offset kSwissEmpty = kSwissEmpty then
    .vacant
  else
    match (page.records.getD offset none).bind (records[·]?) with
    | some record => .occupied record.key record
    | none => .vacant

def cells : Nat → Cell Key DeltaRecord :=
  through kDeltaPageSlots (pageCell heap.records) .vacant (spine.pageTable heap) heap.pages

theorem blank_chunk (offset : Nat) :
    (default : DeltaDirectoryChunk).blocks.getD offset none = none := by
  show (List.replicate kDeltaDirectoryChunkBlocks none).getD offset none = none
  rw [List.getD_eq_getElem?_getD, List.getElem?_replicate]
  split <;> rfl

theorem blank_block (offset : Nat) :
    (default : DeltaDirectoryBlock).pages.getD offset none = none := by
  show (List.replicate kDeltaDirectoryBlockPages none).getD offset none = none
  rw [List.getD_eq_getElem?_getD, List.getElem?_replicate]
  split <;> rfl

theorem blank_control (offset : Nat) :
    (default : DeltaPage).control.getD offset kSwissEmpty = kSwissEmpty := by
  show (List.replicate kDeltaPageSlots kSwissEmpty).getD offset kSwissEmpty = kSwissEmpty
  rw [List.getD_eq_getElem?_getD, List.getElem?_replicate]
  split <;> rfl

theorem blank_page (records : List DeltaRecord) (offset : Nat) :
    pageCell records default offset = .vacant := by
  rw [pageCell, if_pos (blank_control offset)]

theorem pageAt_eq (pageIndex : Nat) :
    spine.pageAt heap pageIndex = spine.pageTable heap pageIndex := by
  unfold pageAt pageTable
  by_cases flat : spine.directoryChunks = []
  · rw [if_pos flat, if_pos flat]
  · rw [if_neg flat, if_neg flat]
    simp only [through, blockTable, chunkTable]
    cases spine.directoryChunks.getD
        (pageIndex / kDeltaDirectoryBlockPages / kDeltaDirectoryChunkBlocks) none with
    | none => rfl
    | some chunk =>
      simp only [List.getD_eq_getElem?_getD, Option.bind_some]
      cases heap.chunks[chunk]? with
      | none =>
        simp only [Option.getD_none]
        rw [← List.getD_eq_getElem?_getD, blank_chunk]
        rfl
      | some stored =>
        simp only [Option.getD_some]
        cases stored.blocks[pageIndex / kDeltaDirectoryBlockPages %
            kDeltaDirectoryChunkBlocks]?.getD none with
        | none => rfl
        | some block =>
          simp only [Option.bind_some]
          cases heap.blocks[block]? with
          | none =>
            simp only [Option.getD_none]
            rw [← List.getD_eq_getElem?_getD, blank_block]
          | some stored => rfl

end DeltaSpine

/-! ## Heaps and states -/

/-- A page whose full slots lead to records with the slot's hash and fingerprint. -/
structure DeltaPage.Valid (hash : Key → UInt64) (records : List DeltaRecord) (page : DeltaPage) :
    Prop where
  control : page.control.length = kDeltaPageSlots
  hashes : page.hashes.length = kDeltaPageSlots
  cells : page.records.length = kDeltaPageSlots
  full : ∀ {offset}, page.control.getD offset kSwissEmpty ≠ kSwissEmpty →
    ∃ address record, page.records.getD offset none = some address ∧
      records[address]? = some record ∧ page.hashes.getD offset 0 = hash record.key ∧
      page.control.getD offset kSwissEmpty = fingerprint (hash record.key)

structure DeltaHeap.Valid (hash : Key → UInt64) (heap : DeltaHeap) : Prop where
  pages : ∀ page ∈ heap.pages, page.Valid hash heap.records
  blocks : ∀ block ∈ heap.blocks, block.pages.length = kDeltaDirectoryBlockPages
  chunks : ∀ chunk ∈ heap.chunks, chunk.blocks.length = kDeltaDirectoryChunkBlocks
  small : ∀ record ∈ heap.records, record.key.length ≤ kUInt32Max

def DeltaSpine.Covers (spine : DeltaSpine) (capacity : Nat) : Prop :=
  if spine.directoryChunks = [] then
    capacity ≤ spine.flatPages.length * kDeltaPageSlots
  else
    capacity ≤ spine.directoryChunks.length * kDeltaDirectoryChunkBlocks *
      kDeltaDirectoryBlockPages * kDeltaPageSlots

/-- Everything a spine reaches is allocated. -/
structure DeltaSpine.Reachable (spine : DeltaSpine) (heap : DeltaHeap) : Prop where
  chunks : Settled heap.chunks.length spine.chunkTable
  blocks : Settled heap.blocks.length (spine.blockTable heap)
  pages : Settled heap.pages.length (spine.pageTable heap)

structure DeltaCapacity (capacity : Nat) : Prop extends Whole capacity where
  paged : capacity % kDeltaPageSlots = 0

structure DeltaState.Valid (hash : Key → UInt64) (heap : DeltaHeap) (state : DeltaState) : Prop where
  capacity : DeltaCapacity state.capacity
  covers : state.spine.Covers state.capacity
  reachable : state.spine.Reachable heap
  probed : Probed (fun key => readPath state.capacity (hash key)) (state.spine.cells heap)
  counted : occupancy state.capacity (state.spine.cells heap) = state.size

variable {offset : Nat} {key : Key} {record : DeltaRecord}

section Pages

variable {hash : Key → UInt64} {records : List DeltaRecord} {page : DeltaPage}

open DeltaSpine (pageCell)

theorem pageCell_eq_occupied :
    pageCell records page offset = .occupied key record ↔
      page.control.getD offset kSwissEmpty ≠ kSwissEmpty ∧
        (page.records.getD offset none).bind (records[·]?) = some record ∧ record.key = key := by
  unfold pageCell
  by_cases empty : page.control.getD offset kSwissEmpty = kSwissEmpty
  · rw [if_pos empty]
    exact ⟨nofun, fun full => absurd empty full.1⟩
  · rw [if_neg empty]
    cases (page.records.getD offset none).bind (records[·]?) with
    | none => exact ⟨nofun, fun full => nomatch full.2.1⟩
    | some stored =>
      simp only [Cell.occupied.injEq, Option.some.injEq]
      constructor
      · rintro ⟨rfl, rfl⟩
        exact ⟨empty, rfl, rfl⟩
      · rintro ⟨-, rfl, rfl⟩
        exact ⟨rfl, rfl⟩

theorem pageCell_ne_tombstone (offset : Nat) : pageCell records page offset ≠ .tombstone := by
  unfold pageCell
  split
  · exact nofun
  · split <;> exact nofun

theorem DeltaPage.Valid.pageCell_eq_vacant (valid : page.Valid hash records) :
    pageCell records page offset = .vacant ↔
      page.control.getD offset kSwissEmpty = kSwissEmpty := by
  constructor
  · intro vacant
    refine Classical.byContradiction fun full => ?_
    obtain ⟨address, record, pointer, stored, -⟩ := valid.full full
    have occupied : pageCell records page offset = .occupied record.key record :=
      pageCell_eq_occupied.mpr ⟨full, by rw [pointer]; exact stored, rfl⟩
    rw [vacant] at occupied
    exact nomatch occupied
  · intro empty
    rw [pageCell, if_pos empty]

theorem DeltaPage.Valid.slotAgrees {heap : DeltaHeap} (valid : page.Valid hash heap.records)
    (key : Key) (offset : Nat) :
    SlotAgrees (pageCell heap.records page offset) key (page.control.getD offset kSwissEmpty)
      (fingerprint (hash key)) (page.compare heap (hash key) key offset) where
  live := pageCell_ne_tombstone offset
  vacant := valid.pageCell_eq_vacant.symm
  hit := by
    intro record holds
    obtain ⟨full, stored, rfl⟩ := pageCell_eq_occupied.mp holds
    obtain ⟨address, other, pointer, same, hashed, byte⟩ := valid.full full
    obtain rfl : other = record := by
      rw [pointer, Option.bind_some, same] at stored
      exact Option.some.inj stored
    exact ⟨byte, by simp only [compare, stored, hashed, and_self, if_true]⟩
  miss := by
    intro other record holds different _
    obtain ⟨-, stored, rfl⟩ := pageCell_eq_occupied.mp holds
    simp only [compare, stored]
    rw [if_neg fun both => different both.2]

end Pages

/-! ## Probing -/

section Probing

variable {hash : Key → UInt64} {heap : DeltaHeap} {spine : DeltaSpine} {capacity : Nat}
variable {groupStart : Nat} {state : DeltaState}

theorem group_on_page (start : SwissTableIndex.GroupStart capacity groupStart)
    (small : offset < kSwissGroupSize) :
    (groupStart + offset) / kDeltaPageSlots = groupStart / kDeltaPageSlots ∧
      (groupStart + offset) % kDeltaPageSlots = groupStart % kDeltaPageSlots + offset ∧
      groupStart % kDeltaPageSlots + kSwissGroupSize ≤ kDeltaPageSlots := by
  have aligned := start.aligned
  simp only [kSwissGroupSize, kDeltaPageSlots] at *
  omega

theorem DeltaHeap.Valid.groupAgrees (valid : heap.Valid hash) (key : Key) {address : Nat}
    (start : SwissTableIndex.GroupStart capacity groupStart)
    (reached : spine.pageTable heap (groupStart / kDeltaPageSlots) = some address)
    (allocated : address < heap.pages.length) :
    GroupAgrees (spine.cells heap) key (heap.pages.getD address default).control
      (groupStart % kDeltaPageSlots) (fingerprint (hash key))
      ((heap.pages.getD address default).compare heap (hash key) key) groupStart := by
  have stored : heap.pages[address]? = some (heap.pages.getD address default) := by
    rw [List.getD_eq_getElem?_getD, List.getElem?_eq_getElem allocated]
    rfl
  have page := valid.pages _ (List.mem_of_getElem? stored)
  refine ⟨?_, ?_⟩
  · rw [page.control]
    exact (group_on_page start (by decide : 0 < kSwissGroupSize)).2.2
  · intro offset small
    obtain ⟨samePage, place, -⟩ := group_on_page start small
    have cell : spine.cells heap (groupStart + offset) =
        DeltaSpine.pageCell heap.records (heap.pages.getD address default)
          (groupStart % kDeltaPageSlots + offset) := by
      rw [DeltaSpine.cells, through_some (by rw [samePage]; exact reached) stored, place]
    rw [cell]
    exact page.slotAgrees key _

theorem cells_of_no_page (start : SwissTableIndex.GroupStart capacity groupStart)
    (missing : spine.pageTable heap (groupStart / kDeltaPageSlots) = none)
    (small : offset < kSwissGroupSize) : spine.cells heap (groupStart + offset) = .vacant := by
  obtain ⟨samePage, -, -⟩ := group_on_page start small
  exact through_none (by rw [samePage]; exact missing)

theorem range_group : List.range kSwissGroupSize = 0 :: (List.range (kSwissGroupSize - 1)).map (· + 1) := by
  decide

theorem DeltaState.Valid.find_eq (valid : state.Valid hash heap) (sound : heap.Valid hash)
    (key : Key) :
    state.find heap (hash key) key =
      fetch (state.spine.cells heap) key (readPath state.capacity (hash key)) := by
  refine findGroups_fetch _ _ (valid.capacity.probeStart (hash key)) fun groupStart start rest => ?_
  rw [DeltaState.findGroup, DeltaSpine.pageAt_eq]
  cases reached : state.spine.pageTable heap (groupStart / kDeltaPageSlots) with
  | none =>
    rw [range_group, List.map_cons, List.cons_append,
      fetch_cons_of_vacant (cells_of_no_page start reached (by decide))]
  | some address =>
    exact findInGroup_fetch
      (sound.groupAgrees key start reached (valid.reachable.pages reached)) rest
      (List.range kSwissGroupSize) (by simp)

theorem DeltaState.Valid.find_iff (valid : state.Valid hash heap) (sound : heap.Valid hash) :
    state.find heap (hash key) key = some record ↔ Binds (state.spine.cells heap) key record := by
  rw [valid.find_eq sound]
  exact valid.probed.fetch_iff

theorem DeltaState.Valid.find_eq_none (valid : state.Valid hash heap) (sound : heap.Valid hash) :
    state.find heap (hash key) key = none ↔
      ∀ record, ¬ Binds (state.spine.cells heap) key record := by
  rw [valid.find_eq sound]
  exact valid.probed.fetch_eq_none

/-- What `prepare` finds before it copies a page. -/
structure Target (spine : DeltaSpine) (heap : DeltaHeap) (capacity : Nat) (key : Key)
    (path : List Nat) (pageIndex slot : Nat) (inserted : Bool) : Prop where
  placed : place (spine.cells heap) key none path = some (pageIndex * kDeltaPageSlots + slot)
  small : slot < kDeltaPageSlots
  inside : pageIndex * kDeltaPageSlots + slot < capacity
  vacant : inserted = true ↔ spine.cells heap (pageIndex * kDeltaPageSlots + slot) = .vacant

theorem DeltaBuilder.prepareFrom_place {builder : DeltaBuilder}
    (reachable : Settled heap.pages.length (builder.spine.pageTable heap)) (sound : heap.Valid hash)
    (key : Key) {groups : Nat}
    (start : SwissTableIndex.GroupStart builder.previous.capacity groupStart) :
    let path := SwissTableIndex.groupPath builder.previous.capacity groups groupStart
    let found := builder.prepareFrom heap (hash key) key groups groupStart
    (∀ {pageIndex slot inserted}, found = some (pageIndex, slot, inserted) →
      Target builder.spine heap builder.previous.capacity key path pageIndex slot inserted) ∧
    (found = none → place (builder.spine.cells heap) key none path = none) := by
  induction groups generalizing groupStart with
  | zero => exact ⟨by simp [prepareFrom], fun _ => rfl⟩
  | succ groups ih =>
    have fits := start.fits
    have whole := Nat.div_add_mod groupStart kDeltaPageSlots
    rw [prepareFrom, prepareGroup, DeltaSpine.pageAt_eq, SwissTableIndex.groupPath]
    cases reached : builder.spine.pageTable heap (groupStart / kDeltaPageSlots) with
    | none =>
      refine ⟨fun found => ?_, by simp⟩
      obtain ⟨rfl, rfl, rfl⟩ : groupStart / kDeltaPageSlots = _ ∧
          groupStart % kDeltaPageSlots = _ ∧ true = _ := by simpa using found
      have first := cells_of_no_page start reached (by decide : 0 < kSwissGroupSize)
      have position : groupStart / kDeltaPageSlots * kDeltaPageSlots +
          groupStart % kDeltaPageSlots = groupStart + 0 := by
        rw [Nat.mul_comm]
        omega
      refine ⟨?_, Nat.mod_lt _ (by decide), ?_, ?_⟩
      · rw [range_group, List.map_cons, List.cons_append, place, first, position]
        rfl
      · have := start.inside
        omega
      · rw [position, first]
        simp
    | some address =>
      have agrees := sound.groupAgrees key start reached (reachable reached)
      obtain ⟨chooses, passes⟩ := prepareInGroup_place agrees
        (SwissTableIndex.groupPath builder.previous.capacity groups
          (SwissTableIndex.nextGroup groupStart builder.previous.capacity))
        (List.range kSwissGroupSize) (by simp)
      dsimp only
      generalize prepareInGroup _ _ _ _ _ = found at chooses passes ⊢
      cases found with
      | some chosen =>
        obtain ⟨offset, flag⟩ := chosen
        refine ⟨fun found => ?_, by simp⟩
        obtain ⟨rfl, rfl, rfl⟩ : groupStart / kDeltaPageSlots = _ ∧
            groupStart % kDeltaPageSlots + offset = _ ∧ flag = _ := by simpa using found
        obtain ⟨placed, small, vacant⟩ := chooses rfl
        have onPage := (group_on_page start small).2.2
        have position : groupStart / kDeltaPageSlots * kDeltaPageSlots +
            (groupStart % kDeltaPageSlots + offset) = groupStart + offset := by
          rw [Nat.mul_comm]
          omega
        exact ⟨by rw [placed, position], by omega, by omega, by rw [position]; exact vacant⟩
      | none =>
        have placed := passes rfl
        obtain ⟨hits, misses⟩ := ih start.next
        simp only [Option.map_none, nextGroup_eq start, placed]
        refine ⟨fun found => ?_, misses⟩
        have target := hits found
        exact ⟨placed.trans target.placed, target.small, target.inside, target.vacant⟩

end Probing

end GlifiStore
