import GlifiStore.Paired.DeltaBuilder

/-!
# Copying and writing pages

`mutable_page` copies a page together with the block and the chunk above it.
The copy changes no cell; committing a mutation then changes one.
-/

namespace GlifiStore

open ByteLayout OpenAddressing ReadTable CopyOnWrite DeltaSpine

/-- A builder between its start and now: everything it reaches was there when it
started or is a copy of its own. -/
structure DeltaBuilder.Writing (start heap : DeltaHeap) (builder : DeltaBuilder) : Prop where
  chunks : Private start.chunks.length heap.chunks.length builder.spine.chunkTable
    builder.mutableChunks
  blocks : Private start.blocks.length heap.blocks.length (builder.spine.blockTable heap)
    builder.mutableBlocks
  pages : Private start.pages.length heap.pages.length (builder.spine.pageTable heap)
    builder.mutablePages
  covers : builder.spine.Covers builder.previous.capacity

/-- A builder's step writes copies of that builder only. -/
structure DeltaBuilder.Effect (before : DeltaBuilder) (heap : DeltaHeap) (after : DeltaBuilder)
    (next : DeltaHeap) : Prop where
  chunks : Change before.mutableChunks heap.chunks after.mutableChunks next.chunks
  blocks : Change before.mutableBlocks heap.blocks after.mutableBlocks next.blocks
  pages : Change before.mutablePages heap.pages after.mutablePages next.pages

variable {index : Nat}

theorem update_getD {l : List (Option Nat)} (inside : index < l.length) (value : Option Nat) :
    (fun other => (l.set index value).getD other none) =
      Function.update (fun other => l.getD other none) index value := by
  funext other
  rw [getD_set value none inside, Function.update_apply]

variable {α : Type} {objects : List α} {address : Nat}

theorem getElem?_of_lt [Inhabited α] (allocated : address < objects.length) :
    objects[address]? = some (objects.getD address default) := by
  rw [List.getD_eq_getElem?_getD, List.getElem?_eq_getElem allocated]
  rfl

theorem forall_mem_copied [Inhabited α] {property : α → Prop}
    (old : ∀ object ∈ objects, property object) (blank : property default) (address : Option Nat) :
    ∀ object ∈ objects ++ [original objects address], property object := by
  intro object member
  rcases List.mem_append.mp member with kept | new
  · exact old object kept
  rw [List.mem_singleton.mp new, original]
  cases found : address.bind (objects[·]?) with
  | none => exact blank
  | some source =>
    obtain ⟨position, -, stored⟩ := Option.bind_eq_some_iff.mp found
    exact old source (List.mem_of_getElem? stored)

/-- A directory object of the writer takes a new address into one of its entries. -/
theorem set_entry [Inhabited α] {width mark : Nat} {entries : α → List (Option Nat)}
    {table : Nat → Option Nat} {copies : Copies} (own : Private mark objects.length table copies)
    (lengths : ∀ object ∈ objects, (entries object).length = width) (positive : 0 < width)
    (copied : (index / width, address) ∈ copies) (after : α) {value : Option Nat}
    (written : entries after =
      (entries (objects.getD address default)).set (index % width) value) :
    (through width (fun object offset => (entries object).getD offset none) none table
        (objects.set address after) =
      Function.update (through width (fun object offset => (entries object).getD offset none) none
        table objects) index value) ∧
    ∀ object ∈ objects.set address after, (entries object).length = width := by
  have stored := getElem?_of_lt (own.fresh copied).2
  have sized := lengths _ (List.mem_of_getElem? stored)
  have changed := update_getD (Nat.lt_of_lt_of_eq (Nat.mod_lt index positive) sized.symm) value
  constructor
  · refine through_write own copied stored ?_ fun offset different => ?_
    · simpa [written] using congrFun changed (index % width)
    · simpa [written, different] using congrFun changed offset
  · intro object member
    rcases List.mem_or_eq_of_mem_set member with old | rfl
    · exact lengths object old
    · rw [written, List.length_set, sized]

namespace DeltaBuilder

variable {start heap next : DeltaHeap} {builder after : DeltaBuilder}
variable {chunk pageIndex : Nat} {hash : Key → UInt64}

/-! ## Chunks and blocks -/

variable {spine : DeltaSpine}

theorem pageTable_directory (directory : spine.directoryChunks ≠ []) :
    spine.pageTable heap = through kDeltaDirectoryBlockPages
      (fun block offset => block.pages.getD offset none) none (spine.blockTable heap)
      heap.blocks := by
  rw [pageTable, if_neg directory]

structure ChunkCopied (start heap : DeltaHeap) (builder : DeltaBuilder) (chunkIndex chunk : Nat)
    (next : DeltaHeap) (after : DeltaBuilder) : Prop where
  copied : (chunkIndex, chunk) ∈ after.mutableChunks
  own : Private start.chunks.length next.chunks.length after.spine.chunkTable after.mutableChunks
  change : Change builder.mutableChunks heap.chunks after.mutableChunks next.chunks
  table : after.spine.blockTable next = builder.spine.blockTable heap
  length : after.spine.directoryChunks.length = builder.spine.directoryChunks.length
  heap_eq : next = { heap with chunks := next.chunks }
  after_eq : after =
    { builder with
      mutableChunks := after.mutableChunks
      spine.directoryChunks := after.spine.directoryChunks }
  sound : (∀ chunk ∈ heap.chunks, chunk.blocks.length = kDeltaDirectoryChunkBlocks) →
    ∀ chunk ∈ next.chunks, chunk.blocks.length = kDeltaDirectoryChunkBlocks

theorem mutableChunk_copied
    (chunks : Private start.chunks.length heap.chunks.length builder.spine.chunkTable
      builder.mutableChunks) {chunkIndex : Nat}
    (inside : chunkIndex < builder.spine.directoryChunks.length)
    (done : builder.mutableChunk heap chunkIndex = (chunk, next, after)) :
    ChunkCopied start heap builder chunkIndex chunk next after := by
  unfold mutableChunk at done
  cases found : builder.mutableChunks.lookup chunkIndex with
  | some existing =>
    rw [found] at done
    obtain ⟨rfl, rfl, rfl⟩ : existing = chunk ∧ heap = next ∧ builder = after := by
      simpa using done
    exact ⟨mem_of_lookup found, chunks, Change.refl _ _, rfl, rfl, rfl, rfl, id⟩
  | none =>
    rw [found] at done
    cases done
    have table : ({ builder.spine with
          directoryChunks := builder.spine.directoryChunks.set chunkIndex
            (some heap.chunks.length) } : DeltaSpine).chunkTable =
        Function.update builder.spine.chunkTable chunkIndex (some heap.chunks.length) :=
      update_getD inside _
    refine ⟨by simp, ?_, Change.copy _ _ _ _, ?_, List.length_set, rfl, rfl, ?_⟩
    · show Private _ (heap.chunks ++ [_]).length _ _
      rw [table, List.length_append]
      exact chunks.copy (not_mem_of_lookup found)
    · rw [blockTable, table]
      exact through_copy blank_chunk chunks.settled chunkIndex
    · exact fun sound => forall_mem_copied sound rfl _

structure BlockCopied (start heap : DeltaHeap) (builder : DeltaBuilder) (blockIndex block : Nat)
    (next : DeltaHeap) (after : DeltaBuilder) : Prop where
  copied : (blockIndex, block) ∈ after.mutableBlocks
  chunks : Private start.chunks.length next.chunks.length after.spine.chunkTable
    after.mutableChunks
  blocks : Private start.blocks.length next.blocks.length (after.spine.blockTable next)
    after.mutableBlocks
  chunkChange : Change builder.mutableChunks heap.chunks after.mutableChunks next.chunks
  blockChange : Change builder.mutableBlocks heap.blocks after.mutableBlocks next.blocks
  table : after.spine.pageTable next = builder.spine.pageTable heap
  heap_eq : next = { heap with chunks := next.chunks, blocks := next.blocks }
  after_eq : after = { builder with mutableBlocks := after.mutableBlocks }
  soundChunks : (∀ chunk ∈ heap.chunks, chunk.blocks.length = kDeltaDirectoryChunkBlocks) →
    ∀ chunk ∈ next.chunks, chunk.blocks.length = kDeltaDirectoryChunkBlocks
  soundBlocks : (∀ block ∈ heap.blocks, block.pages.length = kDeltaDirectoryBlockPages) →
    ∀ block ∈ next.blocks, block.pages.length = kDeltaDirectoryBlockPages

variable {block : Nat}

theorem mutableBlock_copied
    (chunks : Private start.chunks.length heap.chunks.length builder.spine.chunkTable
      builder.mutableChunks)
    (blocks : Private start.blocks.length heap.blocks.length (builder.spine.blockTable heap)
      builder.mutableBlocks) (directory : builder.spine.directoryChunks ≠ [])
    (lengths : ∀ chunk ∈ heap.chunks, chunk.blocks.length = kDeltaDirectoryChunkBlocks)
    {blockIndex : Nat}
    (copied : (blockIndex / kDeltaDirectoryChunkBlocks, chunk) ∈ builder.mutableChunks)
    (done : builder.mutableBlock heap chunk blockIndex = (block, next, after)) :
    BlockCopied start heap builder blockIndex block next after := by
  unfold mutableBlock at done
  cases found : builder.mutableBlocks.lookup blockIndex with
  | some existing =>
    rw [found] at done
    obtain ⟨rfl, rfl, rfl⟩ : existing = block ∧ heap = next ∧ builder = after := by
      simpa using done
    exact ⟨mem_of_lookup found, chunks, blocks, Change.refl _ _, Change.refl _ _, rfl, rfl, rfl,
      id, id⟩
  | none =>
    rw [found] at done
    cases done
    have reached : builder.spine.blockTable heap blockIndex =
        (heap.chunks.getD chunk default).blocks.getD
          (blockIndex % kDeltaDirectoryChunkBlocks) none :=
      through_some (chunks.placed copied) (getElem?_of_lt (chunks.fresh copied).2)
    obtain ⟨table, widths⟩ := set_entry chunks lengths (by decide) copied
      ⟨(heap.chunks.getD chunk default).blocks.set (blockIndex % kDeltaDirectoryChunkBlocks)
        (some heap.blocks.length)⟩ rfl
    constructor
    case copied => simp
    case chunks =>
      show Private _ (heap.chunks.set _ _).length _ _
      rw [List.length_set]
      exact chunks
    case blocks =>
      show Private _ (heap.blocks ++ [_]).length (through _ _ _ _ _) _
      rw [table, List.length_append]
      exact blocks.copy (not_mem_of_lookup found)
    case chunkChange => exact Change.write ⟨_, copied⟩ _ _
    case blockChange => exact Change.copy _ _ _ _
    case table =>
      rw [pageTable_directory directory, pageTable_directory directory]
      show through _ _ _ (through _ _ _ _ _) (heap.blocks ++ [_]) = _
      rw [table, ← reached]
      exact through_copy blank_block blocks.settled blockIndex
    case heap_eq => rfl
    case after_eq => rfl
    case soundChunks => exact fun _ => widths
    case soundBlocks => exact fun sound => forall_mem_copied sound rfl _

/-! ## Pages -/

/-- After `mutable_page` the page is the builder's own and no cell has changed. -/
structure PageCopied (hash : Key → UInt64) (start heap : DeltaHeap) (builder : DeltaBuilder)
    (pageIndex page : Nat) (next : DeltaHeap) (after : DeltaBuilder) : Prop where
  copied : (pageIndex, page) ∈ after.mutablePages
  writing : after.Writing start next
  effect : builder.Effect heap after next
  cells : after.spine.cells next = builder.spine.cells heap
  sound : next.Valid hash
  records : next.records = heap.records
  arenas : next.arenas = heap.arenas
  after_eq : after =
    { builder with
      spine := after.spine
      mutablePages := after.mutablePages
      mutableBlocks := after.mutableBlocks
      mutableChunks := after.mutableChunks }

theorem cells_of_copied_page (settled : Settled heap.pages.length (builder.spine.pageTable heap))
    (pageIndex : Nat) (pages : next.pages =
      heap.pages ++ [original heap.pages (builder.spine.pageTable heap pageIndex)])
    (records : next.records = heap.records) (table : spine.pageTable next =
      Function.update (builder.spine.pageTable heap) pageIndex (some heap.pages.length)) :
    spine.cells next = builder.spine.cells heap := by
  rw [cells, table, pages, records]
  exact through_copy (blank_page heap.records) settled pageIndex

theorem valid_copied (sound : heap.Valid hash) (address : Option Nat)
    (pages : next.pages = heap.pages ++ [original heap.pages address])
    (records : next.records = heap.records)
    (blocks : ∀ block ∈ next.blocks, block.pages.length = kDeltaDirectoryBlockPages)
    (chunks : ∀ chunk ∈ next.chunks, chunk.blocks.length = kDeltaDirectoryChunkBlocks) :
    next.Valid hash := by
  refine ⟨?_, blocks, chunks, by rw [records]; exact sound.small⟩
  rw [pages, records]
  exact forall_mem_copied sound.pages
    ⟨rfl, rfl, rfl, fun full => absurd (blank_control _) full⟩ address

theorem mutablePage_flat (writing : builder.Writing start heap) (sound : heap.Valid hash)
    (inside : pageIndex * kDeltaPageSlots < builder.previous.capacity)
    (uncopied : ∀ page, (pageIndex, page) ∉ builder.mutablePages)
    (flat : builder.spine.directoryChunks = []) :
    PageCopied hash start heap builder pageIndex heap.pages.length
      { heap with
        pages := heap.pages ++ [original heap.pages (builder.spine.pageTable heap pageIndex)] }
      { builder with
        mutablePages := builder.mutablePages ++ [(pageIndex, heap.pages.length)]
        spine.flatPages := builder.spine.flatPages.set pageIndex (some heap.pages.length) } := by
  have covers := writing.covers
  rw [DeltaSpine.Covers, if_pos flat] at covers
  have place : pageIndex < builder.spine.flatPages.length := by
    simp only [kDeltaPageSlots] at inside covers
    omega
  have before : builder.spine.pageTable heap = (builder.spine.flatPages.getD · none) := by
    rw [pageTable, if_pos flat]
  have table : ({ builder.spine with
        flatPages := builder.spine.flatPages.set pageIndex
          (some heap.pages.length) } : DeltaSpine).pageTable
          { heap with
            pages := heap.pages ++
              [original heap.pages (builder.spine.pageTable heap pageIndex)] } =
      Function.update (builder.spine.pageTable heap) pageIndex (some heap.pages.length) := by
    rw [pageTable, if_pos flat, before]
    exact update_getD place _
  constructor
  case copied => simp
  case writing =>
    refine ⟨writing.chunks, writing.blocks, ?_, ?_⟩
    · show Private _ (heap.pages ++ [_]).length (pageTable _ _) _
      rw [table, List.length_append]
      exact writing.pages.copy uncopied
    · rw [DeltaSpine.Covers, if_pos flat]
      show _ ≤ (List.set _ _ _).length * _
      rw [List.length_set]
      exact covers
  case effect => exact ⟨Change.refl _ _, Change.refl _ _, Change.copy _ _ _ _⟩
  case cells => exact cells_of_copied_page writing.pages.settled pageIndex rfl rfl table
  case sound => exact valid_copied sound _ rfl rfl sound.blocks sound.chunks
  case records => rfl
  case arenas => rfl
  case after_eq => rfl

theorem mutablePage_directory (writing : builder.Writing start heap) (sound : heap.Valid hash)
    {heap₁ heap₂ : DeltaHeap} {builder₁ builder₂ : DeltaBuilder}
    (inside : pageIndex * kDeltaPageSlots < builder.previous.capacity)
    (uncopied : ∀ page, (pageIndex, page) ∉ builder.mutablePages)
    (directory : builder.spine.directoryChunks ≠ []) (chunkDone :
      { builder with
        mutablePages := builder.mutablePages ++ [(pageIndex, heap.pages.length)] }.mutableChunk
        { heap with
          pages := heap.pages ++ [original heap.pages (builder.spine.pageTable heap pageIndex)] }
        (pageIndex / kDeltaDirectoryBlockPages / kDeltaDirectoryChunkBlocks) =
      (chunk, heap₁, builder₁))
    (blockDone : builder₁.mutableBlock heap₁ chunk (pageIndex / kDeltaDirectoryBlockPages) =
      (block, heap₂, builder₂)) :
    PageCopied hash start heap builder pageIndex heap.pages.length
      { heap₂ with
        blocks := heap₂.blocks.set block
          { pages := (heap₂.blocks.getD block default).pages.set
              (pageIndex % kDeltaDirectoryBlockPages) (some heap.pages.length) } }
      builder₂ := by
  have covers := writing.covers
  rw [DeltaSpine.Covers, if_neg directory] at covers
  have place : pageIndex / kDeltaDirectoryBlockPages / kDeltaDirectoryChunkBlocks <
      builder.spine.directoryChunks.length := by
    simp only [kDeltaPageSlots, kDeltaDirectoryBlockPages, kDeltaDirectoryChunkBlocks]
      at inside covers ⊢
    omega
  have first : ChunkCopied start _ _ _ chunk heap₁ builder₁ :=
    mutableChunk_copied (by exact writing.chunks) (by exact place) chunkDone
  have blockTable : builder₁.spine.blockTable heap₁ = builder.spine.blockTable heap := first.table
  have heapBlocks : heap₁.blocks = heap.blocks := by rw [first.heap_eq]
  have ownBlocks : builder₁.mutableBlocks = builder.mutableBlocks := by rw [first.after_eq]
  have directory₁ : builder₁.spine.directoryChunks ≠ [] := by
    rw [← List.length_pos_iff, first.length]
    exact List.length_pos_iff.mpr directory
  have second := mutableBlock_copied first.own
    (by rw [heapBlocks, blockTable, ownBlocks]; exact writing.blocks) directory₁
    (first.sound sound.chunks) first.copied blockDone
  have spine₂ : builder₂.spine = builder₁.spine := by rw [second.after_eq]
  have pages₂ : heap₂.pages =
      heap.pages ++ [original heap.pages (builder.spine.pageTable heap pageIndex)] := by
    rw [second.heap_eq, first.heap_eq]
  obtain ⟨entries, widths⟩ := set_entry second.blocks
    (second.soundBlocks (by rw [heapBlocks]; exact sound.blocks)) (by decide) second.copied
    ⟨(heap₂.blocks.getD block default).pages.set (pageIndex % kDeltaDirectoryBlockPages)
      (some heap.pages.length)⟩ rfl
  have table₂ : builder₂.spine.pageTable heap₂ = builder.spine.pageTable heap := by
    rw [second.table, pageTable_directory directory₁, blockTable, heapBlocks,
      pageTable_directory directory]
  have table : builder₂.spine.pageTable
        { heap₂ with
          blocks := heap₂.blocks.set block
            { pages := (heap₂.blocks.getD block default).pages.set
                (pageIndex % kDeltaDirectoryBlockPages) (some heap.pages.length) } } =
      Function.update (builder.spine.pageTable heap) pageIndex (some heap.pages.length) := by
    rw [← table₂, pageTable_directory (by rw [spine₂]; exact directory₁),
      pageTable_directory (by rw [spine₂]; exact directory₁)]
    exact entries
  have ownPages : builder₂.mutablePages =
      builder.mutablePages ++ [(pageIndex, heap.pages.length)] := by
    rw [second.after_eq, first.after_eq]
  have records : heap₂.records = heap.records := by rw [second.heap_eq, first.heap_eq]
  constructor
  case copied => simp [ownPages]
  case writing =>
    refine ⟨second.chunks, ?_, ?_, ?_⟩
    · show Private _ (heap₂.blocks.set _ _).length (DeltaSpine.blockTable _ _) _
      rw [List.length_set]
      exact second.blocks
    · show Private _ heap₂.pages.length (pageTable _ _) _
      rw [table, pages₂, ownPages, List.length_append]
      exact writing.pages.copy uncopied
    · have capacity : builder₂.previous = builder.previous := by
        rw [second.after_eq, first.after_eq]
      rw [DeltaSpine.Covers, if_neg (by rw [spine₂]; exact directory₁), capacity, spine₂,
        first.length]
      exact covers
  case effect =>
    refine ⟨first.change.trans second.chunkChange, ?_, ?_⟩
    · have change := second.blockChange
      rw [heapBlocks, ownBlocks] at change
      exact change.trans (Change.write ⟨_, second.copied⟩ _ _)
    · show Change _ _ _ heap₂.pages
      rw [pages₂, ownPages]
      exact Change.copy _ _ _ _
  case cells => exact cells_of_copied_page writing.pages.settled pageIndex pages₂ records table
  case sound =>
    exact valid_copied sound (builder.spine.pageTable heap pageIndex) pages₂ records widths
      (second.soundChunks (first.sound sound.chunks))
  case records => exact records
  case arenas =>
    show heap₂.arenas = heap.arenas
    rw [second.heap_eq, first.heap_eq]
  case after_eq => rw [second.after_eq, first.after_eq]

theorem mutablePage_copied (writing : builder.Writing start heap) (sound : heap.Valid hash)
    {page : Nat} (inside : pageIndex * kDeltaPageSlots < builder.previous.capacity)
    (done : builder.mutablePage heap pageIndex = (page, next, after)) :
    PageCopied hash start heap builder pageIndex page next after := by
  unfold mutablePage at done
  cases found : builder.mutablePages.lookup pageIndex with
  | some existing =>
    rw [found] at done
    obtain ⟨rfl, rfl, rfl⟩ : existing = page ∧ heap = next ∧ builder = after := by
      simpa using done
    exact ⟨mem_of_lookup found, writing, ⟨Change.refl _ _, Change.refl _ _, Change.refl _ _⟩, rfl,
      sound, rfl, rfl, rfl⟩
  | none =>
    rw [found] at done
    simp only [pageAt_eq] at done
    by_cases flat : builder.spine.directoryChunks = []
    · rw [if_pos flat] at done
      cases done
      exact mutablePage_flat writing sound inside (not_mem_of_lookup found) flat
    · rw [if_neg flat] at done
      cases done
      exact mutablePage_directory writing sound inside (not_mem_of_lookup found) flat rfl rfl

end DeltaBuilder

end GlifiStore
