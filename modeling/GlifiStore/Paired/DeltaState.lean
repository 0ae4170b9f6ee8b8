import GlifiStore.Lib.CopyOnWrite
import GlifiStore.Paired.ImmutableReadIndex

/-!
# The delta of a read generation

Recent mutations live in a table of pages that generations share. A publication
copies the pages it writes, with the directory blocks and chunks above them, and
leaves everything older readers can reach as it was. Pages, blocks, chunks and
record cells are heap objects here and pointers are addresses, so that sharing
and writing in place are visible.
-/

namespace GlifiStore

open ByteLayout OpenAddressing ReadTable CopyOnWrite

def kDeltaPageSlots : Nat := 16
def kDeltaDirectoryBlockPages : Nat := 16
def kDeltaDirectoryChunkBlocks : Nat := 16
def kFlatDeltaMaximumPages : Nat := 32
def kMaximumPublicationBatch : Nat := 32

/-! ## Heap objects -/

structure DeltaRecord where
  record : RecordRef
  key : Key
  pin : Option GenerationPin
  opcode : Opcode
  durable : Bool
  deriving DecidableEq, Repr

def DeltaRecord.view (record : DeltaRecord) (hash : UInt64) : ReadRecordView where
  hash := hash
  key := record.key
  record := record.record
  segment := if record.durable then none else record.pin
  durable := if record.durable then record.pin else none
  opcode := record.opcode

structure DeltaPage where
  control : Bytes := List.replicate kDeltaPageSlots kSwissEmpty
  hashes : List UInt64 := List.replicate kDeltaPageSlots 0
  records : List (Option Nat) := List.replicate kDeltaPageSlots none
  deriving Inhabited

structure DeltaDirectoryBlock where
  pages : List (Option Nat) := List.replicate kDeltaDirectoryBlockPages none
  deriving Inhabited

structure DeltaDirectoryChunk where
  blocks : List (Option Nat) := List.replicate kDeltaDirectoryChunkBlocks none
  deriving Inhabited

/-- The record budget of an arena. -/
structure DeltaArena where
  maximumRecords : Nat
  recordCount : Nat := 0
  deriving Inhabited

def DeltaArena.availableRecords (arena : DeltaArena) : Nat :=
  arena.maximumRecords - arena.recordCount

/-- The objects deltas are made of. `records` are the cells of all arenas, in
the order they were stored. -/
structure DeltaHeap where
  pages : List DeltaPage := []
  blocks : List DeltaDirectoryBlock := []
  chunks : List DeltaDirectoryChunk := []
  records : List DeltaRecord := []
  arenas : List DeltaArena := []

/-- `DeltaArena::store`; `none` is `std::bad_alloc`. -/
def DeltaHeap.store (heap : DeltaHeap) (arena : Nat) (source : ReadRecordView) :
    Option (Nat × DeltaHeap) :=
  let owner := heap.arenas.getD arena default
  if owner.recordCount = owner.maximumRecords ∨ source.key.length > kUInt32Max then
    none
  else
    some (heap.records.length,
      { heap with
        records := heap.records ++
          [{ record := source.record
             key := source.key
             pin := source.pin.1
             opcode := source.opcode
             durable := source.pin.2 }]
        arenas := heap.arenas.set arena { owner with recordCount := owner.recordCount + 1 } })

/-! ## Finding pages -/

/-- The page directory of a delta: flat, or chunks of blocks of pages. -/
structure DeltaSpine where
  flatPages : List (Option Nat)
  directoryChunks : List (Option Nat)

def DeltaSpine.pageAt (spine : DeltaSpine) (heap : DeltaHeap) (pageIndex : Nat) : Option Nat :=
  if spine.directoryChunks = [] then
    spine.flatPages.getD pageIndex none
  else
    let blockIndex := pageIndex / kDeltaDirectoryBlockPages
    match spine.directoryChunks.getD (blockIndex / kDeltaDirectoryChunkBlocks) none with
    | none => none
    | some chunk =>
      match (heap.chunks.getD chunk default).blocks.getD
          (blockIndex % kDeltaDirectoryChunkBlocks) none with
      | none => none
      | some block =>
        (heap.blocks.getD block default).pages.getD (pageIndex % kDeltaDirectoryBlockPages) none

def DeltaPage.compare (page : DeltaPage) (heap : DeltaHeap) (hash : UInt64) (key : Key)
    (slot : Nat) : Option (Option DeltaRecord) :=
  match (page.records.getD slot none).bind (heap.records[·]?) with
  | none => none
  | some record =>
    if page.hashes.getD slot 0 = hash ∧ record.key = key then some (some record) else none

structure DeltaState where
  capacity : Nat
  maximumEntries : Nat
  size : Nat
  spine : DeltaSpine
  primaryArena : Nat
  secondaryArena : Option Nat := none

namespace DeltaState

variable (state : DeltaState) (heap : DeltaHeap)

def findGroup (hash : UInt64) (key : Key) (groupStart : Nat) : Option (Option DeltaRecord) :=
  match state.spine.pageAt heap (groupStart / kDeltaPageSlots) with
  | none => some none
  | some address =>
    let page := heap.pages.getD address default
    findInGroup page.control (groupStart % kDeltaPageSlots) (fingerprint hash)
      (page.compare heap hash key) (List.range kSwissGroupSize)

def find (hash : UInt64) (key : Key) : Option DeltaRecord :=
  findGroups state.capacity (state.findGroup heap hash key) (state.capacity / kSwissGroupSize)
    (probeStart state.capacity hash)

def recordAt (slot : Nat) : Option ReadRecordView :=
  if slot ≥ state.capacity then
    none
  else
    match state.spine.pageAt heap (slot / kDeltaPageSlots) with
    | none => none
    | some address =>
      let page := heap.pages.getD address default
      let offset := slot % kDeltaPageSlots
      if page.control.getD offset kSwissEmpty = kSwissEmpty then
        none
      else
        ((page.records.getD offset none).bind (heap.records[·]?)).map
          (·.view (page.hashes.getD offset 0))

def allocationArena : Nat :=
  state.secondaryArena.getD state.primaryArena

def availableRecordVersions : Nat :=
  (heap.arenas.getD state.allocationArena default).availableRecords

end DeltaState

/-- `make_empty_delta`, with its new arena; `none` is `std::bad_alloc`. -/
def makeEmptyDelta (heap : DeltaHeap) (maximumEntries : Nat) : Option (DeltaState × DeltaHeap) :=
  if maximumEntries > kSizeMax - kMaximumPublicationBatch then
    none
  else
    (capacityFrom (maximumEntries + kMaximumPublicationBatch) 64 kDeltaPageSlots).map fun capacity =>
      let pageCount := capacity / kDeltaPageSlots
      let directoryCount :=
        (pageCount + kDeltaDirectoryBlockPages - 1) / kDeltaDirectoryBlockPages
      let chunkCount :=
        (directoryCount + kDeltaDirectoryChunkBlocks - 1) / kDeltaDirectoryChunkBlocks
      let spine : DeltaSpine :=
        if pageCount ≤ kFlatDeltaMaximumPages then
          { flatPages := List.replicate pageCount none, directoryChunks := [] }
        else
          { flatPages := [], directoryChunks := List.replicate chunkCount none }
      ({ capacity := capacity
         maximumEntries := maximumEntries
         size := 0
         spine := spine
         primaryArena := heap.arenas.length },
       { heap with arenas := heap.arenas ++ [{ maximumRecords := maximumEntries }] })

/-! ## The builder of one publication -/

/-- A builder with the private copies of its scratch. The address of the page
used last, which the source keeps besides, is the one its scratch holds. -/
structure DeltaBuilder where
  previous : DeltaState
  spine : DeltaSpine
  primaryArena : Nat
  secondaryArena : Option Nat
  size : Nat
  mutablePages : Copies := []
  mutableBlocks : Copies := []
  mutableChunks : Copies := []

structure PreparedSlot where
  page : Nat
  slot : Nat
  hash : UInt64
  control : UInt8
  inserted : Bool

def DeltaPage.write (page : DeltaPage) (prepared : PreparedSlot) (record : Nat) : DeltaPage where
  control := page.control.set prepared.slot prepared.control
  hashes := page.hashes.set prepared.slot prepared.hash
  records := page.records.set prepared.slot (some record)

def DeltaHeap.setPage (heap : DeltaHeap) (address : Nat) (page : DeltaPage) : DeltaHeap :=
  { heap with pages := heap.pages.set address page }

namespace DeltaBuilder

/-- The constructor, with an empty scratch; `none` is its exception. -/
def start (previous : DeltaState) (allocationArena : Option Nat) : Option DeltaBuilder :=
  let builder : DeltaBuilder :=
    { previous := previous
      spine := previous.spine
      primaryArena := previous.primaryArena
      secondaryArena := previous.secondaryArena
      size := previous.size }
  match allocationArena with
  | none => some builder
  | some arena =>
    if arena ≠ previous.primaryArena ∧ some arena ≠ previous.secondaryArena then
      if previous.secondaryArena.isSome then none
      else some { builder with secondaryArena := some arena }
    else
      some builder

variable (builder : DeltaBuilder) (heap : DeltaHeap)

def allocationArena : Nat :=
  builder.secondaryArena.getD builder.primaryArena

/-- The chunk part of `mutable_page`. -/
def mutableChunk (chunkIndex : Nat) : Nat × DeltaHeap × DeltaBuilder :=
  match builder.mutableChunks.lookup chunkIndex with
  | some chunk => (chunk, heap, builder)
  | none =>
    let existing := builder.spine.directoryChunks.getD chunkIndex none
    let chunk := heap.chunks.length
    (chunk, { heap with chunks := heap.chunks ++ [original heap.chunks existing] },
      { builder with
        mutableChunks := builder.mutableChunks ++ [(chunkIndex, chunk)]
        spine.directoryChunks := builder.spine.directoryChunks.set chunkIndex (some chunk) })

/-- The block part of `mutable_page`, below a chunk of its own. -/
def mutableBlock (chunk blockIndex : Nat) : Nat × DeltaHeap × DeltaBuilder :=
  match builder.mutableBlocks.lookup blockIndex with
  | some block => (block, heap, builder)
  | none =>
    let blocks := (heap.chunks.getD chunk default).blocks
    let blockOffset := blockIndex % kDeltaDirectoryChunkBlocks
    let block := heap.blocks.length
    (block,
      { heap with
        blocks := heap.blocks ++ [original heap.blocks (blocks.getD blockOffset none)]
        chunks := heap.chunks.set chunk { blocks := blocks.set blockOffset (some block) } },
      { builder with mutableBlocks := builder.mutableBlocks ++ [(blockIndex, block)] })

def mutablePage (pageIndex : Nat) : Nat × DeltaHeap × DeltaBuilder :=
  match builder.mutablePages.lookup pageIndex with
  | some page => (page, heap, builder)
  | none =>
    let existing := builder.spine.pageAt heap pageIndex
    let page := heap.pages.length
    let heap := { heap with pages := heap.pages ++ [original heap.pages existing] }
    let builder :=
      { builder with mutablePages := builder.mutablePages ++ [(pageIndex, page)] }
    if builder.spine.directoryChunks = [] then
      (page, heap,
        { builder with spine.flatPages := builder.spine.flatPages.set pageIndex (some page) })
    else
      let blockIndex := pageIndex / kDeltaDirectoryBlockPages
      let (chunk, heap, builder) :=
        builder.mutableChunk heap (blockIndex / kDeltaDirectoryChunkBlocks)
      let (block, heap, builder) := builder.mutableBlock heap chunk blockIndex
      let pages := (heap.blocks.getD block default).pages
      (page,
        { heap with
          blocks := heap.blocks.set block
            { pages := pages.set (pageIndex % kDeltaDirectoryBlockPages) (some page) } },
        builder)

/-- One group of `prepare`: the page and the slot on it, and whether the slot is
a new one. -/
def prepareGroup (hash : UInt64) (key : Key) (groupStart : Nat) : Option (Nat × Nat × Bool) :=
  let pageIndex := groupStart / kDeltaPageSlots
  let pageOffset := groupStart % kDeltaPageSlots
  match builder.spine.pageAt heap pageIndex with
  | none => some (pageIndex, pageOffset, true)
  | some address =>
    let page := heap.pages.getD address default
    (prepareInGroup page.control pageOffset (fingerprint hash)
      (fun slot => (page.compare heap hash key slot).isSome)
      (List.range kSwissGroupSize)).map
        fun (offset, inserted) => (pageIndex, pageOffset + offset, inserted)

def prepareFrom (hash : UInt64) (key : Key) : Nat → Nat → Option (Nat × Nat × Bool)
  | 0, _ => none
  | groups + 1, groupStart =>
    match builder.prepareGroup heap hash key groupStart with
    | some found => some found
    | none => prepareFrom hash key groups (nextGroup builder.previous.capacity groupStart)

/-- `prepare`; `none` is `std::bad_alloc`. -/
def prepare (hash : UInt64) (key : Key) : Option (PreparedSlot × DeltaHeap × DeltaBuilder) :=
  match builder.prepareFrom heap hash key (builder.previous.capacity / kSwissGroupSize)
      (probeStart builder.previous.capacity hash) with
  | none => none
  | some (pageIndex, slot, inserted) =>
    if inserted ∧ builder.size = builder.previous.maximumEntries then
      none
    else
      let (page, heap, builder) := builder.mutablePage heap pageIndex
      some (⟨page, slot, hash, fingerprint hash, inserted⟩, heap, builder)

def commit (prepared : PreparedSlot) (record : Nat) : DeltaHeap × DeltaBuilder :=
  let page := heap.pages.getD prepared.page default
  (heap.setPage prepared.page (page.write prepared record),
    { builder with size := if prepared.inserted then builder.size + 1 else builder.size })

def freeze : DeltaState where
  capacity := builder.previous.capacity
  maximumEntries := builder.previous.maximumEntries
  size := builder.size
  spine := builder.spine
  primaryArena := builder.primaryArena
  secondaryArena := builder.secondaryArena

end DeltaBuilder

end GlifiStore
