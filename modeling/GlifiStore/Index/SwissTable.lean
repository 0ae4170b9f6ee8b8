import GlifiStore.Index.KeyArena

/-!
# The Swiss table Index

The open-addressing table of one Index partition: control bytes in groups of
eight, slots with inline or arena-held keys, tombstones, growth and same-size
rebuilds. Every operation returns the table it leaves behind, also when it
fails. `hash` is the routing hash of a key under the table's own routing state;
rebuilding rehashes the stored keys with it.
-/

namespace GlifiStore

open ByteLayout

def kSwissGroupSize : Nat := 8
def kSwissEmpty : UInt8 := 0x80
def kSwissDeleted : UInt8 := 0xFE
def kSwissInlineKeyBytes : Nat := 24
def kSwissMixConstant : UInt64 := 0x9E3779B97F4A7C15
def kHeapArenaCompactDeadThreshold : Nat := 65536
def kSwissMinimumDeletedRebuild : Nat := kSwissGroupSize
def kInlineKeyMask : Nat := 2 ^ 31

/-! ## Control groups -/

/-- The eight control bytes of a group as one little-endian word. -/
def loadControlGroup64 (control : Bytes) (groupStart : Nat) : Nat :=
  getLE kSwissGroupSize control groupStart

def controlByteAt (controlWord offset : Nat) : UInt8 :=
  UInt8.ofNat (controlWord / 256 ^ offset % 256)

/-- Bit `i` is set when control byte `i` of the group equals `byte`. -/
def equalByteMask (control : Bytes) (groupStart : Nat) (byte : UInt8) : Nat :=
  let word := loadControlGroup64 control groupStart
  (List.range kSwissGroupSize).foldl
    (fun mask index => if controlByteAt word index = byte then mask ||| 1 <<< index else mask) 0

/-! ## Slots -/

inductive KeyStorage where
  | inlineKey (bytes : Bytes)
  | heapKeyOffset (offset : Nat)
  deriving DecidableEq, Repr

def KeyStorage.inlineBytes : KeyStorage → Bytes
  | .inlineKey bytes => bytes
  | .heapKeyOffset _ => []

def KeyStorage.heapOffset : KeyStorage → Nat
  | .inlineKey _ => 0
  | .heapKeyOffset offset => offset

/-- A table slot. `keySize` and `keyIsInline` are packed in one word of the
source; keys stay below `2 ^ 31` bytes, so the packing loses nothing. -/
structure Slot where
  ref : RecordRef := default
  key : KeyStorage := .inlineKey (List.replicate kSwissInlineKeyBytes 0)
  keyHashTag : UInt32 := 0
  keySize : Nat := 0
  keyIsInline : Bool := false
  deriving DecidableEq, Repr

def Slot.withRef (slot : Slot) (ref : RecordRef) : Slot :=
  { slot with ref := ref }

structure IndexMutationResult where
  inserted : Bool := false
  previous : Option RecordRef := none
  deriving DecidableEq, Repr

@[ext]
structure SwissTableIndex where
  seed : UInt64
  size : Nat := 0
  deletedCount : Nat := 0
  capacity : Nat := kSwissGroupSize
  heapLiveBytes : Nat := 0
  heapDeadBytes : Nat := 0
  control : Bytes := List.replicate kSwissGroupSize kSwissEmpty
  slots : List Slot := List.replicate kSwissGroupSize {}
  heapKeys : KeyArena := {}
  deriving DecidableEq, Repr

namespace SwissTableIndex

variable (hash : Key → UInt64)

def isFull (control : UInt8) : Bool :=
  control ≠ kSwissEmpty && control ≠ kSwissDeleted

section Lookup

variable (table : SwissTableIndex)

def controlAt (index : Nat) : UInt8 :=
  table.control.getD index kSwissEmpty

def slotAt (index : Nat) : Slot :=
  table.slots.getD index {}

def setSlot (index : Nat) (slot : Slot) : SwissTableIndex :=
  { table with slots := table.slots.set index slot }

/-- The doubling loop. Sixty-two doublings of eight pass the overflow check, so
the recursion always ends in one of the two returns. -/
def normalizeCapacityFrom (minimumSlots : Nat) : Nat → Nat → Result Nat
  | 0, _ => fail .arithmeticOverflow "swiss table capacity overflow"
  | fuel + 1, capacity =>
    if capacity < minimumSlots then
      if capacity > kSizeMax / 2 then
        fail .arithmeticOverflow "swiss table capacity overflow"
      else
        normalizeCapacityFrom minimumSlots fuel (capacity * 2)
    else
      .ok capacity

def normalizeCapacity (minimumSlots : Nat) : Result Nat :=
  normalizeCapacityFrom minimumSlots 62 kSwissGroupSize

def mixHash (keyHash : UInt64) : UInt64 :=
  let seeded := (keyHash ^^^ table.seed) * kSwissMixConstant
  let mixed := (seeded ^^^ (seeded >>> 33)) * kSwissMixConstant
  mixed ^^^ (mixed >>> 29)

def h2 (mixed : UInt64) : UInt8 :=
  let fingerprint := (mixed &&& 0x7F).toUInt8
  if fingerprint = 0 then 1 else fingerprint

def probeStart (mixed : UInt64) : Nat :=
  ((mixed >>> 7).toNat &&& (table.capacity / kSwissGroupSize - 1)) * kSwissGroupSize

def nextGroup (groupStart capacity : Nat) : Nat :=
  let next := groupStart + kSwissGroupSize
  if next ≥ capacity then next - capacity else next

def effectiveOccupancy : Nat :=
  table.size + table.deletedCount

def maximumOccupancy : Nat :=
  table.capacity - table.capacity / 8

def tombstoneRebuildBeneficial : Bool :=
  let threshold := max kSwissMinimumDeletedRebuild (table.capacity / 4)
  table.deletedCount ≥ threshold && table.deletedCount > table.size

def slotKey (slot : Slot) : Key :=
  if slot.keySize = 0 then
    []
  else if slot.keyIsInline then
    slot.key.inlineBytes.take slot.keySize
  else
    table.heapKeys.data slot.key.heapOffset slot.keySize

def keyEquals (slot : Slot) (key : Key) (keyHash : UInt64) : Bool :=
  if slot.keySize ≠ key.length ∨ slot.keyHashTag ≠ keyHash.toUInt32 then
    false
  else if key = [] then
    true
  else if slot.keyIsInline then
    slot.key.inlineBytes.take key.length = key
  else
    let heapKey := table.heapKeys.data slot.key.heapOffset slot.keySize
    if heapKey.length ≠ key.length then false else heapKey = key

/-! ## Probing -/

/-- The offsets of one group, in order. The outer option says whether the group
ended the search. -/
def findInGroup (key : Key) (keyHash : UInt64)
    (groupStart controlWord fingerprintMask : Nat) : List Nat → Option (Option Nat)
  | [] => none
  | offset :: rest =>
    if controlByteAt controlWord offset = kSwissEmpty then
      some none
    else if fingerprintMask &&& 1 <<< offset ≠ 0 ∧
        table.keyEquals (table.slotAt (groupStart + offset)) key keyHash then
      some (some (groupStart + offset))
    else
      findInGroup key keyHash groupStart controlWord fingerprintMask rest

def findFrom (key : Key) (keyHash : UInt64) (fingerprint : UInt8) : Nat → Nat → Option Nat
  | 0, _ => none
  | groups + 1, groupStart =>
    let controlWord := loadControlGroup64 table.control groupStart
    let fingerprintMask := equalByteMask table.control groupStart fingerprint
    match findInGroup table key keyHash groupStart controlWord fingerprintMask
        (List.range kSwissGroupSize) with
    | some result => result
    | none => findFrom key keyHash fingerprint groups (nextGroup groupStart table.capacity)

def findSlotIndex (key : Key) (keyHash : UInt64) : Option Nat :=
  if table.capacity = 0 then
    none
  else
    let mixed := table.mixHash keyHash
    table.findFrom key keyHash (h2 mixed) (table.capacity / kSwissGroupSize)
      (table.probeStart mixed)

/-- The offsets of one group during insertion: the position found, or the first
tombstone met so far. -/
def insertInGroup (key : Key) (keyHash : UInt64)
    (groupStart controlWord fingerprintMask : Nat) : Option Nat → List Nat → Nat ⊕ Option Nat
  | firstDeleted, [] => .inr firstDeleted
  | firstDeleted, offset :: rest =>
    let index := groupStart + offset
    let control := controlByteAt controlWord offset
    if control = kSwissEmpty then
      .inl (firstDeleted.getD index)
    else
      let firstDeleted :=
        if control = kSwissDeleted ∧ firstDeleted = none then some index else firstDeleted
      if fingerprintMask &&& 1 <<< offset ≠ 0 ∧
          table.keyEquals (table.slotAt index) key keyHash then
        .inl index
      else
        insertInGroup key keyHash groupStart controlWord fingerprintMask firstDeleted rest

def insertFrom (key : Key) (keyHash : UInt64) (fingerprint : UInt8) :
    Option Nat → Nat → Nat → Result Nat
  | _, 0, _ =>
    fail .corruptedData "swiss table probe sequence exhausted without insert slot"
  | firstDeleted, groups + 1, groupStart =>
    let controlWord := loadControlGroup64 table.control groupStart
    let fingerprintMask := equalByteMask table.control groupStart fingerprint
    match insertInGroup table key keyHash groupStart controlWord fingerprintMask firstDeleted
        (List.range kSwissGroupSize) with
    | .inl index => .ok index
    | .inr firstDeleted =>
      insertFrom key keyHash fingerprint firstDeleted groups (nextGroup groupStart table.capacity)

/-! ## Key storage -/

def setKey (index : Nat) (key : Key) (keyHash : UInt64) : SwissTableIndex × Status :=
  let slot := table.slotAt index
  if key.length ≥ kInlineKeyMask then
    (table, fail .invalidArgument "index key exceeds packed metadata capacity")
  else if key.length ≤ kSwissInlineKeyBytes then
    let written : Slot :=
      { slot with
        keyHashTag := keyHash.toUInt32
        keySize := key.length
        keyIsInline := true
        key := .inlineKey (blit (List.replicate kSwissInlineKeyBytes 0) 0 key) }
    (table.setSlot index written, .ok ())
  else
    match table.heapKeys.allocate key.length with
    | .error error => (table.setSlot index {}, .error error)
    | .ok (offset, arena) =>
      if (arena.data offset key.length).length ≠ key.length then
        ({ table with heapKeys := arena, slots := table.slots.set index {} },
          fail .corruptedData "index key arena allocation is out of range")
      else
        let written : Slot :=
          { slot with
            keyHashTag := keyHash.toUInt32
            keySize := key.length
            keyIsInline := false
            key := .heapKeyOffset offset }
        ({ table with
            heapKeys := arena.write offset key
            slots := table.slots.set index written
            heapLiveBytes := table.heapLiveBytes + key.length },
          .ok ())

def holdsHeapKey (control : UInt8) (slot : Slot) : Bool :=
  isFull control && !slot.keyIsInline && slot.keySize > 0

def heapKeyBytes (control : UInt8) (slot : Slot) : Nat :=
  if holdsHeapKey control slot then slot.keySize else 0

/-- The copy loop of heap-key compaction: the compacted arena and the slots
with their new offsets. -/
def compactSlots (source : KeyArena) : KeyArena → Bytes → List Slot → Result (KeyArena × List Slot)
  | compacted, control :: controls, slot :: slots =>
    if holdsHeapKey control slot then
      let bytes := source.data slot.key.heapOffset slot.keySize
      if bytes.length ≠ slot.keySize then
        fail .corruptedData "heap key compaction source is out of range"
      else
        match compacted.allocate slot.keySize with
        | .error error => .error error
        | .ok (offset, allocated) =>
          if (allocated.data offset slot.keySize).length ≠ slot.keySize then
            fail .corruptedData "heap key compaction destination is out of range"
          else
            match compactSlots source (allocated.write offset bytes) controls slots with
            | .error error => .error error
            | .ok (final, moved) =>
              .ok (final, { slot with key := .heapKeyOffset offset } :: moved)
    else
      match compactSlots source compacted controls slots with
      | .error error => .error error
      | .ok (final, moved) => .ok (final, slot :: moved)
  | compacted, _, slots => .ok (compacted, slots)

def compactHeapKeys : Result SwissTableIndex :=
  let heapBytes := (List.zipWith heapKeyBytes table.control table.slots).sum
  match ({} : KeyArena).reserve heapBytes with
  | .error error => .error error
  | .ok reserved =>
    match compactSlots table.heapKeys reserved table.control table.slots with
    | .error error => .error error
    | .ok (compacted, slots) =>
      .ok { table with
        slots := slots
        heapKeys := compacted
        heapDeadBytes := 0
        heapLiveBytes := compacted.allocatedBytes }

def maybeCompactHeapKeys : Result SwissTableIndex :=
  if table.heapDeadBytes = 0 then
    .ok table
  else if table.heapLiveBytes = 0 then
    .ok { table with heapKeys := table.heapKeys.clear, heapDeadBytes := 0 }
  else if table.heapDeadBytes < kHeapArenaCompactDeadThreshold ∨
      table.heapDeadBytes < table.heapLiveBytes then
    .ok table
  else
    table.compactHeapKeys

/-- The truncated subtraction is the source's clamp of the live counter. -/
def clearSlot (index : Nat) : SwissTableIndex :=
  let slot := table.slotAt index
  let heldBytes := if !slot.keyIsInline && slot.keySize > 0 then slot.keySize else 0
  { table with
    heapLiveBytes := table.heapLiveBytes - heldBytes
    heapDeadBytes := table.heapDeadBytes + heldBytes
    control := table.control.set index kSwissDeleted
    slots := table.slots.set index {}
    deletedCount := table.deletedCount + 1 }

end Lookup

/-! ## Growth and mutation

`rehash` and `insert_or_assign` call each other: a rebuild inserts every live
key into a fresh table. The recursion is cut by `depth`; rebuilding needs two
levels, since an insertion into the fresh table never grows it. -/

def growIfNeeded (rehash : SwissTableIndex → Nat → Bool → Result SwissTableIndex)
    (table : SwissTableIndex) : Result SwissTableIndex :=
  if table.capacity = 0 then
    .ok table
  else if table.size > table.capacity ∨ table.deletedCount > table.capacity - table.size then
    fail .corruptedData "swiss table occupancy counters exceed capacity"
  else if table.tombstoneRebuildBeneficial then
    rehash table table.capacity true
  else if table.effectiveOccupancy < table.maximumOccupancy then
    .ok table
  else if table.size < table.maximumOccupancy ∧ table.deletedCount ≠ 0 then
    rehash table table.capacity true
  else if table.capacity > kSizeMax / 2 then
    fail .arithmeticOverflow "swiss table growth overflow"
  else
    rehash table (table.capacity * 2) false

def insertAt (table : SwissTableIndex) (key : Key) (keyHash : UInt64) (ref : RecordRef)
    (index : Nat) : SwissTableIndex × Result IndexMutationResult :=
  if ¬ isFull (table.controlAt index) then
    match table.setKey index key keyHash with
    | (stored, .error error) => (stored, .error error)
    | (stored, .ok ()) =>
      ({ stored with
          slots := stored.slots.set index ((stored.slotAt index).withRef ref)
          control := stored.control.set index (h2 (table.mixHash keyHash))
          deletedCount :=
            if table.controlAt index = kSwissDeleted then stored.deletedCount - 1
            else stored.deletedCount
          size := stored.size + 1 },
        .ok { inserted := true, previous := none })
  else
    let slot := table.slotAt index
    (table.setSlot index (slot.withRef ref),
      .ok { inserted := false, previous := some slot.ref })

def insertOrAssignWith (rehash : SwissTableIndex → Nat → Bool → Result SwissTableIndex)
    (table : SwissTableIndex) (key : Key) (keyHash : UInt64) (ref : RecordRef) :
    SwissTableIndex × Result IndexMutationResult :=
  if key.length ≥ kInlineKeyMask then
    (table, fail .invalidArgument "index key exceeds supported size")
  else
    match table.growIfNeeded rehash with
    | .error error => (table, .error error)
    | .ok grown =>
      let mixed := grown.mixHash keyHash
      match grown.insertFrom key keyHash (h2 mixed) none (grown.capacity / kSwissGroupSize)
          (grown.probeStart mixed) with
      | .error error => (grown, .error error)
      | .ok index => grown.insertAt key keyHash ref index

def rebuildFrom (rehash : SwissTableIndex → Nat → Bool → Result SwissTableIndex)
    (table : SwissTableIndex) : SwissTableIndex → Bytes → List Slot → Result SwissTableIndex
  | rebuilt, control :: controls, slot :: slots =>
    if isFull control then
      let key := table.slotKey slot
      match rebuilt.insertOrAssignWith rehash key (hash key) slot.ref with
      | (_, .error error) => .error error
      | (grown, .ok outcome) =>
        if outcome.inserted then
          rebuildFrom rehash table grown controls slots
        else
          fail .corruptedData "swiss table rebuild encountered a duplicate key"
    else
      rebuildFrom rehash table rebuilt controls slots
  | rebuilt, _, _ => .ok rebuilt

def emptyWith (seed : UInt64) (capacity : Nat) (heapKeys : KeyArena) : SwissTableIndex where
  seed := seed
  capacity := capacity
  control := List.replicate capacity kSwissEmpty
  slots := List.replicate capacity {}
  heapKeys := heapKeys

def rehash : Nat → SwissTableIndex → Nat → Bool → Result SwissTableIndex
  | 0, _, _, _ => fail .internalError "swiss table rebuild recursion"
  | depth + 1, table, newCapacity, forceSameCapacity =>
    match normalizeCapacity newCapacity with
    | .error error => .error error
    | .ok normalized =>
      if normalized = table.capacity ∧ ¬ forceSameCapacity then
        .ok table
      else if table.size > normalized - normalized / 8 then
        fail .invalidArgument "swiss table rehash capacity cannot hold live entries"
      else
        match ({} : KeyArena).reserve table.heapLiveBytes with
        | .error error => .error error
        | .ok reserved =>
          match rebuildFrom hash (rehash depth) table (emptyWith table.seed normalized reserved)
              table.control table.slots with
          | .error error => .error error
          | .ok rebuilt =>
            .ok { table with
              capacity := normalized
              size := rebuilt.size
              deletedCount := 0
              heapLiveBytes := rebuilt.heapLiveBytes
              heapDeadBytes := 0
              control := rebuilt.control
              slots := rebuilt.slots
              heapKeys := rebuilt.heapKeys }

/-- The depth of rebuild recursion the table's own operations start with. -/
def rehashDepth : Nat := 2

/-! ## The public operations -/

section Operations

variable (table : SwissTableIndex) (key : Key) (keyHash : UInt64)

def find : Option RecordRef :=
  (table.findSlotIndex key keyHash).map fun index => (table.slotAt index).ref

def insertOrAssign (ref : RecordRef) : SwissTableIndex × Result IndexMutationResult :=
  table.insertOrAssignWith (rehash hash rehashDepth) key keyHash ref

def eraseNoCompact : SwissTableIndex × IndexMutationResult :=
  match table.findSlotIndex key keyHash with
  | none => (table, {})
  | some index =>
    let cleared := table.clearSlot index
    ({ cleared with size := cleared.size - 1 },
      { inserted := false, previous := some (table.slotAt index).ref })

/-- The status of the heap-key compaction is discarded. -/
def erase : SwissTableIndex × IndexMutationResult :=
  match table.eraseNoCompact key keyHash with
  | (erased, result) =>
    if result.previous.isSome then
      match erased.maybeCompactHeapKeys with
      | .ok compacted => (compacted, result)
      | .error _ => (erased, result)
    else
      (erased, result)

def prepareInsert : SwissTableIndex × Status :=
  if key.length ≥ kInlineKeyMask then
    (table, fail .invalidArgument "index key exceeds supported size")
  else if (table.findSlotIndex key keyHash).isSome then
    (table, .ok ())
  else if table.size = kSizeMax then
    (table, fail .arithmeticOverflow "swiss table size overflow")
  else
    match table.growIfNeeded (rehash hash rehashDepth) with
    | .error error => (table, .error error)
    | .ok grown =>
      if key.length > kSwissInlineKeyBytes then
        match grown.heapKeys.prepareAllocate key.length with
        | .error error => (grown, .error error)
        | .ok prepared => ({ grown with heapKeys := prepared }, .ok ())
      else
        (grown, .ok ())

end Operations

/-- The slots above `count` that keep the load at seven eighths. -/
def reserveExtra (count : Nat) : Nat :=
  count / 7 + (if count % 7 = 0 then 0 else 1)

def reserve (table : SwissTableIndex) (count : Nat) : Result SwissTableIndex :=
  if table.size > table.capacity ∨ table.deletedCount > table.capacity - table.size then
    fail .corruptedData "swiss table occupancy counters exceed capacity"
  else
    let extra := reserveExtra count
    if extra > kSizeMax - count then
      fail .arithmeticOverflow "swiss table reserve overflow"
    else
      match normalizeCapacity (max (count + extra) kSwissGroupSize) with
      | .error error => .error error
      | .ok needed =>
        if table.capacity = 0 then
          .ok { table with
            capacity := needed
            control := List.replicate needed kSwissEmpty
            slots := List.replicate needed {} }
        else if needed > table.capacity then
          rehash hash rehashDepth table needed false
        else if count > table.size then
          let additional := count - table.size
          let occupancy := table.effectiveOccupancy
          let mayExhaustEmpty :=
            occupancy > table.maximumOccupancy ∨ additional > table.maximumOccupancy - occupancy
          if mayExhaustEmpty ∨ table.tombstoneRebuildBeneficial then
            rehash hash rehashDepth table table.capacity true
          else
            .ok table
        else
          .ok table

def prepareBatchInsert (table : SwissTableIndex) (additionalEntries additionalHeapKeyBytes : Nat) :
    SwissTableIndex × Status :=
  if additionalEntries > kSizeMax - table.size then
    (table, fail .arithmeticOverflow "swiss table batch reserve overflow")
  else
    match table.reserve hash (table.size + additionalEntries) with
    | .error error => (table, .error error)
    | .ok reserved =>
      match reserved.heapKeys.prepareAllocate additionalHeapKeyBytes with
      | .error error => (reserved, .error error)
      | .ok prepared => ({ reserved with heapKeys := prepared }, .ok ())

def entriesFrom (table : SwissTableIndex) : Bytes → List Slot → List (Key × RecordRef)
  | control :: controls, slot :: slots =>
    if isFull control then
      (table.slotKey slot, slot.ref) :: entriesFrom table controls slots
    else
      entriesFrom table controls slots
  | _, _ => []

def entries (table : SwissTableIndex) : List (Key × RecordRef) :=
  table.entriesFrom table.control table.slots

end SwissTableIndex

end GlifiStore
