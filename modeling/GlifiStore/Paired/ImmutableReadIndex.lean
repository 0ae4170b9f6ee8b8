import GlifiStore.Paired.ReadProbing
import GlifiStore.Segment.Record

/-!
# The immutable base of a read generation

`ImmutableReadIndex` is the base table that readers share. Records are appended
to it while it is built, by a durable snapshot at once or by a merge in quanta,
and never change afterwards.
-/

namespace GlifiStore

open ByteLayout OpenAddressing ReadTable

/-! ## Records -/

/-- The Segment generation a record keeps alive. Tables keep one token for each
generation they pin; a token is the generation it names. -/
structure GenerationPin where
  segmentId : Nat
  generation : Nat
  deriving DecidableEq, Repr

/-- `PublishedReadPin::matches` and, for a volatile Segment, `same_segment`. -/
def GenerationPin.matches (pin : GenerationPin) (record : RecordRef) : Bool :=
  pin.segmentId = record.segmentId && pin.generation = record.generation

def sameSegment (segment : Option GenerationPin) (record : RecordRef) : Bool :=
  segment.any (·.matches record)

structure ReadRecordView where
  hash : UInt64
  key : Key
  record : RecordRef
  segment : Option GenerationPin := none
  durable : Option GenerationPin := none
  opcode : Opcode := .put
  deriving DecidableEq, Repr

/-- The pin a table keeps for a record, and whether it is a durable one. Erases
pin nothing. -/
def ReadRecordView.pin (view : ReadRecordView) : Option GenerationPin × Bool :=
  match view.opcode, view.durable with
  | .put, some pin => (some pin, true)
  | .put, none => (view.segment, false)
  | .erase, _ => (none, false)

def ReadRecordView.retained (view : ReadRecordView) : ReadRecordView :=
  { view with
    segment := if view.pin.2 then none else view.pin.1
    durable := if view.pin.2 then view.pin.1 else none }

structure CompactReadRecord where
  record : RecordRef
  hash : UInt64
  key : Key
  pin : Option GenerationPin
  durable : Bool
  opcode : Opcode
  deriving DecidableEq, Repr

open CompactReadRecord

def CompactReadRecord.view (record : CompactReadRecord) : ReadRecordView where
  hash := record.hash
  key := record.key
  record := record.record
  segment := if record.durable then none else record.pin
  durable := if record.durable then record.pin else none
  opcode := record.opcode

def CompactReadRecord.ofView (source : ReadRecordView) : CompactReadRecord where
  record := source.record
  hash := source.hash
  key := source.key
  pin := source.pin.1
  durable := source.pin.2
  opcode := source.opcode

theorem CompactReadRecord.view_ofView (source : ReadRecordView) :
    (ofView source).view = source.retained := rfl

structure PublishedReadRecord where
  key : Key
  keyHash : UInt64
  reference : RecordRef
  pin : GenerationPin
  deriving DecidableEq, Repr

def PublishedReadRecord.view (record : PublishedReadRecord) : ReadRecordView where
  hash := record.keyHash
  key := record.key
  record := record.reference
  durable := some record.pin

/-! ## The table -/

/-- What freshly allocated arrays happen to hold. -/
structure RawStorage where
  control : Nat → UInt8
  index : Nat → Nat

structure ImmutableReadIndex where
  capacity : Nat
  recordCapacity : Nat
  size : Nat := 0
  records : List CompactReadRecord := []
  control : Bytes
  recordIndices : List Nat

namespace ImmutableReadIndex

variable (index : ImmutableReadIndex)

def controlAt (slot : Nat) : UInt8 :=
  index.control.getD slot kSwissEmpty

def recordOf (slot : Nat) : Option CompactReadRecord :=
  index.records[index.recordIndices.getD slot 0]?

/-- `initialize`; `none` is `std::bad_alloc`. -/
def initializeTable (maximumRecords : Nat) (initializeControl : Bool) (raw : RawStorage) :
    Option ImmutableReadIndex :=
  if maximumRecords > kUInt32Max then
    none
  else
    (capacityFrom maximumRecords 64 kSwissGroupSize).map fun capacity =>
      { capacity := capacity
        recordCapacity := maximumRecords
        control :=
          if initializeControl then List.replicate capacity kSwissEmpty
          else (List.range capacity).map raw.control
        recordIndices := (List.range capacity).map raw.index }

def initializeControlSlots (first count : Nat) : ImmutableReadIndex :=
  { index with control := blit index.control first (List.replicate count kSwissEmpty) }

/-- The loop of `place`. A full round without an empty slot would go on forever. -/
def placeFrom : Nat → Nat → Option Nat
  | 0, _ => none
  | groups + 1, groupStart =>
    match (List.range kSwissGroupSize).find? fun offset =>
        index.controlAt (groupStart + offset) = kSwissEmpty with
    | some offset => some (groupStart + offset)
    | none => placeFrom groups (nextGroup index.capacity groupStart)

/-- `place`; `none` when it throws or never returns. -/
def place (hash : UInt64) (recordIndex : Nat) : Option ImmutableReadIndex :=
  if recordIndex > kUInt32Max then
    none
  else
    (index.placeFrom (index.capacity / kSwissGroupSize) (probeStart index.capacity hash)).map
      fun slot =>
        { index with
          control := index.control.set slot (fingerprint hash)
          recordIndices := index.recordIndices.set slot recordIndex
          size := index.size + 1 }

/-- `append`; `none` when it throws or never returns. -/
def append (source : ReadRecordView) : Option ImmutableReadIndex :=
  if index.records.length = index.recordCapacity then
    none
  else if source.key.length > kUInt32Max then
    none
  else
    { index with records := index.records ++ [ofView source] }.place source.hash
      index.records.length

def appendAll : ImmutableReadIndex → List ReadRecordView → Option ImmutableReadIndex
  | index, [] => some index
  | index, source :: rest => (index.append source).bind (appendAll · rest)

def ofSnapshot (source : List PublishedReadRecord) (raw : RawStorage) : Option ImmutableReadIndex :=
  (initializeTable source.length true raw).bind (appendAll · (source.map PublishedReadRecord.view))

def compare (hash : UInt64) (key : Key) (slot : Nat) : Option (Option CompactReadRecord) :=
  match index.recordOf slot with
  | none => some none
  | some record => if record.hash = hash ∧ record.key = key then some (some record) else none

def find (hash : UInt64) (key : Key) : Option CompactReadRecord :=
  findGroups index.capacity
    (fun groupStart => findInGroup index.control groupStart (fingerprint hash)
      (index.compare hash key) (List.range kSwissGroupSize))
    (index.capacity / kSwissGroupSize) (probeStart index.capacity hash)

def recordAt (slot : Nat) : Option ReadRecordView :=
  if slot ≥ index.capacity then
    none
  else if index.controlAt slot = kSwissEmpty then
    none
  else
    (index.recordOf slot).map view

/-! ## The table as cells -/

def cellAt (slot : Nat) : Cell Key CompactReadRecord :=
  if index.controlAt slot = kSwissEmpty then
    .vacant
  else
    match index.recordOf slot with
    | some record => .occupied record.key record
    | none => .vacant

variable (hash : Key → UInt64)

/-- What appending keeps: full slots lead to a record with the slot's
fingerprint, probing finds every record, and the slots in use are as many as the
records. -/
structure Valid (index : ImmutableReadIndex) : Prop where
  whole : Whole index.capacity
  control : index.control.length = index.capacity
  indices : index.recordIndices.length = index.capacity
  full : ∀ {slot}, index.controlAt slot ≠ kSwissEmpty →
    ∃ record, index.recordOf slot = some record ∧
      index.controlAt slot = fingerprint record.hash
  hashed : ∀ record ∈ index.records, record.hash = hash record.key
  small : ∀ record ∈ index.records, record.key.length ≤ kUInt32Max
  probed : Probed (fun key => readPath index.capacity (hash key)) index.cellAt
  counted : occupancy index.capacity index.cellAt = index.records.length
  sized : index.size = index.records.length
  room : index.recordCapacity ≤ index.capacity - index.capacity / 4
  bounded : index.recordCapacity ≤ kUInt32Max

variable {hash} {index : ImmutableReadIndex}

theorem cellAt_ne_tombstone (index : ImmutableReadIndex) (slot : Nat) :
    index.cellAt slot ≠ .tombstone := by
  unfold cellAt
  split
  · exact nofun
  · split <;> exact nofun

variable {slot : Nat} {key : Key} {record : CompactReadRecord}

theorem cellAt_eq_occupied :
    index.cellAt slot = .occupied key record ↔
      index.controlAt slot ≠ kSwissEmpty ∧
        index.recordOf slot = some record ∧ record.key = key := by
  unfold cellAt
  split
  · next empty => simp [empty]
  · next full =>
    cases index.recordOf slot with
    | none => simp
    | some stored =>
      simp only [Cell.occupied.injEq, Option.some.injEq, ne_eq, full, not_false_eq_true, true_and]
      constructor
      · rintro ⟨rfl, rfl⟩
        exact ⟨rfl, rfl⟩
      · rintro ⟨rfl, rfl⟩
        exact ⟨rfl, rfl⟩

namespace Valid

theorem cellAt_eq_vacant (valid : index.Valid hash) :
    index.cellAt slot = .vacant ↔ index.controlAt slot = kSwissEmpty := by
  constructor
  · intro vacant
    refine Classical.byContradiction fun full => ?_
    obtain ⟨record, stored, -⟩ := valid.full full
    have occupied := cellAt_eq_occupied.mpr ⟨full, stored, rfl⟩
    rw [vacant] at occupied
    exact nomatch occupied
  · intro empty
    rw [cellAt, if_pos empty]

theorem slotAgrees (valid : index.Valid hash) (key : Key) (slot : Nat) :
    SlotAgrees (index.cellAt slot) key (index.controlAt slot)
      (fingerprint (hash key)) (index.compare (hash key) key slot) where
  live := index.cellAt_ne_tombstone slot
  vacant := valid.cellAt_eq_vacant.symm
  hit := by
    intro record holds
    obtain ⟨full, stored, rfl⟩ := cellAt_eq_occupied.mp holds
    obtain ⟨other, same, byte⟩ := valid.full full
    obtain rfl : record = other := Option.some.inj (stored.symm.trans same)
    have hashed := valid.hashed record (List.mem_of_getElem? stored)
    exact ⟨by rw [byte, hashed], by simp only [compare, stored, hashed, and_self, if_true]⟩
  miss := by
    intro other record holds different _
    obtain ⟨-, stored, rfl⟩ := cellAt_eq_occupied.mp holds
    simp only [compare, stored]
    rw [if_neg fun both => different both.2]

theorem find_eq (valid : index.Valid hash) (key : Key) :
    index.find (hash key) key =
      fetch index.cellAt key (readPath index.capacity (hash key)) := by
  refine findGroups_fetch _ _ (valid.whole.probeStart (hash key)) fun groupStart start rest => ?_
  have fits : groupStart + kSwissGroupSize ≤ index.control.length := by
    rw [valid.control]
    exact start.fits
  exact findInGroup_fetch ⟨fits, fun offset _ => valid.slotAgrees key (groupStart + offset)⟩ rest
    (List.range kSwissGroupSize) (by simp)

theorem find_iff (valid : index.Valid hash) :
    index.find (hash key) key = some record ↔ Binds index.cellAt key record := by
  rw [valid.find_eq]
  exact valid.probed.fetch_iff

theorem find_eq_none (valid : index.Valid hash) :
    index.find (hash key) key = none ↔ ∀ record, ¬ Binds index.cellAt key record := by
  rw [valid.find_eq]
  exact valid.probed.fetch_eq_none

end Valid

/-! ## Appending -/

theorem placeFrom_eq (valid : index.Valid hash) (groups groupStart : Nat)
    (start : SwissTableIndex.GroupStart index.capacity groupStart) :
    index.placeFrom groups groupStart =
      firstVacant index.cellAt (SwissTableIndex.groupPath index.capacity groups groupStart) := by
  induction groups generalizing groupStart with
  | zero => rfl
  | succ groups ih =>
    have group : ∀ offsets rest,
        firstVacant index.cellAt (List.map (groupStart + ·) offsets ++ rest) =
          match offsets.find? fun offset =>
              index.controlAt (groupStart + offset) = kSwissEmpty with
          | some offset => some (groupStart + offset)
          | none => firstVacant index.cellAt rest := by
      intro offsets rest
      induction offsets with
      | nil => rfl
      | cons offset offsets step =>
        rw [List.map_cons, List.cons_append, firstVacant, List.find?_cons]
        by_cases empty : index.controlAt (groupStart + offset) = kSwissEmpty
        · rw [valid.cellAt_eq_vacant.mpr empty, decide_eq_true empty]
        · have live : index.cellAt (groupStart + offset) ≠ .vacant :=
            fun vacant => empty (valid.cellAt_eq_vacant.mp vacant)
          rw [decide_eq_false empty]
          cases cell : index.cellAt (groupStart + offset) with
          | vacant => exact absurd cell live
          | tombstone => exact step
          | occupied key record => exact step
    rw [placeFrom, SwissTableIndex.groupPath, group]
    cases (List.range kSwissGroupSize).find? fun offset =>
        index.controlAt (groupStart + offset) = kSwissEmpty with
    | some offset => rfl
    | none =>
      simp only
      rw [nextGroup_eq start]
      exact ih _ start.next

def appended (source : ReadRecordView) (slot : Nat) : ImmutableReadIndex :=
  { index with
    records := index.records ++ [ofView source]
    control := index.control.set slot (fingerprint source.hash)
    recordIndices := index.recordIndices.set slot index.records.length
    size := index.size + 1 }

theorem placeFrom_records (records : List CompactReadRecord) (groups groupStart : Nat) :
    { index with records := records }.placeFrom groups groupStart =
      index.placeFrom groups groupStart := by
  induction groups generalizing groupStart with
  | zero => rfl
  | succ groups ih =>
    rw [placeFrom, placeFrom, ih]
    rfl

variable {source : ReadRecordView} {next : ImmutableReadIndex}

theorem append_cases (done : index.append source = some next) :
    source.key.length ≤ kUInt32Max ∧ index.records.length ≠ index.recordCapacity ∧
      ∃ slot, index.placeFrom (index.capacity / kSwissGroupSize)
        (probeStart index.capacity source.hash) = some slot ∧ next = index.appended source slot := by
  revert done
  fun_cases append index source with
  | case3 room small =>
    unfold place
    split
    · exact nofun
    · intro done
      obtain ⟨slot, found, rfl⟩ := Option.map_eq_some_iff.mp done
      rw [placeFrom_records] at found
      exact ⟨by omega, room, slot, found, rfl⟩
  | _ => nofun

namespace Valid

variable (source) in
theorem controlAt_appended (valid : index.Valid hash) (inside : slot < index.capacity)
    (other : Nat) : (index.appended source slot).controlAt other =
      if other = slot then fingerprint source.hash else index.controlAt other := by
  unfold controlAt appended
  rw [List.getD_eq_getElem?_getD, List.getD_eq_getElem?_getD]
  split
  · next same =>
    subst same
    rw [List.getElem?_set_self (by rw [valid.control]; exact inside)]
    rfl
  · next different => rw [List.getElem?_set_ne (Ne.symm different)]

theorem recordOf_appended (valid : index.Valid hash) (inside : slot < index.capacity) :
    (index.appended source slot).recordOf slot = some (ofView source) := by
  unfold recordOf appended
  rw [List.getD_eq_getElem?_getD, List.getElem?_set_self (by rw [valid.indices]; exact inside)]
  simp

theorem recordOf_appended_of_ne {other : Nat} (different : other ≠ slot)
    (stored : index.recordOf other = some record) :
    (index.appended source slot).recordOf other = some record := by
  unfold recordOf appended at *
  rw [List.getD_eq_getElem?_getD, List.getElem?_set_ne (Ne.symm different),
    ← List.getD_eq_getElem?_getD]
  exact List.getElem?_append_left (List.getElem?_eq_some_iff.mp stored).1 ▸ stored

variable (source) in
theorem cellAt_appended (valid : index.Valid hash) (inside : slot < index.capacity) :
    (index.appended source slot).cellAt =
      Function.update index.cellAt slot
        (.occupied source.key (ofView source)) := by
  funext other
  by_cases same : other = slot
  · subst same
    rw [Function.update_self]
    refine cellAt_eq_occupied.mpr ⟨?_, valid.recordOf_appended inside, rfl⟩
    rw [valid.controlAt_appended source inside, if_pos rfl]
    exact fingerprint_ne_empty source.hash
  · rw [Function.update_of_ne same]
    have byte := valid.controlAt_appended source inside other
    rw [if_neg same] at byte
    by_cases empty : index.controlAt other = kSwissEmpty
    · rw [valid.cellAt_eq_vacant.mpr empty, cellAt, byte, if_pos empty]
    · obtain ⟨record, stored, -⟩ := valid.full empty
      rw [cellAt_eq_occupied.mpr ⟨empty, stored, rfl⟩]
      exact cellAt_eq_occupied.mpr
        ⟨by rwa [byte], recordOf_appended_of_ne same stored, rfl⟩

end Valid

theorem Valid.append (valid : index.Valid hash) (hashed : source.hash = hash source.key)
    (absent : ∀ record, ¬ Binds index.cellAt source.key record)
    (done : index.append source = some next) :
    next.Valid hash ∧ ∀ key record, Binds next.cellAt key record ↔
      (key = source.key ∧ record = ofView source) ∨
        (key ≠ source.key ∧ Binds index.cellAt key record) := by
  obtain ⟨small, room, slot, found, rfl⟩ := append_cases done
  have start := valid.whole.probeStart source.hash
  rw [placeFrom_eq valid _ _ start] at found
  obtain ⟨vacant, before, after, split, -⟩ := firstVacant_split found
  have inside : slot < index.capacity :=
    lt_of_mem_groupPath start (split ▸ List.mem_append_right _ List.mem_cons_self)
  have free : Free (fun key => readPath index.capacity (hash key)) index.cellAt source.key slot :=
    firstVacant_free absent (by rw [readPath, ← hashed]; exact found)
  have cells := valid.cellAt_appended source inside
  refine ⟨?_, ?_⟩
  · constructor
    case whole => exact valid.whole
    case control => exact List.length_set.trans valid.control
    case indices => exact List.length_set.trans valid.indices
    case full =>
      intro other full
      rw [valid.controlAt_appended source inside] at full ⊢
      by_cases same : other = slot
      · subst same
        exact ⟨_, valid.recordOf_appended inside, by rw [if_pos rfl]; rfl⟩
      · rw [if_neg same] at full ⊢
        obtain ⟨record, stored, byte⟩ := valid.full full
        exact ⟨record, recordOf_appended_of_ne same stored, byte⟩
    case hashed =>
      intro record member
      rcases List.mem_append.mp member with old | new
      · exact valid.hashed record old
      · rw [List.mem_singleton.mp new]
        exact hashed
    case small =>
      intro record member
      rcases List.mem_append.mp member with old | new
      · exact valid.small record old
      · rw [List.mem_singleton.mp new]
        exact small
    case probed =>
      rw [cells]
      exact valid.probed.insert free _
    case counted =>
      rw [cells]
      show occupancy index.capacity _ = (index.records ++ [_]).length
      rw [occupancy_insert inside (by rw [vacant]; rfl), valid.counted, List.length_append,
        List.length_singleton]
    case sized =>
      show index.size + 1 = (index.records ++ [_]).length
      rw [valid.sized, List.length_append, List.length_singleton]
    case room => exact valid.room
    case bounded => exact valid.bounded
  · intro key record
    rw [cells]
    exact free.owned.binds_occupied _ key record

theorem Valid.append_isSome (valid : index.Valid hash)
    (room : index.records.length < index.recordCapacity) (small : source.key.length ≤ kUInt32Max) :
    (index.append source).isSome := by
  have capacity := valid.room
  have bounded := valid.bounded
  obtain ⟨slot, inside, vacant⟩ := exists_vacant index.cellAt_ne_tombstone
    (by rw [valid.counted]; omega : occupancy index.capacity index.cellAt < index.capacity)
  have found := firstVacant_isSome (mem_readPath valid.whole source.hash inside) vacant
  rw [readPath, ← placeFrom_eq valid _ _ (valid.whole.probeStart source.hash)] at found
  unfold ImmutableReadIndex.append ImmutableReadIndex.place
  rw [if_neg (by omega), if_neg (by omega), if_neg (by omega), Option.isSome_map, placeFrom_records]
  exact found

/-! ## Building from a snapshot -/

structure Blank (index : ImmutableReadIndex) : Prop where
  whole : Whole index.capacity
  control : index.control = List.replicate index.capacity kSwissEmpty
  indices : index.recordIndices.length = index.capacity
  records : index.records = []
  sized : index.size = 0
  room : index.recordCapacity ≤ index.capacity - index.capacity / 4
  bounded : index.recordCapacity ≤ kUInt32Max

theorem Blank.cellAt (blank : index.Blank) : index.cellAt = fun _ => .vacant := by
  funext slot
  rw [ImmutableReadIndex.cellAt, if_pos]
  rw [controlAt, blank.control, List.getD_eq_getElem?_getD, List.getElem?_replicate]
  split <;> rfl

variable (hash) in
theorem Blank.valid (blank : index.Blank) : index.Valid hash := by
  have cells := blank.cellAt
  constructor
  case whole => exact blank.whole
  case control => rw [blank.control, List.length_replicate]
  case indices => exact blank.indices
  case full =>
    intro slot full
    refine absurd ?_ full
    rw [controlAt, blank.control, List.getD_eq_getElem?_getD, List.getElem?_replicate]
    split <;> rfl
  case hashed => simp [blank.records]
  case small => simp [blank.records]
  case probed =>
    rw [cells]
    exact Probed.vacant _
  case counted =>
    rw [cells, blank.records]
    exact List.countP_eq_zero.mpr (by simp [Cell.value?])
  case sized => rw [blank.sized, blank.records]; rfl
  case room => exact blank.room
  case bounded => exact blank.bounded

variable {maximumRecords : Nat} {raw : RawStorage}

theorem initializeTable_cases {initializeControl : Bool}
    (done : initializeTable maximumRecords initializeControl raw = some index) :
    index.recordCapacity = maximumRecords ∧ maximumRecords ≤ kUInt32Max ∧ Whole index.capacity ∧
      maximumRecords ≤ index.capacity - index.capacity / 4 ∧ index.records = [] ∧ index.size = 0 ∧
      index.recordIndices.length = index.capacity ∧ index.control.length = index.capacity ∧
      (initializeControl = true → index.control = List.replicate index.capacity kSwissEmpty) := by
  unfold initializeTable at done
  split at done
  · simp at done
  · next small =>
    obtain ⟨capacity, found, rfl⟩ := Option.map_eq_some_iff.mp done
    obtain ⟨room, whole, positive⟩ := capacityFrom_spec found (by decide)
    refine ⟨rfl, by omega, ⟨positive, Nat.mod_eq_zero_of_dvd whole⟩, room, rfl, rfl, by simp, ?_, ?_⟩
    · cases initializeControl <;> simp
    · rintro rfl
      rfl

theorem initializeTable_blank (done : initializeTable maximumRecords true raw = some index) :
    index.Blank := by
  obtain ⟨capacity, small, whole, room, records, sized, indices, -, control⟩ :=
    initializeTable_cases done
  exact ⟨whole, control rfl, indices, records, sized, capacity ▸ room, capacity ▸ small⟩

theorem Valid.appendAll (valid : index.Valid hash) {sources : List ReadRecordView}
    (hashed : ∀ source ∈ sources, source.hash = hash source.key)
    (distinct : (sources.map ReadRecordView.key).Nodup)
    (absent : ∀ source ∈ sources, ∀ record, ¬ Binds index.cellAt source.key record)
    {final : ImmutableReadIndex} (done : index.appendAll sources = some final) :
    final.Valid hash ∧ ∀ key record, Binds final.cellAt key record ↔
      (∃ source ∈ sources, source.key = key ∧ record = ofView source) ∨
        Binds index.cellAt key record := by
  induction sources generalizing index with
  | nil =>
    obtain rfl := Option.some.inj done
    exact ⟨valid, by simp⟩
  | cons source rest ih =>
    obtain ⟨next, here, later⟩ := Option.bind_eq_some_iff.mp done
    obtain ⟨nextValid, binds⟩ := valid.append (hashed source List.mem_cons_self)
      (absent source List.mem_cons_self) here
    rw [List.map_cons, List.nodup_cons] at distinct
    have other : ∀ source' ∈ rest, source'.key ≠ source.key := fun source' member same =>
      distinct.1 (same ▸ List.mem_map_of_mem member)
    obtain ⟨finalValid, finalBinds⟩ := ih nextValid
      (fun source' member => hashed source' (List.mem_cons_of_mem _ member)) distinct.2
      (fun source' member record bound => by
        rcases (binds _ _).mp bound with ⟨same, -⟩ | ⟨-, old⟩
        · exact other source' member same
        · exact absent source' (List.mem_cons_of_mem _ member) record old) later
    refine ⟨finalValid, fun key record => ?_⟩
    rw [finalBinds, binds]
    constructor
    · rintro (⟨source', member, rfl, rfl⟩ | ⟨rfl, rfl⟩ | ⟨-, old⟩)
      · exact .inl ⟨source', List.mem_cons_of_mem _ member, rfl, rfl⟩
      · exact .inl ⟨source, List.mem_cons_self, rfl, rfl⟩
      · exact .inr old
    · rintro (⟨source', member, rfl, rfl⟩ | old)
      · rcases List.mem_cons.mp member with rfl | member
        · exact .inr (.inl ⟨rfl, rfl⟩)
        · exact .inl ⟨source', member, rfl, rfl⟩
      · by_cases same : key = source.key
        · exact absurd old (same ▸ absent source List.mem_cons_self record)
        · exact .inr (.inr ⟨same, old⟩)

variable (hash) in
/-- A snapshot of one Index: each key once, with its own hash. -/
structure SnapshotValid (records : List PublishedReadRecord) : Prop where
  hashed : ∀ record ∈ records, record.keyHash = hash record.key
  distinct : (records.map PublishedReadRecord.key).Nodup

theorem SnapshotValid.nil : SnapshotValid hash [] :=
  ⟨by simp, .nil⟩

theorem ofSnapshot_valid {source : List PublishedReadRecord} (snapshot : SnapshotValid hash source)
    (done : ofSnapshot source raw = some index) :
    index.Valid hash ∧ ∀ key record, Binds index.cellAt key record ↔
      ∃ published ∈ source, published.key = key ∧
        record = ofView published.view := by
  obtain ⟨start, begun, finished⟩ := Option.bind_eq_some_iff.mp done
  have blank := initializeTable_blank begun
  have none : ∀ key record, ¬ Binds start.cellAt key record := by
    rintro key record ⟨slot, holds⟩
    rw [blank.cellAt] at holds
    exact nomatch holds
  obtain ⟨valid, binds⟩ := (blank.valid hash).appendAll
    (by simpa [PublishedReadRecord.view] using snapshot.hashed)
    (by simpa [Function.comp_def, PublishedReadRecord.view] using snapshot.distinct)
    (fun source _ record => none source.key record) finished
  refine ⟨valid, fun key record => ?_⟩
  rw [binds]
  simp only [List.mem_map, exists_exists_and_eq_and, none, or_false]
  rfl

end ImmutableReadIndex

end GlifiStore
