import GlifiStore.Index.Probing

/-!
# The table invariant

`Valid` collects what every reachable table satisfies: its shape, its counters,
the probe-chain invariant and the accounting of arena-held keys. A change of one
slot keeps it when the counters and the arena follow (`Valid.replace`).
-/

namespace GlifiStore

open ByteLayout OpenAddressing

namespace SwissTableIndex

variable {hash : Key → UInt64}

def liveHeapBytes (control : Bytes) (slots : List Slot) : Nat :=
  (List.zipWith heapKeyBytes control slots).sum

variable (hash) in
structure Valid (table : SwissTableIndex) : Prop where
  capacity : ∃ doublings ≤ 60, table.capacity = 2 ^ doublings * kSwissGroupSize
  control : table.control.length = table.capacity
  slots : table.slots.length = table.capacity
  size : table.control.countP isFull = table.size
  deleted : table.control.count kSwissDeleted = table.deletedCount
  occupancy : table.effectiveOccupancy ≤ table.maximumOccupancy
  full : ∀ index, isFull (table.controlAt index) →
    table.SlotValid hash (table.controlAt index) (table.slotAt index)
  probed : Probed (table.probePath hash) table.cellAt
  arena : table.heapKeys.Valid
  live : liveHeapBytes table.control table.slots = table.heapLiveBytes
  accounted : table.heapLiveBytes + table.heapDeadBytes = table.heapKeys.bump

variable {table : SwissTableIndex}

/-! ## Shape -/

variable {index : Nat}

section Valid

variable (valid : table.Valid hash)
include valid

theorem Valid.searchable : table.Searchable hash :=
  ⟨valid.control, valid.full⟩

theorem Valid.lt_control (inside : index < table.capacity) :
    index < table.control.length :=
  valid.control.symm ▸ inside

theorem Valid.lt_slots (inside : index < table.capacity) :
    index < table.slots.length :=
  valid.slots.symm ▸ inside

theorem Valid.countP_set (inside : index < table.capacity) (accepts : UInt8 → Bool)
    (control : UInt8) :
    (table.control.set index control).countP accepts = table.control.countP accepts -
      (if accepts (table.controlAt index) then 1 else 0) + if accepts control then 1 else 0 := by
  have inControl := valid.lt_control inside
  rw [List.countP_set inControl, controlAt, List.getD_eq_getElem _ _ inControl]

theorem Valid.controlAt_mem (inside : index < table.capacity) :
    table.controlAt index ∈ table.control := by
  rw [controlAt, List.getD_eq_getElem _ _ (valid.lt_control inside)]
  exact List.getElem_mem _

theorem Valid.capacity_pos : kSwissGroupSize ≤ table.capacity := by
  obtain ⟨doublings, -, size⟩ := valid.capacity
  rw [size]
  exact Nat.le_mul_of_pos_left _ (Nat.two_pow_pos doublings)

theorem Valid.groups :
    ∃ doublings, table.capacity / kSwissGroupSize = 2 ^ doublings ∧
      table.capacity = 2 ^ doublings * kSwissGroupSize := by
  obtain ⟨doublings, -, size⟩ := valid.capacity
  exact ⟨doublings, by rw [size, Nat.mul_div_cancel _ (by decide)], size⟩

theorem Valid.probeStart (mixed : UInt64) :
    ∃ group < table.capacity / kSwissGroupSize,
      table.probeStart mixed = group * kSwissGroupSize := by
  obtain ⟨doublings, groups, -⟩ := valid.groups
  refine ⟨(mixed >>> 7).toNat % 2 ^ doublings, ?_, ?_⟩
  · rw [groups]
    exact Nat.mod_lt _ (Nat.two_pow_pos doublings)
  · rw [SwissTableIndex.probeStart, groups, Nat.and_two_pow_sub_one_eq_mod]

theorem Valid.groupStart (mixed : UInt64) : GroupStart table.capacity (table.probeStart mixed) := by
  obtain ⟨group, inside, start⟩ := valid.probeStart mixed
  obtain ⟨doublings, groups, size⟩ := valid.groups
  rw [groups] at inside
  rw [start, size]
  refine ⟨Nat.mul_mod_left _ _, ?_, Nat.mul_mod_left _ _⟩
  exact Nat.mul_lt_mul_of_pos_right inside (by decide)

theorem Valid.mem_probePath (key : Key) (inside : index < table.capacity) :
    index ∈ table.probePath hash key := by
  obtain ⟨group, bound, start⟩ := valid.probeStart (table.mixHash (hash key))
  obtain ⟨doublings, groups, size⟩ := valid.groups
  rw [groups] at bound
  rw [probePath, start, groups, size]
  exact mem_groupPath_full bound (by rwa [← size])

theorem Valid.lt_capacity_of_mem {key : Key} (member : index ∈ table.probePath hash key) :
    index < table.capacity := by
  obtain ⟨group, bound, start⟩ := valid.probeStart (table.mixHash (hash key))
  obtain ⟨doublings, groups, size⟩ := valid.groups
  rw [groups] at bound
  rw [probePath, start, groups, size, mem_groupPath _ _ bound] at member
  obtain ⟨steps, -, quotient⟩ := member
  have below : index / kSwissGroupSize < 2 ^ doublings := by
    rw [quotient]
    exact Nat.mod_lt _ (Nat.two_pow_pos doublings)
  rw [size]
  exact Nat.lt_mul_of_div_lt below (by decide)

omit valid in
theorem lt_capacity_of_full (covered : table.control.length = table.capacity)
    (full : isFull (table.controlAt index)) : index < table.capacity := by
  rw [← covered]
  apply Classical.byContradiction
  intro outside
  rw [isFull_iff, controlAt, List.getD_eq_getElem?_getD,
    List.getElem?_eq_none (Nat.not_lt.mp outside)] at full
  exact full.1 rfl

omit valid in
theorem countP_isFull_add (control : Bytes) :
    control.countP isFull + control.count kSwissDeleted + control.count kSwissEmpty =
      control.length := by
  induction control with
  | nil => rfl
  | cons byte rest ih =>
    by_cases empty : byte = kSwissEmpty
    · subst empty
      have : kSwissEmpty ≠ kSwissDeleted := Ne.symm kSwissDeleted_ne_empty
      simp [isFull, this] at ih ⊢
      omega
    · by_cases deleted : byte = kSwissDeleted
      · subst deleted
        simp [isFull, kSwissDeleted_ne_empty] at ih ⊢
        omega
      · simp [isFull, empty, deleted] at ih ⊢
        omega

theorem Valid.exists_empty : ∃ index < table.capacity, table.controlAt index = kSwissEmpty := by
  have total := countP_isFull_add table.control
  have occupancy := valid.occupancy
  have positive := valid.capacity_pos
  rw [valid.size, valid.deleted, valid.control] at total
  simp only [effectiveOccupancy, maximumOccupancy, kSwissGroupSize] at occupancy positive
  have some_empty : 0 < table.control.count kSwissEmpty := by omega
  obtain ⟨index, inside, holds⟩ := List.getElem_of_mem (List.count_pos_iff.mp some_empty)
  refine ⟨index, by rwa [← valid.control], ?_⟩
  simp [controlAt, inside, holds]

/-! ## Lookup -/

theorem Valid.findSlotIndex_eq (key : Key) :
    table.findSlotIndex key (hash key) = search table.cellAt key (table.probePath hash key) := by
  have positive := valid.capacity_pos
  have nonzero : table.capacity ≠ 0 := by
    simp only [kSwissGroupSize] at positive
    omega
  rw [findSlotIndex, if_neg nonzero]
  exact findFrom_search valid.searchable _ _ (valid.groupStart _)

theorem Valid.findSlotIndex_iff (key : Key)
    (index : Nat) : table.findSlotIndex key (hash key) = some index ↔
      table.cellAt index = .occupied key (table.slotAt index).ref := by
  rw [valid.findSlotIndex_eq, valid.probed.search_iff]
  constructor
  · rintro ⟨ref, holds⟩
    obtain ⟨full, stored, same⟩ := cellAt_eq_occupied.mp holds
    rw [holds, same]
  · intro holds
    exact ⟨_, holds⟩

theorem Valid.find_iff (key : Key) (ref : RecordRef) :
    table.find key (hash key) = some ref ↔ Binds table.cellAt key ref := by
  rw [find, Option.map_eq_some_iff]
  constructor
  · rintro ⟨index, found, rfl⟩
    exact ⟨index, (valid.findSlotIndex_iff key index).mp found⟩
  · rintro ⟨index, holds⟩
    obtain ⟨full, stored, same⟩ := cellAt_eq_occupied.mp holds
    refine ⟨index, (valid.findSlotIndex_iff key index).mpr ?_, same⟩
    rw [holds, same]

theorem Valid.find_eq_none (key : Key) :
    table.find key (hash key) = none ↔ ∀ ref, ¬ Binds table.cellAt key ref := by
  rw [find, Option.map_eq_none_iff, valid.findSlotIndex_eq, valid.probed.search_eq_none]

end Valid

variable {right : SwissTableIndex}

theorem Valid.find_congr {left : SwissTableIndex} (leftValid : left.Valid hash)
    (rightValid : right.Valid hash)
    (same : ∀ key ref, Binds left.cellAt key ref ↔ Binds right.cellAt key ref) (key : Key) :
    left.find key (hash key) = right.find key (hash key) := by
  apply Option.ext
  intro ref
  rw [leftValid.find_iff, rightValid.find_iff, same]

variable (hash) in
/-- A change of the table that keeps every binding. -/
structure Preserved (table after : SwissTableIndex) : Prop where
  valid : after.Valid hash
  seed : after.seed = table.seed
  size : after.size = table.size
  bump : after.heapKeys.bump ≤ table.heapKeys.bump
  binds : ∀ key ref, Binds after.cellAt key ref ↔ Binds table.cellAt key ref

theorem Preserved.refl (valid : table.Valid hash) : Preserved hash table table :=
  ⟨valid, rfl, rfl, Nat.le_refl _, fun _ _ => Iff.rfl⟩

theorem Preserved.trans {first second third : SwissTableIndex}
    (left : Preserved hash first second) (right : Preserved hash second third) :
    Preserved hash first third :=
  ⟨right.valid, right.seed.trans left.seed, right.size.trans left.size,
    Nat.le_trans right.bump left.bump, fun key ref => (right.binds key ref).trans (left.binds key ref)⟩

theorem Preserved.find_eq {after : SwissTableIndex} (valid : table.Valid hash)
    (preserved : Preserved hash table after) (key : Key) :
    after.find key (hash key) = table.find key (hash key) :=
  preserved.valid.find_congr valid preserved.binds key

/-! ## Changing one slot -/

theorem sum_zipWith_set {α β : Type} (weight : α → β → Nat) {lefts : List α} {rights : List β}
    (left dummyLeft : α) (right dummyRight : β) (inLefts : index < lefts.length)
    (inRights : index < rights.length) :
    (List.zipWith weight (lefts.set index left) (rights.set index right)).sum +
        weight (lefts.getD index dummyLeft) (rights.getD index dummyRight) =
      (List.zipWith weight lefts rights).sum + weight left right := by
  induction lefts generalizing rights index with
  | nil => simp at inLefts
  | cons head lefts ih =>
    cases rights with
    | nil => simp at inRights
    | cons other rights =>
      cases index with
      | zero =>
        simp only [List.set_cons_zero, List.zipWith_cons_cons, List.sum_cons,
          List.getD_cons_zero]
        omega
      | succ index =>
        have step := ih (by simpa using inLefts) (by simpa using inRights)
        simp only [List.set_cons_succ, List.zipWith_cons_cons, List.sum_cons,
          List.getD_cons_succ]
        omega

theorem le_sum_zipWith {α β : Type} (weight : α → β → Nat) {lefts : List α} {rights : List β}
    (dummyLeft : α) (dummyRight : β) (inLefts : index < lefts.length)
    (inRights : index < rights.length) :
    weight (lefts.getD index dummyLeft) (rights.getD index dummyRight) ≤
      (List.zipWith weight lefts rights).sum := by
  have inside : index < (List.zipWith weight lefts rights).length := by
    rw [List.length_zipWith]
    exact lt_min inLefts inRights
  simpa [inLefts, inRights] using List.le_sum_of_mem (List.getElem_mem inside)

structure Keeps (old new : KeyArena) : Prop where
  bump : old.bump ≤ new.bump
  data : ∀ offset size, offset + size ≤ old.bump → new.data offset size = old.data offset size

theorem Keeps.refl (arena : KeyArena) : Keeps arena arena :=
  ⟨Nat.le_refl _, fun _ _ _ => rfl⟩

theorem Keeps.trans {first second third : KeyArena} (left : Keeps first second)
    (right : Keeps second third) : Keeps first third :=
  ⟨Nat.le_trans left.bump right.bump, fun offset size inside =>
    (right.data offset size (Nat.le_trans inside left.bump)).trans (left.data offset size inside)⟩

theorem Keeps.push {arena : KeyArena} (valid : arena.Valid) {bytes : Bytes}
    (fits : arena.bump + bytes.length ≤ kUInt32Max) : Keeps arena (arena.push bytes) :=
  ⟨Nat.le_add_right _ _, fun _ _ inside => KeyArena.data_push_old valid fits inside⟩

theorem mixHash_congr {left : SwissTableIndex} (seed : right.seed = left.seed) (keyHash : UInt64) :
    right.mixHash keyHash = left.mixHash keyHash := by
  simp only [mixHash, seed]

variable {other : SwissTableIndex} {control : UInt8} {slot : Slot}

theorem SlotValid.slotKey_eq (valid : table.SlotValid hash control slot)
    (keeps : Keeps table.heapKeys other.heapKeys) :
    other.slotKey slot = table.slotKey slot := by
  unfold slotKey
  split
  · rfl
  · split
    · rfl
    · next heap => exact keeps.data _ _ (valid.heap (by simpa using heap)).2

theorem SlotValid.transfer (valid : table.SlotValid hash control slot)
    (keeps : Keeps table.heapKeys other.heapKeys) (seed : other.seed = table.seed) :
    other.SlotValid hash control slot := by
  have same := valid.slotKey_eq keeps
  refine ⟨?_, ?_, ?_, valid.inline, ?_, valid.small⟩
  · rw [same, mixHash_congr seed, valid.fingerprint]
  · rw [same, valid.tag]
  · rw [same, valid.length]
  · intro heap
    exact ⟨(valid.heap heap).1, Nat.le_trans (valid.heap heap).2 keeps.bump⟩

theorem heapKeyBytes_of_not_full (notFull : ¬ isFull control) (slot : Slot) :
    heapKeyBytes control slot = 0 := by
  rw [heapKeyBytes, if_neg]
  simp [holdsHeapKey, notFull]

theorem SlotValid.heapKeyBytes_eq (full : isFull control)
    (valid : table.SlotValid hash control slot) :
    heapKeyBytes control slot = if slot.keyIsInline then 0 else slot.keySize := by
  by_cases inline : slot.keyIsInline
  · simp [heapKeyBytes, holdsHeapKey, inline]
  · have long := (valid.heap (by simpa using inline)).1
    have positive : 0 < slot.keySize := Nat.zero_lt_of_lt long
    simp [heapKeyBytes, holdsHeapKey, inline, full, positive]

section Replace

variable {after : SwissTableIndex} {key : Key}

def storeAt (table : SwissTableIndex) (index : Nat) (control : UInt8) (slot : Slot)
    (arena : KeyArena) : SwissTableIndex :=
  { table with
    control := table.control.set index control
    slots := table.slots.set index slot
    heapKeys := arena
    heapLiveBytes := table.heapLiveBytes + heapKeyBytes control slot
    deletedCount :=
      if table.controlAt index = kSwissDeleted then table.deletedCount - 1 else table.deletedCount
    size := table.size + 1 }

/-- A slot and its control byte are replaced, and the arena keeps its keys. -/
structure Replaces (table after : SwissTableIndex) (index : Nat) (control : UInt8) (slot : Slot) :
    Prop where
  inside : index < table.capacity
  capacity : after.capacity = table.capacity
  seed : after.seed = table.seed
  control : after.control = table.control.set index control
  slots : after.slots = table.slots.set index slot
  keeps : Keeps table.heapKeys after.heapKeys

def cellOf (table : SwissTableIndex) (control : UInt8) (slot : Slot) : Cell Key RecordRef :=
  if control = kSwissEmpty then .vacant
  else if control = kSwissDeleted then .tombstone
  else .occupied (table.slotKey slot) slot.ref

theorem cellOf_full (full : isFull control) :
    table.cellOf control slot = .occupied (table.slotKey slot) slot.ref := by
  rw [isFull_iff] at full
  rw [cellOf, if_neg full.1, if_neg full.2]

section Replaced

variable (replaces : Replaces table after index control slot) (valid : table.Valid hash)
include replaces valid

theorem Replaces.controlAt (other : Nat) :
    after.controlAt other = if other = index then control else table.controlAt other := by
  rw [SwissTableIndex.controlAt, replaces.control, getD_set _ _ (valid.lt_control replaces.inside)]
  rfl

theorem Replaces.slotAt (other : Nat) :
    after.slotAt other = if other = index then slot else table.slotAt other := by
  rw [SwissTableIndex.slotAt, replaces.slots, getD_set _ _ (valid.lt_slots replaces.inside)]
  rfl

theorem Replaces.cellAt :
    after.cellAt = Function.update table.cellAt index (after.cellOf control slot) := by
  funext other
  change after.cellOf (after.controlAt other) (after.slotAt other) = _
  rw [replaces.controlAt valid, replaces.slotAt valid]
  by_cases same : other = index
  · rw [if_pos same, if_pos same, same, Function.update_self]
  · rw [if_neg same, if_neg same, Function.update_of_ne same]
    unfold cellOf SwissTableIndex.cellAt
    split
    · rfl
    · split
      · rfl
      · next notEmpty notDeleted =>
        have slotValid := valid.full other (isFull_iff.mpr ⟨notEmpty, notDeleted⟩)
        rw [slotValid.slotKey_eq replaces.keeps]

theorem Valid.replace
    (size : after.control.countP isFull = after.size)
    (deleted : after.control.count kSwissDeleted = after.deletedCount)
    (occupancy : after.size + after.deletedCount ≤ table.maximumOccupancy)
    (slotValid : isFull control → after.SlotValid hash control slot)
    (probed : Probed (table.probePath hash)
      (Function.update table.cellAt index (after.cellOf control slot)))
    (arena : after.heapKeys.Valid)
    (live : after.heapLiveBytes + heapKeyBytes (table.controlAt index) (table.slotAt index) =
      table.heapLiveBytes + heapKeyBytes control slot)
    (accounted : after.heapLiveBytes + after.heapDeadBytes = after.heapKeys.bump) :
    after.Valid hash := by
  have inControl := valid.lt_control replaces.inside
  have inSlots := valid.lt_slots replaces.inside
  have path : after.probePath hash = table.probePath hash := by
    funext key
    simp only [probePath, SwissTableIndex.probeStart, mixHash_congr replaces.seed,
      replaces.capacity]
  refine ⟨?_, ?_, ?_, size, deleted, ?_, fun other full => ?_, ?_, arena, ?_, accounted⟩
  · rw [replaces.capacity]
    exact valid.capacity
  · rw [replaces.control, List.length_set, valid.control, replaces.capacity]
  · rw [replaces.slots, List.length_set, valid.slots, replaces.capacity]
  · rw [maximumOccupancy, replaces.capacity]
    exact occupancy
  · rw [replaces.controlAt valid] at full ⊢
    rw [replaces.slotAt valid]
    by_cases same : other = index
    · rw [if_pos same] at full ⊢
      rw [if_pos same]
      exact slotValid full
    · rw [if_neg same] at full ⊢
      rw [if_neg same]
      exact (valid.full other full).transfer replaces.keeps replaces.seed
  · rw [path, replaces.cellAt valid]
    exact probed
  · have sum := sum_zipWith_set heapKeyBytes control kSwissEmpty slot {} inControl inSlots
    rw [← replaces.control, ← replaces.slots] at sum
    have before := valid.live
    unfold liveHeapBytes at before ⊢
    rw [before, ← live] at sum
    exact Nat.add_right_cancel sum

end Replaced

theorem Free.not_full (free : Free (table.probePath hash) table.cellAt key index) :
    ¬ isFull (table.controlAt index) := by
  intro full
  rcases free.unoccupied with vacant | tombstone
  · exact (isFull_iff.mp full).1 (cellAt_eq_vacant.mp vacant)
  · exact (isFull_iff.mp full).2 (cellAt_eq_tombstone.mp tombstone)

end Replace

end SwissTableIndex

end GlifiStore
