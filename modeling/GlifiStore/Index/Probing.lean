import GlifiStore.Index.SwissTable
import GlifiStore.Lib.OpenAddressing

/-!
# Group probing is a search along a probe path

A table is read as an open-addressing table whose cells are the slots and whose
probe path of a key runs through the groups from the key's start group, eight
slots each. The group loops of lookup and insertion then are `search` and
`place` along that path, as long as every full slot carries its own key's tag
and fingerprint.
-/

namespace GlifiStore

open ByteLayout OpenAddressing

/-! ## Control groups -/

variable {control : Bytes} {groupStart offset : Nat}

theorem controlByteAt_load (inGroup : offset < kSwissGroupSize)
    (inside : groupStart + kSwissGroupSize ≤ control.length) :
    controlByteAt (loadControlGroup64 control groupStart) offset =
      control.getD (groupStart + offset) kSwissEmpty := by
  have present : groupStart + offset < control.length := by omega
  have head : (List.drop offset (slice control groupStart kSwissGroupSize)).head? =
      control[groupStart + offset]? := by
    rw [List.head?_drop, getElem?_slice, if_pos inGroup]
  rw [controlByteAt, loadControlGroup64, getLE, decodeLE_div, decodeLE_mod, head]
  simp [present]

private theorem testBit_foldl_mask (equal : Nat → Bool) (count bit : Nat) :
    ((List.range count).foldl
      (fun mask index => if equal index then mask ||| 1 <<< index else mask) 0).testBit bit =
      (decide (bit < count) && equal bit) := by
  induction count with
  | zero => simp
  | succ count ih =>
    rw [List.range_succ, List.foldl_append, List.foldl_cons, List.foldl_nil]
    by_cases last : bit = count
    · subst last
      by_cases holds : equal bit <;> simp [holds, ih, Nat.testBit_shiftLeft]
    · have shift : (1 <<< count).testBit bit = false := by
        rw [Nat.one_shiftLeft, Nat.testBit_two_pow_of_ne (Ne.symm last)]
      have bound : decide (bit < count + 1) = decide (bit < count) := by
        simp only [decide_eq_decide]
        omega
      rw [bound]
      by_cases holds : equal count
      · rw [if_pos holds, Nat.testBit_or, ih, shift, Bool.or_false]
      · rw [if_neg holds, ih]

theorem equalByteMask_ne_zero {byte : UInt8} (inGroup : offset < kSwissGroupSize) :
    equalByteMask control groupStart byte &&& 1 <<< offset ≠ 0 ↔
      controlByteAt (loadControlGroup64 control groupStart) offset = byte := by
  have bits := testBit_foldl_mask
    (fun index => controlByteAt (loadControlGroup64 control groupStart) index = byte)
    kSwissGroupSize offset
  simp only [decide_eq_true_eq] at bits
  rw [Nat.one_shiftLeft, Nat.and_two_pow, equalByteMask]
  simp only [bits, inGroup, decide_true, Bool.true_and]
  by_cases equal : controlByteAt (loadControlGroup64 control groupStart) offset = byte <;>
    simp [equal]

namespace SwissTableIndex

variable {hash : Key → UInt64}

/-! ## The cells of a table -/

def cellAt (table : SwissTableIndex) (index : Nat) : Cell Key RecordRef :=
  if table.controlAt index = kSwissEmpty then
    .vacant
  else if table.controlAt index = kSwissDeleted then
    .tombstone
  else
    .occupied (table.slotKey (table.slotAt index)) (table.slotAt index).ref

/-- The slots met when `groups` groups are probed from `groupStart`. -/
def groupPath (capacity : Nat) : Nat → Nat → List Nat
  | 0, _ => []
  | groups + 1, groupStart =>
    (List.range kSwissGroupSize).map (groupStart + ·) ++
      groupPath capacity groups (nextGroup groupStart capacity)

variable (hash) in
def probePath (table : SwissTableIndex) (key : Key) : List Nat :=
  groupPath table.capacity (table.capacity / kSwissGroupSize)
    (table.probeStart (table.mixHash (hash key)))

variable (hash) in
/-- A full slot carries the fingerprint, the tag and the length of its key, and
its key bytes are stored where its mode says. -/
structure SlotValid (table : SwissTableIndex) (control : UInt8) (slot : Slot) : Prop where
  fingerprint : control = h2 (table.mixHash (hash (table.slotKey slot)))
  tag : slot.keyHashTag = (hash (table.slotKey slot)).toUInt32
  length : (table.slotKey slot).length = slot.keySize
  inline : slot.keyIsInline → slot.keySize ≤ kSwissInlineKeyBytes
  heap : slot.keyIsInline = false → kSwissInlineKeyBytes < slot.keySize ∧
    slot.key.heapOffset + slot.keySize ≤ table.heapKeys.bump
  small : slot.keySize < kInlineKeyMask

variable {control : UInt8}

theorem isFull_iff :
    isFull control ↔ control ≠ kSwissEmpty ∧ control ≠ kSwissDeleted := by
  simp [isFull]

theorem h2_full (mixed : UInt64) : isFull (h2 mixed) := by
  have low : (mixed &&& 0x7F).toUInt8.toNat < 128 := by
    have bound : (mixed &&& 0x7F).toNat < 128 := by
      rw [UInt64.toNat_and]
      exact Nat.lt_of_le_of_lt Nat.and_le_right (by decide)
    simp only [UInt64.toNat_toUInt8]
    omega
  rw [isFull_iff, h2]
  split
  · decide
  · constructor
    · intro same
      rw [same] at low
      exact absurd low (by decide)
    · intro same
      rw [same] at low
      exact absurd low (by decide)

theorem kSwissDeleted_ne_empty : kSwissDeleted ≠ kSwissEmpty := by
  decide

variable {table : SwissTableIndex} {index : Nat}

theorem cellAt_eq_vacant :
    table.cellAt index = .vacant ↔ table.controlAt index = kSwissEmpty := by
  unfold cellAt
  split
  · simp [*]
  · split <;> simp [*, kSwissDeleted_ne_empty]

theorem cellAt_eq_tombstone :
    table.cellAt index = .tombstone ↔ table.controlAt index = kSwissDeleted := by
  unfold cellAt
  split
  · next empty => simp [empty, Ne.symm kSwissDeleted_ne_empty]
  · split <;> simp [*]

theorem cellAt_of_full (full : isFull (table.controlAt index)) :
    table.cellAt index =
      .occupied (table.slotKey (table.slotAt index)) (table.slotAt index).ref := by
  rw [isFull_iff] at full
  rw [cellAt, if_neg full.1, if_neg full.2]

theorem cellAt_eq_occupied {key : Key} {ref : RecordRef} :
    table.cellAt index = .occupied key ref ↔ isFull (table.controlAt index) ∧
      table.slotKey (table.slotAt index) = key ∧ (table.slotAt index).ref = ref := by
  rw [isFull_iff]
  unfold cellAt
  split
  · simp [*]
  · split <;> simp [*]

theorem keyEquals_iff {slot : Slot} (valid : table.SlotValid hash control slot) (key : Key) :
    table.keyEquals slot key (hash key) ↔ table.slotKey slot = key := by
  constructor
  · intro equal
    unfold keyEquals at equal
    split at equal
    · simp at equal
    · next agrees =>
      simp only [ne_eq, not_or, not_not] at agrees
      unfold slotKey
      by_cases empty : key = []
      · simp [agrees.1, empty]
      · have positive : slot.keySize ≠ 0 := by
          rw [agrees.1]
          simpa using empty
        rw [if_neg empty] at equal
        rw [if_neg positive]
        split at equal
        · next inline =>
          rw [if_pos inline, agrees.1]
          simpa using equal
        · next heap =>
          rw [if_neg heap]
          simp only at equal
          split at equal
          · simp at equal
          · simpa using equal
  · rintro rfl
    have sizes := valid.length
    unfold keyEquals
    rw [if_neg (by simp [valid.length, valid.tag])]
    split
    · rfl
    · next nonempty =>
      have positive : slot.keySize ≠ 0 := by
        rw [← sizes]
        simpa using nonempty
      split
      · next inline =>
        have stored : table.slotKey slot = slot.key.inlineBytes.take slot.keySize := by
          rw [slotKey, if_neg positive, if_pos inline]
        simp only [decide_eq_true_eq]
        rw [sizes]
        exact stored.symm
      · next heap =>
        have stored : table.slotKey slot =
            table.heapKeys.data slot.key.heapOffset slot.keySize := by
          rw [slotKey, if_neg positive, if_neg heap]
        rw [← stored]
        simp

/-! ## The probe path -/

/-- A group start inside a table whose capacity is a multiple of the group size. -/
structure GroupStart (capacity groupStart : Nat) : Prop where
  aligned : groupStart % kSwissGroupSize = 0
  inside : groupStart < capacity
  whole : capacity % kSwissGroupSize = 0

variable {capacity : Nat}

theorem GroupStart.fits (start : GroupStart capacity groupStart) :
    groupStart + kSwissGroupSize ≤ capacity := by
  have aligned := start.aligned
  have inside := start.inside
  have whole := start.whole
  simp only [kSwissGroupSize] at *
  omega

theorem GroupStart.next (start : GroupStart capacity groupStart) :
    GroupStart capacity (nextGroup groupStart capacity) := by
  have fits := start.fits
  have aligned := start.aligned
  have whole := start.whole
  refine ⟨?_, ?_, whole⟩
  · unfold nextGroup
    simp only
    split <;> simp only [kSwissGroupSize] at * <;> omega
  · unfold nextGroup
    simp only
    split <;> simp only [kSwissGroupSize] at * <;> omega

variable {groups : Nat}

theorem nextGroup_div (inside : index < groups) :
    nextGroup (index * kSwissGroupSize) (groups * kSwissGroupSize) =
      (index + 1) % groups * kSwissGroupSize := by
  unfold nextGroup
  simp only
  by_cases wraps : index + 1 = groups
  · have full : index * kSwissGroupSize + kSwissGroupSize = groups * kSwissGroupSize := by
      rw [← wraps, Nat.add_one_mul]
    rw [wraps, Nat.mod_self, full, if_pos (Nat.le_refl _), Nat.sub_self, Nat.zero_mul]
  · have room : ¬ index * kSwissGroupSize + kSwissGroupSize ≥ groups * kSwissGroupSize := by
      simp only [kSwissGroupSize]
      omega
    rw [Nat.mod_eq_of_lt (by omega), if_neg room, Nat.add_one_mul]

theorem mem_groupPath (count index : Nat) (inside : index < groups) (slot : Nat) :
    slot ∈ groupPath (groups * kSwissGroupSize) count (index * kSwissGroupSize) ↔
      ∃ steps < count, slot / kSwissGroupSize = (index + steps) % groups := by
  induction count generalizing index with
  | zero => simp [groupPath]
  | succ count ih =>
    have positive : 0 < groups := by omega
    have own : slot ∈ (List.range kSwissGroupSize).map (index * kSwissGroupSize + ·) ↔
        slot / kSwissGroupSize = index := by
      simp only [List.mem_map, List.mem_range, kSwissGroupSize]
      constructor
      · rintro ⟨offset, bound, rfl⟩
        omega
      · intro quotient
        exact ⟨slot % 8, by omega, by omega⟩
    rw [groupPath, List.mem_append, own, nextGroup_div inside, ih _ (Nat.mod_lt _ positive)]
    constructor
    · rintro (here | ⟨steps, bound, later⟩)
      · exact ⟨0, by omega, by rw [here, Nat.add_zero, Nat.mod_eq_of_lt inside]⟩
      · refine ⟨steps + 1, by omega, ?_⟩
        rw [later, Nat.mod_add_mod, Nat.add_assoc, Nat.add_comm 1]
    · rintro ⟨steps, bound, quotient⟩
      cases steps with
      | zero =>
        left
        rw [quotient, Nat.add_zero, Nat.mod_eq_of_lt inside]
      | succ steps =>
        right
        refine ⟨steps, by omega, ?_⟩
        rw [quotient, Nat.mod_add_mod, Nat.add_assoc, Nat.add_comm 1]

theorem mem_groupPath_full {slot : Nat} (inside : index < groups)
    (present : slot < groups * kSwissGroupSize) :
    slot ∈ groupPath (groups * kSwissGroupSize) groups (index * kSwissGroupSize) := by
  rw [mem_groupPath groups index inside]
  have quotient : slot / kSwissGroupSize < groups :=
    Nat.div_lt_of_lt_mul (by rwa [Nat.mul_comm])
  refine ⟨(slot / kSwissGroupSize + groups - index) % groups, Nat.mod_lt _ (by omega), ?_⟩
  have sum : index + (slot / kSwissGroupSize + groups - index) =
      slot / kSwissGroupSize + groups := by
    generalize slot / kSwissGroupSize = own at quotient
    omega
  rw [Nat.add_mod_mod, sum, Nat.add_mod_right, Nat.mod_eq_of_lt quotient]

/-! ## The group loops -/

section Loops

variable {key : Key}

variable (hash) in
/-- What the probing loops rely on: the control bytes cover the capacity and
every full slot is valid. -/
structure Searchable (table : SwissTableIndex) : Prop where
  control : table.control.length = table.capacity
  full : ∀ index, isFull (table.controlAt index) →
    table.SlotValid hash (table.controlAt index) (table.slotAt index)

/-- What a probing loop finds in a slot by the control byte and the comparison. -/
inductive SlotTests (byte : UInt8) (key : Key) (hit : Prop) : Cell Key RecordRef → Prop where
  | vacant (empty : byte = kSwissEmpty) : SlotTests byte key hit .vacant
  | tombstone (deleted : byte = kSwissDeleted) (misses : ¬ hit) : SlotTests byte key hit .tombstone
  | occupied {stored : Key} {ref : RecordRef} (live : byte ≠ kSwissEmpty ∧ byte ≠ kSwissDeleted)
      (decides : hit ↔ stored = key) : SlotTests byte key hit (.occupied stored ref)

section Searchable

variable (searchable : table.Searchable hash)
include searchable

theorem Searchable.tests (key : Key) (start : GroupStart table.capacity groupStart)
    (inGroup : offset < kSwissGroupSize) :
    controlByteAt (loadControlGroup64 table.control groupStart) offset =
        table.controlAt (groupStart + offset) ∧
      SlotTests (table.controlAt (groupStart + offset)) key
        (equalByteMask table.control groupStart (h2 (table.mixHash (hash key))) &&&
            1 <<< offset ≠ 0 ∧
          table.keyEquals (table.slotAt (groupStart + offset)) key (hash key) = true)
        (table.cellAt (groupStart + offset)) := by
  have byte : controlByteAt (loadControlGroup64 table.control groupStart) offset =
      table.controlAt (groupStart + offset) :=
    controlByteAt_load inGroup (by rw [searchable.control]; exact start.fits)
  refine ⟨byte, ?_⟩
  rw [equalByteMask_ne_zero inGroup, byte]
  cases cell : table.cellAt (groupStart + offset) with
  | vacant => exact .vacant (cellAt_eq_vacant.mp cell)
  | tombstone =>
    have deleted := cellAt_eq_tombstone.mp cell
    exact .tombstone deleted fun both =>
      (isFull_iff.mp (h2_full _)).2 (both.1.symm.trans deleted)
  | occupied stored ref =>
    obtain ⟨full, rfl, rfl⟩ := cellAt_eq_occupied.mp cell
    have valid := searchable.full _ full
    refine .occupied (isFull_iff.mp full) ?_
    rw [keyEquals_iff valid]
    exact ⟨And.right, fun same => ⟨by rw [valid.fingerprint, same], same⟩⟩

theorem findInGroup_search (start : GroupStart table.capacity groupStart) (rest offsets : List Nat)
    (inGroup : ∀ offset ∈ offsets, offset < kSwissGroupSize) :
    search table.cellAt key (offsets.map (groupStart + ·) ++ rest) =
      match table.findInGroup key (hash key) groupStart
          (loadControlGroup64 table.control groupStart)
          (equalByteMask table.control groupStart (h2 (table.mixHash (hash key)))) offsets with
      | some result => result
      | none => search table.cellAt key rest := by
  induction offsets with
  | nil => rfl
  | cons offset offsets ih =>
    have ih := ih fun other member => inGroup other (List.mem_cons_of_mem _ member)
    obtain ⟨byte, tests⟩ := searchable.tests key start (inGroup offset List.mem_cons_self)
    rw [List.map_cons, List.cons_append, search, findInGroup, byte]
    generalize table.cellAt (groupStart + offset) = cell at tests
    cases tests with
    | vacant empty => rw [if_pos empty]
    | tombstone deleted misses =>
      rw [if_neg (deleted ▸ kSwissDeleted_ne_empty), if_neg misses]
      exact ih
    | @occupied stored _ live decides =>
      rw [if_neg live.1]
      by_cases same : stored = key
      · rw [if_pos (decides.mpr same)]
        exact if_pos same
      · rw [if_neg (mt decides.mp same)]
        exact (if_neg same).trans ih

theorem findFrom_search (groups groupStart : Nat) (start : GroupStart table.capacity groupStart) :
    table.findFrom key (hash key) (h2 (table.mixHash (hash key))) groups groupStart =
      search table.cellAt key (groupPath table.capacity groups groupStart) := by
  induction groups generalizing groupStart with
  | zero => rfl
  | succ groups ih =>
    rw [findFrom, groupPath, findInGroup_search searchable start _ _ (by simp)]
    generalize table.findInGroup _ _ _ _ _ _ = found
    cases found with
    | some result => rfl
    | none => exact ih _ start.next

theorem insertInGroup_place (start : GroupStart table.capacity groupStart) (rest offsets : List Nat)
    (inGroup : ∀ offset ∈ offsets, offset < kSwissGroupSize) (firstDeleted : Option Nat) :
    place table.cellAt key firstDeleted (offsets.map (groupStart + ·) ++ rest) =
      match table.insertInGroup key (hash key) groupStart
          (loadControlGroup64 table.control groupStart)
          (equalByteMask table.control groupStart (h2 (table.mixHash (hash key))))
          firstDeleted offsets with
      | .inl index => some index
      | .inr firstDeleted => place table.cellAt key firstDeleted rest := by
  induction offsets generalizing firstDeleted with
  | nil => rfl
  | cons offset offsets ih =>
    have ih := ih fun other member => inGroup other (List.mem_cons_of_mem _ member)
    obtain ⟨byte, tests⟩ := searchable.tests key start (inGroup offset List.mem_cons_self)
    rw [List.map_cons, List.cons_append, place]
    simp only [insertInGroup, byte]
    generalize table.cellAt (groupStart + offset) = cell at tests
    cases tests with
    | vacant empty => rw [if_pos empty]
    | tombstone deleted misses =>
      have reused : (if table.controlAt (groupStart + offset) = kSwissDeleted ∧
          firstDeleted = none then some (groupStart + offset) else firstDeleted) =
          firstDeleted.or (some (groupStart + offset)) := by
        cases firstDeleted <;> simp [deleted]
      rw [if_neg (deleted ▸ kSwissDeleted_ne_empty), if_neg misses, reused]
      exact ih _
    | @occupied stored _ live decides =>
      rw [if_neg live.1, if_neg fun both : _ ∧ firstDeleted = none => live.2 both.1]
      by_cases same : stored = key
      · rw [if_pos (decides.mpr same)]
        exact if_pos same
      · rw [if_neg (mt decides.mp same)]
        exact (if_neg same).trans (ih _)

theorem insertFrom_place (groups groupStart : Nat)
    (start : GroupStart table.capacity groupStart) (firstDeleted : Option Nat) :
    table.insertFrom key (hash key) (h2 (table.mixHash (hash key))) firstDeleted groups
        groupStart =
      match place table.cellAt key firstDeleted (groupPath table.capacity groups groupStart) with
      | some index => .ok index
      | none => fail .corruptedData "swiss table probe sequence exhausted without insert slot" := by
  induction groups generalizing groupStart firstDeleted with
  | zero => rfl
  | succ groups ih =>
    rw [groupPath, insertInGroup_place searchable start _ _ (by simp), insertFrom]
    generalize table.insertInGroup _ _ _ _ _ _ _ = found
    cases found with
    | inl index => rfl
    | inr firstDeleted => exact ih _ start.next _

end Searchable

end Loops

end SwissTableIndex

end GlifiStore
