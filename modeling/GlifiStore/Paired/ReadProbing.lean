import GlifiStore.Index.Probing

/-!
# Probing of the read tables

The immutable base and the delta of a read generation are open-addressing
tables without tombstones that probe alike: groups of eight control bytes from
a start group given by the key hash. The loops here take the comparison of one
slot as a parameter and are shown to search along the probe path.
-/

namespace GlifiStore

open ByteLayout OpenAddressing SwissTableIndex

def fingerprint (hash : UInt64) : UInt8 :=
  let result := (hash &&& 0x7F).toUInt8
  if result = 0 then 1 else result

theorem fingerprint_ne_empty (hash : UInt64) : fingerprint hash ≠ kSwissEmpty :=
  (isFull_iff.mp (h2_full hash)).1

namespace ReadTable

open SwissTableIndex (GroupStart groupPath)

/-- Doubling from `capacity` until three quarters of it hold `required` entries;
`none` is the allocation error of an overflowing capacity. Sixty-four doublings
pass the overflow check. -/
def capacityFrom (required : Nat) : Nat → Nat → Option Nat
  | 0, _ => none
  | fuel + 1, capacity =>
    if capacity - capacity / 4 < required then
      if capacity > kSizeMax / 2 then
        none
      else
        capacityFrom required fuel (capacity * 2)
    else
      some capacity

def probeStart (capacity : Nat) (hash : UInt64) : Nat :=
  ((hash >>> 7).toNat &&& (capacity / kSwissGroupSize - 1)) * kSwissGroupSize

def nextGroup (capacity groupStart : Nat) : Nat :=
  let next := groupStart + kSwissGroupSize
  if next = capacity then 0 else next

section Loops

variable {α : Type}

/-- One group of a lookup. `compare` reads the slot behind a matching
fingerprint; the outer option says whether the lookup ends there. -/
def findInGroup (control : Bytes) (start : Nat) (wanted : UInt8)
    (compare : Nat → Option (Option α)) : List Nat → Option (Option α)
  | [] => none
  | offset :: rest =>
    if controlByteAt (loadControlGroup64 control start) offset = kSwissEmpty then
      some none
    else if equalByteMask control start wanted &&& 1 <<< offset = 0 then
      findInGroup control start wanted compare rest
    else
      match compare (start + offset) with
      | some result => some result
      | none => findInGroup control start wanted compare rest

def findGroups (capacity : Nat) (group : Nat → Option (Option α)) : Nat → Nat → Option α
  | 0, _ => none
  | groups + 1, groupStart =>
    match group groupStart with
    | some result => result
    | none => findGroups capacity group groups (nextGroup capacity groupStart)

end Loops

/-- One group of an insertion: the offset of the key's own slot or of the first
empty one, with a flag for the latter. -/
def prepareInGroup (control : Bytes) (start : Nat) (wanted : UInt8) (holds : Nat → Bool) :
    List Nat → Option (Nat × Bool)
  | [] => none
  | offset :: rest =>
    if controlByteAt (loadControlGroup64 control start) offset = kSwissEmpty then
      some (offset, true)
    else if equalByteMask control start wanted &&& 1 <<< offset ≠ 0 ∧ holds (start + offset) then
      some (offset, false)
    else
      prepareInGroup control start wanted holds rest

/-! ## Capacities and probe paths -/

variable {capacity : Nat}

theorem capacityFrom_spec {required fuel start : Nat}
    (found : capacityFrom required fuel start = some capacity) (positive : 0 < start) :
    required ≤ capacity - capacity / 4 ∧ start ∣ capacity ∧ 0 < capacity := by
  induction fuel generalizing start with
  | zero => simp [capacityFrom] at found
  | succ fuel ih =>
    rw [capacityFrom] at found
    split at found
    · split at found
      · simp at found
      · obtain ⟨room, divides, nonzero⟩ := ih found (by omega)
        exact ⟨room, Nat.dvd_trans (Nat.dvd_mul_right start 2) divides, nonzero⟩
    · next enough =>
      obtain rfl := Option.some.inj found
      exact ⟨by omega, Nat.dvd_refl _, positive⟩

def readPath (capacity : Nat) (hash : UInt64) : List Nat :=
  groupPath capacity (capacity / kSwissGroupSize) (probeStart capacity hash)

structure Whole (capacity : Nat) : Prop where
  positive : 0 < capacity
  whole : capacity % kSwissGroupSize = 0

theorem Whole.groups (valid : Whole capacity) :
    capacity / kSwissGroupSize * kSwissGroupSize = capacity ∧ 0 < capacity / kSwissGroupSize := by
  have positive := valid.positive
  have whole := valid.whole
  simp only [kSwissGroupSize] at *
  omega

theorem Whole.probeIndex (valid : Whole capacity) (hash : UInt64) :
    (hash >>> 7).toNat &&& (capacity / kSwissGroupSize - 1) < capacity / kSwissGroupSize := by
  have below : (hash >>> 7).toNat &&& (capacity / kSwissGroupSize - 1) ≤
      capacity / kSwissGroupSize - 1 := Nat.and_le_right
  have groups := valid.groups.2
  omega

theorem Whole.probeStart (valid : Whole capacity) (hash : UInt64) :
    GroupStart capacity (probeStart capacity hash) := by
  have index := valid.probeIndex hash
  have total := valid.groups.1
  unfold ReadTable.probeStart
  generalize (hash >>> 7).toNat &&& (capacity / kSwissGroupSize - 1) = group at index
  refine ⟨?_, ?_, valid.whole⟩
  · exact Nat.mul_mod_left group kSwissGroupSize
  · simp only [kSwissGroupSize] at *
    omega

variable {groupStart : Nat}

theorem nextGroup_eq (start : GroupStart capacity groupStart) :
    nextGroup capacity groupStart = SwissTableIndex.nextGroup groupStart capacity := by
  have fits := start.fits
  unfold nextGroup SwissTableIndex.nextGroup
  simp only
  by_cases last : groupStart + kSwissGroupSize = capacity
  · rw [if_pos last, if_pos (by omega)]
    omega
  · rw [if_neg last, if_neg (by omega)]

variable {slot : Nat}

theorem mem_readPath (valid : Whole capacity) (hash : UInt64) (inside : slot < capacity) :
    slot ∈ readPath capacity hash := by
  have index := valid.probeIndex hash
  have total := valid.groups.1
  have met := mem_groupPath_full index (by rwa [total])
  rwa [total] at met

theorem lt_of_mem_groupPath {groups : Nat} (start : GroupStart capacity groupStart)
    (member : slot ∈ groupPath capacity groups groupStart) : slot < capacity := by
  induction groups generalizing groupStart with
  | zero => simp [groupPath] at member
  | succ groups ih =>
    rcases List.mem_append.mp member with here | later
    · obtain ⟨offset, below, rfl⟩ := List.mem_map.mp here
      have fits := start.fits
      have small := List.mem_range.mp below
      omega
    · exact ih start.next later

/-! ## The loops search along the path -/

section Search

variable {β : Type} {cells : Nat → Cell Key β} {key : Key} {control : Bytes} {start : Nat}
  {wanted : UInt8} {compare : Nat → Option (Option β)}

/-- A slot's control byte and comparison decide exactly what its cell is. -/
structure SlotAgrees (cell : Cell Key β) (key : Key) (byte wanted : UInt8)
    (compared : Option (Option β)) : Prop where
  live : cell ≠ .tombstone
  vacant : byte = kSwissEmpty ↔ cell = .vacant
  hit : ∀ {value}, cell = .occupied key value → byte = wanted ∧ compared = some (some value)
  miss : ∀ {stored value}, cell = .occupied stored value → stored ≠ key → byte = wanted →
    compared = none

/-- The eight slots from `start` of a control array are the cells from `groupStart`. -/
def GroupAgrees (cells : Nat → Cell Key β) (key : Key) (control : Bytes) (start : Nat)
    (wanted : UInt8) (compare : Nat → Option (Option β)) (groupStart : Nat) : Prop :=
  start + kSwissGroupSize ≤ control.length ∧ ∀ offset < kSwissGroupSize,
    SlotAgrees (cells (groupStart + offset)) key (control.getD (start + offset) kSwissEmpty) wanted
      (compare (start + offset))

variable {offset : Nat}

theorem masked_iff (wanted : UInt8) (inside : start + kSwissGroupSize ≤ control.length)
    (small : offset < kSwissGroupSize) :
    equalByteMask control start wanted &&& 1 <<< offset ≠ 0 ↔
      control.getD (start + offset) kSwissEmpty = wanted := by
  rw [equalByteMask_ne_zero small, controlByteAt_load small inside]

theorem findInGroup_fetch (agrees : GroupAgrees cells key control start wanted compare groupStart)
    (rest offsets : List Nat) (inGroup : ∀ offset ∈ offsets, offset < kSwissGroupSize) :
    fetch cells key (offsets.map (groupStart + ·) ++ rest) =
      match findInGroup control start wanted compare offsets with
      | some result => result
      | none => fetch cells key rest := by
  induction offsets with
  | nil => rfl
  | cons offset offsets ih =>
    have ih := ih fun other member => inGroup other (List.mem_cons_of_mem _ member)
    have small := inGroup offset List.mem_cons_self
    have slot := agrees.2 offset small
    have masked := masked_iff wanted agrees.1 small
    rw [List.map_cons, List.cons_append, findInGroup, controlByteAt_load small agrees.1]
    cases cell : cells (groupStart + offset) with
    | vacant => rw [fetch_cons_of_vacant cell, if_pos (slot.vacant.mpr cell)]
    | tombstone => exact absurd cell slot.live
    | occupied stored value =>
      have full : ¬ control.getD (start + offset) kSwissEmpty = kSwissEmpty := by
        rw [slot.vacant, cell]
        exact nofun
      rw [fetch_cons_of_occupied cell, if_neg full]
      by_cases same : stored = key
      · subst same
        obtain ⟨byte, compared⟩ := slot.hit cell
        rw [if_pos rfl, if_neg (masked.mpr byte), compared]
      · rw [if_neg same]
        by_cases byte : control.getD (start + offset) kSwissEmpty = wanted
        · rw [if_neg (masked.mpr byte), slot.miss cell same byte]
          exact ih
        · rw [if_pos (not_not.mp fun hit => byte (masked.mp hit))]
          exact ih

def GroupFetches (cells : Nat → Cell Key β) (key : Key) (group : Nat → Option (Option β))
    (groupStart : Nat) : Prop :=
  ∀ rest, fetch cells key ((List.range kSwissGroupSize).map (groupStart + ·) ++ rest) =
    match group groupStart with
    | some result => result
    | none => fetch cells key rest

theorem findGroups_fetch {group : Nat → Option (Option β)} (groups groupStart : Nat)
    (start : GroupStart capacity groupStart)
    (fetches : ∀ groupStart, GroupStart capacity groupStart →
      GroupFetches cells key group groupStart) :
    findGroups capacity group groups groupStart =
      fetch cells key (groupPath capacity groups groupStart) := by
  induction groups generalizing groupStart with
  | zero => rfl
  | succ groups ih =>
    rw [findGroups, groupPath, fetches groupStart start]
    cases group groupStart with
    | some result => rfl
    | none =>
      simp only
      rw [nextGroup_eq start]
      exact ih _ start.next

theorem prepareInGroup_place
    (agrees : GroupAgrees cells key control start wanted compare groupStart)
    (rest offsets : List Nat) (inGroup : ∀ offset ∈ offsets, offset < kSwissGroupSize) :
    let path := offsets.map (groupStart + ·) ++ rest
    let found := prepareInGroup control start wanted (fun slot => (compare slot).isSome) offsets
    (∀ {offset inserted}, found = some (offset, inserted) →
      place cells key none path = some (groupStart + offset) ∧ offset < kSwissGroupSize ∧
        (inserted = true ↔ cells (groupStart + offset) = .vacant)) ∧
    (found = none → place cells key none path = place cells key none rest) := by
  induction offsets with
  | nil => exact ⟨by simp [prepareInGroup], fun _ => rfl⟩
  | cons offset offsets ih =>
    have ih := ih fun other member => inGroup other (List.mem_cons_of_mem _ member)
    have small := inGroup offset List.mem_cons_self
    have slot := agrees.2 offset small
    have masked := masked_iff wanted agrees.1 small
    simp only [List.map_cons, List.cons_append, place, prepareInGroup,
      controlByteAt_load small agrees.1]
    cases cell : cells (groupStart + offset) with
    | vacant =>
      rw [if_pos (slot.vacant.mpr cell)]
      refine ⟨?_, by simp⟩
      rintro _ _ ⟨⟩
      exact ⟨rfl, small, by simp [cell]⟩
    | tombstone => exact absurd cell slot.live
    | occupied stored value =>
      have full : ¬ control.getD (start + offset) kSwissEmpty = kSwissEmpty := by
        rw [slot.vacant, cell]
        simp
      simp only
      rw [if_neg full]
      by_cases same : stored = key
      · subst same
        obtain ⟨byte, compared⟩ := slot.hit cell
        rw [if_pos rfl, if_pos ⟨masked.mpr byte, by rw [compared]; rfl⟩]
        refine ⟨?_, by simp⟩
        rintro _ _ ⟨⟩
        exact ⟨rfl, small, by simp [cell]⟩
      · rw [if_neg same, if_neg]
        · exact ih
        · rintro ⟨byte, compared⟩
          rw [slot.miss cell same (masked.mp byte)] at compared
          exact absurd compared (by simp)

end Search

end ReadTable

end GlifiStore
