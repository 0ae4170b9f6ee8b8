import GlifiStore.Core.Types
import GlifiStore.Lib.ByteLayout

/-!
# The key arena

Bump allocator for the Index keys that do not fit in their slot. `capacity` is
the capacity of the backing vector: `reserve` raises it, and growing the
storage past it is the only reallocation.
-/

namespace GlifiStore

open ByteLayout

structure KeyArena where
  storage : Bytes := []
  capacity : Nat := 0
  bump : Nat := 0
  deriving DecidableEq, Repr

namespace KeyArena

section Storage

variable (arena : KeyArena)

/-- `storage_.resize(needed)` for a size above the current one. -/
def resize (needed : Nat) : KeyArena :=
  { arena with
    storage := arena.storage ++ List.replicate (needed - arena.storage.length) 0
    capacity := max arena.capacity needed }

def allocate (size : Nat) : Result (Nat × KeyArena) :=
  if size = 0 then
    .ok (0, arena)
  else if size > kUInt32Max then
    fail .recordTooLarge "index key exceeds arena offset limits"
  else
    match checkedAdd arena.bump size with
    | .error error => .error error
    | .ok needed =>
      if needed > kUInt32Max then
        fail .arithmeticOverflow "index key arena offset overflow"
      else
        let grown := if needed > arena.storage.length then arena.resize needed else arena
        .ok (arena.bump, { grown with bump := needed })

def data (offset size : Nat) : Bytes :=
  if size = 0 then
    []
  else
    match checkedAdd offset size with
    | .error _ => []
    | .ok stop => if stop > arena.storage.length then [] else slice arena.storage offset size

def write (offset : Nat) (bytes : Bytes) : KeyArena :=
  { arena with storage := blit arena.storage offset bytes }

def allocatedBytes : Nat :=
  arena.bump

/-- The backing vector keeps its capacity. -/
def clear : KeyArena :=
  { arena with storage := [], bump := 0 }

def reserve (bytes : Nat) : Result KeyArena :=
  if bytes > kUInt32Max then
    fail .arithmeticOverflow "index key arena reserve exceeds offset limits"
  else if bytes > arena.storage.length then
    .ok { arena with capacity := max arena.capacity bytes }
  else
    .ok arena

def prepareAllocate (size : Nat) : Result KeyArena :=
  match checkedAdd arena.bump size with
  | .error error => .error error
  | .ok needed => arena.reserve needed

structure Valid : Prop where
  length : arena.storage.length = arena.bump
  bound : arena.bump ≤ kUInt32Max

def push (bytes : Bytes) : KeyArena where
  storage := arena.storage ++ bytes
  capacity := max arena.capacity (arena.bump + bytes.length)
  bump := arena.bump + bytes.length

end Storage

variable {size : Nat} {arena : KeyArena}

theorem valid_empty : Valid {} :=
  ⟨rfl, by decide⟩

theorem Valid.clear : Valid arena.clear :=
  ⟨rfl, Nat.zero_le _⟩

theorem Valid.push (valid : arena.Valid) {bytes : Bytes}
    (fits : arena.bump + bytes.length ≤ kUInt32Max) : Valid (arena.push bytes) :=
  ⟨by simp [KeyArena.push, valid.length], fits⟩

theorem checkedAdd_eq_ok {lhs rhs : Nat} (fits : lhs + rhs ≤ kSizeMax) :
    checkedAdd lhs rhs = .ok (lhs + rhs) := by
  rw [checkedAdd, if_neg (by omega)]

theorem allocate_eq_ok (valid : arena.Valid) (positive : 0 < size)
    (fits : arena.bump + size ≤ kUInt32Max) :
    arena.allocate size = .ok (arena.bump,
      { storage := arena.storage ++ List.replicate size 0
        capacity := max arena.capacity (arena.bump + size)
        bump := arena.bump + size }) := by
  have wide : arena.bump + size ≤ kSizeMax := Nat.le_trans fits (by decide)
  have remaining : arena.bump + size - arena.storage.length = size := by
    rw [valid.length]
    omega
  have grows : arena.bump + size > arena.storage.length := by
    rw [valid.length]
    omega
  rw [allocate, if_neg (by omega), if_neg (by omega), checkedAdd_eq_ok wide]
  simp only [if_neg (Nat.not_lt.mpr fits), if_pos grows, resize, remaining]

theorem allocate_eq_error (positive : 0 < size) (full : kUInt32Max < arena.bump + size) :
    ∃ error, arena.allocate size = .error error := by
  rw [allocate, if_neg (by omega)]
  split
  · exact ⟨_, rfl⟩
  · split
    · exact ⟨_, rfl⟩
    · next needed added =>
      obtain rfl := Except.ok.inj (guard_eq_ok.mp added).2
      rw [if_pos full]
      exact ⟨_, rfl⟩

theorem data_eq_slice (valid : arena.Valid) {offset : Nat} (inside : offset + size ≤ arena.bump) :
    arena.data offset size = slice arena.storage offset size := by
  by_cases none : size = 0
  · simp [data, none, slice]
  · have wide : offset + size ≤ kSizeMax :=
      Nat.le_trans inside (Nat.le_trans valid.bound (by decide))
    rw [data, if_neg none, checkedAdd_eq_ok wide]
    simp only
    rw [if_neg]
    rw [valid.length]
    omega

theorem reserve_storage {reserved : KeyArena} {bytes : Nat}
    (success : arena.reserve bytes = .ok reserved) :
    reserved.storage = arena.storage ∧ reserved.bump = arena.bump := by
  replace success := (guard_eq_ok.mp success).2
  split at success <;> (obtain rfl := Except.ok.inj success; exact ⟨rfl, rfl⟩)

theorem reserve_eq_ok (arena : KeyArena) {bytes : Nat} (fits : bytes ≤ kUInt32Max) :
    ∃ reserved, arena.reserve bytes = .ok reserved := by
  rw [reserve, if_neg (by omega)]
  split <;> exact ⟨_, rfl⟩

theorem prepareAllocate_storage {prepared : KeyArena}
    (success : arena.prepareAllocate size = .ok prepared) :
    prepared.storage = arena.storage ∧ prepared.bump = arena.bump := by
  unfold prepareAllocate at success
  split at success
  · simp at success
  · exact reserve_storage success

theorem Valid.of_storage {other : KeyArena} (valid : arena.Valid)
    (same : other.storage = arena.storage ∧ other.bump = arena.bump) : other.Valid :=
  ⟨by rw [same.1, same.2, valid.length], by rw [same.2]; exact valid.bound⟩

theorem data_congr {other : KeyArena} (same : other.storage = arena.storage) (offset size : Nat) :
    other.data offset size = arena.data offset size := by
  simp only [data, same]

theorem write_allocated (arena : KeyArena) (valid : arena.Valid) (bytes : Bytes) :
    KeyArena.write
      { storage := arena.storage ++ List.replicate bytes.length 0
        capacity := max arena.capacity (arena.bump + bytes.length)
        bump := arena.bump + bytes.length } arena.bump bytes = arena.push bytes := by
  simp [write, push, blit, ← valid.length]

theorem length_data_allocated (valid : arena.Valid) (fits : arena.bump + size ≤ kUInt32Max) :
    (KeyArena.data
      { storage := arena.storage ++ List.replicate size 0
        capacity := max arena.capacity (arena.bump + size)
        bump := arena.bump + size } arena.bump size).length = size := by
  have extended : KeyArena.Valid
      { storage := arena.storage ++ List.replicate size 0
        capacity := max arena.capacity (arena.bump + size)
        bump := arena.bump + size } :=
    ⟨by simp [valid.length], fits⟩
  rw [data_eq_slice extended (Nat.le_refl _), length_slice]
  simp [valid.length]

theorem data_push_old (valid : arena.Valid) {bytes : Bytes}
    (fits : arena.bump + bytes.length ≤ kUInt32Max) {offset : Nat}
    (inside : offset + size ≤ arena.bump) :
    (arena.push bytes).data offset size = arena.data offset size := by
  have below : offset + size ≤ (arena.push bytes).bump := by
    simp only [push]
    omega
  rw [data_eq_slice (valid.push fits) below, data_eq_slice valid inside]
  apply List.ext_getElem?
  intro i
  rw [getElem?_slice, getElem?_slice]
  split
  · exact List.getElem?_append_left (by rw [valid.length]; omega)
  · rfl

theorem data_push_new (valid : arena.Valid) {bytes : Bytes}
    (fits : arena.bump + bytes.length ≤ kUInt32Max) :
    (arena.push bytes).data arena.bump bytes.length = bytes := by
  rw [data_eq_slice (valid.push fits) (by simp [push])]
  simp [slice, push, ← valid.length]

end KeyArena

end GlifiStore
