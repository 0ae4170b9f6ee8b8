import GlifiStore.Core.Types
import GlifiStore.Lib.RingLayout

/-!
# The slot pool of a mutation lane

Keys and values of admitted mutations are copied into one ring of bytes, in the order they
are admitted in, and leave it in that order; the newest one may be taken back. Slots name
them, and cursors that only grow say where they are. The ring is rewound when it is empty.
-/

namespace GlifiStore.Paired

open ByteLayout

/-- The largest value of `std::size_t` and of `std::uint64_t`. -/
def sizeMax : Nat := 2 ^ 64 - 1

def slotIdMax : Nat := 2 ^ 32 - 1

def sub64 (left right : Nat) : Nat := (left + 2 ^ 64 - right) % 2 ^ 64

namespace MutationSlotPool

inductive AcquireFailure where
  | none
  | slotExhausted
  | byteExhausted
  | payloadTooLarge
  deriving DecidableEq, Repr

structure Lease where
  slot : Nat
  admissionBytes : Nat
  deriving DecidableEq, Repr

structure AcquireResult where
  lease : Option Lease := .none
  failure : AcquireFailure := .none
  deriving DecidableEq, Repr

structure PayloadView where
  key : Bytes
  value : Bytes
  admissionBytes : Nat
  deriving DecidableEq, Repr

structure Slot where
  sequence : Nat := 0
  beginCursor : Nat := 0
  endCursor : Nat := 0
  dataOffset : Nat := 0
  keySize : Nat := 0
  valueSize : Nat := 0
  admissionBytes : Nat := 0
  occupied : Bool := false
  deriving DecidableEq, Repr

end MutationSlotPool

/-- The pool. The head of `freeSlots` is the back of the vector, and `freeCapacity` what the
vector has reserved. -/
structure MutationSlotPool where
  slotCapacity : Nat
  byteCapacity : Nat
  maximumPayloadBytes : Nat
  storage : Bytes
  slots : Nat → MutationSlotPool.Slot := fun _ => {}
  freeSlots : List Nat
  freeCapacity : Nat
  headCursor : Nat := 0
  tailCursor : Nat := 0
  nextSequence : Nat := 0
  releaseSequence : Nat := 0
  admissionBytesInUse : Nat := 0

namespace MutationSlotPool

/-- The constructor, with the bytes that the memory of the ring has and with what the vector
reserves beyond its slots. -/
def construct (slotCapacity byteCapacity maximumPayloadBytes spare : Nat) (memory : Nat → UInt8) :
    Except String MutationSlotPool :=
  if slotCapacity = 0 ∨ slotCapacity > slotIdMax ∨ byteCapacity = 0 ∨
      maximumPayloadBytes > byteCapacity ∨ byteCapacity > sizeMax / 2 ∨
      maximumPayloadBytes > sizeMax - byteCapacity then
    .error "mutation slot-pool capacity is outside supported limits"
  else
    .ok
      { slotCapacity
        byteCapacity
        maximumPayloadBytes
        storage := (List.range (byteCapacity + maximumPayloadBytes)).map memory
        freeSlots := List.range slotCapacity
        freeCapacity := slotCapacity + spare }

variable (pool : MutationSlotPool)

def slotsInUse : Nat := sub64 pool.slotCapacity pool.freeSlots.length

def payloadBytesInUse : Nat := sub64 pool.headCursor pool.tailCursor

/-- Cursors and sequences start again in an empty pool. `none` is `std::terminate`. -/
def rewind : Option MutationSlotPool :=
  if pool.freeSlots.length = pool.slotCapacity then
    if pool.headCursor ≠ pool.tailCursor ∨ pool.nextSequence ≠ pool.releaseSequence ∨
        pool.admissionBytesInUse ≠ 0 then
      none
    else
      some
        { pool with headCursor := 0, tailCursor := 0, nextSequence := 0, releaseSequence := 0 }
  else some pool

def occupy (slotId : Nat) (rest : List Nat) (key value : Bytes)
    (admissionBytes : Nat) : MutationSlotPool :=
  let dataOffset := pool.headCursor % pool.byteCapacity
  let slot : Slot :=
    { sequence := pool.nextSequence
      beginCursor := pool.headCursor
      endCursor := pool.headCursor + (key.length + value.length)
      dataOffset
      keySize := key.length
      valueSize := value.length
      admissionBytes
      occupied := true }
  { pool with
    storage := blit (blit pool.storage dataOffset key) (dataOffset + key.length) value
    slots := Function.update pool.slots slotId slot
    freeSlots := rest
    headCursor := slot.endCursor
    nextSequence := pool.nextSequence + 1
    admissionBytesInUse := pool.admissionBytesInUse + admissionBytes }

def acquireRewound (key value : Bytes) (admissionBytes : Nat) : AcquireResult × MutationSlotPool :=
  if key.length > sizeMax - value.length then ({ failure := .payloadTooLarge }, pool)
  else
    let payloadBytes := key.length + value.length
    if payloadBytes > pool.maximumPayloadBytes ∨ admissionBytes < payloadBytes ∨
        admissionBytes > pool.byteCapacity then
      ({ failure := .payloadTooLarge }, pool)
    else
      match pool.freeSlots with
      | [] => ({ failure := .slotExhausted }, pool)
      | slotId :: rest =>
        if admissionBytes > sub64 pool.byteCapacity pool.admissionBytesInUse ∨
            payloadBytes > sub64 pool.byteCapacity pool.payloadBytesInUse then
          ({ failure := .byteExhausted }, pool)
        else if payloadBytes > sizeMax - pool.headCursor ∨ pool.nextSequence = sizeMax then
          ({ failure := .byteExhausted }, pool)
        else if (pool.slots slotId).occupied then ({ failure := .slotExhausted }, pool)
        else
          ({ lease := some ⟨slotId, admissionBytes⟩ },
            pool.occupy slotId rest key value admissionBytes)

def tryAcquire (key value : Bytes) (admissionBytes : Nat) :
    Option (AcquireResult × MutationSlotPool) :=
  pool.rewind.map fun rewound => rewound.acquireRewound key value admissionBytes

def vacate (slotId : Nat) : Option MutationSlotPool :=
  if pool.freeSlots.length ≥ pool.freeCapacity then none
  else
    some
      { pool with
        slots := Function.update pool.slots slotId {}
        freeSlots := slotId :: pool.freeSlots }

def rollback (lease : Lease) : Option (Bool × MutationSlotPool) :=
  if lease.slot ≥ pool.slotCapacity then some (false, pool)
  else
    let slot := pool.slots lease.slot
    if ¬ slot.occupied ∨ slot.admissionBytes ≠ lease.admissionBytes ∨
        (slot.sequence + 1) % 2 ^ 64 ≠ pool.nextSequence ∨ slot.endCursor ≠ pool.headCursor then
      some (false, pool)
    else
      ({ pool with
        headCursor := slot.beginCursor
        nextSequence := sub64 pool.nextSequence 1
        admissionBytesInUse := sub64 pool.admissionBytesInUse slot.admissionBytes }.vacate
          lease.slot).map (Prod.mk true)

def release (slotId : Nat) : Option (Bool × MutationSlotPool) :=
  if slotId ≥ pool.slotCapacity then some (false, pool)
  else
    let slot := pool.slots slotId
    if ¬ slot.occupied ∨ slot.sequence ≠ pool.releaseSequence ∨
        slot.beginCursor ≠ pool.tailCursor ∨
        slot.admissionBytes > pool.admissionBytesInUse then
      some (false, pool)
    else
      ({ pool with
        tailCursor := slot.endCursor
        releaseSequence := (pool.releaseSequence + 1) % 2 ^ 64
        admissionBytesInUse := sub64 pool.admissionBytesInUse slot.admissionBytes }.vacate
          slotId).map (Prod.mk true)

def view (slotId : Nat) : Option PayloadView :=
  if slotId ≥ pool.slotCapacity then none
  else
    let slot := pool.slots slotId
    if ¬ slot.occupied ∨ slot.keySize > pool.maximumPayloadBytes ∨
        slot.valueSize > sub64 pool.maximumPayloadBytes slot.keySize ∨
        slot.dataOffset ≥ pool.byteCapacity ∨
        slot.keySize + slot.valueSize >
          sub64 (pool.byteCapacity + pool.maximumPayloadBytes) slot.dataOffset then
      none
    else
      some
        { key := slice pool.storage slot.dataOffset slot.keySize
          value := slice pool.storage (slot.dataOffset + slot.keySize) slot.valueSize
          admissionBytes := slot.admissionBytes }

end MutationSlotPool

end GlifiStore.Paired
