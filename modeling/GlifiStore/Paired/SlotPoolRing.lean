import GlifiStore.Paired.MutationSlotPool

/-!
# The ring of a slot pool

The payloads in use lie behind one another from the tail of the ring to its head. Every call
keeps them so: one more at the head, one less at the tail, or the last one back.
-/

namespace GlifiStore.Paired.MutationSlotPool

open ByteLayout RingLayout MutationSlotPool

/-- What was copied into a slot that is in use. -/
structure Held where
  slot : Nat
  key : Bytes
  value : Bytes
  admissionBytes : Nat
  deriving DecidableEq, Repr

def Held.payload (held : Held) : Bytes := held.key ++ held.value

def extent (pool : MutationSlotPool) (held : Held) : Nat × Bytes :=
  ((pool.slots held.slot).dataOffset, held.payload)

/-! ## The pool of a list of payloads -/

def record (size cursor sequence : Nat) (held : Held) : Slot where
  sequence := sequence
  beginCursor := cursor
  endCursor := cursor + held.payload.length
  dataOffset := cursor % size
  keySize := held.key.length
  valueSize := held.value.length
  admissionBytes := held.admissionBytes
  occupied := true

structure Accepted (slotCapacity byteCapacity maximumPayloadBytes : Nat) : Prop where
  slots : 0 < slotCapacity
  slotIds : slotCapacity ≤ slotIdMax
  bytes : 0 < byteCapacity
  maximum : maximumPayloadBytes ≤ byteCapacity
  half : byteCapacity ≤ sizeMax / 2

/-- The payloads lie behind one another from the tail to the head of the ring. -/
structure Represents (pool : MutationSlotPool) (live : List Held) : Prop where
  accepted : Accepted pool.slotCapacity pool.byteCapacity pool.maximumPayloadBytes
  reserved : pool.slotCapacity ≤ pool.freeCapacity
  length : pool.storage.length = pool.byteCapacity + pool.maximumPayloadBytes
  recorded : ∀ (i : Nat) held, live[i]? = some held → pool.slots held.slot =
    record pool.byteCapacity (pool.tailCursor + total ((live.map Held.payload).take i))
      (pool.releaseSequence + i) held
  head : pool.headCursor = pool.tailCursor + total (live.map Held.payload)
  next : pool.nextSequence = pool.releaseSequence + live.length
  room : total (live.map Held.payload) ≤ pool.byteCapacity
  headBound : pool.headCursor ≤ sizeMax
  nextBound : pool.nextSequence ≤ sizeMax
  sizes : ∀ held ∈ live, held.payload.length ≤ pool.maximumPayloadBytes
  charged : pool.admissionBytesInUse = (live.map Held.admissionBytes).sum
  chargeRoom : pool.admissionBytesInUse ≤ pool.byteCapacity
  holds : Holds pool.storage
    (fields pool.byteCapacity pool.tailCursor (live.map Held.payload))
  partition : (pool.freeSlots ++ live.map Held.slot).Perm (List.range pool.slotCapacity)
  idle : ∀ slotId ∈ pool.freeSlots, (pool.slots slotId).occupied = false

theorem sub64_of_le {left right : Nat} (le : right ≤ left) (bound : left ≤ sizeMax) :
    sub64 left right = left - right := by
  unfold sub64
  unfold sizeMax at bound
  omega

variable {pool : MutationSlotPool}

theorem represents_construct {slotCapacity byteCapacity maximumPayloadBytes spare : Nat}
    {memory : Nat → UInt8}
    (constructed : construct slotCapacity byteCapacity maximumPayloadBytes spare memory = .ok pool)
    :
    Represents pool [] := by
  unfold construct at constructed
  split at constructed
  · exact absurd constructed nofun
  next accepted =>
  obtain rfl := Except.ok.inj constructed
  simp only [not_or, Nat.not_lt, gt_iff_lt] at accepted
  exact
    { accepted :=
        ⟨Nat.pos_of_ne_zero accepted.1, accepted.2.1, Nat.pos_of_ne_zero accepted.2.2.1,
          accepted.2.2.2.1, accepted.2.2.2.2.1⟩
      reserved := Nat.le_add_right _ _
      length := by simp
      recorded := by simp
      head := rfl
      next := rfl
      room := Nat.zero_le _
      headBound := Nat.zero_le _
      nextBound := Nat.zero_le _
      sizes := by simp
      charged := rfl
      chargeRoom := Nat.zero_le _
      holds := by simp [Holds, fields]
      partition := by simp
      idle := fun _ _ => rfl }

theorem vacate_eq (slotId : Nat) (room : pool.freeSlots.length < pool.freeCapacity) :
    pool.vacate slotId = some
      { pool with
        slots := Function.update pool.slots slotId {}
        freeSlots := slotId :: pool.freeSlots } :=
  if_neg (Nat.not_le.mpr room)

section Represents

variable {live : List Held} {held : Held}

namespace Represents

variable (represents : Represents pool live)
include represents

theorem count : pool.freeSlots.length + live.length = pool.slotCapacity := by
  simpa using represents.partition.length_eq

theorem byteBound : pool.byteCapacity + pool.maximumPayloadBytes ≤ sizeMax := by
  have maximum := represents.accepted.maximum
  have half := represents.accepted.half
  omega

theorem slot_lt (member : held ∈ live) : held.slot < pool.slotCapacity := by
  have inside : held.slot ∈ pool.freeSlots ++ live.map Held.slot :=
    List.mem_append_right _ (List.mem_map_of_mem member)
  exact List.mem_range.mp (represents.partition.mem_iff.mp inside)

theorem nodup : (pool.freeSlots ++ live.map Held.slot).Nodup :=
  represents.partition.nodup_iff.mpr List.nodup_range

variable {slotId : Nat}

theorem of_occupied (bound : slotId < pool.slotCapacity)
    (occupied : (pool.slots slotId).occupied = true) :
    ∃ (i : Nat) (held : Held), live[i]? = some held ∧ held.slot = slotId := by
  have inside := represents.partition.mem_iff.mpr (List.mem_range.mpr bound)
  rcases List.mem_append.mp inside with free | used
  · rw [represents.idle slotId free] at occupied
    exact absurd occupied nofun
  · obtain ⟨held, member, rfl⟩ := List.mem_map.mp used
    obtain ⟨i, found⟩ := List.getElem?_of_mem member
    exact ⟨i, held, found, rfl⟩

theorem fields_eq :
    fields pool.byteCapacity pool.tailCursor (live.map Held.payload) =
      live.map pool.extent := by
  apply List.ext_getElem?
  intro i
  rw [getElem?_fields, List.getElem?_map, List.getElem?_map]
  cases found : live[i]? with
  | none => rfl
  | some held => simp [extent, represents.recorded i held found, record]

theorem offset_lt (member : held ∈ live) :
    (pool.slots held.slot).dataOffset < pool.byteCapacity := by
  obtain ⟨i, found⟩ := List.getElem?_of_mem member
  rw [represents.recorded i held found]
  exact Nat.mod_lt _ represents.accepted.bytes

theorem view_eq (member : held ∈ live) :
    pool.view held.slot = some ⟨held.key, held.value, held.admissionBytes⟩ := by
  have bound := represents.slot_lt member
  have offset := represents.offset_lt member
  have size := represents.sizes held member
  have limit := represents.byteBound
  have placed : pool.extent held ∈
      fields pool.byteCapacity pool.tailCursor (live.map Held.payload) := by
    rw [represents.fields_eq]
    exact List.mem_map_of_mem member
  obtain ⟨front, back⟩ := slice_of_append (represents.holds _ placed)
  obtain ⟨i, found⟩ := List.getElem?_of_mem member
  have slot := represents.recorded i held found
  rw [Held.payload, List.length_append] at size
  unfold view
  rw [if_neg (by omega)]
  rw [extent] at front back
  dsimp only at front back ⊢
  have key : (pool.slots held.slot).keySize = held.key.length := by rw [slot]; rfl
  have value : (pool.slots held.slot).valueSize = held.value.length := by rw [slot]; rfl
  have occupied : (pool.slots held.slot).occupied = true := by rw [slot]; rfl
  have admission : (pool.slots held.slot).admissionBytes = held.admissionBytes := by rw [slot]; rfl
  rw [if_neg, key, value, admission, front, back]
  rw [key, value, occupied, sub64_of_le (by omega) (by omega), sub64_of_le (by omega) limit]
  simp only [not_true_eq_false, false_or, not_or]
  omega

theorem view_eq_none (unused : slotId ∉ live.map Held.slot) : pool.view slotId = none := by
  unfold view
  split
  · rfl
  next bound =>
  have inside := represents.partition.mem_iff.mpr (List.mem_range.mpr (Nat.lt_of_not_le bound))
  have free := (List.mem_append.mp inside).resolve_right unused
  dsimp only
  rw [if_pos (.inl (by rw [represents.idle slotId free]; exact Bool.false_ne_true))]

/-! ## Calls -/

theorem rewind : ∃ after, pool.rewind = some after ∧ Represents after live := by
  unfold MutationSlotPool.rewind
  split
  swap
  · exact ⟨pool, rfl, represents⟩
  next free =>
  have count := represents.count
  obtain rfl : live = [] := List.eq_nil_of_length_eq_zero (by omega)
  have head := represents.head
  have next := represents.next
  have charged := represents.charged
  simp only [List.map_nil, total_nil, List.length_nil, List.sum_nil, Nat.add_zero] at head next charged
  rw [if_neg (by simp [head, next, charged])]
  refine ⟨_, rfl, ?_⟩
  exact
    { represents with
      recorded := by simp
      head := rfl
      next := rfl
      headBound := Nat.zero_le _
      nextBound := Nat.zero_le _
      holds := by simp [Holds, fields] }

theorem occupy {rest : List Nat} (free : pool.freeSlots = slotId :: rest) {key value : Bytes}
    {admissionBytes : Nat} (size : key.length + value.length ≤ pool.maximumPayloadBytes)
    (room : total (live.map Held.payload) + (key.length + value.length) ≤ pool.byteCapacity)
    (charge : pool.admissionBytesInUse + admissionBytes ≤ pool.byteCapacity)
    (headBound : pool.headCursor + (key.length + value.length) ≤ sizeMax)
    (nextBound : pool.nextSequence + 1 ≤ sizeMax) :
    Represents (pool.occupy slotId rest key value admissionBytes)
      (live ++ [⟨slotId, key, value, admissionBytes⟩]) := by
  have unused : ∀ held ∈ live, held.slot ≠ slotId := by
    rintro held member rfl
    have nodup := represents.nodup
    rw [free, List.cons_append, List.nodup_cons] at nodup
    exact nodup.1 (List.mem_append_right _ (List.mem_map_of_mem member))
  have fits : pool.headCursor % pool.byteCapacity + (key ++ value).length ≤ pool.storage.length := by
    have := Nat.mod_lt pool.headCursor represents.accepted.bytes
    rw [represents.length, List.length_append]
    omega
  exact
    { represents with
      length := by
        simp only [MutationSlotPool.occupy]
        rw [blit_append fits, length_blit fits, represents.length]
      recorded := by
        intro i held found
        by_cases old : i < live.length
        · rw [List.getElem?_append_left old] at found
          have different := unused held (List.mem_of_getElem? found)
          simp only [MutationSlotPool.occupy, Function.update_of_ne different, List.map_append]
          rw [List.take_append_of_le_length (by simp; omega)]
          exact represents.recorded i held found
        · rw [List.getElem?_append_right (by omega), List.getElem?_singleton] at found
          split at found
          swap
          · exact absurd found nofun
          obtain rfl := Option.some.inj found
          obtain rfl : i = live.length := by omega
          simp only [MutationSlotPool.occupy, Function.update_self, List.map_append]
          rw [List.take_left' (by simp), ← represents.head, ← represents.next]
          simp [record, Held.payload]
      head := by
        simp [MutationSlotPool.occupy, represents.head, Held.payload, Nat.add_assoc]
      next := by
        simp [MutationSlotPool.occupy, represents.next, Nat.add_assoc]
      room := by simpa [MutationSlotPool.occupy, Held.payload] using room
      headBound := headBound
      nextBound := nextBound
      sizes := by
        intro held member
        rcases List.mem_append.mp member with old | new
        · exact represents.sizes held old
        · obtain rfl := List.mem_singleton.mp new
          simpa [Held.payload, MutationSlotPool.occupy] using size
      charged := by simp [MutationSlotPool.occupy, represents.charged]
      chargeRoom := charge
      holds := by
        simp only [MutationSlotPool.occupy]
        rw [blit_append fits, List.map_append, fields_append, ← represents.head]
        refine represents.holds.blit fits fun field member => ?_
        rw [represents.head]
        exact apart_of_mem_fields represents.accepted.bytes (by simpa using room) member
      partition := by
        have partition := represents.partition
        rw [free] at partition
        simp only [MutationSlotPool.occupy, List.map_append, List.map_cons, List.map_nil]
        rw [← List.append_assoc]
        exact (List.perm_append_singleton _ _).trans partition
      idle := by
        intro other member
        have nodup := represents.nodup
        rw [free, List.cons_append, List.nodup_cons] at nodup
        have different : other ≠ slotId := by
          rintro rfl
          exact nodup.1 (List.mem_append_left _ member)
        simp only [MutationSlotPool.occupy, Function.update_of_ne different]
        exact represents.idle other (by rw [free]; exact List.mem_cons_of_mem _ member) }

/-- The answer of `try_acquire` adds one payload, or none. -/
def Answered (live : List Held) (key value : Bytes) (answer : AcquireResult × MutationSlotPool) :
    Prop :=
  match answer.1.lease with
  | none => Represents answer.2 live
  | some lease => Represents answer.2 (live ++ [⟨lease.slot, key, value, lease.admissionBytes⟩])

theorem acquireRewound (key value : Bytes) (admissionBytes : Nat) :
    Answered live key value (pool.acquireRewound key value admissionBytes) := by
  fun_cases MutationSlotPool.acquireRewound pool key value admissionBytes with
  | case7 payload _ fits slotId rest free room bounds =>
    have limit := represents.byteBound
    have head := represents.head
    have headBound := represents.headBound
    have nextBound := represents.nextBound
    have used := represents.room
    have charged := represents.chargeRoom
    have inUse : pool.payloadBytesInUse = total (live.map Held.payload) := by
      rw [payloadBytesInUse, sub64_of_le (by omega) headBound]
      omega
    rw [inUse, sub64_of_le charged (by omega), sub64_of_le used (by omega)] at room
    exact represents.occupy free (by omega) (by omega) (by omega) (by omega) (by omega)
  | _ => exact represents

theorem tryAcquire (key value : Bytes) (admissionBytes : Nat) :
    ∃ answer, pool.tryAcquire key value admissionBytes = some answer ∧
      Answered live key value answer := by
  obtain ⟨rewound, same, represents⟩ := represents.rewind
  refine ⟨rewound.acquireRewound key value admissionBytes, ?_, represents.acquireRewound ..⟩
  rw [MutationSlotPool.tryAcquire, same, Option.map_some]

theorem roomy (used : live ≠ []) : pool.freeSlots.length < pool.freeCapacity := by
  have count := represents.count
  have some : 0 < live.length := List.length_pos_iff.mpr used
  have reserved := represents.reserved
  omega

theorem slot_ne {i j : Nat} {other : Held}
    (here : live[i]? = some held) (there : live[j]? = some other) (different : i ≠ j) :
    held.slot ≠ other.slot := by
  intro same
  have nodup := (List.nodup_append.mp represents.nodup).2.1
  have first : (live.map Held.slot)[i]? = some held.slot := by rw [List.getElem?_map, here]; rfl
  have second : (live.map Held.slot)[j]? = some held.slot := by
    rw [List.getElem?_map, there, same]
    rfl
  obtain ⟨bound, _⟩ := List.getElem?_eq_some_iff.mp first
  exact different ((List.getElem?_inj bound nodup).mp (first.trans second.symm))

theorem idle_update (slotId : Nat) :
    ∀ other ∈ slotId :: pool.freeSlots,
      (Function.update pool.slots slotId {} other).occupied = false := by
  intro other member
  by_cases own : other = slotId
  · rw [own, Function.update_self]
  · rw [Function.update_of_ne own]
    exact represents.idle other ((List.mem_cons.mp member).resolve_left own)

variable {rest : List Held}

omit represents in
theorem release_cons (represents : Represents pool (held :: rest)) :
    ∃ after, pool.release held.slot = some (true, after) ∧ Represents after rest := by
  have slot := represents.recorded 0 held rfl
  have bound := represents.slot_lt List.mem_cons_self
  have charged := represents.charged
  have next := represents.next
  have nextBound := represents.nextBound
  have chargeRoom := represents.chargeRoom
  have limit := represents.byteBound
  have head := represents.head
  have room := represents.room
  rw [List.take_zero, total_nil, Nat.add_zero, Nat.add_zero] at slot
  rw [List.map_cons, List.sum_cons] at charged
  rw [List.length_cons] at next
  rw [List.map_cons, total_cons] at head room
  have sequence : (pool.releaseSequence + 1) % 2 ^ 64 = pool.releaseSequence + 1 :=
    Nat.mod_eq_of_lt (by unfold sizeMax at nextBound; omega)
  have uncharged : sub64 pool.admissionBytesInUse held.admissionBytes =
      (rest.map Held.admissionBytes).sum := by
    rw [sub64_of_le (by omega) (by omega), charged, Nat.add_sub_cancel_left]
  unfold release
  rw [if_neg (by omega), slot]
  dsimp only [record]
  rw [if_neg (by simp; omega), vacate_eq, sequence, uncharged]
  swap
  · exact represents.roomy (List.cons_ne_nil _ _)
  refine ⟨_, rfl, ?_⟩
  exact
    { represents with
      recorded := by
        intro i other found
        have different : other.slot ≠ held.slot :=
          represents.slot_ne (i := i + 1) (j := 0) found rfl (Nat.succ_ne_zero i)
        have old := represents.recorded (i + 1) other found
        rw [List.map_cons, List.take_succ_cons, total_cons] at old
        dsimp only
        rw [Function.update_of_ne different, old]
        congr 1 <;> omega
      head := by dsimp only; omega
      next := by dsimp only; omega
      room := by dsimp only; omega
      sizes := fun other member => represents.sizes other (List.mem_cons_of_mem _ member)
      charged := rfl
      chargeRoom := by dsimp only; omega
      holds := represents.holds.mono (List.subset_cons_self _ _)
      partition := by
        refine List.Perm.trans ?_ represents.partition
        exact List.perm_middle.symm
      idle := represents.idle_update held.slot }

omit represents in
theorem rollback_append (represents : Represents pool (rest ++ [held])) :
    ∃ after, pool.rollback ⟨held.slot, held.admissionBytes⟩ = some (true, after) ∧
      Represents after rest := by
  have last : (rest ++ [held])[rest.length]? = some held := by simp
  have slot := represents.recorded rest.length held last
  have bound := represents.slot_lt (List.mem_of_getElem? last)
  have charged := represents.charged
  have next := represents.next
  have nextBound := represents.nextBound
  have chargeRoom := represents.chargeRoom
  have limit := represents.byteBound
  have head := represents.head
  have room := represents.room
  have headBound := represents.headBound
  rw [List.map_append, List.take_left' (by simp)] at slot
  simp only [List.map_append, List.map_cons, List.map_nil, List.sum_append, List.sum_cons,
    List.sum_nil, Nat.add_zero] at charged
  rw [List.length_append, List.length_singleton] at next
  simp only [List.map_append, List.map_cons, List.map_nil, total_append, total_cons, total_nil,
    Nat.add_zero] at head room
  have sequence : (pool.releaseSequence + rest.length + 1) % 2 ^ 64 = pool.nextSequence := by
    rw [next, ← Nat.add_assoc]
    exact Nat.mod_eq_of_lt (by unfold sizeMax at nextBound; omega)
  have previous : sub64 pool.nextSequence 1 = pool.releaseSequence + rest.length := by
    rw [sub64_of_le (by omega) nextBound]
    omega
  have uncharged : sub64 pool.admissionBytesInUse held.admissionBytes =
      (rest.map Held.admissionBytes).sum := by
    rw [sub64_of_le (by omega) (by omega), charged, Nat.add_sub_cancel]
  have endCursor : pool.tailCursor + total (rest.map Held.payload) + held.payload.length =
      pool.headCursor := by omega
  unfold rollback
  dsimp only
  rw [if_neg (by omega)]
  simp only [slot, record, sequence, endCursor, not_true_eq_false, ne_eq, or_self, if_false]
  rw [vacate_eq, previous, uncharged]
  swap
  · exact represents.roomy (by simp)
  refine ⟨_, rfl, ?_⟩
  exact
    { represents with
      recorded := by
        intro i other found
        have inside : i < rest.length := (List.getElem?_eq_some_iff.mp found).1
        have old : (rest ++ [held])[i]? = some other := by
          rw [List.getElem?_append_left inside, found]
        have different : other.slot ≠ held.slot :=
          represents.slot_ne old last (by omega)
        have record := represents.recorded i other old
        rw [List.map_append, List.take_append_of_le_length (by simp; omega)] at record
        dsimp only
        rw [Function.update_of_ne different, record]
      head := rfl
      next := rfl
      room := by dsimp only; omega
      headBound := by dsimp only; omega
      nextBound := by dsimp only; omega
      sizes := fun other member => represents.sizes other (List.mem_append_left _ member)
      charged := rfl
      chargeRoom := by dsimp only; omega
      holds := by
        have holds := represents.holds
        rw [List.map_append, fields_append] at holds
        exact holds.mono (List.subset_append_left _ _)
      partition := by
        refine List.Perm.trans ?_ represents.partition
        rw [List.map_append, ← List.append_assoc]
        exact (List.perm_append_singleton _ _).symm
      idle := represents.idle_update held.slot }

theorem release_eq_false (other : live.head?.map Held.slot ≠ some slotId) :
    pool.release slotId = some (false, pool) := by
  unfold release
  split
  · rfl
  next bound =>
  dsimp only
  refine if_pos ?_
  by_contra accepted
  simp only [not_or, not_not] at accepted
  obtain ⟨occupied, sequence, -⟩ := accepted
  obtain ⟨i, held, found, rfl⟩ := represents.of_occupied (Nat.lt_of_not_le bound) occupied
  rw [represents.recorded i held found] at sequence
  obtain rfl : i = 0 := Nat.add_eq_left.mp sequence
  rw [List.head?_eq_getElem?, found] at other
  exact other rfl

theorem rollback_eq_false {lease : Lease}
    (other : (live.getLast?.map fun held => ⟨held.slot, held.admissionBytes⟩) ≠ some lease) :
    pool.rollback lease = some (false, pool) := by
  unfold rollback
  split
  · rfl
  next bound =>
  dsimp only
  refine if_pos ?_
  by_contra accepted
  simp only [not_or, not_not] at accepted
  obtain ⟨occupied, charge, sequence, -⟩ := accepted
  obtain ⟨i, held, found, slot⟩ := represents.of_occupied (Nat.lt_of_not_le bound) occupied
  have inside : i < live.length := (List.getElem?_eq_some_iff.mp found).1
  have next := represents.next
  have nextBound := represents.nextBound
  rw [← slot, represents.recorded i held found] at sequence charge
  have last : i = live.length - 1 := by
    have small : pool.releaseSequence + i + 1 < 2 ^ 64 := by unfold sizeMax at nextBound; omega
    have sequence : (pool.releaseSequence + i + 1) % 2 ^ 64 = pool.nextSequence := sequence
    rw [Nat.mod_eq_of_lt small] at sequence
    omega
  rw [List.getLast?_eq_getElem?, ← last, found] at other
  have charge : held.admissionBytes = lease.admissionBytes := charge
  exact other (by rw [Option.map_some, slot, charge])

end Represents

end Represents

end GlifiStore.Paired.MutationSlotPool
