import GlifiStore.Paired.SlotPoolRing

/-!
# The slot pool is a queue

The pool keeps the payloads that are in use, in the order they were admitted in: each one is
read back as it was copied, the oldest is the only one that is released, and the newest the
only one that is taken back. No call reaches `std::terminate`.
-/

namespace GlifiStore.Paired.MutationSlotPool

open ByteLayout RingLayout

/-! ## What the calls are answered -/

/-- The pool, with the payloads that were admitted and neither released nor taken back. -/
structure Tracked where
  pool : MutationSlotPool
  live : List Held := []

inductive Call where
  | tryAcquire (key value : Bytes) (admissionBytes : Nat)
  | rollback (lease : Lease)
  | release (slotId : Nat)
  deriving DecidableEq, Repr

namespace Tracked

/-- The payload of a slot is gone when the call that gives it up succeeds. -/
def forget (live : List Held) (slotId : Nat) (succeeded : Bool) : List Held :=
  if succeeded then live.filter (·.slot ≠ slotId) else live

/-- A call and what its answer says about the payloads. `none` is `std::terminate`. -/
def step (tracked : Tracked) : Call → Option Tracked
  | .tryAcquire key value admissionBytes =>
    (tracked.pool.tryAcquire key value admissionBytes).map fun (result, pool) =>
      match result.lease with
      | none => { tracked with pool }
      | some lease =>
        { pool, live := tracked.live ++ [⟨lease.slot, key, value, lease.admissionBytes⟩] }
  | .rollback lease =>
    (tracked.pool.rollback lease).map fun (succeeded, pool) =>
      { pool, live := forget tracked.live lease.slot succeeded }
  | .release slotId =>
    (tracked.pool.release slotId).map fun (succeeded, pool) =>
      { pool, live := forget tracked.live slotId succeeded }

/-- The pool is a queue of the payloads in use. -/
structure Faithful (tracked : Tracked) : Prop where
  /-- A payload in use is read back as it was copied. -/
  viewed : ∀ held ∈ tracked.live,
    tracked.pool.view held.slot = some ⟨held.key, held.value, held.admissionBytes⟩
  /-- A slot that is not in use has no payload. -/
  unseen : ∀ slotId ∉ tracked.live.map Held.slot, tracked.pool.view slotId = none
  /-- Ranges in use are within the storage and share no position. -/
  inside : ∀ held ∈ tracked.live,
    (tracked.pool.extent held).1 + held.payload.length ≤ tracked.pool.storage.length
  apart : tracked.live.Pairwise fun left right =>
    Apart (tracked.pool.extent left) (tracked.pool.extent right)
  /-- The counters are those of the payloads in use. -/
  slotCount : tracked.pool.slotsInUse = tracked.live.length
  payloadCount : tracked.pool.payloadBytesInUse =
    (tracked.live.map fun held => held.key.length + held.value.length).sum
  admissionCount : tracked.pool.admissionBytesInUse =
    (tracked.live.map Held.admissionBytes).sum
  /-- The oldest payload is the only one that is released, the newest the only one that is
  taken back. -/
  released : ∀ slotId, (∃ after, tracked.pool.release slotId = some (true, after)) ↔
    (tracked.live.head?.map Held.slot) = some slotId
  rolledBack : ∀ lease, (∃ after, tracked.pool.rollback lease = some (true, after)) ↔
    (tracked.live.getLast?.map fun held => ⟨held.slot, held.admissionBytes⟩) = some lease

end Tracked

section Faithful

variable {pool : MutationSlotPool} {live : List Held} {held : Held}

theorem Represents.faithful (represents : Represents pool live) : Tracked.Faithful ⟨pool, live⟩ where
  viewed _ member := represents.view_eq member
  unseen _ unused := represents.view_eq_none unused
  inside held member := by
    have offset := represents.offset_lt member
    have size := represents.sizes held member
    have length := represents.length
    show (pool.slots held.slot).dataOffset + held.payload.length ≤ pool.storage.length
    omega
  apart := by
    have apart := @pairwise_apart_fields _ _ pool.tailCursor _ represents.accepted.bytes
      represents.room
    rw [represents.fields_eq] at apart
    exact List.pairwise_map.mp apart
  slotCount := by
    have count := represents.count
    have bound := represents.accepted.slotIds
    show sub64 pool.slotCapacity pool.freeSlots.length = live.length
    rw [sub64_of_le (by omega) (by unfold slotIdMax at bound; unfold sizeMax; omega)]
    omega
  payloadCount := by
    have head := represents.head
    have payloads : live.map (fun held => held.key.length + held.value.length) =
        (live.map Held.payload).map List.length := by
      simp [Held.payload]
    show sub64 pool.headCursor pool.tailCursor = _
    rw [sub64_of_le (by omega) represents.headBound, payloads, head, Nat.add_sub_cancel_left]
    rfl
  admissionCount := represents.charged
  released slotId := by
    constructor
    · rintro ⟨after, accepted⟩
      by_contra other
      rw [represents.release_eq_false other] at accepted
      cases accepted
    · intro oldest
      cases live with
      | nil => cases oldest
      | cons held rest =>
        obtain rfl : held.slot = slotId := Option.some.inj oldest
        obtain ⟨after, accepted, -⟩ := represents.release_cons
        exact ⟨after, accepted⟩
  rolledBack lease := by
    constructor
    · rintro ⟨after, accepted⟩
      by_contra other
      rw [represents.rollback_eq_false other] at accepted
      cases accepted
    · intro newest
      obtain ⟨held, last, rfl⟩ := Option.map_eq_some_iff.mp newest
      obtain ⟨rest, rfl⟩ := List.getLast?_eq_some_iff.mp last
      obtain ⟨after, accepted, -⟩ := represents.rollback_append
      exact ⟨after, accepted⟩

theorem Represents.forget_eq (represents : Represents pool live) (before : List Held)
    {rest : List Held} (position : live = before ++ held :: rest) :
    Tracked.forget live held.slot true = before ++ rest := by
  have nodup := (List.nodup_append.mp represents.nodup).2.1
  subst position
  rw [List.map_append, List.map_cons, List.perm_middle.nodup_iff, List.nodup_cons] at nodup
  have others : ∀ other ∈ before ++ rest, other.slot ≠ held.slot := by
    rintro other member same
    refine nodup.1 ?_
    rw [← List.map_append, ← same]
    exact List.mem_map_of_mem member
  have kept : (before ++ rest).filter (·.slot ≠ held.slot) = before ++ rest :=
    List.filter_eq_self.mpr fun other member => by simpa using others other member
  rw [List.filter_append] at kept
  simp only [Tracked.forget, if_true, List.filter_append, List.filter_cons, ne_eq,
    not_true_eq_false, decide_false, Bool.false_eq_true, if_false]
  exact kept

end Faithful

/-! ## Runs -/

theorem represents_step {tracked : Tracked} (represents : Represents tracked.pool tracked.live)
    (call : Call) :
    ∃ after, tracked.step call = some after ∧ Represents after.pool after.live := by
  obtain ⟨pool, live⟩ := tracked
  cases call with
  | tryAcquire key value admissionBytes =>
    obtain ⟨⟨result, after⟩, accepted, answered⟩ := represents.tryAcquire key value admissionBytes
    simp only [Tracked.step, accepted, Option.map_some]
    refine ⟨_, rfl, ?_⟩
    unfold Represents.Answered at answered
    dsimp only at answered
    cases lease : result.lease with
    | none => rwa [lease] at answered
    | some lease => simpa only [lease] using answered
  | rollback lease =>
    by_cases newest : (live.getLast?.map fun held => ⟨held.slot, held.admissionBytes⟩) = some lease
    · obtain ⟨held, last, rfl⟩ := Option.map_eq_some_iff.mp newest
      obtain ⟨rest, rfl⟩ := List.getLast?_eq_some_iff.mp last
      obtain ⟨after, accepted, kept⟩ := represents.rollback_append
      simp only [Tracked.step, accepted, Option.map_some]
      refine ⟨_, rfl, ?_⟩
      rw [represents.forget_eq rest rfl, List.append_nil]
      exact kept
    · simp only [Tracked.step, represents.rollback_eq_false newest, Option.map_some]
      exact ⟨_, rfl, represents⟩
  | release slotId =>
    by_cases oldest : live.head?.map Held.slot = some slotId
    · cases live with
      | nil => exact absurd oldest nofun
      | cons held rest =>
        obtain rfl : held.slot = slotId := Option.some.inj oldest
        obtain ⟨after, accepted, kept⟩ := represents.release_cons
        simp only [Tracked.step, accepted, Option.map_some]
        refine ⟨_, rfl, ?_⟩
        rw [represents.forget_eq [] rfl]
        exact kept
    · simp only [Tracked.step, represents.release_eq_false oldest, Option.map_some]
      exact ⟨_, rfl, represents⟩

theorem represents_run {tracked : Tracked} (represents : Represents tracked.pool tracked.live)
    (calls : List Call) :
    ∃ after, calls.foldlM Tracked.step tracked = some after ∧
      Represents after.pool after.live := by
  induction calls generalizing tracked with
  | nil => exact ⟨tracked, rfl, represents⟩
  | cons call rest ih =>
    obtain ⟨middle, stepped, kept⟩ := represents_step represents call
    obtain ⟨after, ran, represents⟩ := ih kept
    refine ⟨after, ?_, represents⟩
    rw [List.foldlM_cons, stepped]
    exact ran

/-- Any calls on a constructed pool leave it a queue of the payloads in use. -/
theorem slot_pool_fifo {slotCapacity byteCapacity maximumPayloadBytes spare : Nat}
    {memory : Nat → UInt8} {pool : MutationSlotPool}
    (constructed : construct slotCapacity byteCapacity maximumPayloadBytes spare memory = .ok pool)
    (calls : List Call) :
    ∃ after, calls.foldlM Tracked.step { pool } = some after ∧ after.Faithful := by
  obtain ⟨after, ran, represents⟩ := represents_run
    (represents_construct constructed : Represents (Tracked.mk pool []).pool []) calls
  exact ⟨after, ran, represents.faithful⟩

def smallPool : MutationSlotPool where
  slotCapacity := 2
  byteCapacity := 4
  maximumPayloadBytes := 4
  storage := List.replicate 8 0
  freeSlots := [0, 1]
  freeCapacity := 2

/-- The second payload runs past the end of the ring, and is read back when the first is gone. -/
theorem slot_pool_fifo_spilled :
    ∃ after, List.foldlM Tracked.step { pool := smallPool }
        [.tryAcquire [1] [2] 2, .tryAcquire [3] [] 1, .release 0, .tryAcquire [4] [5, 6] 3] =
          some after ∧ after.Faithful ∧
        after.live = [⟨1, [3], [], 1⟩, ⟨0, [4], [5, 6], 3⟩] := by
  obtain ⟨after, ran, faithful⟩ := slot_pool_fifo
    (show construct 2 4 4 0 (fun _ => 0) = .ok smallPool from rfl)
    [.tryAcquire [1] [2] 2, .tryAcquire [3] [] 1, .release 0, .tryAcquire [4] [5, 6] 3]
  refine ⟨after, ran, faithful, ?_⟩
  have live := congrArg (Option.map Tracked.live) ran
  exact Option.some.inj (live.symm.trans (by rfl))

end GlifiStore.Paired.MutationSlotPool
