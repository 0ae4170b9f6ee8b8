import GlifiStore.Segment.Recoverable

/-!
# Live Segment files

The invariant that ties the metadata of an open file to its bytes, and what a
sync, a rollback and a slot write do to it.
-/

namespace GlifiStore

open ByteLayout CrashFile

/-! ## Live files -/

/-- The metadata of a file that still accepts records: `records` are appended,
`committed` are named by the newest slot. -/
structure Live (segment : DurableSegmentFile) (records committed : List StoredRecord) : Prop where
  recoverable : Recoverable segment.file segment.identity committed
  settled : segment.file.Settled
  inside : committed <+: records
  selected : segment.selected.commit.Describes records
  selectedEnd : segment.selected.commit.committedEnd ≤ kSegmentSizeBytes
  visible : read segment.file.visible kSegmentHeaderReservedBytes (extentBytes records).length =
    extentBytes records
  slotIndex : segment.persisted.slotIndex < kSegmentCommitSlotCount
  newest : Names committed segment.persisted.slotIndex segment.persisted.commit
    (slotBytes segment.file.visible segment.persisted.slotIndex)
  persisted : segment.persisted.commit.Describes committed
  other : Blank (slotBytes segment.file.visible segment.nextSlot) ∨
    ∃ older, Names committed segment.nextSlot older
      (slotBytes segment.file.visible segment.nextSlot) ∧
      older.commitGeneration < segment.persisted.commit.commitGeneration
  pending : segment.pendingRecordCount = 0 → records = committed

/-- A poisoned file without pending records: no operation changes it any more. -/
structure Dead (segment : DurableSegmentFile) (records : List StoredRecord) : Prop where
  poisoned : segment.healthy = false
  drained : segment.pendingRecordCount = 0
  recoverable : ∃ committed, committed <+: records ∧
    Recoverable segment.file segment.identity committed

def Safe (segment : DurableSegmentFile) (records : List StoredRecord) : Prop :=
  (∃ committed, Live segment records committed) ∨ Dead segment records

variable {segment : DurableSegmentFile} {records committed : List StoredRecord}

namespace Live

section Live

variable (live : Live segment records committed)
include live

theorem nextSlot_spec :
    segment.nextSlot < kSegmentCommitSlotCount ∧
      segment.nextSlot + segment.persisted.slotIndex = 1 := by
  have bound := live.slotIndex
  simp only [DurableSegmentFile.nextSlot, kSegmentCommitSlotCount] at *
  omega

theorem slot_cases {index : Nat} (bound : index < kSegmentCommitSlotCount) :
    index = segment.persisted.slotIndex ∨ index = segment.nextSlot := by
  have next := live.nextSlot_spec
  have persisted := live.slotIndex
  simp only [kSegmentCommitSlotCount] at *
  omega

theorem visible_eq_durable {start count : Nat}
    (clear : ∀ write ∈ segment.file.outstanding, write.Avoids start count) :
    read segment.file.visible start count = read segment.file.durable start count :=
  File.Survives.read_eq live.settled clear

theorem extent_visible :
    read segment.file.visible kSegmentHeaderReservedBytes (extentBytes committed).length =
      extentBytes committed := by
  rw [live.visible_eq_durable live.recoverable.avoids_extent, live.recoverable.extent]

theorem safe : Safe segment records :=
  .inl ⟨committed, live⟩

theorem setFlags (healthy dirty : Bool) :
    Live { segment with healthy := healthy, dirty := dirty } records committed :=
  ⟨live.recoverable, live.settled, live.inside, live.selected, live.selectedEnd, live.visible,
    live.slotIndex, live.newest, live.persisted, live.other, live.pending⟩

theorem visible_le_persisted {index : Nat}
    (bound : index < kSegmentCommitSlotCount) {older : SegmentCommit}
    (decoded : decodeSegmentCommitSlot (slotBytes segment.file.visible index) =
      .ok (.valid older)) :
    older.commitGeneration ≤ segment.persisted.commit.commitGeneration := by
  rcases live.slot_cases bound with rfl | rfl
  · have same := Except.ok.inj (decoded.symm.trans live.newest.decoded)
    rw [DecodedCommitSlot.valid.inj same]
  · rcases live.other with (empty | invalid) | ⟨other, names, below⟩
    · simp [decoded] at empty
    · simp [decoded] at invalid
    · have same := Except.ok.inj (decoded.symm.trans names.decoded)
      rw [DecodedCommitSlot.valid.inj same]
      exact Nat.le_of_lt below

theorem durable_le_persisted {index : Nat}
    (bound : index < kSegmentCommitSlotCount) {older : SegmentCommit}
    (decoded : decodeSegmentCommitSlot (slotBytes segment.file.durable index) =
      .ok (.valid older)) :
    older.commitGeneration ≤ segment.persisted.commit.commitGeneration := by
  obtain ⟨anchor, anchorBound, clear, commit, names, greatest⟩ := live.recoverable.anchor
  refine Nat.le_trans (greatest index bound older decoded) ?_
  have shown : slotBytes segment.file.visible anchor = slotBytes segment.file.durable anchor :=
    live.visible_eq_durable clear
  exact live.visible_le_persisted anchorBound (shown ▸ names.decoded)

theorem sync : Live { segment with file := segment.file.sync } records committed :=
  { live with
    recoverable :=
      { identityValid := live.recoverable.identityValid
        block := by
          refine Eq.trans ?_ live.recoverable.block
          exact live.visible_eq_durable live.recoverable.avoids_block
        reserved := by
          have same := live.visible_eq_durable live.recoverable.avoids_reserved
          simp only [File.sync]
          rw [same]
          exact live.recoverable.reserved
        extent := live.extent_visible
        writes := by simp [File.sync]
        durableSlots := by
          intro index bound
          rcases live.slot_cases bound with rfl | rfl
          · exact .inr ⟨_, live.newest⟩
          · exact live.other.imp id fun ⟨older, names, _⟩ => ⟨older, names⟩
        unsyncedSlots := by simp [File.sync]
        anchor := ⟨_, live.slotIndex, by simp [File.sync], _, live.newest,
          fun index bound older decoded => live.visible_le_persisted bound decoded⟩ }
    settled := File.settled_sync _ }

theorem rollback : Live segment.rollbackPendingMetadata committed committed :=
  { live with
    inside := List.prefix_refl _
    selected :=
      ⟨live.persisted.ending, live.persisted.count, live.persisted.first, live.persisted.last,
        live.persisted.ascending⟩
    selectedEnd := live.newest.extent
    visible := live.extent_visible
    pending := fun _ => rfl }

end Live

end Live

theorem slotOffset_inj {left right : Nat} (same : slotOffset left = slotOffset right) :
    left = right := by
  simp only [slotOffset, kSegmentCommitSlotsOffset, kSegmentCommitSlotBytes] at same
  omega

theorem slotOffset_apart {left right : Nat} (different : left ≠ right) :
    slotOffset left + kSegmentCommitSlotBytes ≤ slotOffset right ∨
      slotOffset right + kSegmentCommitSlotBytes ≤ slotOffset left := by
  simp only [slotOffset, kSegmentCommitSlotsOffset, kSegmentCommitSlotBytes]
  omega

/-- A commit that may be written next: it describes the appended records, which
are durable, and no unsynced write can reach them or the newest slot. -/
structure Publishable (segment : DurableSegmentFile) (records : List StoredRecord)
    (commit : SegmentCommit) : Prop where
  generation : commit.commitGeneration = segment.persisted.commit.commitGeneration + 1
  bounded : commit.commitGeneration < 256 ^ 8
  describes : commit.Describes records
  extent : commit.committedEnd ≤ kSegmentSizeBytes
  durable : read segment.file.durable kSegmentHeaderReservedBytes (extentBytes records).length =
    extentBytes records
  beyond : ∀ write ∈ segment.file.outstanding, SlotWrite write ∨
    kSegmentHeaderReservedBytes + (extentBytes records).length ≤ write.start
  clear : ∀ write ∈ segment.file.outstanding,
    write.Avoids (slotOffset segment.persisted.slotIndex) kSegmentCommitSlotBytes

namespace Publishable

variable {commit : SegmentCommit}

theorem names (publishable : Publishable segment records commit)
    (live : Live segment records committed) :
    Names records segment.nextSlot commit (commitSlotBytes commit) where
  encoded := rfl
  positive := by
    rw [publishable.generation]
    exact Nat.succ_ne_zero _
  bounded := publishable.bounded
  parity := by
    have slots := live.nextSlot_spec.2
    have parity := live.newest.parity
    rw [publishable.generation]
    omega
  extent := publishable.extent
  describes := ⟨records, List.prefix_refl _, publishable.describes⟩

theorem write (publishable : Publishable segment records commit)
    (live : Live segment records committed) (done : Nat) :
    Recoverable (segment.file.write (slotOffset segment.nextSlot) (commitSlotBytes commit) done)
      segment.identity records where
  identityValid := live.recoverable.identityValid
  block := live.recoverable.block
  reserved := live.recoverable.reserved
  extent := publishable.durable
  writes := by
    intro write member
    rcases List.mem_append.mp member with old | new
    · exact publishable.beyond write old
    · rw [List.mem_singleton.mp new]
      exact .inl ⟨_, live.nextSlot_spec.1, rfl, length_commitSlotBytes⟩
  durableSlots := by
    intro index bound
    exact (live.recoverable.durableSlots index bound).imp id
      fun ⟨older, names⟩ => ⟨older, names.mono live.inside⟩
  unsyncedSlots := by
    intro index bound bytes member
    rcases List.mem_append.mp member with old | new
    · exact (live.recoverable.unsyncedSlots index bound bytes old).imp id
        fun ⟨older, names⟩ => ⟨older, names.mono live.inside⟩
    · obtain ⟨start, data⟩ := Write.mk.inj (List.mem_singleton.mp new)
      rw [slotOffset_inj start, data]
      exact .inr ⟨commit, publishable.names live⟩
  anchor := by
    refine ⟨_, live.slotIndex, ?_, segment.persisted.commit, ?_, ?_⟩
    · intro write member
      rcases List.mem_append.mp member with old | new
      · exact publishable.clear write old
      · rw [List.mem_singleton.mp new]
        have different : segment.persisted.slotIndex ≠ segment.nextSlot := by
          have slots := live.nextSlot_spec.2
          omega
        simp only [Write.Avoids, length_commitSlotBytes]
        exact slotOffset_apart different
    · have shown := live.newest.mono live.inside
      rwa [slotBytes, live.visible_eq_durable publishable.clear] at shown
    · intro index bound older decoded
      exact live.durable_le_persisted bound decoded

theorem adopt (publishable : Publishable segment records commit)
    (live : Live segment records committed) :
    Live (segment.adopt (segment.file.write (slotOffset segment.nextSlot) (commitSlotBytes commit)
      (commitSlotBytes commit).length) commit) records records := by
  have slots := live.nextSlot_spec
  have whole : (commitSlotBytes commit).take (commitSlotBytes commit).length =
      commitSlotBytes commit := List.take_length
  have back : (segment.nextSlot + 1) % kSegmentCommitSlotCount = segment.persisted.slotIndex := by
    have bound := live.slotIndex
    simp only [kSegmentCommitSlotCount] at *
    omega
  have untouched : ∀ start count, (start + count ≤ slotOffset segment.nextSlot ∨
      slotOffset segment.nextSlot + kSegmentCommitSlotBytes ≤ start) →
      read (overwrite segment.file.visible (slotOffset segment.nextSlot) (commitSlotBytes commit))
        start count = read segment.file.visible start count := by
    intro start count apart
    exact read_overwrite_of_disjoint (by rwa [length_commitSlotBytes])
  refine ⟨publishable.write live _, live.settled.write _ _ _, List.prefix_refl _,
    publishable.describes, publishable.extent, ?_, slots.1, ?_, publishable.describes, ?_,
    fun _ => rfl⟩
  · simp only [DurableSegmentFile.adopt, File.write, whole]
    rw [untouched, live.visible]
    have inside := slotOffset_count
    have slot := (slotOffset_spec slots.1).2
    omega
  · simp only [DurableSegmentFile.adopt, File.write, whole, slotBytes]
    rw [read_overwrite_self length_commitSlotBytes]
    exact publishable.names live
  · right
    refine ⟨segment.persisted.commit, ?_, ?_⟩
    · simp only [DurableSegmentFile.adopt, DurableSegmentFile.nextSlot, File.write, whole, slotBytes]
      simp only [DurableSegmentFile.nextSlot] at back untouched
      rw [back, untouched]
      · exact live.newest.mono live.inside
      · apply slotOffset_apart
        have different := slots.2
        simp only [DurableSegmentFile.nextSlot] at different
        omega
    · simp only [DurableSegmentFile.adopt]
      rw [publishable.generation]
      exact Nat.lt_succ_self _

end Publishable

end GlifiStore
