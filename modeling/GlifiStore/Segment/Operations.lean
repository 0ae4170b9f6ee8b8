import GlifiStore.Segment.Live

/-!
# Operations on live Segment files

Every operation keeps the file live, or leaves it poisoned and recoverable. A
seal needs the newest slot to be out of reach of the unsynced writes.
-/

namespace GlifiStore

open ByteLayout CrashFile DurableSegmentFile

/-! ## Record writes -/

variable {file after : File UInt8} {start : Nat} {data : Bytes} {outcome : WriteOutcome}

theorem writeAllAt_file {status : Status}
    (written : writeAllAt file start data outcome = (status, after)) :
    ∃ done, after = file.write start data done := by
  cases outcome with
  | done => exact ⟨_, (Prod.mk.inj written).2.symm⟩
  | failed done error => exact ⟨done, (Prod.mk.inj written).2.symm⟩

theorem writeAllAt_ok (written : writeAllAt file start data outcome = (.ok (), after)) :
    after = file.write start data data.length := by
  cases outcome with
  | done => exact (Prod.mk.inj written).2.symm
  | failed done error => simp [writeAllAt] at written

variable {chunk : Nat} {bytes : Bytes}

namespace DurableSegmentFile

theorem writeChunks_frame (io : AppendIo) (segment : DurableSegmentFile) (start chunk : Nat)
    (data : Bytes) :
    (writeChunks io segment start chunk data).2.selected = segment.selected ∧
      (writeChunks io segment start chunk data).2.persisted = segment.persisted ∧
      (writeChunks io segment start chunk data).2.pendingRecordCount = segment.pendingRecordCount ∧
      ∀ i < start, (writeChunks io segment start chunk data).2.file.visible i =
        segment.file.visible i := by
  fun_induction writeChunks io segment start chunk data with
  | case4 segment start chunk data filled granted grant fits error file written =>
    obtain ⟨done, rfl⟩ := writeAllAt_file written
    exact ⟨rfl, rfl, rfl, fun i below => overwrite_outside (.inl below)⟩
  | case5 segment start chunk data filled granted grant fits file written ih =>
    obtain ⟨done, rfl⟩ := writeAllAt_file written
    obtain ⟨selected, persisted, pending, frame⟩ := ih
    refine ⟨selected, persisted, pending, fun i below => ?_⟩
    rw [frame i (by omega)]
    exact overwrite_outside (.inl below)
  | _ => exact ⟨rfl, rfl, rfl, fun _ _ => rfl⟩

variable {io : AppendIo} {segment : DurableSegmentFile}

theorem writeChunks_failure {result : SegmentCommitResult}
    (failed : (writeChunks io segment start chunk data).1 = some result) :
    ∃ error, result = .notCommitted error := by
  fun_induction writeChunks io segment start chunk data with
  | case1 => simp at failed
  | case5 _ _ _ _ _ _ _ _ _ _ ih => exact ih failed
  | _ => exact ⟨_, (Option.some.inj failed).symm⟩

theorem writeChunks_written (completed : (writeChunks io segment start chunk data).1 = none) :
    read (writeChunks io segment start chunk data).2.file.visible start data.length = data := by
  fun_induction writeChunks io segment start chunk data with
  | case1 segment start chunk data empty =>
    rw [List.length_eq_zero_iff.mp empty]
    rfl
  | case5 segment start chunk data filled granted grant fits file written ih =>
    have tail := ih completed
    have frame := (writeChunks_frame io { segment with file := file } (start + granted) (chunk + 1)
      (data.drop granted)).2.2.2
    generalize (writeChunks io { segment with file := file } (start + granted) (chunk + 1)
      (data.drop granted)).2.file.visible = image at tail frame ⊢
    obtain rfl := writeAllAt_ok written
    simp only [File.write, List.take_length] at frame
    simp only [not_or, Nat.not_lt] at fits
    have first : read image start granted = data.take granted := by
      rw [read_congr fun i _ below => frame i below, read_overwrite_self]
      rw [List.length_take]
      omega
    have length : data.length = granted + (data.drop granted).length := by
      rw [List.length_drop]
      omega
    rw [length, read_add, tail, first, List.take_append_drop]
  | _ => simp at completed

theorem appendRecord_done {view : RecordView} (healthy : segment.healthy = true)
    (writable : segment.writable = true) (active : segment.selected.commit.state = .active)
    (decoded : decodeRecord bytes = .ok view) (positive : view.sequence ≠ 0)
    (later : segment.selected.commit.recordCount ≠ 0 →
      segment.selected.commit.lastSequence < view.sequence)
    (countable : segment.selected.commit.recordCount ≠ kUInt64Max ∧
      segment.persisted.commit.commitGeneration ≠ kUInt64Max)
    (fits : bytes.length ≤ kSegmentSizeBytes - segment.selected.commit.committedEnd) :
    segment.appendRecord bytes .done =
      (.committed, { segment with
        file := segment.file.write segment.selected.commit.committedEnd bytes bytes.length
        }.noteAppended view bytes.length) := by
  have filled : ¬ bytes.length = 0 := by
    have long := (decodeRecord_eq_ok_iff.mp decoded).inside
    have canonical := (decodeRecord_eq_ok_iff.mp decoded).canonical
    simp only [kEncodedRecordHeaderSize] at canonical
    omega
  have written : writeChunks .done segment segment.selected.commit.committedEnd 0 bytes =
      (none, { segment with
        file := segment.file.write segment.selected.commit.committedEnd bytes bytes.length }) := by
    rw [writeChunks, if_neg filled]
    simp only [AppendIo.grant, AppendIo.done, filled, gt_iff_lt, Nat.lt_irrefl, or_self, if_false,
      List.take_length, writeAllAt, List.drop_length]
    rw [writeChunks]
    rfl
  unfold appendRecord
  rw [if_neg (by simp [healthy]), if_neg (by simp [writable]), if_neg (by simp [active])]
  simp only [decoded, written]
  rw [if_neg (by omega), if_neg (by omega), if_neg (by omega)]
  rfl

end DurableSegmentFile

/-! ## Operations -/

variable {commit : SegmentCommit}

theorem encodeSegmentCommitSlot_ok {encoded : Bytes}
    (encodes : encodeSegmentCommitSlot commit = .ok encoded) :
    validateCommit commit = .ok () ∧ commitSlotBytes commit = encoded := by
  unfold encodeSegmentCommitSlot at encodes
  split at encodes
  · simp at encodes
  · next valid => exact ⟨valid, Except.ok.inj encodes⟩

/-- The records that stay appended after an operation: one that is known not to
have committed dropped those its rollback no longer counts. -/
def keptRecords {α : Type} (result : SegmentCommitResult) (after : DurableSegmentFile)
    (records : List α) : List α :=
  match result with
  | .notCommitted _ => records.take after.selected.commit.recordCount
  | _ => records

def SafeAfter (records : List StoredRecord) (step : SegmentCommitResult × DurableSegmentFile) :
    Prop :=
  Safe step.2 (keptRecords step.1 step.2 records)

namespace Live

variable {segment : DurableSegmentFile} {records committed : List StoredRecord}

section Live

variable (live : Live segment records committed)
include live

theorem safeAfter_committed : SafeAfter records (.committed, segment) :=
  live.safe

theorem safeAfter_indeterminate (error : Error) :
    SafeAfter records (.indeterminate error, segment) :=
  live.safe

theorem safeAfter_refused (error : Error) : SafeAfter records (.notCommitted error, segment) := by
  have all : records.take segment.selected.commit.recordCount = records := by
    rw [live.selected.count, List.take_length]
  simp only [SafeAfter, keptRecords, all]
  exact live.safe

theorem safeAfter_rollback (error : Error) (healthy dirty : Bool) :
    SafeAfter records (.notCommitted error,
      { segment.rollbackPendingMetadata with healthy := healthy, dirty := dirty }) := by
  have rest : records.take committed.length = committed := by
    obtain ⟨later, rfl⟩ := live.inside
    exact List.take_left
  have count : segment.persisted.commit.recordCount = committed.length := live.persisted.count
  have kept : keptRecords (.notCommitted error)
      { segment.rollbackPendingMetadata with healthy := healthy, dirty := dirty } records =
      committed := by
    simp only [keptRecords, rollbackPendingMetadata, count, rest]
  rw [SafeAfter, kept]
  exact (live.rollback.setFlags healthy dirty).safe

theorem syncCommitSlot_safe (io : SyncIo) : SafeAfter records (segment.syncCommitSlot io) := by
  fun_cases syncCommitSlot segment io with
  | case3 => exact (live.sync.setFlags segment.healthy false).safeAfter_committed
  | _ => exact (live.setFlags false segment.dirty).safeAfter_indeterminate _

theorem publishCommit_safe (sync : SegmentCommitSync) (io : CommitIo)
    (publishable : commit.commitGeneration =
        (segment.persisted.commit.commitGeneration + 1) % 2 ^ 64 →
      commit.commitGeneration ≠ 0 → io.before = .ok () → Publishable segment records commit) :
    SafeAfter records (segment.publishCommit commit sync io) := by
  have refused : ∀ error, SafeAfter records
      (.notCommitted error, segment.rollbackPendingMetadata) :=
    fun error => live.safeAfter_rollback error segment.healthy segment.dirty
  unfold publishCommit
  split
  · exact refused _
  next encoded encodes =>
  split
  · exact refused _
  next generation =>
  simp only [ne_eq, not_not] at generation
  obtain ⟨valid, rfl⟩ := encodeSegmentCommitSlot_ok encodes
  split
  · exact refused _
  next allowed =>
  have ready := publishable generation (validateCommit_ok_iff.mp valid).1 allowed
  cases io.write with
  | done =>
    have adopted := ready.adopt live
    simp only [writeAllAt]
    cases sync with
    | deferred => exact (adopted.setFlags segment.healthy true).safeAfter_committed
    | immediate => exact adopted.syncCommitSlot_safe io.sync
  | failed written error =>
    exact .inr ⟨rfl, rfl, records, List.prefix_refl _, ready.write live written⟩

theorem syncFile_safe (io : SyncIo) : SafeAfter records (segment.syncFile io) := by
  fun_cases syncFile segment io with
  | case1 => exact live.safeAfter_indeterminate _
  | case2 => exact live.safeAfter_committed
  | case3 => exact live.syncCommitSlot_safe io

theorem publishable_synced
    (positive : (segment.persisted.commit.commitGeneration + 1) % 2 ^ 64 ≠ 0) :
    Publishable { segment with file := segment.file.sync } records
      { segment.selected.commit with
        commitGeneration := (segment.persisted.commit.commitGeneration + 1) % 2 ^ 64 } where
  generation := by
    have bound := live.newest.bounded
    simp only
    omega
  bounded := by
    simp only
    omega
  describes :=
    ⟨live.selected.ending, live.selected.count, live.selected.first, live.selected.last,
      live.selected.ascending⟩
  extent := live.selectedEnd
  durable := live.visible
  beyond := by simp [File.sync]
  clear := by simp [File.sync]

theorem flushPendingCommit_safe (sync : SegmentCommitSync) (io : FlushIo) :
    SafeAfter records (segment.flushPendingCommit sync io) := by
  fun_cases flushPendingCommit segment sync io with
  | case1 => exact live.syncFile_safe _
  | case2 => exact live.safeAfter_committed
  | case3 => exact live.safeAfter_rollback _ segment.healthy segment.dirty
  | case4 => exact live.safeAfter_rollback _ false segment.dirty
  | case5 =>
    exact live.sync.publishCommit_safe _ _ fun _ positive _ => live.publishable_synced positive

theorem writeData (data : Bytes) (done : Nat)
    (behind : segment.selected.commit.committedEnd ≤ start) (healthy : Bool) :
    Live { segment with file := segment.file.write start data done, healthy := healthy }
      records committed := by
  have ending := live.selected.ending
  have room : kSegmentHeaderReservedBytes + (extentBytes committed).length ≤ start := by
    obtain ⟨later, rfl⟩ := live.inside
    rw [extentBytes_append, List.length_append] at ending
    omega
  have untouched : ∀ from' count, from' + count ≤ start →
      read (overwrite segment.file.visible start (data.take done)) from' count =
        read segment.file.visible from' count :=
    fun from' count below => read_overwrite_of_disjoint (.inl below)
  have slot : ∀ index < kSegmentCommitSlotCount,
      slotOffset index + kSegmentCommitSlotBytes ≤ start := by
    intro index bound
    have inside := slotOffset_count
    have fits := (slotOffset_spec bound).2
    omega
  have slots : ∀ index < kSegmentCommitSlotCount,
      slotBytes (overwrite segment.file.visible start (data.take done)) index =
        slotBytes segment.file.visible index :=
    fun index bound => untouched _ _ (slot index bound)
  refine ⟨?_, live.settled.write _ _ _, live.inside, live.selected, live.selectedEnd, ?_,
    live.slotIndex, ?_, live.persisted, ?_, live.pending⟩
  · refine ⟨live.recoverable.identityValid, live.recoverable.block, live.recoverable.reserved,
      live.recoverable.extent, ?_, live.recoverable.durableSlots, ?_, ?_⟩
    · intro write member
      rcases List.mem_append.mp member with old | new
      · exact live.recoverable.writes write old
      · rw [List.mem_singleton.mp new]
        exact .inr room
    · intro index bound bytes member
      rcases List.mem_append.mp member with old | new
      · exact live.recoverable.unsyncedSlots index bound bytes old
      · obtain ⟨same, -⟩ := Write.mk.inj (List.mem_singleton.mp new)
        have fits := slot index bound
        simp only [kSegmentCommitSlotBytes] at fits
        omega
    · obtain ⟨index, bound, clear, commit, names, newest⟩ := live.recoverable.anchor
      refine ⟨index, bound, ?_, commit, names, newest⟩
      intro write member
      rcases List.mem_append.mp member with old | new
      · exact clear write old
      · rw [List.mem_singleton.mp new]
        exact .inl (slot index bound)
  · refine (untouched _ _ ?_).trans live.visible
    omega
  · simp only [File.write]
    rw [slots _ live.slotIndex]
    exact live.newest
  · have next := live.nextSlot_spec.1
    simp only [File.write, nextSlot] at next ⊢
    rw [slots _ next]
    exact live.other

theorem writeChunks_live (io : AppendIo) (behind : segment.selected.commit.committedEnd ≤ start) :
    Live (writeChunks io segment start chunk data).2 records committed := by
  fun_induction writeChunks io segment start chunk data with
  | case1 => exact live
  | case2 => exact live
  | case3 => exact live
  | case4 segment start chunk data filled granted grant fits error file written =>
    obtain ⟨done, rfl⟩ := writeAllAt_file written
    exact live.writeData _ done behind false
  | case5 segment start chunk data filled granted grant fits file written ih =>
    obtain ⟨done, rfl⟩ := writeAllAt_file written
    exact ih (live.writeData _ done behind segment.healthy) (by simp only; omega)

omit live in
theorem firstSequenceOf_append (record : StoredRecord) :
    firstSequenceOf (records ++ [record]) =
      if records.length = 0 then record.view.sequence else firstSequenceOf records := by
  cases records <;> rfl

theorem noteAppended (record : StoredRecord)
    (later : lastSequenceFrom 0 records < record.view.sequence)
    (room : segment.selected.commit.committedEnd + record.bytes.length ≤ kSegmentSizeBytes)
    (stored : read segment.file.visible segment.selected.commit.committedEnd
      record.bytes.length = record.bytes) :
    Live (segment.noteAppended record.view record.bytes.length) (records ++ [record])
      committed where
  recoverable := live.recoverable
  settled := live.settled
  inside := live.inside.trans (List.prefix_append _ _)
  selected :=
    { ending := by
        simp only [DurableSegmentFile.noteAppended, live.selected.ending, extentBytes_append,
          extentBytes_cons, extentBytes_nil, List.append_nil, List.length_append]
        omega
      count := by simp [DurableSegmentFile.noteAppended, live.selected.count]
      first := by
        simp only [DurableSegmentFile.noteAppended, live.selected.count, live.selected.first,
          firstSequenceOf_append]
      last := by
        simp [DurableSegmentFile.noteAppended, lastSequenceFrom_append, lastSequenceFrom]
      ascending := ascending_append.mpr
        ⟨live.selected.ascending, ascending_cons.mpr ⟨later, ascending_nil _⟩⟩ }
  selectedEnd := room
  visible := by
    simp only [DurableSegmentFile.noteAppended, extentBytes_append, extentBytes_cons,
      extentBytes_nil, List.append_nil, List.length_append]
    rw [read_add, live.visible, ← live.selected.ending, stored]
  slotIndex := live.slotIndex
  newest := live.newest
  persisted := live.persisted
  other := live.other
  pending := by simp [DurableSegmentFile.noteAppended]

theorem appendRecord_spec (io : AppendIo)
    (exact : ∀ view, decodeRecord bytes = .ok view → bytes.length = view.encodedSize) :
    (∃ record : StoredRecord, record.bytes = bytes ∧
      (segment.appendRecord bytes io).1 = .committed ∧
      Live (segment.appendRecord bytes io).2 (records ++ [record]) committed) ∨
    ((segment.appendRecord bytes io).1 ≠ .committed ∧
      SafeAfter records (segment.appendRecord bytes io)) := by
  have written : Live (writeChunks io segment
      segment.selected.commit.committedEnd 0 bytes).2 records committed :=
    live.writeChunks_live io (Nat.le_refl _)
  have selected := (writeChunks_frame io segment
    segment.selected.commit.committedEnd 0 bytes).1
  fun_cases appendRecord segment bytes io with
  | case1 => exact .inr ⟨by simp, live.safeAfter_indeterminate _⟩
  | case9 _ _ _ view decoded increasing _ _ _ failure after outcome =>
    rw [outcome] at written
    obtain ⟨error, rfl⟩ := writeChunks_failure (congrArg Prod.fst outcome)
    exact .inr ⟨by simp, written.safeAfter_refused error⟩
  | case10 _ _ _ view decoded increasing _ fits _ after outcome =>
    have stored := writeChunks_written (congrArg Prod.fst outcome)
    rw [outcome] at written selected stored
    have later : lastSequenceFrom 0 records < view.sequence := by
      have none : segment.selected.commit.recordCount = 0 →
          segment.selected.commit.lastSequence = 0 := by
        intro empty
        rw [live.selected.count] at empty
        rw [live.selected.last, List.length_eq_zero_iff.mp empty]
        rfl
      rw [← live.selected.last]
      omega
    have room : segment.selected.commit.committedEnd + bytes.length ≤ kSegmentSizeBytes := by
      have bound := live.selectedEnd
      omega
    rw [← show after.selected = segment.selected from selected] at stored room
    exact .inl ⟨_, rfl, rfl, written.noteAppended ⟨bytes, view, decoded, exact view decoded⟩ later
      room stored⟩
  | _ => exact .inr ⟨by simp, live.safeAfter_refused _⟩

theorem flushPendingCommit_immediate {io : FlushIo}
    {after : DurableSegmentFile} (pending : segment.hasPendingCommit = true)
    (flushed : segment.flushPendingCommit .immediate io = (.committed, after)) :
    Live after records records ∧ after.file.outstanding = [] := by
  unfold flushPendingCommit at flushed
  rw [if_neg (by simp [pending])] at flushed
  split at flushed
  · simp at flushed
  split at flushed
  · simp at flushed
  unfold publishCommit at flushed
  simp only at flushed
  split at flushed
  · simp at flushed
  next encoded encodes =>
  split at flushed
  · simp at flushed
  split at flushed
  · simp at flushed
  obtain ⟨valid, rfl⟩ := encodeSegmentCommitSlot_ok encodes
  have ready := live.publishable_synced (validateCommit_ok_iff.mp valid).1
  split at flushed
  · simp at flushed
  next file written =>
  obtain rfl := writeAllAt_ok written
  have adopted := (ready.adopt live.sync).sync
  unfold syncCommitSlot at flushed
  split at flushed
  · simp at flushed
  split at flushed
  · simp at flushed
  obtain rfl := (Prod.mk.inj flushed).2
  exact ⟨adopted.setFlags segment.healthy false, rfl⟩

end Live

/-- A seal can be published over committed records once the newest slot is out
of reach of the unsynced writes. -/
theorem publishSeal_safe (live : Live segment records records) (io : CommitIo)
    (clear : io.before = .ok () → ∀ write ∈ segment.file.outstanding,
      write.start ≠ slotOffset segment.persisted.slotIndex) :
    SafeAfter records (segment.publishSeal io) := by
  refine live.publishCommit_safe _ _ fun generation positive allowed => ?_
  have bound := live.newest.bounded
  refine ⟨?_, ?_, ?_, live.selectedEnd, live.recoverable.extent, live.recoverable.writes, ?_⟩
  · omega
  · rw [generation]
    omega
  · exact ⟨live.selected.ending, live.selected.count, live.selected.first, live.selected.last,
      live.selected.ascending⟩
  · intro write member
    rcases live.recoverable.writes write member with ⟨index, _, start, length⟩ | beyond
    · have different : index ≠ segment.persisted.slotIndex := by
        rintro rfl
        exact clear allowed write member start
      simp only [Write.Avoids, start, length]
      exact slotOffset_apart different.symm
    · have inside := slotOffset_count
      have slot := (slotOffset_spec live.slotIndex).2
      left
      omega

end Live

end GlifiStore
