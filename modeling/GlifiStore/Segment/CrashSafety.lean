import GlifiStore.Lib.Runs
import GlifiStore.Segment.Fresh
import GlifiStore.Segment.HeaderCanonical
import GlifiStore.Segment.Operations

/-!
# Crash safety of the commit slots

Whatever a crash leaves of the unsynced writes, opening the file selects a slot
at least as new as every durable one, and the extent it names is a prefix of
the appended records, provided no seal overwrites the only durable slot.
-/

namespace GlifiStore

open ByteLayout CrashFile DurableSegmentFile StoredRecord

/-! ## Runs -/

/-- The operations on an open Segment file. `poison` is the loss of the shared
directory health by another owner. -/
inductive SegmentOperation where
  | appendRecord (bytes : Bytes) (io : AppendIo)
  | append (bytes : Bytes) (sync : SegmentCommitSync) (appendIo : AppendIo) (flushIo : FlushIo)
  | flushPendingCommit (sync : SegmentCommitSync) (io : FlushIo)
  | syncFile (io : SyncIo)
  | sealFile (io : SealIo)
  | poison

namespace SegmentOperation

variable (segment : DurableSegmentFile)

def perform : SegmentOperation → SegmentCommitResult × DurableSegmentFile
  | .appendRecord bytes io => segment.appendRecord bytes io
  | .append bytes sync appendIo flushIo => segment.append bytes sync appendIo flushIo
  | .flushPendingCommit sync io => segment.flushPendingCommit sync io
  | .syncFile io => segment.syncFile io
  | .sealFile io => segment.sealFile io
  | .poison => (.committed, segment.poison)

/-- The record that an append accepted, if any. -/
def acceptedRecord (bytes : Bytes) (io : AppendIo) : List RecordView :=
  match (segment.appendRecord bytes io).1, decodeRecord bytes with
  | .committed, .ok view => [view]
  | _, _ => []

def accepted : SegmentOperation → List RecordView
  | .appendRecord bytes io => acceptedRecord segment bytes io
  | .append bytes _ appendIo _ => acceptedRecord segment bytes appendIo
  | _ => []

/-- One operation on a file, together with the records appended so far. -/
def track (state : DurableSegmentFile × List RecordView) (operation : SegmentOperation) :
    DurableSegmentFile × List RecordView :=
  let step := operation.perform state.1
  (step.2, keptRecords step.1 step.2 (state.2 ++ operation.accepted state.1))

/-- A seal that overwrites a slot while the newest one is not durable: nothing
is pending, so it syncs nothing before it writes. -/
def OverwritesDurableSlot (io : SealIo) : Prop :=
  segment.healthy = true ∧ segment.writable = true ∧ segment.selected.commit.state = .active ∧
  segment.selected.commit.commitGeneration ≠ kUInt64Max ∧ segment.hasPendingCommit = false ∧
  io.commit.before = .ok () ∧
  ∃ write ∈ segment.file.outstanding, write.start = slotOffset segment.persisted.slotIndex

/-- The condition on a step: an appended span is exactly one record, and a seal
does not overwrite the only durable slot. -/
def Guard (state : DurableSegmentFile × List RecordView) : SegmentOperation → Prop
  | .appendRecord bytes _ => ∀ view, decodeRecord bytes = .ok view → bytes.length = view.encodedSize
  | .append bytes _ _ _ => ∀ view, decodeRecord bytes = .ok view → bytes.length = view.encodedSize
  | .sealFile io => ¬ OverwritesDurableSlot state.1 io
  | _ => True

end SegmentOperation

open SegmentOperation

variable {state : DurableSegmentFile × List RecordView}

section Steps

variable {segment : DurableSegmentFile} {records committed : List StoredRecord}

def SafeViews (state : DurableSegmentFile × List RecordView) : Prop :=
  ∃ records : List StoredRecord, state.2 = records.map view ∧ Safe state.1 records

theorem safeViews_of_safeAfter {step : SegmentCommitResult × DurableSegmentFile}
    (after : SafeAfter records step) :
    SafeViews (step.2, keptRecords step.1 step.2 (records.map view)) := by
  refine ⟨_, ?_, after⟩
  unfold keptRecords
  split
  · exact List.map_take.symm
  · rfl

variable {bytes : Bytes} {io : AppendIo}

theorem acceptedRecord_of_refused (refused : (segment.appendRecord bytes io).1 ≠ .committed) :
    acceptedRecord segment bytes io = [] := by
  unfold acceptedRecord
  split
  · next committed _ => exact absurd committed refused
  · rfl

theorem acceptedRecord_of_committed {record : StoredRecord}
    (committed : (segment.appendRecord record.bytes io).1 = .committed) :
    acceptedRecord segment record.bytes io = [record.view] := by
  simp only [acceptedRecord, committed, record.decoded]

theorem perform_of_drained (poisoned : segment.healthy = false)
    (drained : segment.pendingRecordCount = 0) (operation : SegmentOperation) :
    (operation.perform segment).2 = segment ∧
      ∀ error, (operation.perform segment).1 ≠ .notCommitted error := by
  have idle : segment.hasPendingCommit = false := by
    simp [hasPendingCommit, drained]
  have refused : ∀ bytes io, segment.appendRecord bytes io =
      (.indeterminate ⟨.ioError, "Segment file is poisoned"⟩, segment) := by
    intro bytes io
    simp [DurableSegmentFile.appendRecord, poisoned]
  have unsynced : ∀ io, segment.syncFile io =
      (.indeterminate ⟨.ioError, "Segment file is poisoned"⟩, segment) := by
    intro io
    simp [DurableSegmentFile.syncFile, poisoned]
  cases operation with
  | appendRecord bytes io => simp [perform, refused]
  | append bytes sync appendIo flushIo =>
    simp [perform, DurableSegmentFile.append, refused]
  | flushPendingCommit sync io =>
    simp only [perform, DurableSegmentFile.flushPendingCommit, idle, unsynced]
    by_cases dirty : segment.dirty ∧ sync = .immediate <;> simp [dirty]
  | syncFile io => simp [perform, unsynced]
  | sealFile io => simp [perform, DurableSegmentFile.sealFile, poisoned]
  | poison =>
    refine ⟨?_, by simp [perform]⟩
    simp only [perform, DurableSegmentFile.poison, ← poisoned]

theorem Dead.track (dead : Dead segment records) (operation : SegmentOperation) :
    SafeViews (operation.track (segment, records.map view)) := by
  obtain ⟨unchanged, known⟩ := perform_of_drained dead.poisoned dead.drained operation
  have refused : ∀ bytes io, acceptedRecord segment bytes io = [] := by
    intro bytes io
    apply acceptedRecord_of_refused
    simp [DurableSegmentFile.appendRecord, dead.poisoned]
  have nothing : operation.accepted segment = [] := by
    cases operation <;> simp [accepted, refused]
  have kept : keptRecords (operation.perform segment).1 (operation.perform segment).2
      (records.map view) = records.map view := by
    unfold keptRecords
    split
    · next error notCommitted => exact absurd notCommitted (known error)
    · rfl
  refine ⟨records, ?_, .inr ?_⟩
  · simp only [SegmentOperation.track, nothing, List.append_nil]
    exact kept
  · simp only [SegmentOperation.track]
    rw [unchanged]
    exact dead

theorem Live.trackAppend (live : Live segment records committed) (io : AppendIo)
    (exact : ∀ view, decodeRecord bytes = .ok view → bytes.length = view.encodedSize)
    (next : DurableSegmentFile → SegmentCommitResult × DurableSegmentFile)
    (nextSafe : ∀ after appended, Live after appended committed → SafeAfter appended (next after)) :
    SafeViews
      (match segment.appendRecord bytes io with
      | (.committed, appended) =>
        ((next appended).2, keptRecords (next appended).1 (next appended).2
          (records.map view ++
            acceptedRecord segment bytes io))
      | (result, after) => (after, keptRecords result after
          (records.map view ++
            acceptedRecord segment bytes io))) := by
  rcases live.appendRecord_spec io exact with ⟨record, rfl, committed, appended⟩ | ⟨refused, after⟩
  · rw [acceptedRecord_of_committed committed]
    generalize segment.appendRecord record.bytes io = outcome at *
    obtain ⟨result, final⟩ := outcome
    simp only at committed appended
    subst committed
    have added : records.map view ++ [record.view] =
        (records ++ [record]).map view := by simp
    simp only [added]
    exact safeViews_of_safeAfter (nextSafe final _ appended)
  · rw [acceptedRecord_of_refused refused, List.append_nil]
    generalize segment.appendRecord bytes io = outcome at *
    obtain ⟨result, final⟩ := outcome
    have views := safeViews_of_safeAfter after
    cases result with
    | committed => exact absurd rfl refused
    | notCommitted error => exact views
    | indeterminate error => exact views

theorem Live.sealFile_safe (live : Live segment records committed) (io : SealIo)
    (guard : ¬ SegmentOperation.OverwritesDurableSlot segment io) :
    SafeAfter records (segment.sealFile io) := by
  fun_cases DurableSegmentFile.sealFile segment io with
  | case1 => exact live.safeAfter_indeterminate _
  | case2 | case3 | case4 => exact live.safeAfter_refused _
  | case5 _ _ _ _ pending after outcome =>
    obtain ⟨synced, nothing⟩ := live.flushPendingCommit_immediate pending outcome
    exact synced.publishSeal_safe _ (by simp [nothing])
  | case6 => exact live.flushPendingCommit_safe .immediate io.flush
  | case7 healthy writable unsealed generation idle =>
    have active : segment.selected.commit.state = .active := by
      cases state : segment.selected.commit.state with
      | active => rfl
      | sealed => exact absurd state unsealed
    have drained : segment.pendingRecordCount = 0 := by
      simpa [hasPendingCommit] using idle
    obtain rfl := live.pending drained
    refine live.publishSeal_safe _ fun allowed write member start => guard ?_
    exact ⟨by simpa using healthy, by simpa using writable, active, generation, by simpa using idle,
      allowed, write, member, start⟩

theorem SafeViews.track (safe : SafeViews state) {operation : SegmentOperation}
    (guard : operation.Guard state) :
    SafeViews (operation.track state) := by
  obtain ⟨segment, appended⟩ := state
  obtain ⟨records, rfl, ⟨committed, live⟩ | dead⟩ := safe
  · have kept {step} (after : SafeAfter records step) :
        SafeViews (step.2, keptRecords step.1 step.2 (records.map view ++ [])) := by
      rw [List.append_nil]
      exact safeViews_of_safeAfter after
    cases operation with
    | appendRecord bytes io =>
      have tracked := live.trackAppend io guard (fun after => (.committed, after))
        (fun after appended live => live.safeAfter_committed)
      simp only [SegmentOperation.track, perform, accepted]
      generalize segment.appendRecord bytes io = outcome at *
      obtain ⟨result, final⟩ := outcome
      cases result <;> exact tracked
    | append bytes sync appendIo flushIo =>
      have tracked := live.trackAppend appendIo guard (fun after => after.flushPendingCommit sync flushIo)
        (fun after appended live => live.flushPendingCommit_safe sync flushIo)
      simp only [SegmentOperation.track, perform, accepted, DurableSegmentFile.append]
      generalize segment.appendRecord bytes appendIo = outcome at *
      obtain ⟨result, final⟩ := outcome
      cases result <;> exact tracked
    | flushPendingCommit sync io => exact kept (live.flushPendingCommit_safe sync io)
    | syncFile io => exact kept (live.syncFile_safe io)
    | sealFile io => exact kept (live.sealFile_safe io guard)
    | poison => exact kept (live.setFlags false segment.dirty).safeAfter_committed
  · exact dead.track operation

end Steps

/-! ## A sample file -/

def sampleInput : RecordInput :=
  ⟨1, .put, .bytes, 0, 0, 0, [1], [2], one_fits8, zero_fits4, zero_fits8, zero_fits8⟩

def sampleRecord : Bytes :=
  match encodeRecord sampleInput with
  | .ok bytes => bytes
  | .error _ => []

def sampleFile : DurableSegmentFile :=
  opened
    (overwrite (fun _ => 0) 0
      (blit (identityBytes sampleIdentity) (slotOffset 0) (commitSlotBytes initialCommit)))
    sampleIdentity ⟨0, initialCommit⟩ true

theorem sampleFile_created : create sampleIdentity = .ok sampleFile := by
  have valid : validateIdentity sampleIdentity = .ok () := by decide
  have initial : encodeSegmentCommitSlot initialCommit = .ok (commitSlotBytes initialCommit) := rfl
  simp only [create, encodeSegmentHeader, valid, encodeSlots, initial]
  rfl

theorem sampleRecord_spec :
    encodeRecord sampleInput = .ok sampleRecord ∧ sampleRecord.length = 64 := by
  obtain ⟨bytes, encoded, length⟩ :=
    exists_encodeRecord (show encodedRecordSize sampleInput = .ok 64 by decide)
  simp only [sampleRecord, encoded, length, and_self]

theorem length_sampleRecord : sampleRecord.length = 64 := sampleRecord_spec.2

theorem sampleRecord_decoded : decodeRecord sampleRecord = .ok (sampleInput.view 64) := by
  have decoded := decodeRecord_encodeRecord sampleRecord_spec.1
  rwa [length_sampleRecord] at decoded

def deferredRun : List SegmentOperation :=
  [.appendRecord sampleRecord .done, .flushPendingCommit .deferred .done]

theorem deferredRun_guarded :
    Runs.Guarded SegmentOperation.track SegmentOperation.Guard (sampleFile, []) deferredRun := by
  refine ⟨?_, trivial, trivial⟩
  intro view decoded
  obtain rfl := Except.ok.inj (sampleRecord_decoded.symm.trans decoded)
  exact length_sampleRecord

/-! ## Every crash of every run -/

theorem SafeViews.recoversPrefix (safe : SafeViews state) {image : Image UInt8}
    (survives : state.1.file.Survives image) (unforged : Unforged state.1.file image) :
    RecoversPrefix state.1 state.2 image := by
  obtain ⟨segment, appended⟩ := state
  obtain ⟨records, rfl, ⟨committed, live⟩ | dead⟩ := safe
  · exact live.recoverable.recoversPrefix segment survives unforged (live.inside.map _)
  · obtain ⟨committed, inside, recoverable⟩ := dead.recoverable
    exact recoverable.recoversPrefix segment survives unforged (inside.map _)

/-- Commit-slot crash safety: after every run from a fresh file in which each
appended span is exactly one record and no seal overwrites the only durable
slot, every crash that forges no slot leaves a file that opens on a commit at
least as new as every durable one and scans to a prefix of the appended
records. -/
theorem segment_crash_safe {identity : SegmentHeaderIdentity} {segment : DurableSegmentFile}
    (created : DurableSegmentFile.create identity = .ok segment)
    {operations : List SegmentOperation}
    (guarded : Runs.Guarded SegmentOperation.track SegmentOperation.Guard (segment, []) operations)
    {image : Image UInt8}
    (survives : (Runs.run SegmentOperation.track (segment, []) operations).1.file.Survives image)
    (unforged : Unforged (Runs.run SegmentOperation.track (segment, []) operations).1.file image) :
    RecoversPrefix (Runs.run SegmentOperation.track (segment, []) operations).1
      (Runs.run SegmentOperation.track (segment, []) operations).2 image := by
  have initial : SafeViews (segment, []) := ⟨[], rfl, (live_create created).safe⟩
  have safe : SafeViews (Runs.run SegmentOperation.track (segment, []) operations) :=
    guarded.invariant (fun _ _ safe guard => safe.track guard) initial
  exact safe.recoversPrefix survives unforged

theorem segment_crash_safe_deferred :
    RecoversPrefix (Runs.run SegmentOperation.track (sampleFile, []) deferredRun).1
      (Runs.run SegmentOperation.track (sampleFile, []) deferredRun).2
      (Runs.run SegmentOperation.track (sampleFile, []) deferredRun).1.file.durable :=
  segment_crash_safe sampleFile_created deferredRun_guarded (fun _ _ => rfl)
    (fun _ _ => .inl rfl)

/-! ## A seal over the only durable slot -/

/-- A file whose two slots are both covered by unsynced writes may be left
without any valid slot. -/
theorem no_slot_survives {file : File UInt8}
    (covered : ∀ i, slotOffset 0 ≤ i → i < slotOffset kSegmentCommitSlotCount →
      ∃ write ∈ file.outstanding, write.Covers i) :
    ∃ image, file.Survives image ∧ Unforged file image ∧
      ∀ identity writable segment, openFile image identity writable ≠ .ok segment := by
  let image : Image UInt8 := fun i =>
    if slotOffset 0 ≤ i ∧ i < slotOffset kSegmentCommitSlotCount then 0 else file.durable i
  have empty : ∀ index < kSegmentCommitSlotCount,
      decodeSegmentCommitSlot (slotBytes image index) = .ok .empty := by
    intro index bound
    have slot := slotOffset_spec bound
    have first : slotOffset 0 = kSegmentImmutableHeaderBytes := rfl
    have zeroed : slotBytes image index =
        read (fun _ => 0) (slotOffset index) kSegmentCommitSlotBytes :=
      read_congr fun i low high => if_pos ⟨by omega, by omega⟩
    rw [zeroed, read_const]
    exact decodeSegmentCommitSlot_zero
  refine ⟨image, fun i uncovered => if_neg fun inside => ?_,
    fun index bound => .inr (.inr (.inl (empty index bound))), ?_⟩
  · obtain ⟨write, member, covers⟩ := covered i inside.1 inside.2
    exact uncovered write member covers
  · intro identity writable segment opened
    obtain ⟨header, selected, decoded, -, chosen, -⟩ := openFile_ok_iff.mp opened
    obtain ⟨left, right, slots, first, second⟩ := decodeSegmentHeader_slots decoded
    rw [slice_read (by decide), Nat.zero_add] at first second
    cases (empty 0 (by decide)).symm.trans first
    cases (empty 1 (by decide)).symm.trans second
    rw [selectNewestSegmentCommit, slots] at chosen
    cases chosen

/-- A seal whose slot write is issued but never synced. -/
def interruptedSeal : SealIo :=
  ⟨.done, ⟨.ok (), .done, ⟨.ok (), .error ⟨.ioError, "power loss"⟩⟩⟩⟩

/-- A deferred commit followed by a seal leaves both slots unsynced: a crash
that tears both leaves no valid slot, although the first one had been synced. -/
theorem interruptedSeal_loses_slots : DurableSegmentFile.create sampleIdentity = .ok sampleFile ∧
    let final := Runs.run SegmentOperation.track (sampleFile, [])
      (deferredRun ++ [.sealFile interruptedSeal])
    ∃ image, final.1.file.Survives image ∧ Unforged final.1.file image ∧
      ¬ RecoversPrefix final.1 final.2 image := by
  refine ⟨sampleFile_created, ?_⟩
  intro final
  have unsynced : final.1.file.outstanding.map (fun write => (write.start, write.data.length)) =
      [(slotOffset 1, kSegmentCommitSlotBytes), (slotOffset 0, kSegmentCommitSlotBytes)] := by
    decide +kernel
  have covered : ∀ i, slotOffset 0 ≤ i → i < slotOffset kSegmentCommitSlotCount →
      ∃ write ∈ final.1.file.outstanding, write.Covers i := by
    intro i low high
    have written : ∀ index < 2, ∃ write ∈ final.1.file.outstanding,
        (write.start, write.data.length) = (slotOffset index, kSegmentCommitSlotBytes) := by
      simp only [← List.mem_map, unsynced]
      decide
    obtain ⟨index, bound, inside⟩ : ∃ index < 2, slotOffset index ≤ i ∧
        i < slotOffset index + kSegmentCommitSlotBytes := by
      by_cases first : i < slotOffset 1
      · exact ⟨0, by decide, low, first⟩
      · exact ⟨1, by decide, Nat.le_of_not_lt first, high⟩
    obtain ⟨write, member, same⟩ := written index bound
    obtain ⟨start, length⟩ := Prod.mk.inj same
    exact ⟨write, member, by rwa [Write.Covers, start, length]⟩
  obtain ⟨image, survives, unforged, closed⟩ := no_slot_survives covered
  exact ⟨image, survives, unforged, fun ⟨opened, success, _⟩ => closed _ _ _ success⟩

end GlifiStore
