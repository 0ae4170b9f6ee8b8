import GlifiStore.Segment.CrashSafety

/-!
# Scanning what was appended

`append_record` advances the extent by the length of the span it is given, but
decodes only the record at its front. A committed extent scans to the appended
spans exactly when each of them is its record and nothing more.
-/

namespace GlifiStore

open ByteLayout CrashFile DurableSegmentFile SegmentOperation StoredRecord

/-! ## Appended spans -/

/-- A span that `append_record` may take, with the record at its front. -/
structure AppendedSpan where
  bytes : Bytes
  view : RecordView
  decoded : decodeRecord bytes = .ok view

namespace AppendedSpan

/-- The span holds nothing behind its record. -/
def Exact (span : AppendedSpan) : Prop :=
  span.bytes.length = span.view.encodedSize

/-- What a scan should report: the record and the bytes that were appended. -/
def entry (span : AppendedSpan) : RecordView × Bytes :=
  (span.view, span.bytes)

theorem entry_injective : Function.Injective entry := by
  rintro ⟨bytes, view, _⟩ ⟨otherBytes, otherView, _⟩ same
  obtain ⟨rfl, rfl⟩ := Prod.mk.inj same
  rfl

end AppendedSpan

def StoredRecord.span (record : StoredRecord) : AppendedSpan :=
  ⟨record.bytes, record.view, record.decoded⟩

variable (segment : DurableSegmentFile)

/-- The records that a scan visits, each with the bytes under its reference. -/
def scanned : Result (List (RecordView × Bytes)) :=
  segment.visitCommittedRecords
    (fun found reference record =>
      .ok (found ++ [(record, read segment.file.visible reference.offset reference.size)])) []

variable (spans : List AppendedSpan)

def spanBytes : Bytes :=
  spans.flatMap AppendedSpan.bytes

theorem spanBytes_append (span : AppendedSpan) :
    spanBytes (spans ++ [span]) = spanBytes spans ++ span.bytes := by
  simp [spanBytes]

def spanSequences : List Nat :=
  spans.map fun span => span.view.sequence

/-- A commit whose metadata is that of the given spans. -/
structure SegmentCommit.Covers (commit : SegmentCommit) (spans : List AppendedSpan) : Prop where
  ending : commit.committedEnd = kSegmentHeaderReservedBytes + (spanBytes spans).length
  count : commit.recordCount = spans.length
  first : commit.firstSequence = (spanSequences spans).head?.getD 0
  last : commit.lastSequence = (spanSequences spans).getLast?.getD 0
  ascending : List.IsChain (· < ·) (0 :: spanSequences spans)

theorem SegmentCommit.Covers.restamp {commit : SegmentCommit} {spans : List AppendedSpan}
    (covers : commit.Covers spans) (generation : Nat) (state : PersistedSegmentState) :
    SegmentCommit.Covers { commit with commitGeneration := generation, state := state } spans :=
  ⟨covers.ending, covers.count, covers.first, covers.last, covers.ascending⟩

theorem lastSequenceFrom_eq (previous : Nat) (records : List StoredRecord) :
    lastSequenceFrom previous records =
      (records.map fun record => record.view.sequence).getLast?.getD previous := by
  induction records generalizing previous with
  | nil => rfl
  | cons record rest ih =>
    rw [lastSequenceFrom, ih, List.map_cons]
    cases rest with
    | nil => rfl
    | cons => simp [List.getLast?_cons]

variable (records : List StoredRecord)

theorem spanSequences_span :
    spanSequences (records.map span) =
      records.map fun record => record.view.sequence := by
  simp [spanSequences, span]

theorem spanBytes_span : spanBytes (records.map span) = extentBytes records := by
  simp [spanBytes, extentBytes, List.flatMap_map, span]

theorem SegmentCommit.covers_span_iff {commit : SegmentCommit} {records : List StoredRecord} :
    commit.Covers (records.map span) ↔ commit.Describes records := by
  have first : (spanSequences (records.map span)).head?.getD 0 =
      firstSequenceOf records := by
    cases records <;> rfl
  have last : (spanSequences (records.map span)).getLast?.getD 0 =
      lastSequenceFrom 0 records := by
    rw [spanSequences_span, lastSequenceFrom_eq]
  have ascending : List.IsChain (· < ·) (0 :: spanSequences (records.map span)) ↔
      Ascending 0 records := by
    rw [spanSequences_span]
    rfl
  constructor
  · intro covers
    exact ⟨spanBytes_span records ▸ covers.ending, List.length_map span ▸ covers.count,
      first ▸ covers.first, last ▸ covers.last, ascending.mp covers.ascending⟩
  · intro describes
    exact ⟨(spanBytes_span records).symm ▸ describes.ending,
      (List.length_map span).symm ▸ describes.count, first ▸ describes.first,
      last ▸ describes.last, ascending.mpr describes.ascending⟩

theorem exists_records_of_exact {spans : List AppendedSpan} (exact : ∀ span ∈ spans, span.Exact) :
    ∃ records : List StoredRecord, records.map span = spans := by
  induction spans with
  | nil => exact ⟨[], rfl⟩
  | cons span rest ih =>
    obtain ⟨records, same⟩ := ih fun other member => exact other (List.mem_cons_of_mem _ member)
    exact ⟨⟨span.bytes, span.view, span.decoded, exact span List.mem_cons_self⟩ :: records,
      by rw [List.map_cons, same]; rfl⟩

/-! ## Scans of exact extents -/

theorem foldlM_collect {image : Image UInt8} {identity : SegmentHeaderIdentity} {cursor : Nat} (found : List (RecordView × Bytes))
    (content : read image (kSegmentHeaderReservedBytes + cursor) (extentBytes records).length =
      extentBytes records) :
    (located identity cursor records).foldlM (fun visited entry =>
        (.ok (visited ++ [(entry.2, read image entry.1.offset entry.1.size)]) : Result _)) found =
      .ok (found ++ records.map fun record => record.span.entry) := by
  induction records generalizing cursor found with
  | nil => simp [located, pure, Except.pure]
  | cons record rest ih =>
    rw [extentBytes_cons, List.length_append, read_add, Nat.add_assoc] at content
    obtain ⟨here, later⟩ := List.append_inj content (by rw [length_read])
    rw [located, List.foldlM_cons]
    simp only [here, bind, Except.bind]
    rw [ih _ later]
    simp [AppendedSpan.entry, span]

theorem scanned_extent {segment : DurableSegmentFile} {records : List StoredRecord}
    (healthy : segment.healthy = true) (describes : segment.persisted.commit.Describes records)
    (content : segment.committedBytes = extentBytes records) :
    scanned segment = .ok ((records.map span).map AppendedSpan.entry) := by
  have held : read segment.file.visible (kSegmentHeaderReservedBytes + 0)
      (extentBytes records).length = extentBytes records := by
    rw [← content, committedBytes, length_read, Nat.add_zero]
  rw [scanned, visitCommittedRecords_extent healthy describes content,
    foldlM_collect records [] held]
  simp

theorem exact_of_scanned {segment : DurableSegmentFile} {spans : List AppendedSpan}
    (valid : validateCommit segment.persisted.commit = .ok ())
    (success : scanned segment = .ok (spans.map AppendedSpan.entry)) :
    segment.healthy = true ∧ ∃ records : List StoredRecord, records.map span = spans ∧
      segment.persisted.commit.Describes records ∧ segment.committedBytes = extentBytes records := by
  obtain ⟨healthy, records, describes, content⟩ :=
    extent_of_visitCommittedRecords valid success
  have same := Except.ok.inj ((scanned_extent healthy describes content).symm.trans success)
  exact ⟨healthy, records, List.map_injective_iff.mpr AppendedSpan.entry_injective same, describes,
    content⟩

/-! ## The invariant -/

/-- The handle of a file that counts `spans`, of which `committed` are named by the
newest slot. -/
structure Scannable (segment : DurableSegmentFile) (spans committed : List AppendedSpan) : Prop where
  inside : committed <+: spans
  selected : segment.selected.commit.Covers spans
  persisted : segment.persisted.commit.Covers committed
  valid : validateCommit segment.persisted.commit = .ok ()
  visible : read segment.file.visible kSegmentHeaderReservedBytes (spanBytes spans).length =
    spanBytes spans
  pending : segment.pendingRecordCount = 0 → spans = committed

/-- The invariant after an operation: the kept spans are counted, or the file is
poisoned with nothing pending. -/
def ScannableAfter (step : SegmentCommitResult × DurableSegmentFile) : Prop :=
  (∃ committed, Scannable step.2 (keptRecords step.1 step.2 spans) committed) ∨
    ((∃ error, step.1 = .indeterminate error) ∧ step.2.healthy = false ∧
      step.2.pendingRecordCount = 0)

namespace Scannable

variable {segment : DurableSegmentFile} {spans committed : List AppendedSpan}

section Scan

variable (scan : Scannable segment spans committed)
include scan

theorem frame {after : DurableSegmentFile}
    (selected : after.selected = segment.selected) (persisted : after.persisted = segment.persisted)
    (pending : after.pendingRecordCount = segment.pendingRecordCount)
    (same : ∀ i, kSegmentHeaderReservedBytes ≤ i → i < segment.selected.commit.committedEnd →
      after.file.visible i = segment.file.visible i) : Scannable after spans committed where
  inside := scan.inside
  selected := selected ▸ scan.selected
  persisted := persisted ▸ scan.persisted
  valid := persisted ▸ scan.valid
  visible := by
    rw [← scan.visible, length_read]
    exact read_congr fun i low high => same i low (by rw [scan.selected.ending]; exact high)
  pending := pending ▸ scan.pending

theorem setFlags (healthy dirty : Bool) :
    Scannable { segment with healthy := healthy, dirty := dirty } spans committed :=
  scan.frame rfl rfl rfl fun _ _ _ => rfl

theorem refused (error : Error) : ScannableAfter spans (.notCommitted error, segment) := by
  have all : spans.take segment.selected.commit.recordCount = spans := by
    rw [scan.selected.count, List.take_length]
  exact .inl ⟨committed, by rwa [keptRecords, all]⟩

theorem rollback (error : Error) (healthy dirty : Bool) :
    ScannableAfter spans (.notCommitted error,
      { segment.rollbackPendingMetadata with healthy := healthy, dirty := dirty }) := by
  obtain ⟨later, rfl⟩ := scan.inside
  have kept : (committed ++ later).take segment.persisted.commit.recordCount = committed := by
    rw [scan.persisted.count, List.take_left]
  refine .inl ⟨committed, ?_⟩
  simp only [keptRecords, rollbackPendingMetadata, kept]
  refine ⟨List.prefix_refl _, ?_, scan.persisted, scan.valid, ?_, fun _ => rfl⟩
  · exact ⟨scan.persisted.ending, scan.persisted.count, scan.persisted.first, scan.persisted.last,
      scan.persisted.ascending⟩
  · have whole := scan.visible
    simp only [spanBytes, List.flatMap_append, List.length_append, read_add] at whole
    exact (List.append_inj whole (length_read _ _ _)).1

theorem syncCommitSlot (io : SyncIo) : ScannableAfter spans (segment.syncCommitSlot io) := by
  fun_cases DurableSegmentFile.syncCommitSlot segment io with
  | case3 => exact .inl ⟨committed, scan.frame rfl rfl rfl fun _ _ _ => rfl⟩
  | _ => exact .inl ⟨committed, scan.setFlags false segment.dirty⟩

theorem adopt {commit : SegmentCommit}
    (covers : commit.Covers spans) {encoded : Bytes} {write : WriteOutcome} {file : File UInt8}
    (encodes : encodeSegmentCommitSlot commit = .ok encoded)
    (written : writeAllAt segment.file (slotOffset segment.nextSlot) encoded write = (.ok (), file)) :
    Scannable (segment.adopt file commit) spans spans := by
  obtain ⟨valid, rfl⟩ := encodeSegmentCommitSlot_ok encodes
  obtain rfl := writeAllAt_ok written
  refine ⟨List.prefix_refl _, covers, covers, valid, ?_, fun _ => rfl⟩
  refine Eq.trans (read_overwrite_of_disjoint (.inr ?_)) scan.visible
  have bound : segment.nextSlot < kSegmentCommitSlotCount := Nat.mod_lt _ (by decide)
  have slot := (slotOffset_spec bound).2
  have reserved := slotOffset_count
  rw [List.take_length, length_commitSlotBytes]
  omega

theorem publishCommit {commit : SegmentCommit}
    (covers : commit.Covers spans) (sync : SegmentCommitSync) (io : CommitIo) :
    ScannableAfter spans (segment.publishCommit commit sync io) := by
  fun_cases DurableSegmentFile.publishCommit segment commit sync io with
  | case4 => exact .inr ⟨⟨_, rfl⟩, rfl, rfl⟩
  | case5 encoded encodes _ _ file written =>
    exact .inl ⟨spans, (scan.adopt covers encodes written).setFlags segment.healthy true⟩
  | case6 encoded encodes _ _ file written =>
    exact (scan.adopt covers encodes written).syncCommitSlot io.sync
  | _ => exact scan.rollback _ segment.healthy segment.dirty

theorem syncFile (io : SyncIo) : ScannableAfter spans (segment.syncFile io) := by
  fun_cases DurableSegmentFile.syncFile segment io with
  | case3 => exact scan.syncCommitSlot io
  | _ => exact .inl ⟨committed, scan⟩

theorem flushPendingCommit (sync : SegmentCommitSync)
    (io : FlushIo) : ScannableAfter spans (segment.flushPendingCommit sync io) := by
  fun_cases DurableSegmentFile.flushPendingCommit segment sync io with
  | case1 => exact scan.syncFile _
  | case2 => exact .inl ⟨committed, scan⟩
  | case3 => exact scan.rollback _ segment.healthy segment.dirty
  | case4 => exact scan.rollback _ false segment.dirty
  | case5 =>
    have synced : Scannable { segment with file := segment.file.sync } spans committed :=
      scan.frame rfl rfl rfl fun _ _ _ => rfl
    exact synced.publishCommit (scan.selected.restamp _ segment.selected.commit.state) _ _

theorem publishSeal (io : CommitIo) : ScannableAfter spans (segment.publishSeal io) :=
  scan.publishCommit (scan.selected.restamp _ .sealed) _ _

theorem sealFile (io : SealIo) : ScannableAfter spans (segment.sealFile io) := by
  have flushed := scan.flushPendingCommit .immediate io.flush
  fun_cases DurableSegmentFile.sealFile segment io with
  | case1 => exact .inl ⟨committed, scan⟩
  | case5 _ _ _ _ _ after outcome =>
    rw [outcome] at flushed
    obtain ⟨later, flushed⟩ | ⟨⟨error, impossible⟩, -⟩ := flushed
    · exact flushed.publishSeal io.commit
    · cases impossible
  | case6 => exact flushed
  | case7 => exact scan.publishSeal io.commit
  | _ => exact scan.refused _

theorem noteAppended (span : AppendedSpan)
    (later : segment.selected.commit.lastSequence < span.view.sequence)
    (stored : read segment.file.visible segment.selected.commit.committedEnd span.bytes.length =
      span.bytes) :
    Scannable (segment.noteAppended span.view span.bytes.length) (spans ++ [span]) committed where
  inside := scan.inside.trans (List.prefix_append _ _)
  selected :=
    { ending := by
        simp only [DurableSegmentFile.noteAppended, scan.selected.ending, spanBytes_append,
          List.length_append, Nat.add_assoc]
      count := by simp [DurableSegmentFile.noteAppended, scan.selected.count]
      first := by
        simp only [DurableSegmentFile.noteAppended, scan.selected.count, scan.selected.first]
        cases spans <;> rfl
      last := by simp [DurableSegmentFile.noteAppended, spanSequences]
      ascending := by
        rw [scan.selected.last] at later
        simp only [spanSequences, List.map_append, List.map_cons, List.map_nil, ← List.cons_append]
        refine List.isChain_append.mpr ⟨scan.selected.ascending, List.isChain_singleton _, ?_⟩
        intro previous isLast next isNext
        obtain rfl := Option.some.inj isNext
        rw [List.getLast?_cons] at isLast
        rw [← Option.some.inj isLast]
        exact later }
  persisted := scan.persisted
  valid := scan.valid
  visible := by
    simp only [DurableSegmentFile.noteAppended, spanBytes_append, List.length_append]
    rw [read_add, ← scan.selected.ending, stored, scan.visible]
  pending := by simp [DurableSegmentFile.noteAppended]

theorem appendRecord (bytes : Bytes) (io : AppendIo) :
    (∃ span : AppendedSpan, span.bytes = bytes ∧ (segment.appendRecord bytes io).1 = .committed ∧
      Scannable (segment.appendRecord bytes io).2 (spans ++ [span]) committed) ∨
    ((segment.appendRecord bytes io).1 ≠ .committed ∧
      ScannableAfter spans (segment.appendRecord bytes io)) := by
  obtain ⟨selected, persisted, pending, below⟩ := writeChunks_frame io segment
    segment.selected.commit.committedEnd 0 bytes
  have written := scan.frame selected persisted pending fun i _ inside => below i inside
  fun_cases DurableSegmentFile.appendRecord segment bytes io with
  | case1 => exact .inr ⟨by simp, .inl ⟨committed, scan⟩⟩
  | case9 _ _ _ view decoded increasing _ _ _ failure after outcome =>
    rw [outcome] at written
    obtain ⟨error, rfl⟩ := writeChunks_failure (congrArg Prod.fst outcome)
    exact .inr ⟨by simp, written.refused error⟩
  | case10 _ _ _ view decoded increasing _ _ _ after outcome =>
    have stored := writeChunks_written (congrArg Prod.fst outcome)
    rw [outcome] at written selected stored
    have later : segment.selected.commit.lastSequence < view.sequence := by
      have none : segment.selected.commit.recordCount = 0 →
          segment.selected.commit.lastSequence = 0 := by
        intro empty
        rw [scan.selected.count] at empty
        rw [scan.selected.last, List.length_eq_zero_iff.mp empty]
        rfl
      omega
    rw [← show after.selected = segment.selected from selected] at stored later
    exact .inl ⟨⟨bytes, view, decoded⟩, rfl, rfl,
      written.noteAppended ⟨bytes, view, decoded⟩ later stored⟩
  | _ => exact .inr ⟨by simp, scan.refused _⟩

end Scan

end Scannable

/-! ## Runs -/

namespace SegmentOperation

def acceptedSpan (bytes : Bytes) (io : AppendIo) : List AppendedSpan :=
  match decoded : decodeRecord bytes with
  | .error _ => []
  | .ok view =>
    if (segment.appendRecord bytes io).1 = .committed then [⟨bytes, view, decoded⟩] else []

def acceptedSpans : SegmentOperation → List AppendedSpan
  | .appendRecord bytes io => acceptedSpan segment bytes io
  | .append bytes _ appendIo _ => acceptedSpan segment bytes appendIo
  | _ => []

def trackSpans (state : DurableSegmentFile × List AppendedSpan) (operation : SegmentOperation) :
    DurableSegmentFile × List AppendedSpan :=
  let step := operation.perform state.1
  (step.2, keptRecords step.1 step.2 (state.2 ++ operation.acceptedSpans state.1))

theorem trackSpans_file (state : DurableSegmentFile × List AppendedSpan)
    (operation : SegmentOperation) :
    (operation.trackSpans state).1 = (operation.perform state.1).2 := rfl

/-- The operations that publish what is pending. -/
def Commits : SegmentOperation → Prop
  | .append _ _ _ _ | .flushPendingCommit _ _ | .sealFile _ => True
  | _ => False

end SegmentOperation

def ScanSafe (state : DurableSegmentFile × List AppendedSpan) : Prop :=
  (∃ committed, Scannable state.1 state.2 committed) ∨
    (state.1.healthy = false ∧ state.1.pendingRecordCount = 0)

section Steps

variable {segment : DurableSegmentFile} {spans committed : List AppendedSpan}

theorem ScannableAfter.safe {step : SegmentCommitResult × DurableSegmentFile}
    (after : ScannableAfter spans step) : ScanSafe (step.2, keptRecords step.1 step.2 spans) :=
  after.imp id And.right

theorem acceptedSpan_of_refused {bytes : Bytes} {io : AppendIo}
    (refused : (segment.appendRecord bytes io).1 ≠ .committed) :
    acceptedSpan segment bytes io = [] := by
  unfold acceptedSpan
  split
  · rfl
  · rw [if_neg refused]

theorem acceptedSpan_of_committed {span : AppendedSpan} {io : AppendIo}
    (committed : (segment.appendRecord span.bytes io).1 = .committed) :
    acceptedSpan segment span.bytes io = [span] := by
  obtain ⟨bytes, view, decoded⟩ := span
  unfold acceptedSpan
  split
  · next error failed => exact nomatch failed.symm.trans decoded
  · next other same =>
    rw [if_pos committed]
    obtain rfl := Except.ok.inj (same.symm.trans decoded)
    rfl

theorem Scannable.trackAppend (scan : Scannable segment spans committed) (bytes : Bytes)
    (io : AppendIo) (next : DurableSegmentFile → SegmentCommitResult × DurableSegmentFile)
    (nextSafe : ∀ after appended, Scannable after appended committed →
      ScannableAfter appended (next after)) :
    ScannableAfter (spans ++ acceptedSpan segment bytes io)
      (match segment.appendRecord bytes io with
      | (.committed, appended) => next appended
      | failed => failed) := by
  rcases scan.appendRecord bytes io with ⟨span, rfl, committed, appended⟩ | ⟨refused, after⟩
  · rw [acceptedSpan_of_committed committed]
    generalize segment.appendRecord span.bytes io = outcome at *
    obtain ⟨result, final⟩ := outcome
    obtain rfl : result = .committed := committed
    exact nextSafe final _ appended
  · rw [acceptedSpan_of_refused refused, List.append_nil]
    generalize segment.appendRecord bytes io = outcome at *
    obtain ⟨result, final⟩ := outcome
    cases result with
    | committed => exact absurd rfl refused
    | notCommitted error => exact after
    | indeterminate error => exact after

theorem Scannable.perform (scan : Scannable segment spans committed) (operation : SegmentOperation) :
    ScannableAfter (spans ++ operation.acceptedSpans segment) (operation.perform segment) := by
  have kept {outcome} (after : ScannableAfter spans outcome) :
      ScannableAfter (spans ++ []) outcome := by
    rwa [List.append_nil]
  cases operation with
  | appendRecord bytes io =>
    have tracked := scan.trackAppend bytes io (fun after => (.committed, after))
      fun after appended scan => .inl ⟨_, scan⟩
    simp only [SegmentOperation.perform, SegmentOperation.acceptedSpans]
    generalize segment.appendRecord bytes io = outcome at *
    obtain ⟨result, final⟩ := outcome
    cases result <;> exact tracked
  | append bytes sync appendIo flushIo =>
    exact scan.trackAppend bytes appendIo (fun after => after.flushPendingCommit sync flushIo)
      fun after appended scan => scan.flushPendingCommit sync flushIo
  | flushPendingCommit sync io => exact kept (scan.flushPendingCommit sync io)
  | syncFile io => exact kept (scan.syncFile io)
  | sealFile io => exact kept (scan.sealFile io)
  | poison => exact kept (.inl ⟨committed, scan.setFlags false segment.dirty⟩)

theorem ScanSafe.trackSpans {state : DurableSegmentFile × List AppendedSpan} (safe : ScanSafe state)
    (operation : SegmentOperation) : ScanSafe (operation.trackSpans state) := by
  rcases safe with ⟨committed, scan⟩ | ⟨poisoned, drained⟩
  · exact (scan.perform operation).safe
  · have unchanged := (perform_of_drained poisoned drained operation).1
    exact .inr ⟨by rw [SegmentOperation.trackSpans, unchanged]; exact poisoned,
      by rw [SegmentOperation.trackSpans, unchanged]; exact drained⟩

theorem ScanSafe.run {state : DurableSegmentFile × List AppendedSpan} (safe : ScanSafe state)
    (operations : List SegmentOperation) :
    ScanSafe (Runs.run SegmentOperation.trackSpans state operations) := by
  induction operations generalizing state with
  | nil => exact safe
  | cons operation rest ih => exact ih (safe.trackSpans operation)

theorem pending_syncCommitSlot (io : SyncIo) :
    (segment.syncCommitSlot io).2.pendingRecordCount = segment.pendingRecordCount := by
  fun_cases syncCommitSlot segment io <;> rfl

theorem pending_of_publishCommit {commit : SegmentCommit} {sync : SegmentCommitSync} {io : CommitIo}
    (published : (segment.publishCommit commit sync io).1 = .committed) :
    (segment.publishCommit commit sync io).2.pendingRecordCount = 0 := by
  revert published
  fun_cases publishCommit segment commit sync io with
  | case5 => exact fun _ => rfl
  | case6 => exact fun _ => pending_syncCommitSlot io.sync
  | _ => nofun

theorem pending_of_flushPendingCommit {sync : SegmentCommitSync} {io : FlushIo}
    (flushed : (segment.flushPendingCommit sync io).1 = .committed) :
    (segment.flushPendingCommit sync io).2.pendingRecordCount = 0 := by
  revert flushed
  fun_cases flushPendingCommit segment sync io with
  | case1 idle =>
    have drained : segment.pendingRecordCount = 0 := by
      simpa [hasPendingCommit] using idle
    intro _
    fun_cases syncFile segment io.commit.sync with
    | case3 => rw [pending_syncCommitSlot, drained]
    | _ => exact drained
  | case2 idle => exact fun _ => by simpa [hasPendingCommit] using idle
  | case5 => exact pending_of_publishCommit
  | _ => rintro ⟨⟩

theorem pending_of_commits {operation : SegmentOperation} (commits : operation.Commits)
    (committed : (operation.perform segment).1 = .committed) :
    (operation.perform segment).2.pendingRecordCount = 0 := by
  revert committed
  cases operation with
  | append bytes sync appendIo flushIo =>
    simp only [perform]
    fun_cases append segment bytes sync appendIo flushIo with
    | case1 => exact pending_of_flushPendingCommit
    | case2 other => exact fun committed => (other _ (Prod.ext committed rfl)).elim
  | flushPendingCommit sync io => exact pending_of_flushPendingCommit
  | sealFile io =>
    simp only [perform]
    fun_cases sealFile segment io with
    | case5 | case7 => exact pending_of_publishCommit
    | case6 _ _ _ _ _ other => exact fun committed => (other _ (Prod.ext committed rfl)).elim
    | _ => rintro ⟨⟩
  | _ => exact commits.elim

end Steps

/-! ## Scans after a commit -/

/-- With nothing pending a healthy file scans to its spans exactly when they are
all exact. -/
theorem Scannable.scanned_iff {segment : DurableSegmentFile} {spans committed : List AppendedSpan}
    (scan : Scannable segment spans committed) (drained : segment.pendingRecordCount = 0) :
    scanned segment = .ok (spans.map AppendedSpan.entry) ↔
      segment.healthy = true ∧ ∀ span ∈ spans, span.Exact := by
  obtain rfl := scan.pending drained
  constructor
  · intro success
    obtain ⟨healthy, records, rfl, -⟩ := exact_of_scanned scan.valid success
    refine ⟨healthy, fun span member => ?_⟩
    obtain ⟨record, -, rfl⟩ := List.mem_map.mp member
    exact record.exact
  · rintro ⟨healthy, exact⟩
    obtain ⟨records, rfl⟩ := exists_records_of_exact exact
    have describes := SegmentCommit.covers_span_iff.mp scan.persisted
    refine scanned_extent healthy describes ?_
    rw [committedBytes, describes.ending, Nat.add_sub_cancel_left, ← spanBytes_span, scan.visible]

section Opened

variable {segment : DurableSegmentFile} {image : Image UInt8} {identity : SegmentHeaderIdentity}
  {selected : SelectedSegmentCommit} {writable : Bool} {held : List AppendedSpan}

theorem scannable_opened (opened : segment = .opened image identity selected writable)
    (valid : validateCommit selected.commit = .ok ())
    (scans : scanned segment = .ok (held.map AppendedSpan.entry)) : Scannable segment held held := by
  subst opened
  obtain ⟨-, records, rfl, describes, content⟩ :=
    @exact_of_scanned (.opened image identity selected writable) held valid scans
  have covers := SegmentCommit.covers_span_iff.mpr describes
  refine ⟨List.prefix_refl _, covers, covers, valid, ?_, fun _ => rfl⟩
  rw [spanBytes_span, ← content, committedBytes, length_read]

/-- From any handle on a file that scans, after every run of operations that ends
in a commit: a scan visits exactly the spans appended, in order and with their
bytes, if and only if the directory is healthy and every span is its record and
nothing more. -/
theorem scan_after_commit_iff (opened : segment = .opened image identity selected writable)
    (valid : validateCommit selected.commit = .ok ())
    (scans : scanned segment = .ok (held.map AppendedSpan.entry))
    (operations : List SegmentOperation) {operation : SegmentOperation}
    (commits : operation.Commits)
    (committed : (operation.perform
      (Runs.run SegmentOperation.trackSpans (segment, held) operations).1).1 = .committed) :
    let after := operation.trackSpans
      (Runs.run trackSpans (segment, held) operations)
    scanned after.1 = .ok (after.2.map AppendedSpan.entry) ↔
      after.1.healthy = true ∧ ∀ span ∈ after.2, span.Exact := by
  intro after
  have safe := @ScanSafe.run (segment, held) (.inl ⟨held, scannable_opened opened valid scans⟩)
    operations
  have drained : after.1.pendingRecordCount = 0 := pending_of_commits commits committed
  rcases safe.trackSpans operation with ⟨later, scan⟩ | ⟨poisoned, -⟩
  · exact scan.scanned_iff drained
  · have failed : scanned after.1 = fail .ioError "cannot scan a poisoned Segment file" :=
      if_pos (by rw [show after.1.healthy = false from poisoned]; decide)
    rw [failed, show after.1.healthy = false from poisoned]
    simp [fail]

end Opened

/-! ## One span on a fresh file -/

def appendOne (span : AppendedSpan) : DurableSegmentFile × List AppendedSpan :=
  Runs.run trackSpans (sampleFile, []) [.appendRecord span.bytes .done]

def deferredFlush : SegmentOperation :=
  .flushPendingCommit .deferred .done

theorem sampleFile_opened :
    sampleFile = .opened (freshImage sampleIdentity) sampleIdentity ⟨0, initialCommit⟩ true := rfl

theorem scanned_sampleFile :
    scanned sampleFile = .ok (([] : List AppendedSpan).map AppendedSpan.entry) := rfl

def sampleSpan : AppendedSpan :=
  ⟨sampleRecord, sampleInput.view 64, sampleRecord_decoded⟩

theorem scan_after_commit_sample :
    scanned (deferredFlush.trackSpans (appendOne sampleSpan)).1 = .ok [sampleSpan.entry] := by
  have committed : (deferredFlush.perform (appendOne sampleSpan).1).1 = .committed := by
    decide +kernel
  have spans : (deferredFlush.trackSpans (appendOne sampleSpan)).2 = [sampleSpan] :=
    List.map_injective_iff.mpr AppendedSpan.entry_injective (by decide +kernel)
  have iff := @scan_after_commit_iff _ _ _ _ _ _ sampleFile_opened (by decide) scanned_sampleFile
    [.appendRecord sampleSpan.bytes .done] deferredFlush trivial committed
  unfold appendOne at spans ⊢
  simp only [spans] at iff
  refine iff.mpr ⟨by decide +kernel, fun span member => ?_⟩
  rw [List.mem_singleton.mp member]
  exact length_sampleRecord

theorem StoredRecord.decodeRecord_append (record : StoredRecord) (tail : Bytes) :
    decodeRecord (record.bytes ++ tail) = .ok record.view := by
  refine (record.decodes.congr ?_ ?_).decodeRecord_eq
  · rw [List.length_append, record.exact]
    exact Nat.le_add_right _ _
  · rw [← record.exact, List.take_left, List.take_length]

theorem Scannable.fails {segment : DurableSegmentFile} {span : AppendedSpan}
    {committed : List AppendedSpan} (scan : Scannable segment [span] committed)
    (drained : segment.pendingRecordCount = 0) (inexact : ¬ span.Exact) :
    ∃ error, scanned segment = .error error := by
  cases outcome : scanned segment with
  | error error => exact ⟨error, rfl⟩
  | ok found =>
    obtain ⟨-, records, describes, content⟩ :=
      extent_of_visitCommittedRecords scan.valid outcome
    obtain rfl := scan.pending drained
    have held : segment.committedBytes = span.bytes := by
      rw [committedBytes, scan.persisted.ending, Nat.add_sub_cancel_left, scan.visible]
      simp [spanBytes]
    obtain ⟨record, rfl⟩ := List.length_eq_one_iff.mp
      (describes.count.symm.trans scan.persisted.count)
    rw [held, extentBytes_cons, extentBytes_nil, List.append_nil] at content
    have view := Except.ok.inj (record.decoded.symm.trans (content ▸ span.decoded))
    exact absurd (by rw [AppendedSpan.Exact, content, record.exact, view]) inexact

/-- The sample record with one more word behind it. -/
def paddedSpan : AppendedSpan :=
  ⟨sampleRecord ++ List.replicate 8 0, sampleInput.view 64, decodeRecord_append
      ⟨sampleRecord, sampleInput.view 64, sampleRecord_decoded, length_sampleRecord⟩ _⟩

/-- A record followed by eight zero bytes is accepted and committed as one record,
and the committed extent no longer scans. -/
theorem padded_span_unscannable : DurableSegmentFile.create sampleIdentity = .ok sampleFile ∧
    (sampleFile.appendRecord paddedSpan.bytes .done).1 = .committed ∧
    (deferredFlush.perform (appendOne paddedSpan).1).1 = .committed ∧
    (deferredFlush.trackSpans (appendOne paddedSpan)).1.healthy = true ∧
    ∃ error, scanned (deferredFlush.trackSpans (appendOne paddedSpan)).1 = .error error := by
  have length : paddedSpan.bytes.length = 72 := by
    rw [show paddedSpan.bytes = sampleRecord ++ List.replicate 8 0 from rfl, List.length_append,
      length_sampleRecord, List.length_replicate]
  have committed : (deferredFlush.perform (appendOne paddedSpan).1).1 = .committed := by
    decide +kernel
  have healthy : (deferredFlush.trackSpans (appendOne paddedSpan)).1.healthy = true := by
    decide +kernel
  have spans : (deferredFlush.trackSpans (appendOne paddedSpan)).2 = [paddedSpan] :=
    List.map_injective_iff.mpr AppendedSpan.entry_injective (by decide +kernel)
  refine ⟨sampleFile_created, by decide +kernel, committed, healthy, ?_⟩
  have safe := (@ScanSafe.run (sampleFile, [])
    (.inl ⟨[], scannable_opened sampleFile_opened (by decide) scanned_sampleFile⟩)
    [.appendRecord paddedSpan.bytes .done]).trackSpans deferredFlush
  have drained := @pending_of_commits _ deferredFlush trivial committed
  rw [← trackSpans_file] at drained
  change ScanSafe (deferredFlush.trackSpans (appendOne paddedSpan)) at safe
  rw [ScanSafe, spans, healthy] at safe
  obtain ⟨later, scan⟩ | ⟨poisoned, -⟩ := safe
  · refine scan.fails drained fun exact => ?_
    rw [AppendedSpan.Exact, length] at exact
    exact absurd exact (by decide)
  · exact nomatch poisoned

end GlifiStore
