import GlifiStore.Segment.File

/-!
# Committed extents

A committed extent is the concatenation of its records. Scanning one visits
exactly those records, in file order and under their references.
-/

namespace GlifiStore

open ByteLayout CrashFile

variable {previous : Nat} {records : List StoredRecord}

/-- A record together with the bytes that encode it. -/
structure StoredRecord where
  bytes : Bytes
  view : RecordView
  decoded : decodeRecord bytes = .ok view
  exact : bytes.length = view.encodedSize

namespace StoredRecord

variable (record : StoredRecord)

theorem decodes : Decodes record.bytes record.view :=
  decodeRecord_eq_ok_iff.mp record.decoded

theorem size_spec : kEncodedRecordHeaderSize ≤ record.bytes.length ∧
    record.bytes.length ≤ kMaxNormalRecordSize ∧ record.bytes.length % kRecordAlignment = 0 := by
  have canonical := record.decodes.canonical
  have bounded := record.decodes.bounded
  have exact := record.exact
  simp only [kEncodedRecordHeaderSize, kRecordAlignment] at canonical ⊢
  omega

theorem totalSize_eq (tail : Bytes) : getLE 4 (record.bytes ++ tail) 8 = record.bytes.length := by
  have long := record.size_spec.1
  simp only [kEncodedRecordHeaderSize] at long
  have same : slice (record.bytes ++ tail) 8 4 = slice record.bytes 8 4 := by
    have prefixes : (record.bytes ++ tail).take record.bytes.length =
        record.bytes.take record.bytes.length := by
      rw [List.take_left, List.take_length]
    exact slice_eq_of_take_eq prefixes (by omega)
  rw [getLE_congr same, record.decodes.total, record.exact]

theorem sequence_lt : record.view.sequence < 256 ^ 8 := by
  rw [record.decodes.sequence]
  exact getLE_lt 8 record.bytes 24

theorem ext_bytes {left right : StoredRecord} (same : left.bytes = right.bytes) : left = right := by
  obtain ⟨bytes, view, decoded, exact⟩ := left
  obtain ⟨otherBytes, otherView, otherDecoded, otherExact⟩ := right
  obtain rfl : bytes = otherBytes := same
  obtain rfl : view = otherView := Except.ok.inj (decoded.symm.trans otherDecoded)
  rfl

end StoredRecord

theorem exists_storedRecord {input : RecordInput} {size : Nat}
    (sized : encodedRecordSize input = .ok size) :
    ∃ record : StoredRecord, record.view = input.view size ∧ record.bytes.length = size := by
  obtain ⟨bytes, encoded, rfl⟩ := exists_encodeRecord sized
  exact ⟨⟨bytes, _, decodeRecord_encodeRecord encoded, rfl⟩, rfl, rfl⟩

def extentBytes (records : List StoredRecord) : Bytes :=
  records.flatMap StoredRecord.bytes

@[simp]
theorem extentBytes_nil : extentBytes [] = [] := rfl

@[simp]
theorem extentBytes_cons (record : StoredRecord) (rest : List StoredRecord) :
    extentBytes (record :: rest) = record.bytes ++ extentBytes rest := by
  simp [extentBytes]

theorem extentBytes_append (left right : List StoredRecord) :
    extentBytes (left ++ right) = extentBytes left ++ extentBytes right := by
  simp [extentBytes]

variable {left right : List StoredRecord}

theorem extentBytes_inj (same : extentBytes left = extentBytes right) : left = right := by
  have nonempty (record : StoredRecord) (rest : List StoredRecord) :
      extentBytes (record :: rest) ≠ [] := by
    intro empty
    have long := record.size_spec.1
    rw [extentBytes_cons, List.append_eq_nil_iff] at empty
    simp [empty.1, kEncodedRecordHeaderSize] at long
  induction left generalizing right with
  | nil =>
    cases right with
    | nil => rfl
    | cons record rest => exact absurd same.symm (nonempty record rest)
  | cons record rest ih =>
    cases right with
    | nil => exact absurd same (nonempty record rest)
    | cons other others =>
      rw [extentBytes_cons, extentBytes_cons] at same
      -- both extents start with the size of their first record
      have lengths : record.bytes.length = other.bytes.length := by
        rw [← record.totalSize_eq (extentBytes rest), same, other.totalSize_eq]
      obtain ⟨bytes, tails⟩ := List.append_inj same lengths
      rw [StoredRecord.ext_bytes bytes, ih tails]

theorem header_le_extent (records : List StoredRecord) :
    kEncodedRecordHeaderSize * records.length ≤ (extentBytes records).length := by
  induction records with
  | nil => simp
  | cons record rest ih =>
    have long := record.size_spec.1
    simp only [kEncodedRecordHeaderSize] at *
    rw [extentBytes_cons, List.length_append, List.length_cons]
    omega

theorem extentBytes_aligned (records : List StoredRecord) :
    (extentBytes records).length % kRecordAlignment = 0 := by
  induction records with
  | nil => rfl
  | cons record rest ih =>
    have aligned := record.size_spec.2.2
    simp only [kRecordAlignment] at *
    rw [extentBytes_cons, List.length_append]
    omega

/-- Sequences that increase strictly from `previous` on. Sequence zero is below
every record. -/
def Ascending (previous : Nat) (records : List StoredRecord) : Prop :=
  List.IsChain (· < ·) (previous :: records.map fun record => record.view.sequence)

theorem ascending_nil (previous : Nat) : Ascending previous [] := by
  simp [Ascending]

variable {record : StoredRecord}

theorem ascending_cons {rest : List StoredRecord} :
    Ascending previous (record :: rest) ↔
      previous < record.view.sequence ∧ Ascending record.view.sequence rest := by
  simp [Ascending, List.isChain_cons_cons]

/-- The sequence of the last record, or `previous` when there is none. -/
def lastSequenceFrom (previous : Nat) : List StoredRecord → Nat
  | [] => previous
  | record :: rest => lastSequenceFrom record.view.sequence rest

theorem ascending_append :
    Ascending previous (left ++ right) ↔
      Ascending previous left ∧ Ascending (lastSequenceFrom previous left) right := by
  induction left generalizing previous with
  | nil => simp [ascending_nil, lastSequenceFrom]
  | cons record rest ih =>
    rw [List.cons_append, ascending_cons, ascending_cons, ih, lastSequenceFrom, and_assoc]

theorem lastSequenceFrom_append (previous : Nat) (left right : List StoredRecord) :
    lastSequenceFrom previous (left ++ right) =
      lastSequenceFrom (lastSequenceFrom previous left) right := by
  induction left generalizing previous with
  | nil => rfl
  | cons record rest ih => rw [List.cons_append, lastSequenceFrom, lastSequenceFrom, ih]

theorem le_lastSequenceFrom (ascending : Ascending previous records) :
    previous ≤ lastSequenceFrom previous records := by
  induction records generalizing previous with
  | nil => exact Nat.le_refl _
  | cons record rest ih =>
    rw [ascending_cons] at ascending
    exact Nat.le_trans (Nat.le_of_lt ascending.1) (ih ascending.2)

/-! ## The scan -/

/-- The records of an extent with the references under which a scan visits them. -/
def located (identity : SegmentHeaderIdentity) (cursor : Nat) :
    List StoredRecord → List (RecordRef × RecordView)
  | [] => []
  | record :: rest =>
    ({ segmentId := identity.segmentId
       offset := kSegmentHeaderReservedBytes + cursor
       size := record.bytes.length
       sequence := record.view.sequence
       generation := identity.generation }, record.view) ::
      located identity (cursor + record.bytes.length) rest

theorem located_views (identity : SegmentHeaderIdentity) (cursor : Nat)
    (records : List StoredRecord) :
    (located identity cursor records).map Prod.snd = records.map StoredRecord.view := by
  induction records generalizing cursor with
  | nil => rfl
  | cons record rest ih => rw [located, List.map_cons, List.map_cons, ih]

variable {σ : Type} {visitor : σ → RecordRef → RecordView → Result σ}

namespace DurableSegmentFile

variable {identity : SegmentHeaderIdentity}

/-- The loop variables after some records were visited. -/
def ScanProgress.after (progress : ScanProgress σ) (records : List StoredRecord) (visited : σ) :
    ScanProgress σ where
  cursor := progress.cursor + (extentBytes records).length
  recordCount := progress.recordCount + records.length
  first :=
    if progress.recordCount = 0 then
      match records with
      | [] => progress.first
      | record :: _ => record.view.sequence
    else progress.first
  previous := lastSequenceFrom progress.previous records
  visited := visited

open ScanProgress

theorem ScanProgress.after_cons (progress : ScanProgress σ) (record : StoredRecord)
    (rest : List StoredRecord) (result final : σ) :
    (progress.after [record] result).after rest final = progress.after (record :: rest) final := by
  simp only [after, extentBytes_cons, extentBytes_nil, List.append_nil,
    List.length_append, List.length_cons, List.length_nil, lastSequenceFrom, mk.injEq]
  refine ⟨by omega, by omega, ?_, trivial, trivial⟩
  rw [if_neg (by omega)]

variable {progress : ScanProgress σ}

private theorem visitRecords_step {tail : Bytes}
    (ascending : progress.previous < record.view.sequence) :
    visitRecords identity visitor (record.bytes ++ tail) progress =
      match visitor progress.visited
        { segmentId := identity.segmentId
          offset := kSegmentHeaderReservedBytes + progress.cursor
          size := record.bytes.length
          sequence := record.view.sequence
          generation := identity.generation } record.view with
      | .error error => .error error
      | .ok visited => visitRecords identity visitor tail (progress.after [record] visited) := by
  have total := record.totalSize_eq tail
  obtain ⟨long, bounded, aligned⟩ := record.size_spec
  have nonempty : ¬ (record.bytes ++ tail).length = 0 := by
    simp only [List.length_append, kEncodedRecordHeaderSize] at *
    omega
  have room : ¬ (record.bytes ++ tail).length < kEncodedRecordHeaderSize := by
    rw [List.length_append]
    omega
  have extent : ¬ (record.bytes.length < kEncodedRecordHeaderSize ∨
      record.bytes.length > kMaxNormalRecordSize ∨
      record.bytes.length % kRecordAlignment ≠ 0 ∨
      record.bytes.length > (record.bytes ++ tail).length) := by
    rw [List.length_append]
    omega
  have increasing : ¬ (record.view.sequence = 0 ∨
      (progress.previous ≠ 0 ∧ record.view.sequence ≤ progress.previous)) := by
    omega
  rw [visitRecords, if_neg nonempty, if_neg room]
  simp only [total, if_neg extent, List.take_left, record.decoded, if_neg increasing,
    List.drop_left]
  cases visitor progress.visited _ record.view with
  | error error => rfl
  | ok visited => simp [after, lastSequenceFrom]

/-- Scanning an extent folds the visitor over its records. -/
theorem visitRecords_extent (records : List StoredRecord) (progress : ScanProgress σ)
    (ascending : Ascending progress.previous records) :
    visitRecords identity visitor (extentBytes records) progress =
      ((located identity progress.cursor records).foldlM
        (fun visited entry => visitor visited entry.1 entry.2) progress.visited).map
        (progress.after records) := by
  induction records generalizing progress with
  | nil =>
    rw [visitRecords]
    simp [located, after, lastSequenceFrom, pure, Except.pure, Except.map]
  | cons record rest ih =>
    rw [ascending_cons] at ascending
    rw [extentBytes_cons, visitRecords_step ascending.1, located, List.foldlM_cons]
    cases visited : visitor progress.visited _ record.view with
    | error error => simp [bind, Except.bind, Except.map]
    | ok result =>
      have later := ih (progress.after [record] result) (by
        simpa [after, lastSequenceFrom] using ascending.2)
      simp only [bind, Except.bind]
      have afterAll : (progress.after [record] result).after rest = progress.after (record :: rest) :=
        funext (progress.after_cons record rest result)
      rw [later, afterAll]
      simp [after]

/-- Only an extent of well-formed records in sequence order is scanned to its end. -/
theorem extent_of_visitRecords {rest : Bytes} {result : ScanProgress σ}
    (success : visitRecords identity visitor rest progress = .ok result) :
    ∃ records, rest = extentBytes records ∧ Ascending progress.previous records := by
  fun_induction visitRecords identity visitor rest progress with
  | case1 rest progress empty =>
    exact ⟨[], List.length_eq_zero_iff.mp empty, ascending_nil _⟩
  | case7 rest progress _ room size extent record decoded increasing reference visited _ ih =>
    obtain ⟨records, tail, ascending⟩ := ih success
    have total : record.encodedSize = size := by
      have read := (decodeRecord_eq_ok_iff.mp decoded).total
      have same : slice (rest.take size) 8 4 = slice rest 8 4 := by
        apply slice_take
        simp only [kEncodedRecordHeaderSize] at extent
        omega
      rw [← read, getLE_congr same]
    have exact : (rest.take size).length = record.encodedSize := by
      rw [List.length_take, total]
      omega
    refine ⟨⟨rest.take size, record, decoded, exact⟩ :: records, ?_, ?_⟩
    · rw [extentBytes_cons, ← tail, List.take_append_drop]
    · exact ascending_cons.mpr ⟨by simp only; omega, ascending⟩
  | _ => simp [fail] at success

end DurableSegmentFile

/-! ## Commits that describe an extent -/

def firstSequenceOf : List StoredRecord → Nat
  | [] => 0
  | record :: _ => record.view.sequence

/-- A commit whose metadata is that of the given records. -/
structure SegmentCommit.Describes (commit : SegmentCommit) (records : List StoredRecord) :
    Prop where
  ending : commit.committedEnd = kSegmentHeaderReservedBytes + (extentBytes records).length
  count : commit.recordCount = records.length
  first : commit.firstSequence = firstSequenceOf records
  last : commit.lastSequence = lastSequenceFrom 0 records
  ascending : Ascending 0 records

theorem lastSequenceFrom_lt (bounded : previous < 256 ^ 8) :
    lastSequenceFrom previous records < 256 ^ 8 := by
  induction records generalizing previous with
  | nil => exact bounded
  | cons record rest ih => exact ih record.sequence_lt

variable {commit : SegmentCommit}

theorem SegmentCommit.Describes.fits (describes : commit.Describes records)
    (generation : commit.commitGeneration < 256 ^ 8)
    (extent : commit.committedEnd ≤ kSegmentSizeBytes) : commit.Fits where
  generation := generation
  count := by
    have room := header_le_extent records
    have ending := describes.ending
    rw [describes.count]
    simp only [kEncodedRecordHeaderSize, kSegmentSizeBytes] at *
    omega
  first := by
    rw [describes.first]
    cases records with
    | nil => simp [firstSequenceOf]
    | cons record rest => exact record.sequence_lt
  last := by
    rw [describes.last]
    exact lastSequenceFrom_lt (by decide)

theorem SegmentCommit.Describes.valid (describes : commit.Describes records)
    (generation : commit.commitGeneration ≠ 0) (extent : commit.committedEnd ≤ kSegmentSizeBytes) :
    validateCommit commit = .ok () := by
  have aligned := extentBytes_aligned records
  have ending := describes.ending
  refine validateCommit_ok_iff.mpr ⟨generation, ⟨by omega, extent, ?_⟩, ?_⟩
  · rw [ending]
    simp only [kSegmentHeaderReservedBytes, kRecordAlignment] at *
    omega
  · cases records with
    | nil =>
      refine .inl ⟨describes.count, by simpa using ending, describes.first, ?_⟩
      exact describes.last
    | cons record rest =>
      have long := record.size_spec.1
      have ordered := ascending_cons.mp describes.ascending
      have greatest := le_lastSequenceFrom ordered.2
      have first : commit.firstSequence = record.view.sequence := describes.first
      have last : commit.lastSequence = lastSequenceFrom record.view.sequence rest := describes.last
      refine .inr ⟨?_, ?_, by omega, by omega⟩
      · rw [describes.count]
        simp
      · rw [ending, extentBytes_cons, List.length_append]
        simp only [kEncodedRecordHeaderSize] at long
        omega

namespace DurableSegmentFile

variable {segment : DurableSegmentFile}

theorem openFile_ok_iff {image : Image UInt8} {expected : SegmentHeaderIdentity} {writable : Bool}
    {file : DurableSegmentFile} :
    openFile image expected writable = .ok file ↔
      ∃ header selected,
        decodeSegmentHeader (read image 0 kSegmentHeaderReservedBytes) = .ok header ∧
        header.identity = expected ∧ selectNewestSegmentCommit header = .ok selected ∧
        file = opened image expected selected writable := by
  unfold openFile
  generalize decodeSegmentHeader (read image 0 kSegmentHeaderReservedBytes) = decoded
  cases decoded with
  | error error => simp
  | ok header =>
    simp only [Except.ok.injEq]
    by_cases same : header.identity = expected
    · rw [if_neg (by simp [same])]
      subst same
      cases newest : selectNewestSegmentCommit header with
      | error error => simp [newest]
      | ok selected => simp [newest, eq_comm]
    · rw [if_pos same]
      simp [fail, same]

def committedBytes (segment : DurableSegmentFile) : Bytes :=
  read segment.file.visible kSegmentHeaderReservedBytes
    (segment.persisted.commit.committedEnd - kSegmentHeaderReservedBytes)

theorem visitCommittedRecords_extent
    (healthy : segment.healthy = true) (describes : segment.persisted.commit.Describes records)
    (content : segment.committedBytes = extentBytes records) (initial : σ) :
    segment.visitCommittedRecords visitor initial =
      (located segment.identity 0 records).foldlM
        (fun visited entry => visitor visited entry.1 entry.2) initial := by
  have room := header_le_extent records
  have dataSize : segment.persisted.commit.committedEnd - kSegmentHeaderReservedBytes =
      (extentBytes records).length := by
    rw [describes.ending, Nat.add_sub_cancel_left]
  have bounded : ¬ segment.persisted.commit.recordCount >
      (segment.persisted.commit.committedEnd - kSegmentHeaderReservedBytes) /
        kEncodedRecordHeaderSize := by
    rw [dataSize, describes.count, Nat.not_lt, Nat.le_div_iff_mul_le (by decide), Nat.mul_comm]
    exact room
  rw [committedBytes] at content
  unfold visitCommittedRecords
  rw [if_neg (by simp [healthy])]
  simp only [if_neg bounded, content]
  cases records with
  | nil => simp [describes.count, located, pure, Except.pure]
  | cons record rest =>
    rw [if_neg (by simp [describes.count]),
      visitRecords_extent (record :: rest) ⟨0, 0, 0, 0, initial⟩ describes.ascending]
    generalize (located segment.identity 0 (record :: rest)).foldlM
      (fun visited entry => visitor visited entry.1 entry.2) initial = outcome
    cases outcome with
    | error error => rfl
    | ok visited =>
      simp [Except.map, ScanProgress.after, describes.count, describes.first, describes.last,
        firstSequenceOf]

theorem extent_of_visitCommittedRecords {initial result : σ}
    (valid : validateCommit segment.persisted.commit = .ok ())
    (success : segment.visitCommittedRecords visitor initial = .ok result) :
    segment.healthy = true ∧ ∃ records, segment.persisted.commit.Describes records ∧
      segment.committedBytes = extentBytes records := by
  obtain ⟨-, extent, shape⟩ := validateCommit_ok_iff.mp valid
  rw [visitCommittedRecords, guard_eq_ok] at success
  obtain ⟨healthy, success⟩ := success
  refine ⟨Classical.not_not.mp healthy, ?_⟩
  simp only at success
  split at success
  · next empty =>
    obtain ⟨-, ending, first, last⟩ | ⟨filled, -⟩ := shape
    · refine ⟨[], ⟨by simpa using ending, empty, first, last, ascending_nil 0⟩, ?_⟩
      simp [committedBytes, ending, CrashFile.read]
    · exact absurd empty filled
  replace success := (guard_eq_ok.mp success).2
  split at success
  · cases success
  next progress scanned =>
  have matching := (guard_eq_ok.mp success).1
  obtain ⟨records, content, ascending⟩ := extent_of_visitRecords scanned
  rw [content, visitRecords_extent records _ ascending] at scanned
  refine ⟨records, ?_, content⟩
  generalize (located segment.identity 0 records).foldlM
    (fun visited entry => visitor visited entry.1 entry.2) initial = outcome at scanned
  cases outcome with
  | error error => simp [Except.map] at scanned
  | ok visited =>
    obtain rfl := Except.ok.inj scanned
    simp only [ScanProgress.after, Nat.zero_add, ne_eq, not_or, not_not] at matching
    have length := congrArg List.length content
    rw [length_read] at length
    refine ⟨by omega, matching.1.symm, ?_, matching.2.2.symm, ascending⟩
    rw [← matching.2.1]
    cases records <;> rfl

end DurableSegmentFile

end GlifiStore
