import GlifiStore.Segment.Scan

/-!
# The layout of compaction outputs

`DurableCompactionLayout` places the live Records in output Segments before a
byte of them is written. Appending the Records to fresh files, with a new file
whenever one is full, puts them in the same places.
-/

namespace GlifiStore

open DurableSegmentFile

def kPayloadBytes : Nat := kSegmentSizeBytes - kSegmentHeaderReservedBytes

structure DurableCompactionPlacement where
  segmentIndex : Nat
  offset : Nat
  deriving DecidableEq, Repr

structure DurableCompactionLayout where
  encodedBytes : Nat
  segmentCount : Nat
  currentPayloadBytes : Nat
  deriving DecidableEq, Repr

open DurableCompactionLayout

namespace DurableCompactionLayout

def empty : DurableCompactionLayout := ⟨0, 0, 0⟩

variable (layout : DurableCompactionLayout)

def nextSegment : DurableCompactionLayout :=
  { layout with segmentCount := layout.segmentCount + 1, currentPayloadBytes := 0 }

/-- A Record behind those of the last Segment. -/
def place (encodedSize : Nat) : DurableCompactionPlacement × DurableCompactionLayout :=
  (⟨layout.segmentCount - 1, kSegmentHeaderReservedBytes + layout.currentPayloadBytes⟩,
    { layout with
      currentPayloadBytes := layout.currentPayloadBytes + encodedSize
      encodedBytes := layout.encodedBytes + encodedSize })

def addRecord (encodedSize : Nat) : Result (DurableCompactionPlacement × DurableCompactionLayout) :=
  if encodedSize < kEncodedRecordHeaderSize ∨ encodedSize > kMaxNormalRecordSize ∨
      encodedSize % kRecordAlignment ≠ 0 ∨ encodedSize > kPayloadBytes then
    fail .invalidRecord "durable compaction Record extent cannot fit a v1 Segment payload"
  else if encodedSize > kUInt64Max - layout.encodedBytes then
    fail .arithmeticOverflow "durable compaction live byte count overflows uint64_t"
  else if layout.segmentCount = 0 ∨ encodedSize > kPayloadBytes - layout.currentPayloadBytes then
    if layout.segmentCount = kUInt64Max then
      fail .arithmeticOverflow "durable compaction output Segment count overflows size_t"
    else
      .ok (layout.nextSegment.place encodedSize)
  else
    .ok (layout.place encodedSize)

end DurableCompactionLayout

def durableCompactionOutputSegments (liveEncodedBytes : Nat) : Result Nat :=
  if liveEncodedBytes = 0 then
    .ok 0
  else
    let extra := if liveEncodedBytes % kPayloadBytes = 0 then 0 else 1
    if liveEncodedBytes / kPayloadBytes > kUInt64Max - extra then
      fail .arithmeticOverflow "durable compaction output Segment count overflows size_t"
    else
      .ok (liveEncodedBytes / kPayloadBytes + extra)

variable {placements : List DurableCompactionPlacement}

section PlaceAll

variable {σ α : Type} (place : σ → α → Result (DurableCompactionPlacement × σ))

def placeAll : σ → List α → Result (List DurableCompactionPlacement × σ)
  | state, [] => .ok ([], state)
  | state, item :: rest =>
    match place state item with
    | .error error => .error error
    | .ok (placement, next) =>
      (placeAll next rest).map fun (placements, last) => (placement :: placements, last)

variable {place}

theorem placeAll_cons {state last : σ} {item : α} {rest : List α}
    (placed : placeAll place state (item :: rest) = .ok (placements, last)) :
    ∃ placement next later, place state item = .ok (placement, next) ∧
      placeAll place next rest = .ok (later, last) ∧ placements = placement :: later := by
  rw [placeAll] at placed
  cases here : place state item with
  | error error => exact nomatch here ▸ placed
  | ok answer =>
    rw [here] at placed
    obtain ⟨tail, others, made⟩ := map_eq_ok.mp placed
    cases made
    exact ⟨_, _, tail.1, rfl, others, rfl⟩

end PlaceAll

/-! ## Appending to fresh files -/

def appendTo (finished : List DurableSegmentFile) (output : DurableSegmentFile) (record : Bytes) :
    Result (DurableCompactionPlacement × List DurableSegmentFile) :=
  match output.appendRecord record .done with
  | (.committed, appended) =>
    .ok (⟨finished.length, output.selected.commit.committedEnd⟩, appended :: finished)
  | (.notCommitted error, _) => .error error
  | (.indeterminate error, _) => .error error

def appendToFresh (identity : Nat → SegmentHeaderIdentity) (finished : List DurableSegmentFile)
    (record : Bytes) : Result (DurableCompactionPlacement × List DurableSegmentFile) :=
  match create (identity finished.length) with
  | .error error => .error error
  | .ok output => appendTo finished output record

/-- The Record appended to the newest output, or to a fresh one when that is full. -/
def copyRecord (identity : Nat → SegmentHeaderIdentity) (outputs : List DurableSegmentFile)
    (record : Bytes) : Result (DurableCompactionPlacement × List DurableSegmentFile) :=
  match outputs with
  | [] => appendToFresh identity [] record
  | output :: finished =>
    match appendTo finished output record with
    | .ok answer => .ok answer
    | .error error =>
      if error.code = .segmentFull then appendToFresh identity outputs record else .error error

/-! ## Where the layout places -/

def DurableCompactionPlacement.Before (first : DurableCompactionPlacement) (size : Nat)
    (second : DurableCompactionPlacement) : Prop :=
  first.segmentIndex < second.segmentIndex ∨
    first.segmentIndex = second.segmentIndex ∧ first.offset + size ≤ second.offset

variable {layout next last : DurableCompactionLayout} {placement : DurableCompactionPlacement}
  {sequence : Nat}

namespace DurableCompactionLayout

variable {size : Nat}

/-- Every Segment but the last may be full. -/
structure Packed (layout : DurableCompactionLayout) : Prop where
  filled : layout.currentPayloadBytes ≤ kPayloadBytes
  countable : layout.encodedBytes ≤ kUInt64Max
  unused : layout.segmentCount = 0 → layout.encodedBytes = 0
  bytes : 0 < layout.segmentCount →
    layout.encodedBytes + kPayloadBytes ≤
      layout.segmentCount * kPayloadBytes + layout.currentPayloadBytes

def Behind (placement : DurableCompactionPlacement) : Prop :=
  layout.segmentCount ≤ placement.segmentIndex ∨
    layout.segmentCount = placement.segmentIndex + 1 ∧
      kSegmentHeaderReservedBytes + layout.currentPayloadBytes ≤ placement.offset

theorem addRecord_cases (packed : layout.Packed)
    (added : layout.addRecord size = .ok (placement, next)) :
    kEncodedRecordHeaderSize ≤ size ∧ layout.encodedBytes + size ≤ kUInt64Max ∧
      (0 < layout.segmentCount ∧ layout.currentPayloadBytes + size ≤ kPayloadBytes ∧
        (placement, next) = layout.place size ∨
      (layout.segmentCount = 0 ∨ kPayloadBytes < layout.currentPayloadBytes + size) ∧
        size ≤ kPayloadBytes ∧ (placement, next) = layout.nextSegment.place size) := by
  have filled := packed.filled
  have countable := packed.countable
  revert added
  fun_cases addRecord layout size with
  | case4 =>
    exact fun added =>
      ⟨by omega, by omega, .inr ⟨by omega, by omega, (Except.ok.inj added).symm⟩⟩
  | case5 =>
    exact fun added =>
      ⟨by omega, by omega, .inl ⟨by omega, by omega, (Except.ok.inj added).symm⟩⟩
  | _ => nofun

structure Placed (layout : DurableCompactionLayout) (sizes : List Nat)
    (placements : List DurableCompactionPlacement) (last : DurableCompactionLayout) : Prop where
  length : placements.length = sizes.length
  ordered : (placements.zip sizes).Pairwise fun first second => first.1.Before first.2 second.1
  inside : ∀ entry ∈ placements.zip sizes, entry.1.segmentIndex < last.segmentCount ∧
    kSegmentHeaderReservedBytes ≤ entry.1.offset ∧ entry.1.offset + entry.2 ≤ kSegmentSizeBytes
  behind : ∀ placement ∈ placements, layout.Behind placement
  grown : layout.segmentCount ≤ last.segmentCount
  packed : last.Packed
  bytes : last.encodedBytes = layout.encodedBytes + sizes.sum

theorem addRecord_spec (packed : layout.Packed)
    (added : layout.addRecord size = .ok (placement, next)) :
    next.Packed ∧ layout.Behind placement ∧ next.segmentCount = placement.segmentIndex + 1 ∧
      next.currentPayloadBytes + kSegmentHeaderReservedBytes = placement.offset + size ∧
      kSegmentHeaderReservedBytes ≤ placement.offset ∧
      layout.segmentCount ≤ next.segmentCount ∧
      next.encodedBytes = layout.encodedBytes + size := by
  obtain ⟨-, countable, ⟨started, fits, placed⟩ | ⟨full, fits, placed⟩⟩ :=
    addRecord_cases packed added
  all_goals
    obtain ⟨filled, -, unused, bytes⟩ := packed
    simp only [place, nextSegment, Prod.mk.injEq] at placed
    obtain ⟨rfl, rfl⟩ := placed
  · have counted := bytes started
    refine ⟨⟨fits, countable, fun none => by simp only at none; omega, fun _ => ?_⟩,
      .inr ⟨?_, Nat.le_refl _⟩, ?_, ?_, ?_, Nat.le_refl _, rfl⟩
    all_goals simp only
    all_goals omega
  · refine ⟨⟨?_, countable, nofun, fun _ => ?_⟩, .inl ?_, ?_, ?_, Nat.le_refl _, ?_, rfl⟩
    all_goals simp only [Nat.add_mul, Nat.one_mul]
    case refine_2 =>
      rcases Nat.eq_zero_or_pos layout.segmentCount with none | started
      · rw [unused none]
        omega
      · have counted := bytes started
        omega
    all_goals omega

theorem placed_of_placeAll {sizes : List Nat} (packed : layout.Packed)
    (placed : placeAll addRecord layout sizes = .ok (placements, last)) :
    layout.Placed sizes placements last := by
  induction sizes generalizing layout placements with
  | nil =>
    obtain ⟨rfl, rfl⟩ := Prod.mk.inj (Except.ok.inj placed)
    exact ⟨rfl, .nil, nofun, nofun, Nat.le_refl _, packed, rfl⟩
  | cons size rest ih =>
    obtain ⟨placement, next, later, added, others, rfl⟩ := placeAll_cons placed
    obtain ⟨nextPacked, behind, counted, ended, began, grown, bytes⟩ := addRecord_spec packed added
    have tail := ih nextPacked others
    have filled := nextPacked.filled
    have inner := tail.grown
    refine ⟨congrArg (· + 1) tail.length, .cons ?_ tail.ordered, ?_, ?_, grown.trans inner,
      tail.packed, ?_⟩
    · intro entry member
      change placement.Before size entry.1
      rcases tail.behind entry.1 (List.of_mem_zip member).1 with above | ⟨same, after⟩
      · exact .inl (by omega)
      · exact .inr ⟨by omega, by omega⟩
    · have counts : placement.segmentIndex < last.segmentCount := by omega
      refine List.forall_mem_cons.mpr ⟨⟨counts, began, ?_⟩, tail.inside⟩
      simp only [kPayloadBytes, kSegmentSizeBytes, kSegmentHeaderReservedBytes] at filled ended ⊢
      omega
    · refine List.forall_mem_cons.mpr ⟨behind, fun other member => ?_⟩
      rcases tail.behind other member with above | ⟨same, after⟩
      · exact .inl (by omega)
      · rcases behind with above | ⟨open_, offset⟩
        · exact .inl (by omega)
        · exact .inr ⟨by omega, by omega⟩
    · rw [tail.bytes, bytes, List.sum_cons, Nat.add_assoc]

/-- A Segment count that has room for the bytes is at least the estimate. -/
theorem Packed.estimate (packed : last.Packed) :
    ∃ estimate, durableCompactionOutputSegments last.encodedBytes = .ok estimate ∧
      estimate ≤ last.segmentCount := by
  obtain ⟨filled, countable, unused, bytes⟩ := packed
  unfold durableCompactionOutputSegments
  by_cases none : last.encodedBytes = 0
  · exact ⟨0, if_pos none, Nat.zero_le _⟩
  · have counted := bytes (Nat.pos_of_ne_zero fun zero => none (unused zero))
    generalize extra : (if last.encodedBytes % kPayloadBytes = 0 then 0 else 1) = one
    have enough : last.encodedBytes / kPayloadBytes + one ≤ last.segmentCount ∧
        ¬ last.encodedBytes / kPayloadBytes > kUInt64Max - one := by
      split at extra <;>
        simp only [kPayloadBytes, kSegmentSizeBytes, kSegmentHeaderReservedBytes, kUInt64Max] at * <;>
        omega
    exact ⟨_, by rw [if_neg none, if_neg enough.2], enough.1⟩

end DurableCompactionLayout

/-! ## The files follow the layout -/

/-- An output that takes Records, with the bytes it holds and a bound on their
sequences. -/
structure FillingOutput (output : DurableSegmentFile) (filled sequence : Nat) : Prop where
  healthy : output.healthy = true
  writable : output.writable = true
  active : output.selected.commit.state = .active
  committedEnd : output.selected.commit.committedEnd = kSegmentHeaderReservedBytes + filled
  counted : output.selected.commit.recordCount * kEncodedRecordHeaderSize ≤ filled
  generation : output.persisted.commit.commitGeneration = 1
  latest : output.selected.commit.lastSequence ≤ sequence

namespace FillingOutput

variable {output : DurableSegmentFile} {filled : Nat}

theorem of_create {identity : SegmentHeaderIdentity}
    (created : create identity = .ok output) : FillingOutput output 0 0 := by
  unfold create at created
  split at created
  · exact nomatch created
  · obtain rfl := Except.ok.inj created
    exact ⟨rfl, rfl, rfl, rfl, Nat.le_refl _, rfl, Nat.le_refl _⟩

variable (finished : List DurableSegmentFile) (record : AppendedSpan)

theorem appendTo_fitting (filling : FillingOutput output filled sequence)
    (later : sequence < record.view.sequence)
    (long : kEncodedRecordHeaderSize ≤ record.bytes.length)
    (fits : filled + record.bytes.length ≤ kPayloadBytes) :
    ∃ appended, FillingOutput appended (filled + record.bytes.length) record.view.sequence ∧
      appendTo finished output record.bytes =
        .ok (⟨finished.length, kSegmentHeaderReservedBytes + filled⟩, appended :: finished) := by
  obtain ⟨healthy, writable, active, committedEnd, counted, generation, latest⟩ := filling
  simp only [kPayloadBytes, kSegmentSizeBytes, kSegmentHeaderReservedBytes,
    kEncodedRecordHeaderSize] at *
  have done := appendRecord_done healthy writable active record.decoded
    (by omega) (fun _ => by omega)
    ⟨by simp only [kUInt64Max]; omega, by simp [generation, kUInt64Max]⟩ (by rw [committedEnd, kSegmentSizeBytes]; omega)
  refine ⟨(output.appendRecord record.bytes .done).2, ?_, by rw [appendTo, done, committedEnd]⟩
  rw [done]
  refine ⟨healthy, writable, active, ?_, ?_, generation, Nat.le_refl _⟩
  · simp only [noteAppended, committedEnd, kSegmentHeaderReservedBytes]
    omega
  · simp only [noteAppended, kEncodedRecordHeaderSize]
    omega

theorem appendTo_full (filling : FillingOutput output filled sequence)
    (bounded : filled ≤ kPayloadBytes) (later : sequence < record.view.sequence)
    (full : kPayloadBytes < filled + record.bytes.length) :
    appendTo finished output record.bytes =
      fail .segmentFull "Record does not fit in the Segment" := by
  obtain ⟨healthy, writable, active, committedEnd, counted, generation, latest⟩ := filling
  simp only [kPayloadBytes, kSegmentSizeBytes, kSegmentHeaderReservedBytes,
    kEncodedRecordHeaderSize] at *
  rw [appendTo, appendRecord, if_neg (by simp [healthy]),
    if_neg (by simp [writable]), if_neg (by simp [active])]
  simp only [record.decoded, committedEnd, generation, kUInt64Max, kSegmentSizeBytes]
  rw [if_neg (by omega), if_neg (by omega), if_pos (by omega)]
  rfl

end FillingOutput

section Files

variable {identity : Nat → SegmentHeaderIdentity}
  (valid : ∀ index, ∃ file, create (identity index) = .ok file)
  {outputs : List DurableSegmentFile}

/-- The outputs, newest first, are as far as the layout. -/
structure Mirrors (layout : DurableCompactionLayout) (outputs : List DurableSegmentFile)
    (sequence : Nat) : Prop where
  counted : outputs.length = layout.segmentCount
  newest : ∀ output ∈ outputs.head?, FillingOutput output layout.currentPayloadBytes sequence

include valid

variable {record : AppendedSpan}

theorem appendToFresh_fitting (finished : List DurableSegmentFile)
    (positive : 0 < record.view.sequence) (long : kEncodedRecordHeaderSize ≤ record.bytes.length)
    (fits : record.bytes.length ≤ kPayloadBytes) :
    ∃ appended, FillingOutput appended record.bytes.length record.view.sequence ∧
      appendToFresh identity finished record.bytes =
        .ok (⟨finished.length, kSegmentHeaderReservedBytes⟩, appended :: finished) := by
  obtain ⟨output, created⟩ := valid finished.length
  obtain ⟨appended, filling, done⟩ := (FillingOutput.of_create created).appendTo_fitting finished record
    positive long (by omega)
  refine ⟨appended, by rwa [Nat.zero_add] at filling, ?_⟩
  simp only [appendToFresh, created, done, Nat.add_zero]

theorem Mirrors.copyRecord (mirrors : Mirrors layout outputs sequence) (packed : layout.Packed)
    (later : sequence < record.view.sequence)
    (added : layout.addRecord record.bytes.length = .ok (placement, next)) :
    ∃ after, copyRecord identity outputs record.bytes = .ok (placement, after) ∧
      Mirrors next after record.view.sequence := by
  obtain ⟨counted, newest⟩ := mirrors
  obtain ⟨long, -, ⟨started, fits, placed⟩ | ⟨full, fits, placed⟩⟩ :=
    addRecord_cases packed added
  all_goals
    simp only [place, nextSegment, Prod.mk.injEq] at placed
    obtain ⟨rfl, rfl⟩ := placed
  · cases outputs with
    | nil => exact absurd counted (Nat.ne_of_lt started)
    | cons output finished =>
      obtain ⟨appended, filling, done⟩ := (newest output rfl).appendTo_fitting finished record
        later long fits
      refine ⟨appended :: finished, ?_, counted, fun _ head => Option.some.inj head ▸ filling⟩
      simp only [GlifiStore.copyRecord, done, ← counted, List.length_cons, Nat.add_sub_cancel]
  · obtain ⟨appended, filling, done⟩ := appendToFresh_fitting valid outputs
      (Nat.zero_lt_of_lt later) long fits
    have copied : GlifiStore.copyRecord identity outputs record.bytes =
        appendToFresh identity outputs record.bytes := by
      cases outputs with
      | nil => rfl
      | cons output finished =>
        have unfit := full.resolve_left (by simp [← counted])
        simp only [GlifiStore.copyRecord, (newest output rfl).appendTo_full finished record
          packed.filled later unfit, fail, if_true]
    refine ⟨appended :: outputs, ?_, congrArg (· + 1) counted, fun _ head => ?_⟩
    · rw [copied, done, counted]
      rfl
    · obtain rfl := Option.some.inj head
      simpa using filling

theorem Mirrors.placeAll (mirrors : Mirrors layout outputs sequence) (packed : layout.Packed)
    {records : List AppendedSpan}
    (ascending : (sequence :: records.map fun record => record.view.sequence).Pairwise (· < ·))
    (placed : placeAll addRecord layout
      (records.map fun record => record.bytes.length) = .ok (placements, last)) :
    ∃ after, GlifiStore.placeAll (GlifiStore.copyRecord identity) outputs
      (records.map AppendedSpan.bytes) = .ok (placements, after) ∧
      after.length = last.segmentCount := by
  induction records generalizing layout outputs sequence placements with
  | nil =>
    obtain ⟨rfl, rfl⟩ := Prod.mk.inj (Except.ok.inj placed)
    exact ⟨outputs, rfl, mirrors.counted⟩
  | cons record rest ih =>
    obtain ⟨placement, next, later, added, others, rfl⟩ := placeAll_cons placed
    obtain ⟨above, ascends⟩ := List.pairwise_cons.mp ascending
    obtain ⟨middle, copied, mirrored⟩ := mirrors.copyRecord valid packed
      (above _ List.mem_cons_self) added
    obtain ⟨after, copies, counted⟩ := ih mirrored
      (addRecord_spec packed added).1 ascends others
    refine ⟨after, ?_, counted⟩
    simp only [List.map_cons, GlifiStore.placeAll, copied, copies, Except.map]

end Files

/-- The placements of accepted sizes are in input order and disjoint, lie inside
their Segments, and are where appending such Records to fresh files puts them. -/
theorem compaction_layout_matches_files {sizes : List Nat} {layout : DurableCompactionLayout}
    {placements : List DurableCompactionPlacement}
    (accepted : placeAll DurableCompactionLayout.addRecord .empty sizes =
      .ok (placements, layout)) :
    placements.length = sizes.length ∧
    ((placements.zip sizes).Pairwise fun first second => first.1.Before first.2 second.1) ∧
    (∀ entry ∈ placements.zip sizes, entry.1.segmentIndex < layout.segmentCount ∧
      kSegmentHeaderReservedBytes ≤ entry.1.offset ∧
      entry.1.offset + entry.2 ≤ kSegmentSizeBytes) ∧
    (∀ (identity : Nat → SegmentHeaderIdentity) (records : List AppendedSpan),
      (∀ index, ∃ file, DurableSegmentFile.create (identity index) = .ok file) →
      (records.map fun record => record.bytes.length) = sizes →
      (0 :: records.map fun record => record.view.sequence).Pairwise (· < ·) →
      ∃ outputs, placeAll (copyRecord identity) [] (records.map AppendedSpan.bytes) =
        .ok (placements, outputs) ∧ outputs.length = layout.segmentCount) ∧
    ∃ estimate, durableCompactionOutputSegments sizes.sum = .ok estimate ∧
      estimate ≤ layout.segmentCount := by
  have packed : empty.Packed :=
    ⟨Nat.zero_le _, Nat.zero_le _, fun _ => rfl, nofun⟩
  have placed := placed_of_placeAll packed accepted
  refine ⟨placed.length, placed.ordered, placed.inside, ?_, ?_⟩
  · rintro identity records valid rfl ascending
    exact Mirrors.placeAll valid ⟨rfl, by simp⟩ packed ascending accepted
  · have estimated := placed.packed.estimate
    rwa [placed.bytes, show empty.encodedBytes = 0 from rfl, Nat.zero_add] at estimated

/-- Of 64 Records of the greatest size the last opens a second Segment. -/
theorem compaction_layout_matches_sample :
    ∃ (records : List AppendedSpan) (outputs : List DurableSegmentFile),
      (records.map fun record => record.bytes.length) = List.replicate 64 kMaxNormalRecordSize ∧
      placeAll (copyRecord fun _ => sampleIdentity) [] (records.map AppendedSpan.bytes) =
        .ok ((List.range 63).map (fun index => ⟨0, 4096 + index * kMaxNormalRecordSize⟩) ++
          [⟨1, 4096⟩], outputs) ∧ outputs.length = 2 := by
  have large (index : Fin 64) : ∃ record : StoredRecord,
      record.view.sequence = index + 1 ∧ record.bytes.length = kMaxNormalRecordSize := by
    obtain ⟨record, view, length⟩ := @exists_storedRecord
      ⟨index + 1, .put, .bytes, 0, 0, 0, [1], List.replicate (kMaxNormalRecordSize - 57) 0,
        by omega, by decide, by decide, by decide⟩ kMaxNormalRecordSize
      (encodedRecordSize_eq_ok
        (by simp only [List.length_replicate, List.length_cons, List.length_nil]; decide)
        (Nat.le_refl _))
    exact ⟨record, by rw [view]; rfl, length⟩
  choose record sequence length using large
  have laid := compaction_layout_matches_files (show placeAll addRecord .empty
    (List.replicate 64 kMaxNormalRecordSize) = .ok ((List.range 63).map (fun index =>
      ⟨0, 4096 + index * kMaxNormalRecordSize⟩) ++ [⟨1, 4096⟩],
      ⟨64 * kMaxNormalRecordSize, 2, kMaxNormalRecordSize⟩) by decide +kernel)
  have sizes : (((List.finRange 64).map fun index => (record index).span).map fun record =>
      record.bytes.length) = List.replicate 64 kMaxNormalRecordSize := by
    rw [List.map_map]
    exact List.eq_replicate_iff.mpr ⟨by simp, by simp [StoredRecord.span, length]⟩
  obtain ⟨outputs, copied⟩ := laid.2.2.2.1 (fun _ => sampleIdentity) _
    (fun _ => ⟨_, sampleFile_created⟩) sizes (by
      simp only [List.map_map, Function.comp_def, StoredRecord.span, sequence]
      decide)
  exact ⟨_, outputs, sizes, copied⟩

end GlifiStore
