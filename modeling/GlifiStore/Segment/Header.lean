import GlifiStore.Segment.Record

/-!
# Segment headers

The first 4096 bytes of a Segment file: an immutable identity block and two
commit slots, each under its own CRC32C.
-/

namespace GlifiStore

open ByteLayout

def kSegmentHeaderMagic : Nat := 0x48594C47
def kSegmentCommitMagic : Nat := 0x43594C47
def kSegmentHeaderFormatVersion : Nat := 1
def kSegmentFormatVersion : Nat := 1
def kSegmentCommitFormatVersion : Nat := 1
def kSegmentImmutableHeaderBytes : Nat := 128
def kSegmentCommitSlotBytes : Nat := 128
def kSegmentCommitSlotCount : Nat := 2
def kSegmentCommitSlotsOffset : Nat := kSegmentImmutableHeaderBytes
def kImmutableChecksumOffset : Nat := 52
def kCommitChecksumOffset : Nat := 48

inductive PersistedSegmentState where
  | active
  | sealed
  deriving DecidableEq, Repr

def PersistedSegmentState.raw : PersistedSegmentState → Nat
  | .active => 1
  | .sealed => 2

def PersistedSegmentState.ofRaw? : Nat → Option PersistedSegmentState
  | 1 => some .active
  | 2 => some .sealed
  | _ => none

@[simp]
theorem PersistedSegmentState.ofRaw?_raw (state : PersistedSegmentState) :
    PersistedSegmentState.ofRaw? state.raw = some state := by
  cases state <;> rfl

theorem PersistedSegmentState.raw_lt (state : PersistedSegmentState) : state.raw < 256 ^ 2 := by
  cases state <;> decide

/-- The identity of a Segment, each field within the width of its type. -/
structure SegmentHeaderIdentity where
  storeId : Bytes
  segmentId : Nat
  generation : Nat
  ownerWorker : Nat
  storeIdSize : storeId.length = 16
  segmentIdFits : segmentId < 256 ^ 8
  generationFits : generation < 256 ^ 4
  ownerFits : ownerWorker < 256 ^ 4
  deriving DecidableEq

theorem length_ones : (List.replicate 16 (1 : UInt8)).length = 16 := rfl

structure SegmentCommit where
  commitGeneration : Nat
  committedEnd : Nat
  state : PersistedSegmentState
  recordCount : Nat
  firstSequence : Nat
  lastSequence : Nat
  deriving DecidableEq, Repr

inductive DecodedCommitSlot where
  | empty
  | invalid
  | valid (commit : SegmentCommit)
  deriving DecidableEq, Repr

structure DecodedSegmentHeader where
  identity : SegmentHeaderIdentity
  slots : List DecodedCommitSlot

structure SelectedSegmentCommit where
  slotIndex : Nat
  commit : SegmentCommit
  deriving DecidableEq, Repr

/-- `checksum_with_zeroed_field<Size>`. -/
def checksumWithZeroedField (size : Nat) (bytes : Bytes) (checksumOffset : Nat) : Nat :=
  (crc32c (blit (bytes.take size) checksumOffset (List.replicate 4 0))).toNat

variable (identity : SegmentHeaderIdentity)

def validateIdentity : Status :=
  if allZero identity.storeId then
    fail .invalidArgument "segment store id cannot be all zero"
  else if identity.segmentId = 0 ∨ identity.generation = 0 then
    fail .invalidArgument "segment id and generation must be non-zero"
  else
    .ok ()

variable (commit : SegmentCommit)

/-- `validate_commit`. The enumeration leaves no unknown state to reject. -/
def validateCommit : Status :=
  if commit.commitGeneration = 0 then
    fail .invalidArgument "commit generation must be non-zero"
  else if commit.committedEnd < kSegmentHeaderReservedBytes ∨
      commit.committedEnd > kSegmentSizeBytes ∨ commit.committedEnd % kRecordAlignment ≠ 0 then
    fail .invalidArgument "committed segment extent is invalid"
  else if commit.recordCount = 0 then
    if commit.committedEnd ≠ kSegmentHeaderReservedBytes ∨ commit.firstSequence ≠ 0 ∨
        commit.lastSequence ≠ 0 then
      fail .invalidArgument "empty commit metadata is inconsistent"
    else
      .ok ()
  else if commit.committedEnd = kSegmentHeaderReservedBytes ∨ commit.firstSequence = 0 ∨
      commit.lastSequence < commit.firstSequence then
    fail .invalidArgument "non-empty commit metadata is inconsistent"
  else
    .ok ()

def commitFields : List (Nat × Bytes) :=
  [(0, encodeLE 4 kSegmentCommitMagic),
    (4, encodeLE 2 kSegmentCommitFormatVersion),
    (6, encodeLE 2 kSegmentCommitSlotBytes),
    (8, encodeLE 8 commit.commitGeneration),
    (16, encodeLE 4 commit.committedEnd),
    (20, encodeLE 2 commit.state.raw),
    (22, encodeLE 2 0),
    (24, encodeLE 8 commit.recordCount),
    (32, encodeLE 8 commit.firstSequence),
    (40, encodeLE 8 commit.lastSequence)]

def commitSlotBytes : Bytes :=
  let body := blitAll (List.replicate kSegmentCommitSlotBytes 0) (commitFields commit)
  putLE 4 body kCommitChecksumOffset
    (checksumWithZeroedField kSegmentCommitSlotBytes body kCommitChecksumOffset)

/-- `encode_segment_commit_slot` into a buffer of the slot's size. -/
def encodeSegmentCommitSlot : Result Bytes :=
  match validateCommit commit with
  | .error error => .error error
  | .ok () => .ok (commitSlotBytes commit)

def decodeSegmentCommitSlot (bytes : Bytes) : Result DecodedCommitSlot :=
  if bytes.length < kSegmentCommitSlotBytes then
    fail .invalidRecord "commit slot is truncated"
  else
    let encoded := bytes.take kSegmentCommitSlotBytes
    if allZero encoded then
      .ok .empty
    else if getLE 4 encoded 0 ≠ kSegmentCommitMagic ∨
        getLE 2 encoded 6 ≠ kSegmentCommitSlotBytes then
      .ok .invalid
    else if getLE 4 encoded kCommitChecksumOffset ≠
        checksumWithZeroedField kSegmentCommitSlotBytes encoded kCommitChecksumOffset then
      .ok .invalid
    else if getLE 2 encoded 4 ≠ kSegmentCommitFormatVersion then
      fail .invalidRecord "unsupported commit slot format version"
    else if getLE 2 encoded 22 ≠ 0 ∨ ¬ allZero (encoded.drop 52) then
      .ok .invalid
    else
      match PersistedSegmentState.ofRaw? (getLE 2 encoded 20) with
      | none => .ok .invalid
      | some state =>
        let commit : SegmentCommit :=
          { commitGeneration := getLE 8 encoded 8
            committedEnd := getLE 4 encoded 16
            state := state
            recordCount := getLE 8 encoded 24
            firstSequence := getLE 8 encoded 32
            lastSequence := getLE 8 encoded 40 }
        match validateCommit commit with
        | .error _ => .ok .invalid
        | .ok () => .ok (.valid commit)

def headerFields : List (Nat × Bytes) :=
  [(0, encodeLE 4 kSegmentHeaderMagic),
    (4, encodeLE 2 kSegmentHeaderFormatVersion),
    (6, encodeLE 2 kSegmentImmutableHeaderBytes),
    (8, encodeLE 2 kSegmentFormatVersion),
    (10, encodeLE 2 kRecordFormatVersion),
    (12, encodeLE 4 kSegmentHeaderReservedBytes),
    (16, identity.storeId),
    (32, encodeLE 8 identity.segmentId),
    (40, encodeLE 4 identity.generation),
    (44, encodeLE 4 identity.ownerWorker),
    (48, encodeLE 4 0)]

/-- The header bytes before the commit slots are placed. -/
def identityBytes : Bytes :=
  let body := blitAll (List.replicate kSegmentHeaderReservedBytes 0) (headerFields identity)
  putLE 4 body kImmutableChecksumOffset
    (checksumWithZeroedField kSegmentImmutableHeaderBytes body kImmutableChecksumOffset)

def slotOffset (index : Nat) : Nat :=
  kSegmentCommitSlotsOffset + index * kSegmentCommitSlotBytes

/-- The loop of `encode_segment_header` over the commits, from a slot index on. -/
def encodeSlots (encoded : Bytes) (index : Nat) : List (Option SegmentCommit) → Result Bytes
  | [] => .ok encoded
  | none :: rest => encodeSlots encoded (index + 1) rest
  | some commit :: rest =>
    match encodeSegmentCommitSlot commit with
    | .error error => .error error
    | .ok slot => encodeSlots (blit encoded (slotOffset index) slot) (index + 1) rest

/-- `encode_segment_header` into a buffer of the reserved size. -/
def encodeSegmentHeader (first second : Option SegmentCommit) : Result Bytes :=
  match validateIdentity identity with
  | .error error => .error error
  | .ok () =>
    match first, second with
    | some left, some right =>
      if left.commitGeneration = right.commitGeneration ∧ left ≠ right then
        fail .invalidArgument "equal commit generations contain different metadata"
      else
        encodeSlots (identityBytes identity) 0 [first, second]
    | _, _ => encodeSlots (identityBytes identity) 0 [first, second]

/-- The loop of `decode_segment_header` over the slots, from a slot index on. -/
def decodeSlots (encoded : Bytes) (index : Nat) : Nat → Result (List DecodedCommitSlot)
  | 0 => .ok []
  | count + 1 =>
    match decodeSegmentCommitSlot (slice encoded (slotOffset index) kSegmentCommitSlotBytes) with
    | .error error => .error error
    | .ok slot =>
      match decodeSlots encoded (index + 1) count with
      | .error error => .error error
      | .ok rest => .ok (slot :: rest)

def decodeSegmentHeader (bytes : Bytes) : Result DecodedSegmentHeader :=
  if truncated : bytes.length < kSegmentHeaderReservedBytes then
    fail .invalidRecord "segment header is truncated"
  else
    let encoded := bytes.take kSegmentHeaderReservedBytes
    if getLE 4 encoded 0 ≠ kSegmentHeaderMagic ∨ getLE 2 encoded 4 ≠ kSegmentHeaderFormatVersion ∨
        getLE 2 encoded 6 ≠ kSegmentImmutableHeaderBytes ∨
        getLE 2 encoded 8 ≠ kSegmentFormatVersion ∨ getLE 2 encoded 10 ≠ kRecordFormatVersion ∨
        getLE 4 encoded 12 ≠ kSegmentHeaderReservedBytes ∨ getLE 4 encoded 48 ≠ 0 ∨
        ¬ allZero (slice encoded 56 (kSegmentImmutableHeaderBytes - 56)) ∨
        ¬ allZero (encoded.drop (slotOffset kSegmentCommitSlotCount)) then
      fail .invalidRecord "segment header fields or reserved bytes are invalid"
    else if getLE 4 encoded kImmutableChecksumOffset ≠
        checksumWithZeroedField kSegmentImmutableHeaderBytes encoded kImmutableChecksumOffset then
      fail .checksumMismatch "segment identity checksum mismatch"
    else
      let identity : SegmentHeaderIdentity :=
        { storeId := slice encoded 16 16
          segmentId := getLE 8 encoded 32
          generation := getLE 4 encoded 40
          ownerWorker := getLE 4 encoded 44
          storeIdSize := by
            simp only [encoded, kSegmentHeaderReservedBytes] at truncated ⊢
            apply length_slice
            simp only [List.length_take]
            omega
          segmentIdFits := getLE_lt 8 encoded 32
          generationFits := getLE_lt 4 encoded 40
          ownerFits := getLE_lt 4 encoded 44 }
      match validateIdentity identity with
      | .error _ => fail .invalidRecord "segment identity values are invalid"
      | .ok () =>
        match decodeSlots encoded 0 kSegmentCommitSlotCount with
        | .error error => .error error
        | .ok slots => .ok { identity := identity, slots := slots }

/-- The loop of `select_newest_segment_commit`, from a slot index on. -/
def selectFrom (index : Nat) (selected : Option SelectedSegmentCommit) :
    List DecodedCommitSlot → Result SelectedSegmentCommit
  | [] =>
    match selected with
    | none => fail .corruptedData "segment header has no valid commit slot"
    | some best => .ok best
  | .valid commit :: rest =>
    match selected with
    | none => selectFrom (index + 1) (some ⟨index, commit⟩) rest
    | some best =>
      if commit.commitGeneration > best.commit.commitGeneration then
        selectFrom (index + 1) (some ⟨index, commit⟩) rest
      else if commit.commitGeneration = best.commit.commitGeneration ∧ commit ≠ best.commit then
        fail .corruptedData "equal commit generations contain conflicting metadata"
      else
        selectFrom (index + 1) selected rest
  | _ :: rest => selectFrom (index + 1) selected rest

def selectNewestSegmentCommit (header : DecodedSegmentHeader) : Result SelectedSegmentCommit :=
  selectFrom 0 none header.slots

/-! ## Checksums -/

variable {size offset : Nat}

theorem checksumWithZeroedField_congr {left right : Bytes}
    (before : slice left 0 offset = slice right 0 offset)
    (after : slice left (offset + 4) (size - (offset + 4)) =
      slice right (offset + 4) (size - (offset + 4))) (inside : offset + 4 ≤ size) :
    checksumWithZeroedField size left offset = checksumWithZeroedField size right offset := by
  have split : ∀ bytes : Bytes, blit (bytes.take size) offset (List.replicate 4 0) =
      slice bytes 0 offset ++ List.replicate 4 0 ++
        slice bytes (offset + 4) (size - (offset + 4)) := by
    intro bytes
    simp only [blit, slice, List.length_replicate, List.take_take, List.drop_zero,
      Nat.min_eq_left (show offset ≤ size by omega), List.drop_take]
  rw [checksumWithZeroedField, checksumWithZeroedField, split, split, before, after]

theorem checksumWithZeroedField_lt (size : Nat) (bytes : Bytes) (offset : Nat) :
    checksumWithZeroedField size bytes offset < 256 ^ 4 :=
  UInt32.toNat_lt _

variable {bytes : Bytes}

theorem checksumWithZeroedField_putLE {value : Nat} (inside : offset + 4 ≤ size)
    (fits : offset + 4 ≤ bytes.length) :
    checksumWithZeroedField size (putLE 4 bytes offset value) offset =
      checksumWithZeroedField size bytes offset :=
  checksumWithZeroedField_congr (slice_putLE_of_disjoint fits (.inl (by omega)))
    (slice_putLE_of_disjoint fits (.inr (by omega))) inside

/-! ## Commit slots -/

structure SegmentCommit.Fits (commit : SegmentCommit) : Prop where
  generation : commit.commitGeneration < 256 ^ 8
  count : commit.recordCount < 256 ^ 8
  first : commit.firstSequence < 256 ^ 8
  last : commit.lastSequence < 256 ^ 8

theorem getLE_of_allZero (zero : allZero bytes = true) (width start : Nat) :
    getLE width bytes start = 0 := by
  have entries : ∀ byte ∈ slice bytes start width, byte = 0 := by
    intro byte member
    have inside : byte ∈ bytes := List.mem_of_mem_drop (List.mem_of_mem_take member)
    simpa [allZero] using List.all_eq_true.mp zero byte inside
  rw [getLE]
  generalize slice bytes start width = window at entries
  induction window with
  | nil => rfl
  | cons byte rest ih =>
    rw [decodeLE, ih fun other member => entries other (List.mem_cons_of_mem _ member),
      entries byte List.mem_cons_self]
    rfl

variable {field : Nat × Bytes}

section Slots

variable {commit : SegmentCommit}

private theorem commitFields_below (member : field ∈ commitFields commit) :
    field.1 + field.2.length ≤ kCommitChecksumOffset := by
  simp only [commitFields, List.mem_cons, List.not_mem_nil, or_false] at member
  rcases member with rfl | rfl | rfl | rfl | rfl | rfl | rfl | rfl | rfl | rfl <;>
    simp [kCommitChecksumOffset]

private theorem commitFields_apart : (commitFields commit).Pairwise Apart := by
  apply pairwise_apart_of_isChain
  simp [commitFields]

private theorem uncovered_commitFields {i : Nat} :
    Uncovered (commitFields commit) i ↔ kCommitChecksumOffset ≤ i := by
  simp only [Uncovered, commitFields, List.forall_mem_cons, length_encodeLE, List.not_mem_nil,
    false_implies, implies_true, and_true, kCommitChecksumOffset]
  omega

/-- An image is the slot of a commit exactly when it holds the fields, zeros
behind the checksum and the checksum of its own bytes. -/
theorem eq_commitSlotBytes_iff :
    bytes = commitSlotBytes commit ↔
      bytes.length = kSegmentCommitSlotBytes ∧
      (∀ field ∈ commitFields commit, slice bytes field.1 field.2.length = field.2) ∧
      allZero (bytes.drop 52) = true ∧
      getLE 4 bytes kCommitChecksumOffset =
        checksumWithZeroedField kSegmentCommitSlotBytes bytes kCommitChecksumOffset := by
  have layout : bytes = commitSlotBytes commit ↔ _ :=
    @eq_checksummed_iff 4 kCommitChecksumOffset kSegmentCommitSlotBytes (commitFields commit) bytes
      (fun other => checksumWithZeroedField kSegmentCommitSlotBytes other kCommitChecksumOffset)
      (fun other => checksumWithZeroedField_lt _ other _)
      (fun field member => Nat.le_trans (commitFields_below member) (by decide)) commitFields_apart
      (fun field member => .inr (.inl (commitFields_below member))) (by decide)
  have tail (length : bytes.length = kSegmentCommitSlotBytes) :
      allZero (bytes.drop 52) = true ↔ ZeroRange bytes 52 76 := by
    rw [drop_eq_slice, length]
    exact allZero_slice_iff (by rw [length]; decide)
  have checksum (length : bytes.length = kSegmentCommitSlotBytes) :
      checksumWithZeroedField kSegmentCommitSlotBytes (putLE 4 bytes kCommitChecksumOffset 0)
        kCommitChecksumOffset =
        checksumWithZeroedField kSegmentCommitSlotBytes bytes kCommitChecksumOffset :=
    checksumWithZeroedField_putLE (by decide) (by rw [length]; decide)
  rw [layout, readsAs_iff_of_apart (fun field member => .inl (commitFields_below member)) (by decide)]
  simp only [and_assoc]
  refine and_congr_right fun length => and_congr_right fun _ => ?_
  rw [tail length, checksum length]
  refine and_congr_left fun _ => ⟨fun rest i low high => ?_, fun zero i inside uncovered outside => ?_⟩
  · exact rest i high (uncovered_commitFields.mpr (by simp only [kCommitChecksumOffset]; omega))
      (.inr low)
  · have low := uncovered_commitFields.mp uncovered
    simp only [kCommitChecksumOffset, kSegmentCommitSlotBytes] at low inside outside
    exact zero i (by omega) (by omega)

theorem length_commitSlotBytes : (commitSlotBytes commit).length = kSegmentCommitSlotBytes :=
  (eq_commitSlotBytes_iff.mp rfl).1

private theorem commitFields_iff (length : bytes.length = 128) (fits : commit.Fits)
    (extent : commit.committedEnd < 256 ^ 4) :
    (∀ field ∈ commitFields commit, slice bytes field.1 field.2.length = field.2) ↔
      getLE 4 bytes 0 = kSegmentCommitMagic ∧ getLE 2 bytes 4 = kSegmentCommitFormatVersion ∧
      getLE 2 bytes 6 = kSegmentCommitSlotBytes ∧ getLE 8 bytes 8 = commit.commitGeneration ∧
      getLE 4 bytes 16 = commit.committedEnd ∧ getLE 2 bytes 20 = commit.state.raw ∧
      getLE 2 bytes 22 = 0 ∧ getLE 8 bytes 24 = commit.recordCount ∧
      getLE 8 bytes 32 = commit.firstSequence ∧ getLE 8 bytes 40 = commit.lastSequence := by
  simp only [commitFields, List.forall_mem_cons, List.not_mem_nil, false_implies, implies_true,
    and_true]
  obtain ⟨generation, count, first, last⟩ := fits
  have state := commit.state.raw_lt
  simp (disch := first | omega | decide) only [slice_field_iff]

end Slots

variable {commit : SegmentCommit}

theorem validateCommit_ok_iff :
    validateCommit commit = .ok () ↔
      commit.commitGeneration ≠ 0 ∧
      (kSegmentHeaderReservedBytes ≤ commit.committedEnd ∧
        commit.committedEnd ≤ kSegmentSizeBytes ∧ commit.committedEnd % kRecordAlignment = 0) ∧
      ((commit.recordCount = 0 ∧ commit.committedEnd = kSegmentHeaderReservedBytes ∧
          commit.firstSequence = 0 ∧ commit.lastSequence = 0) ∨
        (commit.recordCount ≠ 0 ∧ commit.committedEnd ≠ kSegmentHeaderReservedBytes ∧
          commit.firstSequence ≠ 0 ∧ commit.firstSequence ≤ commit.lastSequence)) := by
  fun_cases validateCommit commit <;> simp only [fail, reduceCtorEq, false_iff, true_iff] <;> omega

theorem PersistedSegmentState.raw_of_ofRaw? {raw : Nat} {state : PersistedSegmentState}
    (known : PersistedSegmentState.ofRaw? raw = some state) : state.raw = raw := by
  revert known
  fun_cases PersistedSegmentState.ofRaw? raw with
  | case3 => nofun
  | _ =>
    rintro ⟨⟩
    rfl

/-- A slot image is accepted exactly when it is the encoding of a valid commit,
which it then decodes to. -/
theorem decodeSegmentCommitSlot_valid_iff :
    decodeSegmentCommitSlot bytes = .ok (.valid commit) ↔
      validateCommit commit = .ok () ∧ commit.Fits ∧
        bytes.take kSegmentCommitSlotBytes = commitSlotBytes commit := by
  constructor
  · fun_cases decodeSegmentCommitSlot bytes with
    | case9 long image _ magic checksum version reserved state known built valid =>
      intro accepted
      obtain rfl := DecodedCommitSlot.valid.inj (Except.ok.inj accepted)
      have length : image.length = kSegmentCommitSlotBytes := by
        rw [List.length_take]
        omega
      simp only [not_or, ne_eq, not_not] at magic checksum version reserved
      have fits : built.Fits :=
        ⟨getLE_lt 8 image 8, getLE_lt 8 image 24, getLE_lt 8 image 32, getLE_lt 8 image 40⟩
      refine ⟨valid, fits, eq_commitSlotBytes_iff.mpr ⟨length, ?_, reserved.2, checksum⟩⟩
      exact (commitFields_iff length fits (getLE_lt 4 image 16)).mpr ⟨magic.1, version, magic.2, rfl,
        rfl, (PersistedSegmentState.raw_of_ofRaw? known).symm, reserved.1, rfl, rfl, rfl⟩
    | _ => nofun
  · rintro ⟨valid, fits, image⟩
    obtain ⟨length, read, zero, checksum⟩ := eq_commitSlotBytes_iff.mp image
    have extent : commit.committedEnd < 256 ^ 4 := by
      have bound := (validateCommit_ok_iff.mp valid).2.1.2.1
      simp only [kSegmentSizeBytes] at bound
      omega
    have long : ¬ bytes.length < kSegmentCommitSlotBytes := by
      rw [List.length_take] at length
      omega
    obtain ⟨magic, version, size, generation, ending, state, reserved, count, first, last⟩ :=
      (commitFields_iff length fits extent).mp read
    have nonzero : ¬ allZero (bytes.take kSegmentCommitSlotBytes) = true := by
      intro blank
      rw [getLE_of_allZero blank] at magic
      simp [kSegmentCommitMagic] at magic
    unfold decodeSegmentCommitSlot
    simp only [if_neg long, if_neg nonzero, magic, version, size, generation, ending, state, reserved,
      count, first, last, zero, ← checksum, ne_eq, not_true_eq_false, or_self, if_false,
      PersistedSegmentState.ofRaw?_raw, valid]

theorem decodeSegmentCommitSlot_commitSlotBytes (valid : validateCommit commit = .ok ())
    (fits : commit.Fits) :
    decodeSegmentCommitSlot (commitSlotBytes commit) = .ok (.valid commit) :=
  decodeSegmentCommitSlot_valid_iff.mpr
    ⟨valid, fits, List.take_of_length_le (Nat.le_of_eq length_commitSlotBytes)⟩

/-! ## Header identity -/

variable {count : Nat}

section Identity

variable {identity : SegmentHeaderIdentity}

private theorem headerFields_below (member : field ∈ headerFields identity) :
    field.1 + field.2.length ≤ kImmutableChecksumOffset := by
  simp only [headerFields, List.mem_cons, List.not_mem_nil, or_false] at member
  rcases member with rfl | rfl | rfl | rfl | rfl | rfl | rfl | rfl | rfl | rfl | rfl <;>
    simp [kImmutableChecksumOffset, identity.storeIdSize]

private theorem headerFields_apart : (headerFields identity).Pairwise Apart := by
  apply pairwise_apart_of_isChain
  simp [headerFields, identity.storeIdSize]

theorem identityBytes_reads : (identityBytes identity).length = kSegmentHeaderReservedBytes ∧
    (∀ field ∈ headerFields identity,
      slice (identityBytes identity) field.1 field.2.length = field.2) ∧
    ZeroRange (identityBytes identity) 56 (kSegmentHeaderReservedBytes - 56) ∧
    getLE 4 (identityBytes identity) kImmutableChecksumOffset =
      checksumWithZeroedField kSegmentImmutableHeaderBytes (identityBytes identity)
        kImmutableChecksumOffset := by
  obtain ⟨reads, stored⟩ := (@eq_checksummed_iff 4 kImmutableChecksumOffset
    kSegmentHeaderReservedBytes (headerFields identity) (identityBytes identity)
    (fun other => checksumWithZeroedField kSegmentImmutableHeaderBytes other kImmutableChecksumOffset)
    (fun other => checksumWithZeroedField_lt _ other _)
    (fun field member => Nat.le_trans (headerFields_below member) (by decide)) headerFields_apart
    (fun field member => .inr (.inl (headerFields_below member))) (by decide)).mp rfl
  obtain ⟨length, read, rest⟩ := (readsAs_iff_of_apart
    (fun field member => .inl (headerFields_below member)) (by decide)).mp reads
  refine ⟨length, read, fun i low high => ?_, ?_⟩
  · simp only [kSegmentHeaderReservedBytes, kImmutableChecksumOffset] at high rest
    exact rest i (by omega) (fun field member => .inr
      (Nat.le_trans (headerFields_below member) (by simp only [kImmutableChecksumOffset]; omega)))
      (.inr low)
  · rw [stored, checksumWithZeroedField_putLE (by decide) (by rw [length]; decide)]

theorem length_identityBytes : (identityBytes identity).length = kSegmentHeaderReservedBytes :=
  identityBytes_reads.1

theorem slice_identityBytes_zero {start : Nat} (after : 56 ≤ start)
    (inside : start + count ≤ kSegmentHeaderReservedBytes) :
    slice (identityBytes identity) start count = List.replicate count 0 := by
  refine List.ext_getElem? fun i => ?_
  rw [getElem?_slice, List.getElem?_replicate]
  by_cases low : i < count
  · rw [if_pos low, if_pos low, identityBytes_reads.2.2.1 _ (by omega) (by omega)]
  · rw [if_neg low, if_neg low]

end Identity

theorem allZero_replicate (count : Nat) : allZero (List.replicate count 0) = true := by
  simp [allZero]

theorem decodeSegmentCommitSlot_zero :
    decodeSegmentCommitSlot (List.replicate kSegmentCommitSlotBytes 0) = .ok .empty := by
  have length : ¬ (List.replicate kSegmentCommitSlotBytes (0 : UInt8)).length <
      kSegmentCommitSlotBytes := by
    rw [List.length_replicate]
    exact Nat.lt_irrefl _
  unfold decodeSegmentCommitSlot
  rw [if_neg length]
  simp only [List.take_replicate, allZero_replicate, Nat.min_self, if_true]

variable {slots : List DecodedCommitSlot}

theorem decodeSegmentHeader_of_identity {identity : SegmentHeaderIdentity}
    (valid : validateIdentity identity = .ok ())
    (length : bytes.length = kSegmentHeaderReservedBytes)
    (block : bytes.take kSegmentImmutableHeaderBytes =
      (identityBytes identity).take kSegmentImmutableHeaderBytes)
    (rest : allZero (bytes.drop (slotOffset kSegmentCommitSlotCount)) = true)
    (decoded : decodeSlots bytes 0 kSegmentCommitSlotCount = .ok slots) :
    decodeSegmentHeader bytes = .ok { identity := identity, slots := slots } := by
  have whole : bytes.take kSegmentHeaderReservedBytes = bytes :=
    List.take_of_length_le (Nat.le_of_eq length)
  have same : ∀ start count, start + count ≤ kSegmentImmutableHeaderBytes →
      slice bytes start count = slice (identityBytes identity) start count :=
    fun start count inside => slice_eq_of_take_eq block inside
  have fields : ∀ field ∈ headerFields identity, slice bytes field.1 field.2.length = field.2 :=
    fun field member => (same _ _ (Nat.le_trans (headerFields_below member) (by decide))).trans
      (identityBytes_reads.2.1 field member)
  have long : bytes.length = 4096 := length
  simp only [headerFields, List.forall_mem_cons, List.not_mem_nil, false_implies, implies_true,
    and_true, identity.storeIdSize] at fields
  have idFits := identity.segmentIdFits
  have generationFits := identity.generationFits
  have ownerFits := identity.ownerFits
  simp (disch := first | omega | decide) only [slice_field_iff] at fields
  obtain ⟨magic, version, blockSize, segmentVersion, recordVersion, reserved, storeId, segmentId,
    generation, owner, zero⟩ := fields
  have padding : allZero (slice bytes 56 (kSegmentImmutableHeaderBytes - 56)) = true := by
    rw [same 56 _ (by decide), slice_identityBytes_zero (Nat.le_refl _) (by decide)]
    exact allZero_replicate _
  have checksum : getLE 4 bytes kImmutableChecksumOffset =
      checksumWithZeroedField kSegmentImmutableHeaderBytes bytes kImmutableChecksumOffset := by
    rw [getLE_congr (same kImmutableChecksumOffset 4 (by decide)), identityBytes_reads.2.2.2]
    exact checksumWithZeroedField_congr (same _ _ (by decide)).symm (same _ _ (by decide)).symm
      (by decide)
  unfold decodeSegmentHeader
  rw [dif_neg (by omega)]
  simp only [whole, magic, version, blockSize, segmentVersion, recordVersion, reserved, zero, padding,
    rest, checksum, decoded, ne_eq, not_true_eq_false, or_self, if_false, storeId, segmentId,
    generation, owner]
  rw [show validateIdentity _ = .ok () from valid]

theorem decodeSlots_two {first second : DecodedCommitSlot}
    (firstDecoded : decodeSegmentCommitSlot (slice bytes (slotOffset 0) kSegmentCommitSlotBytes) =
      .ok first)
    (secondDecoded : decodeSegmentCommitSlot (slice bytes (slotOffset 1) kSegmentCommitSlotBytes) =
      .ok second) :
    decodeSlots bytes 0 kSegmentCommitSlotCount = .ok [first, second] := by
  simp only [kSegmentCommitSlotCount, decodeSlots, firstDecoded, secondDecoded]

/-! ## Selection -/

/-- Two slots claim one commit generation for different commits. -/
def Conflicting (left right : DecodedCommitSlot) : Prop :=
  ∃ first second, left = .valid first ∧ right = .valid second ∧
    first.commitGeneration = second.commitGeneration ∧ first ≠ second

section Selection

variable {identity : SegmentHeaderIdentity} {left right : DecodedCommitSlot}

theorem select_left (damaged : ∀ other, right ≠ .valid other) :
    selectNewestSegmentCommit ⟨identity, [.valid commit, right]⟩ = .ok ⟨0, commit⟩ := by
  cases right with
  | valid other => exact absurd rfl (damaged other)
  | empty => rfl
  | invalid => rfl

theorem select_right (damaged : ∀ other, left ≠ .valid other) :
    selectNewestSegmentCommit ⟨identity, [left, .valid commit]⟩ = .ok ⟨1, commit⟩ := by
  cases left with
  | valid other => exact absurd rfl (damaged other)
  | empty => rfl
  | invalid => rfl

theorem select_both (first second : SegmentCommit) :
    selectNewestSegmentCommit ⟨identity, [.valid first, .valid second]⟩ =
      if second.commitGeneration > first.commitGeneration then
        .ok ⟨1, second⟩
      else if second.commitGeneration = first.commitGeneration ∧ second ≠ first then
        fail .corruptedData "equal commit generations contain conflicting metadata"
      else
        .ok ⟨0, first⟩ := rfl

/-- A conflict is reported exactly for two valid slots with one generation and
different commits. -/
theorem select_conflict_iff :
    selectNewestSegmentCommit ⟨identity, [left, right]⟩ =
        fail .corruptedData "equal commit generations contain conflicting metadata" ↔
      Conflicting left right := by
  constructor
  · intro failed
    cases left with
    | valid first =>
      cases right with
      | valid second =>
        rw [select_both] at failed
        split at failed
        · simp [fail] at failed
        split at failed
        · next same => exact ⟨first, second, rfl, rfl, same.1.symm, same.2.symm⟩
        · simp [fail] at failed
      | _ => simp [selectNewestSegmentCommit, selectFrom, fail] at failed
    | _ => cases right <;> simp [selectNewestSegmentCommit, selectFrom, fail] at failed
  · rintro ⟨first, second, rfl, rfl, same, different⟩
    rw [select_both, if_neg (by omega), if_pos ⟨same.symm, different.symm⟩]

/-- Without a conflict a valid slot of the greatest generation is selected. -/
theorem select_greatest (agree : ¬ Conflicting left right)
    (present : ∃ commit, .valid commit ∈ [left, right]) :
    ∃ selected, selectNewestSegmentCommit ⟨identity, [left, right]⟩ = .ok selected ∧
      [left, right][selected.slotIndex]? = some (.valid selected.commit) ∧
      ∀ commit, .valid commit ∈ [left, right] →
        commit.commitGeneration ≤ selected.commit.commitGeneration := by
  cases left with
  | valid first =>
    cases right with
    | valid second =>
      have member (bound : Nat) (left : first.commitGeneration ≤ bound)
          (right : second.commitGeneration ≤ bound) :
          ∀ commit, .valid commit ∈ [DecodedCommitSlot.valid first, .valid second] →
            commit.commitGeneration ≤ bound := by
        simp [left, right]
      rw [select_both]
      by_cases newer : second.commitGeneration > first.commitGeneration
      · rw [if_pos newer]
        exact ⟨_, rfl, rfl, member _ (Nat.le_of_lt newer) (Nat.le_refl _)⟩
      · rw [if_neg newer, if_neg fun same => agree ⟨first, second, rfl, rfl, same.1.symm, same.2.symm⟩]
        exact ⟨_, rfl, rfl, member _ (Nat.le_refl _) (Nat.le_of_not_lt newer)⟩
    | _ => exact ⟨_, select_left nofun, rfl, by simp⟩
  | _ =>
    cases right with
    | valid second => exact ⟨_, select_right nofun, rfl, by simp⟩
    | _ => simp at present

theorem select_swap :
    (selectNewestSegmentCommit ⟨identity, [left, right]⟩).map (·.commit) =
      (selectNewestSegmentCommit ⟨identity, [right, left]⟩).map (·.commit) := by
  cases left with
  | valid first =>
    cases right with
    | valid second =>
      by_cases equal : first = second
      · rw [equal]
      rw [select_both, select_both]
      rcases Nat.lt_trichotomy first.commitGeneration second.commitGeneration with
        older | same | newer
      · have notNewer : ¬ first.commitGeneration > second.commitGeneration := by omega
        rw [if_pos older, if_neg notNewer, if_neg fun agree => absurd agree.1 (Nat.ne_of_lt older)]
        rfl
      · have notOlder : ¬ second.commitGeneration > first.commitGeneration := by omega
        have notNewer : ¬ first.commitGeneration > second.commitGeneration := by omega
        rw [if_neg notOlder, if_neg notNewer, if_pos ⟨same.symm, Ne.symm equal⟩,
          if_pos ⟨same, equal⟩]
      · have notOlder : ¬ second.commitGeneration > first.commitGeneration := by omega
        rw [if_neg notOlder, if_pos newer, if_neg fun agree => absurd agree.1 (Nat.ne_of_lt newer)]
        rfl
    | _ => rfl
  | _ => cases right <;> rfl

end Selection

theorem decodeSegmentCommitSlot_valid
    (decodes : decodeSegmentCommitSlot bytes = .ok (.valid commit)) :
    validateCommit commit = .ok () :=
  (decodeSegmentCommitSlot_valid_iff.mp decodes).1

variable {index : Nat}

private theorem decodeSlots_valid {encoded : Bytes}
    (decodes : decodeSlots encoded index count = .ok slots) :
    ∀ commit, .valid commit ∈ slots → validateCommit commit = .ok () := by
  induction count generalizing index slots with
  | zero =>
    obtain rfl := Except.ok.inj decodes
    simp
  | succ count ih =>
    unfold decodeSlots at decodes
    split at decodes
    · simp at decodes
    next slot here =>
    split at decodes
    · simp at decodes
    next rest there =>
    obtain rfl := Except.ok.inj decodes
    intro commit member
    rcases List.mem_cons.mp member with same | later
    · exact decodeSegmentCommitSlot_valid (same ▸ here)
    · exact ih there commit later

private theorem selectFrom_mem {selected : Option SelectedSegmentCommit}
    {result : SelectedSegmentCommit} (selects : selectFrom index selected slots = .ok result) :
    selected = some result ∨ .valid result.commit ∈ slots := by
  fun_induction selectFrom index selected slots with
  | case1 | case5 => simp [fail] at selects
  | case2 index best =>
    obtain rfl := Except.ok.inj selects
    exact .inl rfl
  | case3 index commit rest ih | case4 index commit rest best newer ih =>
    rcases ih selects with same | later
    · obtain rfl := Option.some.inj same
      exact .inr List.mem_cons_self
    · exact .inr (List.mem_cons_of_mem _ later)
  | case6 _ _ _ _ _ _ ih | case7 _ _ _ _ _ ih =>
    exact (ih selects).imp_right (List.mem_cons_of_mem _)

theorem selectNewestSegmentCommit_valid {header : DecodedSegmentHeader}
    {selected : SelectedSegmentCommit} (decodes : decodeSegmentHeader bytes = .ok header)
    (newest : selectNewestSegmentCommit header = .ok selected) :
    validateCommit selected.commit = .ok () := by
  have member : .valid selected.commit ∈ header.slots := by
    rcases selectFrom_mem newest with none | member
    · simp at none
    · exact member
  revert decodes
  fun_cases decodeSegmentHeader bytes with
  | case6 =>
    intro decodes
    obtain rfl := Except.ok.inj decodes
    exact decodeSlots_valid (by assumption) _ member
  | _ => nofun

end GlifiStore
