import GlifiStore.Persistence.ManifestCodec

/-!
# Canonical manifests

The encoder's layout covers the header and the Segment table but for the reserved
bytes, and the decoder requires those to be zero. A byte string is accepted
exactly when it is the encoding of the manifest that is returned.
-/

namespace GlifiStore

open ByteLayout

variable {count : Nat}

theorem manifestSizeForCount_eq_ok (bounded : count ≤ kMaximumManifestSegmentCount) :
    manifestSizeForCount count =
      .ok (kManifestHeaderBytes + count * kManifestSegmentEntryBytes) := by
  have few : count ≤ 1000000 := bounded
  have room : ¬ count > (kSizeMax - kManifestHeaderBytes) / kManifestSegmentEntryBytes := by
    simp only [kSizeMax, kManifestHeaderBytes, kManifestSegmentEntryBytes]
    omega
  have field : ¬ kManifestHeaderBytes + count * kManifestSegmentEntryBytes > kUInt32Max := by
    simp only [kUInt32Max, kManifestHeaderBytes, kManifestSegmentEntryBytes]
    omega
  rw [manifestSizeForCount, if_neg (Nat.not_lt.mpr bounded), if_neg room]
  simp only [if_neg field]

theorem manifestSizeForCount_ok {size : Nat} (sized : manifestSizeForCount count = .ok size) :
    count ≤ kMaximumManifestSegmentCount ∧ size = 128 + 32 * count := by
  have bounded : count ≤ kMaximumManifestSegmentCount := by
    by_contra exceeds
    rw [manifestSizeForCount, if_pos (by omega)] at sized
    simp [fail] at sized
  rw [manifestSizeForCount_eq_ok bounded] at sized
  refine ⟨bounded, ?_⟩
  rw [← Except.ok.inj sized]
  simp only [kManifestHeaderBytes, kManifestSegmentEntryBytes]
  omega

/-! ## The Segment table -/

variable {field : Nat × Bytes}

section Table

variable {bytes : Bytes} {offset : Nat} {segment : ManifestSegmentEntry}
  {segments : List ManifestSegmentEntry}

theorem segmentTableFields_range (member : field ∈ segmentTableFields offset segments) :
    offset ≤ field.1 ∧ field.1 + field.2.length ≤ offset + 32 * segments.length := by
  induction segments generalizing offset with
  | nil => simp [segmentTableFields] at member
  | cons segment rest ih =>
    rw [segmentTableFields, List.mem_append] at member
    rw [List.length_cons]
    rcases member with here | later
    · simp only [segmentEntryFields, List.mem_cons, List.not_mem_nil, or_false] at here
      rcases here with rfl | rfl | rfl | rfl | rfl <;> simp only [length_encodeLE] <;> omega
    · have range := ih later
      simp only [kManifestSegmentEntryBytes] at range
      omega

theorem segmentTableFields_apart (offset : Nat) (segments : List ManifestSegmentEntry) :
    (segmentTableFields offset segments).Pairwise Apart := by
  induction segments generalizing offset with
  | nil => exact .nil
  | cons segment rest ih =>
    rw [segmentTableFields, List.pairwise_append]
    refine ⟨?_, ih _, fun field here other later => ?_⟩
    · simp only [segmentEntryFields, List.pairwise_cons, List.mem_cons, List.not_mem_nil, or_false,
        forall_eq_or_imp, forall_eq, Apart, length_encodeLE, List.Pairwise.nil]
      refine ⟨?_, ?_, ?_, ?_, ?_⟩ <;> first | omega | simp
    · have range := segmentTableFields_range later
      simp only [kManifestSegmentEntryBytes] at range
      simp only [segmentEntryFields, List.mem_cons, List.not_mem_nil, or_false] at here
      rcases here with rfl | rfl | rfl | rfl | rfl <;> simp only [Apart, length_encodeLE] <;> omega

structure EntryReads (bytes : Bytes) (offset : Nat) (segment : ManifestSegmentEntry) : Prop where
  segmentId : getLE 8 bytes offset = segment.segmentId
  generation : getLE 4 bytes (offset + 8) = segment.generation
  ownerWorker : getLE 4 bytes (offset + 12) = segment.ownerWorker
  role : getLE 2 bytes (offset + 16) = segment.role.raw
  reserved : getLE 2 bytes (offset + 18) = 0
  blank : ZeroRange bytes (offset + 20) 12

/-- The table holds its fields, and zero between them. -/
structure TableReads (bytes : Bytes) (offset : Nat) (segments : List ManifestSegmentEntry) :
    Prop where
  fields : ∀ field ∈ segmentTableFields offset segments,
    slice bytes field.1 field.2.length = field.2
  rest : ∀ i, offset ≤ i → i < offset + 32 * segments.length →
    Uncovered (segmentTableFields offset segments) i → bytes[i]? = some 0

theorem ManifestSegmentRole.raw_lt (role : ManifestSegmentRole) : role.raw < 256 ^ 2 := by
  cases role <;> decide

theorem tableReads_cons (fits : offset + 32 * (segments.length + 1) ≤ bytes.length) :
    TableReads bytes offset (segment :: segments) ↔
      EntryReads bytes offset segment ∧ TableReads bytes (offset + 32) segments := by
  have entry : (∀ field ∈ segmentEntryFields offset segment,
      slice bytes field.1 field.2.length = field.2) ↔
        getLE 8 bytes offset = segment.segmentId ∧
        getLE 4 bytes (offset + 8) = segment.generation ∧
        getLE 4 bytes (offset + 12) = segment.ownerWorker ∧
        getLE 2 bytes (offset + 16) = segment.role.raw ∧ getLE 2 bytes (offset + 18) = 0 := by
    simp only [segmentEntryFields, List.forall_mem_cons, List.not_mem_nil, false_implies,
      implies_true, and_true]
    have idFits := segment.segmentIdFits
    have generationFits := segment.generationFits
    have ownerFits := segment.ownerFits
    have roleFits := segment.role.raw_lt
    simp (disch := first | omega | decide) only [slice_field_iff]
  -- Within an entry the fields end where the reserved bytes begin.
  have uncovered {i : Nat} (low : offset ≤ i) (high : i < offset + 32) :
      Uncovered (segmentTableFields offset (segment :: segments)) i ↔ offset + 20 ≤ i := by
    rw [segmentTableFields, uncovered_append]
    have later : Uncovered (segmentTableFields (offset + kManifestSegmentEntryBytes) segments) i :=
      fun field member => by
        have range := segmentTableFields_range member
        simp only [kManifestSegmentEntryBytes] at range
        omega
    rw [and_iff_left later]
    simp only [Uncovered, segmentEntryFields, List.forall_mem_cons, length_encodeLE,
      List.not_mem_nil, false_implies, implies_true, and_true]
    omega
  have beyond {i : Nat} (low : offset + 32 ≤ i) :
      Uncovered (segmentTableFields offset (segment :: segments)) i ↔
        Uncovered (segmentTableFields (offset + 32) segments) i := by
    rw [segmentTableFields, uncovered_append]
    have passed : Uncovered (segmentEntryFields offset segment) i := by
      simp only [Uncovered, segmentEntryFields, List.forall_mem_cons, length_encodeLE,
        List.not_mem_nil, false_implies, implies_true, and_true]
      omega
    simp only [passed, true_and, kManifestSegmentEntryBytes]
  constructor
  · rintro ⟨fields, rest⟩
    rw [segmentTableFields, List.forall_mem_append, entry] at fields
    obtain ⟨⟨segmentId, generation, ownerWorker, role, reserved⟩, later⟩ := fields
    rw [List.length_cons] at rest
    refine ⟨⟨segmentId, generation, ownerWorker, role, reserved, fun i low high => ?_⟩, later,
      fun i low high apart => ?_⟩
    · exact rest i (by omega) (by omega) ((uncovered (by omega) (by omega)).mpr low)
    · exact rest i (by omega) (by omega) ((beyond low).mpr apart)
  · rintro ⟨reads, table⟩
    refine ⟨?_, fun i low high apart => ?_⟩
    · rw [segmentTableFields, List.forall_mem_append, entry]
      exact ⟨⟨reads.segmentId, reads.generation, reads.ownerWorker, reads.role, reads.reserved⟩,
        table.fields⟩
    · rw [List.length_cons] at high
      by_cases here : i < offset + 32
      · exact reads.blank i ((uncovered low here).mp apart) (by omega)
      · exact table.rest i (by omega) (by omega) ((beyond (by omega)).mp apart)

theorem readSegmentTable_ok (fits : offset + 32 * segments.length ≤ bytes.length) :
    readSegmentTable bytes offset segments.length =
        .ok (segments.map ManifestSegmentEntry.decoded) ↔
      TableReads bytes offset segments := by
  induction segments generalizing offset with
  | nil =>
    simp only [List.length_nil, List.map_nil, readSegmentTable, true_iff]
    exact ⟨by simp [segmentTableFields], fun i low high => by simp at high; omega⟩
  | cons segment rest ih =>
    rw [List.length_cons] at fits
    have blank : allZero (slice bytes (offset + 20) (kManifestSegmentEntryBytes - 20)) = true ↔
        ZeroRange bytes (offset + 20) 12 :=
      allZero_slice_iff (show offset + 20 + 12 ≤ bytes.length by omega)
    have entry : readSegmentEntry bytes offset = segment.decoded ↔
        getLE 8 bytes offset = segment.segmentId ∧
        getLE 4 bytes (offset + 8) = segment.generation ∧
        getLE 4 bytes (offset + 12) = segment.ownerWorker ∧
        getLE 2 bytes (offset + 16) = segment.role.raw := by
      simp only [readSegmentEntry, ManifestSegmentEntry.decoded, DecodedSegmentEntry.mk.injEq]
    have table := @ih (offset + 32) (by omega)
    rw [tableReads_cons fits, List.length_cons, readSegmentTable, List.map_cons, ← table]
    by_cases clear : getLE 2 bytes (offset + 18) = 0 ∧
        allZero (slice bytes (offset + 20) (kManifestSegmentEntryBytes - 20)) = true
    · rw [if_neg (by simpa using clear)]
      have here : EntryReads bytes offset segment ↔
          readSegmentEntry bytes offset = segment.decoded := by
        rw [entry]
        exact ⟨fun reads => ⟨reads.segmentId, reads.generation, reads.ownerWorker, reads.role⟩,
          fun same => ⟨same.1, same.2.1, same.2.2.1, same.2.2.2, clear.1, blank.mp clear.2⟩⟩
      rw [here, kManifestSegmentEntryBytes]
      cases readSegmentTable bytes (offset + 32) rest.length with
      | error error => simp [Except.map]
      | ok others => simp [Except.map]
    · rw [if_pos (by
        simp only [not_and_or] at clear
        exact clear)]
      simp only [fail, reduceCtorEq, false_iff, not_and]
      exact fun reads _ => clear ⟨reads.reserved, blank.mpr reads.blank⟩

theorem length_readSegmentTable {entries : List DecodedSegmentEntry}
    (read : readSegmentTable bytes offset count = .ok entries) : entries.length = count := by
  induction count generalizing offset entries with
  | zero =>
    obtain rfl := Except.ok.inj read
    rfl
  | succ count ih =>
    rw [readSegmentTable] at read
    obtain ⟨rest, table, rfl⟩ := map_eq_ok.mp (guard_eq_ok.mp read).2
    rw [List.length_cons, ih table]

end Table

/-! ## The header -/

/-- The bytes of the header are those that the decoder reads it from. -/
@[mk_iff headerReads_iff_and]
structure HeaderReads (bytes : Bytes) (manifest : Manifest) (size : Nat) : Prop where
  magic : getLE 4 bytes 0 = kManifestMagic
  version : getLE 2 bytes 4 = kManifestFormatVersion
  headerBytes : getLE 2 bytes 6 = kManifestHeaderBytes
  total : getLE 4 bytes 8 = size
  entryBytes : getLE 2 bytes 12 = kManifestSegmentEntryBytes
  reserved : getLE 2 bytes 14 = 0
  storeId : slice bytes 16 16 = manifest.storeId
  manifestGeneration : getLE 8 bytes 32 = manifest.manifestGeneration
  routingAlgorithm : getLE 4 bytes 40 = manifest.routingAlgorithm.raw
  workerCount : getLE 4 bytes 44 = manifest.workerCount
  routingEpoch : getLE 8 bytes 48 = manifest.routingEpoch
  count : getLE 4 bytes 56 = manifest.segments.length
  segmentFormat : getLE 2 bytes 60 = kSegmentFormatVersion
  recordFormat : getLE 2 bytes 62 = kRecordFormatVersion
  headerFormat : getLE 2 bytes 64 = kSegmentHeaderFormatVersion
  commitFormat : getLE 2 bytes 66 = kSegmentCommitFormatVersion
  nextSegmentId : getLE 8 bytes 68 = manifest.nextSegmentId
  nextSegmentGeneration : getLE 4 bytes 76 = manifest.nextSegmentGeneration
  workerHashSeed : getLE 8 bytes 84 = manifest.workerHashSeed.toNat
  blank : ZeroRange bytes 92 36

section Header

variable {bytes : Bytes} {manifest : Manifest} {size : Nat}

theorem manifestHeaderFields_range (member : field ∈ manifestHeaderFields manifest size) :
    field.1 + field.2.length ≤ 128 ∧ SparesRange 80 4 field := by
  simp only [manifestHeaderFields, List.mem_cons, List.not_mem_nil, or_false] at member
  rcases member with rfl | rfl | rfl | rfl | rfl | rfl | rfl | rfl | rfl | rfl | rfl | rfl | rfl |
    rfl | rfl | rfl | rfl | rfl | rfl | rfl <;>
    simp [SparesRange, manifest.storeIdSize, kManifestWorkerHashSeedOffset,
      kManifestChecksumOffset]

theorem manifestHeaderFields_apart (manifest : Manifest) (size : Nat) :
    (manifestHeaderFields manifest size).Pairwise Apart := by
  -- The checksum is written after the hash seed that follows it.
  have split : manifestHeaderFields manifest size =
      (manifestHeaderFields manifest size).take 19 ++ [(80, encodeLE 4 0)] := rfl
  rw [split, List.pairwise_append]
  refine ⟨pairwise_apart_of_isChain ?_, List.pairwise_singleton _ _, ?_⟩
  · simp [manifestHeaderFields, manifest.storeIdSize, kManifestWorkerHashSeedOffset]
  · simp [manifestHeaderFields, Apart, manifest.storeIdSize, kManifestWorkerHashSeedOffset]

/-- The header fields stand in a buffer, the checksum apart, and its reserved
bytes are zero. -/
theorem headerReads_iff (wellFormed : manifest.WellFormed) (small : size < 256 ^ 4)
    (fits : 128 ≤ bytes.length) :
    HeaderReads bytes manifest size ↔
      (∀ field ∈ manifestHeaderFields manifest size, field ≠ (80, encodeLE 4 0) →
        slice bytes field.1 field.2.length = field.2) ∧ ZeroRange bytes 92 36 := by
  have generationFits := manifest.manifestGenerationFits
  have epochFits := manifest.routingEpochFits
  have nextIdFits := manifest.nextSegmentIdFits
  have nextGenerationFits := manifest.nextSegmentGenerationFits
  have workers := wellFormed.workers.2
  have bounded := wellFormed.bounded
  simp only [kUInt64Max, kUInt32Max, kMaximumWorkerCount, kMaximumManifestSegmentCount] at *
  have seedFits : manifest.workerHashSeed.toNat < 256 ^ 8 := manifest.workerHashSeed.toNat_lt
  have algorithmFits : manifest.routingAlgorithm.raw < 256 ^ 4 := by
    cases manifest.routingAlgorithm <;> decide
  rw [headerReads_iff_and]
  simp only [manifestHeaderFields, List.forall_mem_cons, List.not_mem_nil, false_implies,
    implies_true, and_true, ne_eq, Prod.mk.injEq, Nat.reduceEqDiff, OfNat.zero_ne_ofNat, false_and,
    not_false_eq_true, true_implies, kManifestWorkerHashSeedOffset, kManifestChecksumOffset,
    and_self, not_true_eq_false, manifest.storeIdSize, and_assoc]
  simp (disch := first | omega | decide) only [slice_field_iff]

theorem uncovered_manifestHeaderFields {i : Nat} (inside : i < 128) :
    Uncovered (manifestHeaderFields manifest size) i ↔ 92 ≤ i := by
  simp only [Uncovered, manifestHeaderFields, List.forall_mem_cons, length_encodeLE,
    manifest.storeIdSize, kManifestWorkerHashSeedOffset, kManifestChecksumOffset,
    List.not_mem_nil, false_implies, implies_true, and_true]
  omega

theorem readsAs_manifestFields_iff (wellFormed : manifest.WellFormed) (small : size < 256 ^ 4)
    (sized : size = 128 + 32 * manifest.segments.length) :
    ReadsAs size 80 4 (manifestFields manifest size) bytes ↔
      bytes.length = size ∧ HeaderReads bytes manifest size ∧
        TableReads bytes 128 manifest.segments := by
  have later {i : Nat} (low : i < 128) : Uncovered (segmentTableFields 128 manifest.segments) i :=
    fun field member => .inl (by have := segmentTableFields_range member; omega)
  have earlier {i : Nat} (high : 128 ≤ i) : Uncovered (manifestHeaderFields manifest size) i :=
    fun field member => .inr (by have := (manifestHeaderFields_range member).1; omega)
  constructor
  · rintro ⟨length, read, rest⟩
    have fits : 128 ≤ bytes.length := by omega
    refine ⟨length, (headerReads_iff wellFormed small fits).mpr ⟨fun field member => ?_,
      fun i low high => ?_⟩, fun field member => ?_, fun i low high uncovered => ?_⟩
    · exact read field (List.mem_append_left _ member)
    · refine rest i (by omega) (uncovered_append.mpr ⟨?_, later (by omega)⟩) (by omega)
      exact (uncovered_manifestHeaderFields (by omega)).mpr low
    · refine read field (List.mem_append_right _ member) fun same => ?_
      have range := segmentTableFields_range member
      rw [same] at range
      simp at range
    · exact rest i (by omega) (uncovered_append.mpr ⟨earlier low, uncovered⟩) (by omega)
  · rintro ⟨length, header, table⟩
    have fits : 128 ≤ bytes.length := by omega
    obtain ⟨fields, blank⟩ := (headerReads_iff wellFormed small fits).mp header
    refine ⟨length, fun field member other => ?_, fun i inside uncovered _ => ?_⟩
    · rcases List.mem_append.mp member with here | there
      · exact fields field here other
      · exact table.fields field there
    · obtain ⟨here, there⟩ := uncovered_append.mp uncovered
      by_cases low : i < 128
      · exact blank i ((uncovered_manifestHeaderFields low).mp here) (by omega)
      · exact table.rest i (by omega) (by omega) there

structure EncodesManifest (manifest : Manifest) (bytes : Bytes) : Prop where
  wellFormed : manifest.WellFormed
  length : bytes.length = 128 + 32 * manifest.segments.length
  header : HeaderReads bytes manifest (128 + 32 * manifest.segments.length)
  table : TableReads bytes 128 manifest.segments
  checksum : getLE 4 bytes 80 = manifestChecksum bytes

theorem manifestChecksum_blank (fits : 84 ≤ bytes.length) :
    manifestChecksum (putLE 4 bytes 80 0) = manifestChecksum bytes := by
  have blank (other : Bytes) :
      manifestChecksum other = (crc32c (putLE 4 other 80 0)).toNat := rfl
  rw [blank, blank, putLE_putLE (by omega)]

theorem encodeManifest_ok :
    encodeManifest manifest = .ok bytes ↔ EncodesManifest manifest bytes := by
  by_cases wellFormed : manifest.WellFormed
  case neg =>
    refine ⟨fun encoded => ?_, fun encodes => absurd encodes.wellFormed wellFormed⟩
    unfold encodeManifest encodedManifestSize at encoded
    cases valid : validateManifest manifest .invalidArgument with
    | error error => simp [valid] at encoded
    | ok _ => exact absurd (validateManifest_ok_iff.mp valid) wellFormed
  have bounded := wellFormed.bounded
  have size : kManifestHeaderBytes + manifest.segments.length * kManifestSegmentEntryBytes =
      128 + 32 * manifest.segments.length := by
    simp only [kManifestHeaderBytes, kManifestSegmentEntryBytes]
    omega
  have small : 128 + 32 * manifest.segments.length < 256 ^ 4 := by
    simp only [kMaximumManifestSegmentCount] at bounded
    omega
  have sized : encodedManifestSize manifest = .ok (128 + 32 * manifest.segments.length) := by
    rw [encodedManifestSize, validateManifest_ok_iff.mpr wellFormed]
    simp only [manifestSizeForCount_eq_ok bounded, size]
  have range {field : Nat × Bytes}
      (member : field ∈ manifestFields manifest (128 + 32 * manifest.segments.length)) :
      field.1 + field.2.length ≤ 128 + 32 * manifest.segments.length ∧ SparesRange 80 4 field := by
    rcases List.mem_append.mp member with here | there
    · have header := manifestHeaderFields_range here
      exact ⟨by omega, header.2⟩
    · have table := segmentTableFields_range there
      simp only [kManifestHeaderBytes] at table
      exact ⟨table.2, .inr (.inr (by omega))⟩
  have apart : (manifestFields manifest (128 + 32 * manifest.segments.length)).Pairwise Apart := by
    rw [manifestFields, List.pairwise_append]
    refine ⟨manifestHeaderFields_apart _ _, segmentTableFields_apart _ _,
      fun field here other there => .inl ?_⟩
    have header := manifestHeaderFields_range here
    have table := segmentTableFields_range there
    simp only [kManifestHeaderBytes] at table
    omega
  have layout : bytes = putLE 4 (blitAll (List.replicate (128 + 32 * manifest.segments.length) 0)
        (manifestFields manifest (128 + 32 * manifest.segments.length))) 80
        (manifestChecksum (blitAll (List.replicate (128 + 32 * manifest.segments.length) 0)
          (manifestFields manifest (128 + 32 * manifest.segments.length)))) ↔ _ :=
    eq_checksummed_iff (fun other => UInt32.toNat_lt _) (fun field member => (range member).1) apart
      (fun field member => (range member).2) (by omega)
  rw [readsAs_manifestFields_iff wellFormed small rfl] at layout
  simp only [encodeManifest, sized, Except.ok.injEq]
  refine (eq_comm.trans layout).trans ⟨?_, ?_⟩
  · rintro ⟨⟨length, header, table⟩, checksum⟩
    exact ⟨wellFormed, length, header, table, by
      rw [checksum, manifestChecksum_blank (by omega)]⟩
  · rintro ⟨-, length, header, table, checksum⟩
    exact ⟨⟨length, header, table⟩, by rw [checksum, manifestChecksum_blank (by omega)]⟩

theorem readManifestHeader_eq_decoded (long : ¬ bytes.length < kManifestHeaderBytes)
    {segments : List DecodedSegmentEntry} :
    readManifestHeader bytes long segments = manifest.decoded ↔
      slice bytes 16 16 = manifest.storeId ∧
      getLE 8 bytes 32 = manifest.manifestGeneration ∧
      getLE 4 bytes 40 = manifest.routingAlgorithm.raw ∧
      getLE 4 bytes 44 = manifest.workerCount ∧
      getLE 8 bytes 48 = manifest.routingEpoch ∧
      getLE 8 bytes 84 = manifest.workerHashSeed.toNat ∧
      getLE 8 bytes 68 = manifest.nextSegmentId ∧
      getLE 4 bytes 76 = manifest.nextSegmentGeneration ∧
      segments = manifest.segments.map ManifestSegmentEntry.decoded := by
  have seed : UInt64.ofNat (getLE 8 bytes kManifestWorkerHashSeedOffset) = manifest.workerHashSeed ↔
      getLE 8 bytes 84 = manifest.workerHashSeed.toNat := by
    rw [← UInt64.toNat_inj, UInt64.toNat_ofNat_of_lt' (getLE_lt 8 bytes _)]
    rfl
  simp only [readManifestHeader, Manifest.decoded, DecodedManifest.mk.injEq, seed]

theorem decodeManifest_ok :
    decodeManifest bytes = .ok manifest ↔ EncodesManifest manifest bytes := by
  constructor
  · fun_cases decodeManifest bytes with
    | case7 long header count size sized extent checksum segments table =>
      intro accepted
      obtain ⟨same, wellFormed⟩ := DecodedManifest.validate_ok.mp accepted
      obtain ⟨storeId, generation, algorithm, workers, epoch, seed, nextId, nextGeneration, rfl⟩ :=
        (readManifestHeader_eq_decoded long).mp same
      simp only [not_or, ne_eq, not_not] at header extent checksum
      obtain ⟨magic, version, headerBytes, entryBytes, reserved, segmentFormat, recordFormat,
        headerFormat, commitFormat, zero⟩ := header
      obtain ⟨-, size⟩ := manifestSizeForCount_ok sized
      have listed : count = manifest.segments.length := by
        have read := length_readSegmentTable table
        rw [List.length_map] at read
        exact read.symm
      rw [listed] at table size
      have length : bytes.length = 128 + 32 * manifest.segments.length := extent.2.trans size
      have blank : ZeroRange bytes 92 36 :=
        (allZero_slice_iff (show 92 + 36 ≤ bytes.length by omega)).mp zero
      refine ⟨wellFormed, length, ?_, (readSegmentTable_ok (Nat.le_of_eq length.symm)).mp table,
        checksum⟩
      exact ⟨magic, version, headerBytes, extent.1.trans size, entryBytes, reserved, storeId,
        generation, algorithm, workers, epoch, listed, segmentFormat, recordFormat, headerFormat,
        commitFormat, nextId, nextGeneration, seed, blank⟩
    | _ => nofun
  · rintro ⟨wellFormed, length, header, table, checksum⟩
    have long : ¬ bytes.length < kManifestHeaderBytes := by
      simp only [kManifestHeaderBytes]
      omega
    have zero : allZero (slice bytes (kManifestWorkerHashSeedOffset + 8) (44 - 8)) = true :=
      (allZero_slice_iff (show 92 + 36 ≤ bytes.length by omega)).mpr header.blank
    have read := (readSegmentTable_ok (Nat.le_of_eq length.symm)).mpr table
    have sized := manifestSizeForCount_eq_ok wellFormed.bounded
    have size : kManifestHeaderBytes + manifest.segments.length * kManifestSegmentEntryBytes =
        128 + 32 * manifest.segments.length := by
      simp only [kManifestHeaderBytes, kManifestSegmentEntryBytes]
      omega
    have same : readManifestHeader bytes long (manifest.segments.map ManifestSegmentEntry.decoded) =
        manifest.decoded := (readManifestHeader_eq_decoded long).mpr ⟨header.storeId,
      header.manifestGeneration, header.routingAlgorithm, header.workerCount, header.routingEpoch,
      header.workerHashSeed, header.nextSegmentId, header.nextSegmentGeneration, rfl⟩
    rw [decodeManifest, dif_neg long, if_neg (by
      simp [header.magic, header.version, header.headerBytes, header.entryBytes, header.reserved,
        header.segmentFormat, header.recordFormat, header.headerFormat, header.commitFormat, zero])]
    simp only [header.count, sized, size]
    rw [if_neg (by simp [header.total, length]), if_neg (by simp [kManifestChecksumOffset, checksum])]
    simp only [kManifestHeaderBytes, read, same]
    exact DecodedManifest.validate_ok.mpr ⟨rfl, wellFormed⟩

theorem exists_encodeManifest (wellFormed : manifest.WellFormed) :
    ∃ bytes, encodeManifest manifest = .ok bytes := by
  simp only [encodeManifest, encodedManifestSize, validateManifest_ok_iff.mpr wellFormed,
    manifestSizeForCount_eq_ok wellFormed.bounded, Except.ok.injEq, exists_eq']

end Header

/-- Decoding inverts encoding, every accepted byte string is the encoding of its
manifest, and so no two byte strings decode to one manifest. -/
theorem manifest_codec_canonical :
    (∀ manifest : Manifest, validateManifest manifest .invalidArgument = .ok () →
      ∃ bytes, encodeManifest manifest = .ok bytes ∧ decodeManifest bytes = .ok manifest) ∧
    (∀ (bytes : Bytes) (manifest : Manifest), decodeManifest bytes = .ok manifest →
      encodeManifest manifest = .ok bytes) ∧
    (∀ (left right : Bytes) (manifest : Manifest), decodeManifest left = .ok manifest →
      decodeManifest right = .ok manifest → left = right) := by
  refine ⟨fun manifest valid => ?_, fun bytes manifest accepted => ?_,
    fun left right manifest first second => ?_⟩
  · obtain ⟨bytes, encoded⟩ := exists_encodeManifest (validateManifest_ok_iff.mp valid)
    exact ⟨bytes, encoded, decodeManifest_ok.mpr (encodeManifest_ok.mp encoded)⟩
  · exact encodeManifest_ok.mpr (decodeManifest_ok.mp accepted)
  · -- Both are the encoding of the manifest.
    have left := encodeManifest_ok.mpr (decodeManifest_ok.mp first)
    have right := encodeManifest_ok.mpr (decodeManifest_ok.mp second)
    exact Except.ok.inj (left.symm.trans right)

theorem manifest_codec_canonical_sample :
    validateManifest sampleManifest .invalidArgument = .ok () ∧
      ∃ bytes, encodeManifest sampleManifest = .ok bytes ∧
        decodeManifest bytes = .ok sampleManifest ∧
        (decodeManifest bytes = .ok sampleManifest → encodeManifest sampleManifest = .ok bytes) := by
  have valid : validateManifest sampleManifest .invalidArgument = .ok () := by decide
  obtain ⟨bytes, encoded, decoded⟩ := manifest_codec_canonical.1 sampleManifest valid
  exact ⟨valid, bytes, encoded, decoded, manifest_codec_canonical.2.1 bytes sampleManifest⟩

end GlifiStore
