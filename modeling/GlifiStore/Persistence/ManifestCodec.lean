import GlifiStore.Persistence.ResourceLimits

/-!
# The manifest codec

A manifest is a 128-byte header and 32 bytes for each Segment under one CRC32C.
Encoding starts from a zero buffer; decoding reads every byte of it back, so the
two are inverse to each other.
-/

namespace GlifiStore

open ByteLayout

/-! ## Encoding -/

def kManifestMagic : Nat := 0x4D594C47
def kManifestFormatVersion : Nat := 1
def kManifestWorkerHashSeedOffset : Nat := 84
def kManifestChecksumOffset : Nat := 80

def manifestSizeForCount (segmentCount : Nat) : Result Nat :=
  if segmentCount > kMaximumManifestSegmentCount then
    fail .invalidArgument "manifest Segment count exceeds the supported limit"
  else if segmentCount > (kSizeMax - kManifestHeaderBytes) / kManifestSegmentEntryBytes then
    fail .arithmeticOverflow "manifest encoded size overflows size_t"
  else
    let size := kManifestHeaderBytes + segmentCount * kManifestSegmentEntryBytes
    if size > kUInt32Max then
      fail .arithmeticOverflow "manifest encoded size exceeds its format field"
    else
      .ok size

variable (manifest : Manifest)

def encodedManifestSize : Result Nat :=
  match validateManifest manifest .invalidArgument with
  | .error error => .error error
  | .ok () => manifestSizeForCount manifest.segments.length

/-- The positional writes of the header. -/
def manifestHeaderFields (size : Nat) : List (Nat × Bytes) :=
  [(0, encodeLE 4 kManifestMagic),
    (4, encodeLE 2 kManifestFormatVersion),
    (6, encodeLE 2 kManifestHeaderBytes),
    (8, encodeLE 4 size),
    (12, encodeLE 2 kManifestSegmentEntryBytes),
    (14, encodeLE 2 0),
    (16, manifest.storeId),
    (32, encodeLE 8 manifest.manifestGeneration),
    (40, encodeLE 4 manifest.routingAlgorithm.raw),
    (44, encodeLE 4 manifest.workerCount),
    (48, encodeLE 8 manifest.routingEpoch),
    (56, encodeLE 4 manifest.segments.length),
    (60, encodeLE 2 kSegmentFormatVersion),
    (62, encodeLE 2 kRecordFormatVersion),
    (64, encodeLE 2 kSegmentHeaderFormatVersion),
    (66, encodeLE 2 kSegmentCommitFormatVersion),
    (68, encodeLE 8 manifest.nextSegmentId),
    (76, encodeLE 4 manifest.nextSegmentGeneration),
    (kManifestWorkerHashSeedOffset, encodeLE 8 manifest.workerHashSeed.toNat),
    (kManifestChecksumOffset, encodeLE 4 0)]

def segmentEntryFields (offset : Nat) (segment : ManifestSegmentEntry) : List (Nat × Bytes) :=
  [(offset, encodeLE 8 segment.segmentId),
    (offset + 8, encodeLE 4 segment.generation),
    (offset + 12, encodeLE 4 segment.ownerWorker),
    (offset + 16, encodeLE 2 segment.role.raw),
    (offset + 18, encodeLE 2 0)]

def segmentTableFields : Nat → List ManifestSegmentEntry → List (Nat × Bytes)
  | _, [] => []
  | offset, segment :: rest =>
    segmentEntryFields offset segment ++
      segmentTableFields (offset + kManifestSegmentEntryBytes) rest

def manifestFields (size : Nat) : List (Nat × Bytes) :=
  manifestHeaderFields manifest size ++ segmentTableFields kManifestHeaderBytes manifest.segments

variable (bytes : Bytes)

def manifestChecksum : Nat :=
  (crc32c (blit bytes kManifestChecksumOffset (List.replicate 4 0))).toNat

def encodeManifest : Result Bytes :=
  match encodedManifestSize manifest with
  | .error error => .error error
  | .ok size =>
    let body := blitAll (List.replicate size 0) (manifestFields manifest size)
    .ok (putLE 4 body kManifestChecksumOffset (manifestChecksum body))

/-! ## Decoding -/

def readSegmentEntry (offset : Nat) : DecodedSegmentEntry where
  segmentId := getLE 8 bytes offset
  generation := getLE 4 bytes (offset + 8)
  ownerWorker := getLE 4 bytes (offset + 12)
  role := getLE 2 bytes (offset + 16)
  segmentIdFits := getLE_lt 8 bytes offset
  generationFits := getLE_lt 4 bytes (offset + 8)
  ownerFits := getLE_lt 4 bytes (offset + 12)

def readSegmentTable : Nat → Nat → Result (List DecodedSegmentEntry)
  | _, 0 => .ok []
  | offset, count + 1 =>
    if getLE 2 bytes (offset + 18) ≠ 0 ∨
        ¬ allZero (slice bytes (offset + 20) (kManifestSegmentEntryBytes - 20)) then
      fail .invalidRecord "manifest Segment entry reserved fields are invalid"
    else
      (readSegmentTable (offset + kManifestSegmentEntryBytes) count).map
        (readSegmentEntry bytes offset :: ·)

theorem length_storeId {bytes : Bytes} (long : ¬ bytes.length < kManifestHeaderBytes) :
    (slice bytes 16 16).length = 16 :=
  length_slice (by simp only [kManifestHeaderBytes] at long; omega)

/-- The header of a manifest that is long enough, with its Segments. -/
def readManifestHeader (long : ¬ bytes.length < kManifestHeaderBytes)
    (segments : List DecodedSegmentEntry) : DecodedManifest where
  storeId := slice bytes 16 16
  manifestGeneration := getLE 8 bytes 32
  routingAlgorithm := getLE 4 bytes 40
  workerCount := getLE 4 bytes 44
  routingEpoch := getLE 8 bytes 48
  workerHashSeed := UInt64.ofNat (getLE 8 bytes kManifestWorkerHashSeedOffset)
  nextSegmentId := getLE 8 bytes 68
  nextSegmentGeneration := getLE 4 bytes 76
  segments := segments
  storeIdSize := length_storeId long
  manifestGenerationFits := Nat.le_of_lt_succ (getLE_lt 8 bytes 32)
  routingEpochFits := Nat.le_of_lt_succ (getLE_lt 8 bytes 48)
  nextSegmentIdFits := Nat.le_of_lt_succ (getLE_lt 8 bytes 68)
  nextSegmentGenerationFits := Nat.le_of_lt_succ (getLE_lt 4 bytes 76)

def decodeManifest : Result Manifest :=
  if long : bytes.length < kManifestHeaderBytes then
    fail .invalidRecord "manifest is shorter than its v1 header"
  else if getLE 4 bytes 0 ≠ kManifestMagic ∨ getLE 2 bytes 4 ≠ kManifestFormatVersion ∨
      getLE 2 bytes 6 ≠ kManifestHeaderBytes ∨ getLE 2 bytes 12 ≠ kManifestSegmentEntryBytes ∨
      getLE 2 bytes 14 ≠ 0 ∨ getLE 2 bytes 60 ≠ kSegmentFormatVersion ∨
      getLE 2 bytes 62 ≠ kRecordFormatVersion ∨
      getLE 2 bytes 64 ≠ kSegmentHeaderFormatVersion ∨
      getLE 2 bytes 66 ≠ kSegmentCommitFormatVersion ∨
      ¬ allZero (slice bytes (kManifestWorkerHashSeedOffset + 8) (44 - 8)) then
    fail .invalidRecord "manifest magic, versions, sizes, or reserved fields are invalid"
  else
    let segmentCount := getLE 4 bytes 56
    match manifestSizeForCount segmentCount with
    | .error _ => fail .invalidRecord "manifest Segment count is outside format limits"
    | .ok expectedSize =>
      if getLE 4 bytes 8 ≠ expectedSize ∨ bytes.length ≠ expectedSize then
        fail .invalidRecord "manifest encoded extent is inconsistent"
      else if getLE 4 bytes kManifestChecksumOffset ≠ manifestChecksum bytes then
        fail .checksumMismatch "manifest checksum mismatch"
      else
        match readSegmentTable bytes kManifestHeaderBytes segmentCount with
        | .error error => .error error
        | .ok segments =>
          let decoded := readManifestHeader bytes long segments
          (decoded.validate .corruptedData).map fun _ => decoded.typed

/-! ## Validation of what was read -/

theorem Manifest.typed_decoded : manifest.decoded.typed = manifest := by
  have entries : (ManifestSegmentEntry.decoded · |>.typed) = id := by
    funext segment
    simp [DecodedSegmentEntry.typed, ManifestSegmentEntry.decoded]
  simp [DecodedManifest.typed, Manifest.decoded, List.map_map, Function.comp_def, entries]

theorem roles_of_validateSegments {workerCount previousId : Nat} {errorCode : ErrorCode}
    {activeWorkers final : List Nat} {segments : List DecodedSegmentEntry}
    (accepted : validateSegments workerCount errorCode previousId activeWorkers segments =
      .ok final) : segments.map (·.typed.decoded) = segments := by
  induction segments generalizing previousId activeWorkers with
  | nil => rfl
  | cons segment rest ih =>
    rw [validateSegments, guard_eq_ok, guard_eq_ok, guard_eq_ok] at accepted
    replace accepted := accepted.2.2.2
    cases known : ManifestSegmentRole.ofRaw? segment.role with
    | none => simp [known, fail] at accepted
    | some role =>
      have same : segment.typed.decoded = segment := by
        simp [DecodedSegmentEntry.typed, ManifestSegmentEntry.decoded, known,
          ← ManifestSegmentRole.ofRaw?_eq_some.mp known]
      simp only [known] at accepted
      rw [List.map_cons, same]
      cases role with
      | active => rw [ih (guard_eq_ok.mp accepted).2]
      | «sealed» => rw [ih accepted]

theorem DecodedManifest.decoded_typed {decoded : DecodedManifest} {errorCode : ErrorCode}
    (accepted : decoded.validate errorCode = .ok ()) : decoded.typed.decoded = decoded := by
  simp only [DecodedManifest.validate, guard_eq_ok] at accepted
  obtain ⟨-, -, accepted⟩ := accepted
  split at accepted
  · cases accepted
  next routing =>
  rw [guard_eq_ok, guard_eq_ok, guard_eq_ok, guard_eq_ok] at accepted
  obtain ⟨-, -, -, -, accepted⟩ := accepted
  split at accepted
  · cases accepted
  next loop =>
  cases known : RoutingAlgorithm.ofRaw? decoded.routingAlgorithm with
  | none => simp [DecodedManifest.validateRouting, known, fail] at routing
  | some algorithm =>
    simp [DecodedManifest.typed, Manifest.decoded, known, roles_of_validateSegments loop,
      ← RoutingAlgorithm.ofRaw?_eq_some.mp known, Function.comp_def]

theorem DecodedManifest.validate_ok {decoded : DecodedManifest} {manifest : Manifest} :
    (decoded.validate .corruptedData).map (fun _ => decoded.typed) = .ok manifest ↔
      decoded = manifest.decoded ∧ manifest.WellFormed := by
  rw [map_eq_ok]
  constructor
  · rintro ⟨_, accepted, rfl⟩
    have same := decoded_typed accepted
    have valid : validateManifest decoded.typed .corruptedData = .ok () := by
      rw [validateManifest, same, accepted]
    exact ⟨same.symm, validateManifest_ok_iff.mp valid⟩
  · rintro ⟨rfl, wellFormed⟩
    exact ⟨(), validateManifest_ok_iff.mpr wellFormed, manifest.typed_decoded⟩

end GlifiStore
