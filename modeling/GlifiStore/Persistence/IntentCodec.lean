import GlifiStore.Persistence.ManifestCanonical
import GlifiStore.Persistence.Transition

/-!
# The compaction-intent codec

An intent is a 128-byte header followed by the encodings of the two manifests it
moves between. The decoder accepts exactly the encodings of valid intents.
-/

namespace GlifiStore

open ByteLayout Directory

def kCompactionIntentMagic : Nat := 0x43594C47
def kCompactionIntentFormatVersion : Nat := 1
def kIntentChecksumOffset : Nat := 56
def kMaximumCompactionIntentBytes : Nat :=
  kCompactionIntentHeaderBytes + 2 * kMaximumManifestBytes

/-- `checksum_with_zeroed_field` of the intent. -/
def intentChecksum (bytes : Bytes) : Nat :=
  (crc32c (blit bytes kIntentChecksumOffset (List.replicate 4 0))).toNat

variable (intent : DurableCompactionIntent)

def validateIntent : Status :=
  match validateDurableCompactionTransition intent.oldManifest.toManifest
      intent.nextManifest.toManifest intent.workerId with
  | .error error => .error error
  | .ok _ => .ok ()

def encodedCompactionIntentSize : Result Nat :=
  match validateIntent intent with
  | .error error => .error error
  | .ok () =>
    match encodedManifestSize intent.oldManifest.toManifest,
        encodedManifestSize intent.nextManifest.toManifest with
    | .error error, _ => .error error
    | .ok _, .error error => .error error
    | .ok oldSize, .ok nextSize =>
      if oldSize > kSizeMax - kCompactionIntentHeaderBytes ∨
          nextSize > kSizeMax - kCompactionIntentHeaderBytes - oldSize then
        fail .arithmeticOverflow "compaction intent encoded size overflows size_t"
      else
        let total := kCompactionIntentHeaderBytes + oldSize + nextSize
        if total > kMaximumCompactionIntentBytes then
          fail .arithmeticOverflow "compaction intent exceeds its format size field"
        else
          .ok total

def intentFields (total : Nat) (oldBytes nextBytes : Bytes) : List (Nat × Bytes) :=
  [(0, encodeLE 4 kCompactionIntentMagic),
    (4, encodeLE 2 kCompactionIntentFormatVersion),
    (6, encodeLE 2 kCompactionIntentHeaderBytes),
    (8, encodeLE 4 total),
    (12, encodeLE 4 intent.workerId),
    (16, intent.oldManifest.storeId),
    (32, encodeLE 8 intent.oldManifest.manifestGeneration),
    (40, encodeLE 8 intent.nextManifest.manifestGeneration),
    (48, encodeLE 4 oldBytes.length),
    (52, encodeLE 4 nextBytes.length),
    (kCompactionIntentHeaderBytes, oldBytes),
    (kCompactionIntentHeaderBytes + oldBytes.length, nextBytes)]

def encodeCompactionIntent : Result Bytes :=
  match encodedCompactionIntentSize intent with
  | .error error => .error error
  | .ok total =>
    match encodeManifest intent.oldManifest.toManifest,
        encodeManifest intent.nextManifest.toManifest with
    | .error error, _ => .error error
    | .ok _, .error error => .error error
    | .ok oldBytes, .ok nextBytes =>
      let body := blitAll (List.replicate total 0) (intentFields intent total oldBytes nextBytes)
      .ok (putLE 4 body kIntentChecksumOffset (intentChecksum body))

/-- The part of `decode_compaction_intent` that follows the two manifests. -/
def checkIntent (bytes : Bytes) (oldManifest nextManifest : Catalog) :
    Result DurableCompactionIntent :=
  let intent : DurableCompactionIntent := ⟨getLE 4 bytes 12, oldManifest, nextManifest⟩
  if slice bytes 16 16 ≠ intent.oldManifest.storeId ∨
      getLE 8 bytes 32 ≠ intent.oldManifest.manifestGeneration ∨
      getLE 8 bytes 40 ≠ intent.nextManifest.manifestGeneration then
    fail .corruptedData "compaction intent header disagrees with its embedded manifests"
  else
    match validateIntent intent with
    | .error error => fail .corruptedData error.message
    | .ok () => .ok intent

def decodeCatalog (bytes : Bytes) : Result Catalog :=
  match decoded : decodeManifest bytes with
  | .error error => .error error
  | .ok manifest => .ok ⟨manifest, (decodeManifest_ok.mp decoded).wellFormed⟩

def decodeCompactionIntent (bytes : Bytes) : Result DurableCompactionIntent :=
  if bytes.length < kCompactionIntentHeaderBytes then
    fail .invalidRecord "compaction intent is shorter than its v1 header"
  else if getLE 4 bytes 0 ≠ kCompactionIntentMagic ∨
      getLE 2 bytes 4 ≠ kCompactionIntentFormatVersion ∨
      getLE 2 bytes 6 ≠ kCompactionIntentHeaderBytes ∨ ¬ allZero (slice bytes 60 68) then
    fail .invalidRecord
      "compaction intent magic, version, header size, or reserved fields are invalid"
  else
    let oldSize := getLE 4 bytes 48
    let nextSize := getLE 4 bytes 52
    if oldSize < kManifestHeaderBytes ∨ nextSize < kManifestHeaderBytes ∨
        oldSize > kMaximumManifestBytes ∨ nextSize > kMaximumManifestBytes ∨
        oldSize > kSizeMax - kCompactionIntentHeaderBytes ∨
        nextSize > kSizeMax - kCompactionIntentHeaderBytes - oldSize then
      fail .invalidRecord "compaction intent manifest extents are invalid"
    else
      let expected := kCompactionIntentHeaderBytes + oldSize + nextSize
      if bytes.length ≠ expected ∨ getLE 4 bytes 8 ≠ expected then
        fail .invalidRecord "compaction intent encoded extent is inconsistent"
      else if getLE 4 bytes kIntentChecksumOffset ≠ intentChecksum bytes then
        fail .checksumMismatch "compaction intent checksum mismatch"
      else
        match decodeCatalog (slice bytes kCompactionIntentHeaderBytes oldSize),
            decodeCatalog (slice bytes (kCompactionIntentHeaderBytes + oldSize) nextSize) with
        | .error error, _ => .error error
        | .ok _, .error error => .error error
        | .ok oldManifest, .ok nextManifest => checkIntent bytes oldManifest nextManifest

/-! ## What an encoding is -/

theorem decodeCatalog_ok {bytes : Bytes} {catalog : Catalog} :
    decodeCatalog bytes = .ok catalog ↔ encodeManifest catalog.toManifest = .ok bytes := by
  rw [encodeManifest_ok, ← decodeManifest_ok]
  unfold decodeCatalog
  split
  · next error failed => simp [failed]
  · next manifest decoded =>
    obtain ⟨other, wellFormed⟩ := catalog
    simp only [Except.ok.injEq, Catalog.mk.injEq]
    constructor
    · rintro rfl
      exact decoded
    · intro same
      exact Except.ok.inj (decoded.symm.trans same)

theorem length_of_encodeManifest {manifest : Manifest} {bytes : Bytes}
    (encoded : encodeManifest manifest = .ok bytes) :
    encodedManifestSize manifest = .ok bytes.length ∧ 128 ≤ bytes.length ∧
      bytes.length ≤ kMaximumManifestBytes := by
  have encodes := encodeManifest_ok.mp encoded
  have bounded := encodes.wellFormed.bounded
  have length := encodes.length
  refine ⟨?_, by omega, ?_⟩
  · rw [encodedManifestSize, validateManifest_ok_iff.mpr encodes.wellFormed]
    simp only [manifestSizeForCount_eq_ok bounded, Except.ok.injEq, kManifestHeaderBytes,
      kManifestSegmentEntryBytes]
    omega
  · simp only [kMaximumManifestBytes, kMaximumManifestSegmentCount, kManifestHeaderBytes,
      kManifestSegmentEntryBytes] at *
    omega

/-- The encoding of an intent between the encodings of its manifests. -/
@[mk_iff]
structure EncodesIntent (intent : DurableCompactionIntent) (oldBytes nextBytes bytes : Bytes) :
    Prop where
  valid : validateIntent intent = .ok ()
  oldManifest : encodeManifest intent.oldManifest.toManifest = .ok oldBytes
  nextManifest : encodeManifest intent.nextManifest.toManifest = .ok nextBytes
  length : bytes.length = 128 + oldBytes.length + nextBytes.length
  magic : getLE 4 bytes 0 = kCompactionIntentMagic
  version : getLE 2 bytes 4 = kCompactionIntentFormatVersion
  headerBytes : getLE 2 bytes 6 = kCompactionIntentHeaderBytes
  total : getLE 4 bytes 8 = 128 + oldBytes.length + nextBytes.length
  worker : getLE 4 bytes 12 = intent.workerId
  store : slice bytes 16 16 = intent.oldManifest.storeId
  oldGeneration : getLE 8 bytes 32 = intent.oldManifest.manifestGeneration
  nextGeneration : getLE 8 bytes 40 = intent.nextManifest.manifestGeneration
  oldSize : getLE 4 bytes 48 = oldBytes.length
  nextSize : getLE 4 bytes 52 = nextBytes.length
  oldExtent : slice bytes 128 oldBytes.length = oldBytes
  nextExtent : slice bytes (128 + oldBytes.length) nextBytes.length = nextBytes
  blank : ZeroRange bytes 60 68
  checksum : getLE 4 bytes 56 = intentChecksum bytes

section Encoding

variable {intent : DurableCompactionIntent} {oldBytes nextBytes bytes : Bytes} {total : Nat}

theorem intentFields_apart : (intentFields intent total oldBytes nextBytes).Pairwise Apart := by
  apply pairwise_apart_of_isChain
  simp [intentFields, intent.oldManifest.storeIdSize, kCompactionIntentHeaderBytes]

theorem intentFields_range {field : Nat × Bytes}
    (member : field ∈ intentFields intent (128 + oldBytes.length + nextBytes.length) oldBytes
      nextBytes) :
    field.1 + field.2.length ≤ 128 + oldBytes.length + nextBytes.length ∧
      (field.1 + field.2.length ≤ 56 ∨ 60 ≤ field.1) := by
  simp only [intentFields, List.mem_cons, List.not_mem_nil, or_false] at member
  rcases member with rfl | rfl | rfl | rfl | rfl | rfl | rfl | rfl | rfl | rfl | rfl | rfl <;>
    simp only [length_encodeLE, intent.oldManifest.storeIdSize, kCompactionIntentHeaderBytes] <;>
    omega

theorem uncovered_intentFields {i : Nat} (inside : i < 128 + oldBytes.length + nextBytes.length) :
    Uncovered (intentFields intent total oldBytes nextBytes) i ↔ 56 ≤ i ∧ i < 128 := by
  simp only [Uncovered, intentFields, List.forall_mem_cons, length_encodeLE,
    intent.oldManifest.storeIdSize, kCompactionIntentHeaderBytes, List.not_mem_nil, false_implies,
    implies_true, and_true]
  omega

theorem worker_lt_of_validateIntent (valid : validateIntent intent = .ok ()) :
    intent.workerId < intent.oldManifest.workerCount := by
  unfold validateIntent at valid
  split at valid
  · simp at valid
  next count transition =>
  revert transition
  fun_cases validateDurableCompactionTransition intent.oldManifest.toManifest
    intent.nextManifest.toManifest intent.workerId with
  | case7 _ metadata =>
    intro _
    omega
  | _ => rintro ⟨⟩

theorem encodedCompactionIntentSize_eq_ok (valid : validateIntent intent = .ok ())
    (oldManifest : encodeManifest intent.oldManifest.toManifest = .ok oldBytes)
    (nextManifest : encodeManifest intent.nextManifest.toManifest = .ok nextBytes) :
    encodedCompactionIntentSize intent = .ok (128 + oldBytes.length + nextBytes.length) := by
  obtain ⟨oldSized, -, oldBound⟩ := length_of_encodeManifest oldManifest
  obtain ⟨nextSized, -, nextBound⟩ := length_of_encodeManifest nextManifest
  simp only [kMaximumManifestBytes, kManifestHeaderBytes, kMaximumManifestSegmentCount,
    kManifestSegmentEntryBytes] at oldBound nextBound
  have addressable : ¬ (oldBytes.length > kSizeMax - kCompactionIntentHeaderBytes ∨
      nextBytes.length > kSizeMax - kCompactionIntentHeaderBytes - oldBytes.length) := by
    simp only [kSizeMax, kCompactionIntentHeaderBytes]
    omega
  have formatted : ¬ kCompactionIntentHeaderBytes + oldBytes.length + nextBytes.length >
      kMaximumCompactionIntentBytes := by
    simp only [kMaximumCompactionIntentBytes, kCompactionIntentHeaderBytes, kMaximumManifestBytes,
      kManifestHeaderBytes, kMaximumManifestSegmentCount, kManifestSegmentEntryBytes]
    omega
  simp only [encodedCompactionIntentSize, valid, oldSized, nextSized, if_neg addressable,
    if_neg formatted]
  rfl

theorem encodesIntent_iff_eq (valid : validateIntent intent = .ok ())
    (oldManifest : encodeManifest intent.oldManifest.toManifest = .ok oldBytes)
    (nextManifest : encodeManifest intent.nextManifest.toManifest = .ok nextBytes) :
    EncodesIntent intent oldBytes nextBytes bytes ↔
      bytes = putLE 4 (blitAll (List.replicate (128 + oldBytes.length + nextBytes.length) 0)
          (intentFields intent (128 + oldBytes.length + nextBytes.length) oldBytes nextBytes)) 56
        (intentChecksum (blitAll (List.replicate (128 + oldBytes.length + nextBytes.length) 0)
          (intentFields intent (128 + oldBytes.length + nextBytes.length) oldBytes nextBytes))) := by
  obtain ⟨-, oldLength, oldBound⟩ := length_of_encodeManifest oldManifest
  obtain ⟨-, nextLength, nextBound⟩ := length_of_encodeManifest nextManifest
  simp only [kMaximumManifestBytes, kManifestHeaderBytes, kMaximumManifestSegmentCount,
    kManifestSegmentEntryBytes] at oldBound nextBound
  have workerFits : intent.workerId < 256 ^ 4 := by
    have inside := worker_lt_of_validateIntent valid
    have workers := intent.oldManifest.wellFormed.workers.2
    simp only [kMaximumWorkerCount] at workers
    omega
  have oldGenerationFits := intent.oldManifest.manifestGenerationFits
  have nextGenerationFits := intent.nextManifest.manifestGenerationFits
  simp only [kUInt64Max] at oldGenerationFits nextGenerationFits
  refine Iff.trans ?_ (eq_checksummed_iff (fun other => UInt32.toNat_lt _)
    (fun field member => (intentFields_range member).1) intentFields_apart
    (fun field member => .inr (intentFields_range member).2) (by omega)).symm
  rw [encodesIntent_iff,
    readsAs_iff_of_apart (fun field member => (intentFields_range member).2) (by decide)]
  simp only [valid, oldManifest, nextManifest, true_and, and_assoc]
  refine and_congr_right fun length => ?_
  have blank : (∀ i < 128 + oldBytes.length + nextBytes.length,
      Uncovered (intentFields intent (128 + oldBytes.length + nextBytes.length) oldBytes nextBytes)
        i → i < 56 ∨ 56 + 4 ≤ i → bytes[i]? = some 0) ↔ ZeroRange bytes 60 68 := by
    refine ⟨fun rest i low high => rest i (by omega)
      ((uncovered_intentFields (by omega)).mpr (by omega)) (by omega),
      fun zero i inside uncovered outside => zero i ?_ ?_⟩
    all_goals
      have range := (uncovered_intentFields inside).mp uncovered
      omega
  have checksum : intentChecksum (putLE 4 bytes 56 0) = intentChecksum bytes := by
    have blanked (other : Bytes) : intentChecksum other = (crc32c (putLE 4 other 56 0)).toNat := rfl
    rw [blanked, blanked, putLE_putLE (by omega)]
  rw [blank, checksum]
  simp only [intentFields, List.forall_mem_cons, List.not_mem_nil, false_implies, implies_true,
    true_and, and_assoc, intent.oldManifest.storeIdSize]
  simp (disch := first | omega | decide) only [slice_field_iff]
  rfl

theorem encodeCompactionIntent_ok :
    encodeCompactionIntent intent = .ok bytes ↔
      ∃ oldBytes nextBytes, EncodesIntent intent oldBytes nextBytes bytes := by
  constructor
  · fun_cases encodeCompactionIntent intent with
    | case4 total sized oldBytes nextBytes nextManifest oldManifest body =>
      intro encoded
      have valid : validateIntent intent = .ok () := by
        revert sized
        fun_cases encodedCompactionIntentSize intent with
        | case6 valid => exact fun _ => valid
        | _ => nofun
      refine ⟨oldBytes, nextBytes, (encodesIntent_iff_eq valid oldManifest nextManifest).mpr ?_⟩
      rw [encodedCompactionIntentSize_eq_ok valid oldManifest nextManifest] at sized
      obtain rfl := Except.ok.inj sized
      exact (Except.ok.inj encoded).symm
    | _ => nofun
  · rintro ⟨oldBytes, nextBytes, encodes⟩
    have layout := (encodesIntent_iff_eq encodes.valid encodes.oldManifest encodes.nextManifest).mp
      encodes
    simp only [encodeCompactionIntent, encodes.oldManifest, encodes.nextManifest,
      encodedCompactionIntentSize_eq_ok encodes.valid encodes.oldManifest encodes.nextManifest]
    rw [layout]
    rfl

theorem checkIntent_ok {oldManifest nextManifest : Catalog} :
    checkIntent bytes oldManifest nextManifest = .ok intent ↔
      intent = ⟨getLE 4 bytes 12, oldManifest, nextManifest⟩ ∧ validateIntent intent = .ok () ∧
        slice bytes 16 16 = oldManifest.storeId ∧
        getLE 8 bytes 32 = oldManifest.manifestGeneration ∧
        getLE 8 bytes 40 = nextManifest.manifestGeneration := by
  constructor
  · fun_cases checkIntent bytes oldManifest nextManifest with
    | case3 built agrees valid =>
      intro accepted
      rw [← Except.ok.inj accepted]
      simp only [not_or, ne_eq, not_not] at agrees
      exact ⟨rfl, valid, agrees⟩
    | _ => nofun
  · rintro ⟨rfl, valid, store, oldGeneration, nextGeneration⟩
    simp only [checkIntent, store, oldGeneration, nextGeneration, ne_eq, not_true_eq_false,
      or_self, if_false, valid]

theorem decodeCompactionIntent_ok :
    decodeCompactionIntent bytes = .ok intent ↔
      ∃ oldBytes nextBytes, EncodesIntent intent oldBytes nextBytes bytes := by
  constructor
  · fun_cases decodeCompactionIntent bytes with
    | case8 long header oldSize nextSize sizes expected extent checksum oldManifest nextManifest
        nextDecoded oldDecoded =>
      intro accepted
      obtain ⟨rfl, valid, store, oldGeneration, nextGeneration⟩ := checkIntent_ok.mp accepted
      simp only [not_or, ne_eq, not_not] at header extent checksum
      obtain ⟨magic, version, headerBytes, zero⟩ := header
      have length : bytes.length = 128 + oldSize + nextSize := extent.1
      have total : getLE 4 bytes 8 = 128 + oldSize + nextSize := extent.2
      have oldLength : (slice bytes 128 oldSize).length = oldSize := length_slice (by omega)
      have nextLength : (slice bytes (128 + oldSize) nextSize).length = nextSize :=
        length_slice (by omega)
      refine ⟨slice bytes 128 oldSize, slice bytes (128 + oldSize) nextSize, ?_⟩
      exact
        { valid := valid
          oldManifest := decodeCatalog_ok.mp oldDecoded
          nextManifest := decodeCatalog_ok.mp nextDecoded
          length := by rw [oldLength, nextLength, length]
          magic := magic
          version := version
          headerBytes := headerBytes
          total := by rw [oldLength, nextLength, total]
          worker := rfl
          store := store
          oldGeneration := oldGeneration
          nextGeneration := nextGeneration
          oldSize := oldLength.symm
          nextSize := nextLength.symm
          oldExtent := by rw [oldLength]
          nextExtent := by rw [oldLength, nextLength]
          blank := (allZero_slice_iff (by omega)).mp zero
          checksum := checksum }
    | _ => nofun
  · rintro ⟨oldBytes, nextBytes, encodes⟩
    obtain ⟨-, oldLength, oldBound⟩ := length_of_encodeManifest encodes.oldManifest
    obtain ⟨-, nextLength, nextBound⟩ := length_of_encodeManifest encodes.nextManifest
    have length := encodes.length
    have zero : allZero (slice bytes 60 68) = true :=
      (allZero_slice_iff (by omega)).mpr encodes.blank
    have oldDecoded := decodeCatalog_ok.mpr encodes.oldManifest
    have nextDecoded := decodeCatalog_ok.mpr encodes.nextManifest
    rw [← encodes.oldExtent] at oldDecoded
    rw [← encodes.nextExtent] at nextDecoded
    have checked : checkIntent bytes intent.oldManifest intent.nextManifest = .ok intent :=
      checkIntent_ok.mpr ⟨by rw [encodes.worker], encodes.valid, encodes.store,
        encodes.oldGeneration, encodes.nextGeneration⟩
    have sizes : ¬ (oldBytes.length < kManifestHeaderBytes ∨
        nextBytes.length < kManifestHeaderBytes ∨ oldBytes.length > kMaximumManifestBytes ∨
        nextBytes.length > kMaximumManifestBytes ∨
        oldBytes.length > kSizeMax - kCompactionIntentHeaderBytes ∨
        nextBytes.length > kSizeMax - kCompactionIntentHeaderBytes - oldBytes.length) := by
      simp only [kManifestHeaderBytes, kMaximumManifestBytes, kSizeMax,
        kCompactionIntentHeaderBytes, kMaximumManifestSegmentCount,
        kManifestSegmentEntryBytes] at *
      omega
    rw [decodeCompactionIntent, if_neg (by simp only [kCompactionIntentHeaderBytes]; omega),
      if_neg (by simp [encodes.magic, encodes.version, encodes.headerBytes, zero])]
    simp only [encodes.oldSize, encodes.nextSize, if_neg sizes]
    rw [if_neg (by simp [kCompactionIntentHeaderBytes, encodes.total, length]),
      if_neg (by simp [kIntentChecksumOffset, encodes.checksum])]
    simp only [kCompactionIntentHeaderBytes, oldDecoded, nextDecoded, checked]

end Encoding

/-- Decoding inverts encoding, every accepted byte string is the encoding of its
intent, and an accepted intent is a valid transition. -/
theorem compaction_intent_codec_canonical :
    (∀ intent : DurableCompactionIntent, validateIntent intent = .ok () →
      ∃ bytes, encodeCompactionIntent intent = .ok bytes ∧
        decodeCompactionIntent bytes = .ok intent) ∧
    (∀ (bytes : Bytes) (intent : DurableCompactionIntent),
      decodeCompactionIntent bytes = .ok intent →
        encodeCompactionIntent intent = .ok bytes ∧
        ∃ replacements, validateDurableCompactionTransition intent.oldManifest.toManifest
          intent.nextManifest.toManifest intent.workerId = .ok replacements) := by
  refine ⟨fun intent valid => ?_, fun bytes intent accepted => ?_⟩
  · obtain ⟨oldBytes, oldManifest⟩ := exists_encodeManifest intent.oldManifest.wellFormed
    obtain ⟨nextBytes, nextManifest⟩ := exists_encodeManifest intent.nextManifest.wellFormed
    have encodes := (encodesIntent_iff_eq valid oldManifest nextManifest).mpr rfl
    exact ⟨_, encodeCompactionIntent_ok.mpr ⟨oldBytes, nextBytes, encodes⟩,
      decodeCompactionIntent_ok.mpr ⟨oldBytes, nextBytes, encodes⟩⟩
  · obtain ⟨oldBytes, nextBytes, encodes⟩ := decodeCompactionIntent_ok.mp accepted
    refine ⟨encodeCompactionIntent_ok.mpr ⟨oldBytes, nextBytes, encodes⟩, ?_⟩
    have valid := encodes.valid
    unfold validateIntent at valid
    split at valid
    · simp at valid
    · next replacements transition => exact ⟨replacements, transition⟩

/-- A catalog with one sealed Segment, and its successor without it. -/
def compactableManifest : Manifest :=
  { sampleManifest with
    nextSegmentId := 3
    segments := [{ sampleEntry with role := .sealed },
      { sampleEntry with segmentId := 2, segmentIdFits := by decide }]
    nextSegmentIdFits := by decide }

def compactedManifest : Manifest :=
  { compactableManifest with
    manifestGeneration := 2
    segments := [{ sampleEntry with segmentId := 2, segmentIdFits := by decide }]
    manifestGenerationFits := sampleManifest.nextSegmentIdFits }

def sampleIntent : DurableCompactionIntent where
  workerId := 0
  oldManifest := ⟨compactableManifest, validateManifest_ok_iff.mp
    (show validateManifest compactableManifest .corruptedData = .ok () by decide)⟩
  nextManifest := ⟨compactedManifest, validateManifest_ok_iff.mp
    (show validateManifest compactedManifest .corruptedData = .ok () by decide)⟩

theorem compaction_intent_codec_canonical_sample :
    validateIntent sampleIntent = .ok () ∧
      ∃ bytes, encodeCompactionIntent sampleIntent = .ok bytes ∧
        decodeCompactionIntent bytes = .ok sampleIntent ∧
        ∃ replacements, validateDurableCompactionTransition compactableManifest compactedManifest 0 =
          .ok replacements := by
  have valid : validateIntent sampleIntent = .ok () := by decide
  obtain ⟨bytes, encoded, decoded⟩ := compaction_intent_codec_canonical.1 sampleIntent valid
  exact ⟨valid, bytes, encoded, decoded,
    (compaction_intent_codec_canonical.2 bytes sampleIntent decoded).2⟩

end GlifiStore
