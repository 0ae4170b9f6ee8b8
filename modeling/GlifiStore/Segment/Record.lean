import GlifiStore.Lib.ByteLayout
import GlifiStore.Segment.Crc32c

/-!
# Records

The encoded record: a 56-byte header, the key, the value and zero padding to
the record alignment, under a CRC32C that skips its own field.
-/

namespace GlifiStore

open ByteLayout

inductive Opcode where
  | put
  | erase
  deriving DecidableEq, Repr

inductive ValueType where
  | bytes
  | integer
  | map
  | lease
  deriving DecidableEq, Repr

def Opcode.raw : Opcode → Nat
  | .put => 1
  | .erase => 2

def Opcode.ofRaw? : Nat → Option Opcode
  | 1 => some .put
  | 2 => some .erase
  | _ => none

def ValueType.raw : ValueType → Nat
  | .bytes => 1
  | .integer => 2
  | .map => 3
  | .lease => 4

def ValueType.ofRaw? : Nat → Option ValueType
  | 1 => some .bytes
  | 2 => some .integer
  | 3 => some .map
  | 4 => some .lease
  | _ => none

@[simp]
theorem Opcode.ofRaw?_raw (opcode : Opcode) : Opcode.ofRaw? opcode.raw = some opcode := by
  cases opcode <;> rfl

@[simp]
theorem ValueType.ofRaw?_raw (type : ValueType) : ValueType.ofRaw? type.raw = some type := by
  cases type <;> rfl

theorem Opcode.raw_of_ofRaw? {raw : Nat} {opcode : Opcode} (known : Opcode.ofRaw? raw = some opcode) :
    opcode.raw = raw := by
  revert known
  fun_cases Opcode.ofRaw? raw with
  | case3 => nofun
  | _ =>
    rintro ⟨⟩
    rfl

theorem ValueType.raw_of_ofRaw? {raw : Nat} {type : ValueType}
    (known : ValueType.ofRaw? raw = some type) : type.raw = raw := by
  revert known
  fun_cases ValueType.ofRaw? raw with
  | case5 => nofun
  | _ =>
    rintro ⟨⟩
    rfl

theorem Opcode.raw_lt (opcode : Opcode) : opcode.raw < 256 ^ 2 := by
  cases opcode <;> decide

theorem ValueType.raw_lt (type : ValueType) : type.raw < 256 ^ 2 := by
  cases type <;> decide

/-- The fields of a record to encode, each within the width of its type. -/
structure RecordInput where
  sequence : Nat
  opcode : Opcode
  type : ValueType
  flags : Nat
  keyHash : Nat
  expireAtNs : Nat
  key : Bytes
  value : Bytes
  sequenceFits : sequence < 256 ^ 8
  flagsFits : flags < 256 ^ 4
  keyHashFits : keyHash < 256 ^ 8
  expireFits : expireAtNs < 256 ^ 8

structure RecordView where
  sequence : Nat
  opcode : Opcode
  type : ValueType
  flags : Nat
  keyHash : Nat
  expireAtNs : Nat
  key : Bytes
  value : Bytes
  encodedSize : Nat
  deriving DecidableEq, Repr

/-- A record expires only for a non-zero expiry and a non-zero clock. -/
def RecordView.expired (record : RecordView) (nowNs : Nat) : Bool :=
  record.expireAtNs ≠ 0 && nowNs ≠ 0 && record.expireAtNs ≤ nowNs

def kRecordMagic : Nat := 0x52594C47
def kRecordFormatVersion : Nat := 1
def kEncodedRecordHeaderSize : Nat := 56

variable (input : RecordInput)

/-- `encoded_record_size`. The enumerations leave no unknown opcode or type to
reject. -/
def encodedRecordSize : Result Nat :=
  if input.key.length > kUInt32Max ∨ input.value.length > kUInt32Max then
    fail .recordTooLarge "key or value exceeds record format limits"
  else
    match checkedAdd kEncodedRecordHeaderSize input.key.length with
    | .error error => .error error
    | .ok withKey =>
      match checkedAdd withKey input.value.length with
      | .error error => .error error
      | .ok raw =>
        match alignUpChecked raw kRecordAlignment with
        | .error _ => fail .recordTooLarge "encoded record exceeds the normal record limit"
        | .ok aligned =>
          if aligned > kMaxNormalRecordSize ∨ aligned > kUInt32Max then
            fail .recordTooLarge "encoded record exceeds the normal record limit"
          else
            .ok aligned

def recordFields (encodedSize : Nat) : List (Nat × Bytes) :=
  [(0, encodeLE 4 kRecordMagic),
    (4, encodeLE 2 kRecordFormatVersion),
    (6, encodeLE 2 kEncodedRecordHeaderSize),
    (8, encodeLE 4 encodedSize),
    (12, encodeLE 4 input.key.length),
    (16, encodeLE 4 input.value.length),
    (20, encodeLE 4 0),
    (24, encodeLE 8 input.sequence),
    (32, encodeLE 8 input.keyHash),
    (40, encodeLE 8 input.expireAtNs),
    (48, encodeLE 2 input.opcode.raw),
    (50, encodeLE 2 input.type.raw),
    (52, encodeLE 4 input.flags),
    (kEncodedRecordHeaderSize, input.key),
    (kEncodedRecordHeaderSize + input.key.length, input.value)]

def encodeRecord : Result Bytes :=
  match encodedRecordSize input with
  | .error error => .error error
  | .ok size =>
    let body := blitAll (List.replicate size 0) (recordFields input size)
    .ok (putLE 4 body 20 (crc32cWithZeroedChecksumField body).toNat)

def allZero (bytes : Bytes) : Bool :=
  bytes.all (· = 0)

def decodeRecord (bytes : Bytes) : Result RecordView :=
  if bytes.length < kEncodedRecordHeaderSize then
    fail .invalidRecord "record is shorter than the encoded header"
  else if getLE 4 bytes 0 ≠ kRecordMagic ∨ getLE 2 bytes 4 ≠ kRecordFormatVersion ∨
      getLE 2 bytes 6 ≠ kEncodedRecordHeaderSize then
    fail .invalidRecord "record magic, version, or header size is invalid"
  else
    let totalSize := getLE 4 bytes 8
    let keySize := getLE 4 bytes 12
    let valueSize := getLE 4 bytes 16
    if totalSize < kEncodedRecordHeaderSize ∨ totalSize > bytes.length ∨
        totalSize > kMaxNormalRecordSize ∨ totalSize % kRecordAlignment ≠ 0 then
      fail .invalidRecord "record total size is invalid"
    else
      match checkedAdd keySize valueSize with
      | .error _ => fail .invalidRecord "record payload extent is invalid"
      | .ok payloadSize =>
        match checkedAdd kEncodedRecordHeaderSize payloadSize with
        | .error _ => fail .invalidRecord "record payload extent overflows its encoded size"
        | .ok rawSize =>
          if alignUpChecked rawSize kRecordAlignment ≠ .ok totalSize then
            fail .invalidRecord "record total size is not its canonical aligned extent"
          else
            let encoded := bytes.take totalSize
            if getLE 4 bytes 20 ≠ (crc32cWithZeroedChecksumField encoded).toNat then
              fail .checksumMismatch "record checksum mismatch"
            else
              match Opcode.ofRaw? (getLE 2 bytes 48), ValueType.ofRaw? (getLE 2 bytes 50) with
              | none, _ => fail .invalidRecord "unknown record opcode"
              | some _, none => fail .invalidRecord "unknown record value type"
              | some opcode, some type =>
                if ¬ allZero (encoded.drop (kEncodedRecordHeaderSize + payloadSize)) then
                  fail .invalidRecord "record alignment padding is not zero"
                else
                  .ok
                    { sequence := getLE 8 bytes 24
                      opcode := opcode
                      type := type
                      flags := getLE 4 bytes 52
                      keyHash := getLE 8 bytes 32
                      expireAtNs := getLE 8 bytes 40
                      key := slice encoded kEncodedRecordHeaderSize keySize
                      value := slice encoded (kEncodedRecordHeaderSize + keySize) valueSize
                      encodedSize := totalSize }

/-! ## Zero ranges -/

def ZeroRange (bytes : Bytes) (start count : Nat) : Prop :=
  ∀ i, start ≤ i → i < start + count → bytes[i]? = some 0

variable {bytes : Bytes}

theorem allZero_slice_iff {start count : Nat} (fits : start + count ≤ bytes.length) :
    allZero (slice bytes start count) = true ↔ ZeroRange bytes start count := by
  have length := length_slice fits
  rw [allZero, List.all_eq_true]
  constructor
  · intro zero i low high
    have position : (slice bytes start count)[i - start]? = bytes[i]? := by
      rw [getElem?_slice, if_pos (by omega), Nat.add_sub_cancel' low]
    obtain ⟨byte, found⟩ : ∃ byte, bytes[i]? = some byte :=
      ⟨_, List.getElem?_eq_getElem (by omega)⟩
    have blank := zero byte (List.mem_of_getElem? (position.trans found))
    rw [found]
    simpa using blank
  · intro blank byte member
    obtain ⟨position, inside⟩ := List.getElem?_of_mem member
    rw [getElem?_slice] at inside
    split at inside
    · next within =>
      rw [blank (start + position) (by omega) (by omega)] at inside
      simpa using (Option.some.inj inside).symm
    · simp at inside

/-! ## Sizes -/

theorem checkedAdd_ok_iff {lhs rhs sum : Nat} :
    checkedAdd lhs rhs = .ok sum ↔ ¬ rhs > kSizeMax - lhs ∧ sum = lhs + rhs := by
  unfold checkedAdd
  split
  · next overflow => simp [fail, overflow]
  · next fits => simp [fits, eq_comm]

theorem alignUpChecked_ok_iff {value aligned : Nat} :
    alignUpChecked value kRecordAlignment = .ok aligned ↔
      ¬ 7 > kSizeMax - value ∧ aligned = (value + 7) / 8 * 8 := by
  unfold alignUpChecked
  cases added : checkedAdd value (kRecordAlignment - 1) with
  | error error =>
    have overflow : ¬ ¬ 7 > kSizeMax - value := by
      intro fits
      have sum : checkedAdd value (kRecordAlignment - 1) = .ok (value + 7) :=
        checkedAdd_ok_iff.mpr ⟨fits, rfl⟩
      simp [added] at sum
    simp [bind, Except.bind, overflow]
  | ok sum =>
    obtain ⟨fits, rfl⟩ := checkedAdd_ok_iff.mp added
    simp only [bind, Except.bind, kRecordAlignment, Except.ok.injEq] at fits ⊢
    constructor
    · rintro rfl
      exact ⟨fits, rfl⟩
    · rintro ⟨-, rfl⟩
      rfl

variable {input : RecordInput} {size : Nat}

theorem encodedRecordSize_spec (success : encodedRecordSize input = .ok size) :
    size = (kEncodedRecordHeaderSize + input.key.length + input.value.length + 7) / 8 * 8 ∧
      size ≤ kMaxNormalRecordSize := by
  revert success
  fun_cases encodedRecordSize input with
  | case6 _ withKey keyed raw valued aligned rounded bounded =>
    obtain ⟨-, rfl⟩ := checkedAdd_ok_iff.mp keyed
    obtain ⟨-, rfl⟩ := checkedAdd_ok_iff.mp valued
    obtain ⟨-, rfl⟩ := alignUpChecked_ok_iff.mp rounded
    rintro ⟨⟩
    refine ⟨rfl, ?_⟩
    simp only [not_or, Nat.not_lt] at bounded
    exact bounded.1
  | _ => nofun

theorem encodedRecordSize_eq_ok (aligned : size =
      (kEncodedRecordHeaderSize + (input.key.length + input.value.length) + 7) / 8 * 8)
    (bounded : size ≤ kMaxNormalRecordSize) : encodedRecordSize input = .ok size := by
  simp only [kEncodedRecordHeaderSize, kMaxNormalRecordSize] at aligned bounded
  have small : ¬ (input.key.length > kUInt32Max ∨ input.value.length > kUInt32Max) := by
    simp only [kUInt32Max]
    omega
  have keyed : checkedAdd kEncodedRecordHeaderSize input.key.length =
      .ok (kEncodedRecordHeaderSize + input.key.length) := by
    refine checkedAdd_ok_iff.mpr ⟨?_, rfl⟩
    simp only [kSizeMax, kEncodedRecordHeaderSize]
    omega
  have valued : checkedAdd (kEncodedRecordHeaderSize + input.key.length) input.value.length =
      .ok (kEncodedRecordHeaderSize + input.key.length + input.value.length) := by
    refine checkedAdd_ok_iff.mpr ⟨?_, rfl⟩
    simp only [kSizeMax, kEncodedRecordHeaderSize]
    omega
  have rounded : alignUpChecked (kEncodedRecordHeaderSize + input.key.length + input.value.length)
      kRecordAlignment = .ok size := by
    refine alignUpChecked_ok_iff.mpr ⟨?_, ?_⟩
    · simp only [kSizeMax, kEncodedRecordHeaderSize]
      omega
    · simp only [kEncodedRecordHeaderSize]
      omega
  have normal : ¬ (size > kMaxNormalRecordSize ∨ size > kUInt32Max) := by
    simp only [kMaxNormalRecordSize, kUInt32Max]
    omega
  simp only [encodedRecordSize, if_neg small, keyed, valued, rounded, if_neg normal]

/-! ## Accepted bytes -/

/-- The conditions under which bytes decode to a record. -/
@[mk_iff]
structure Decodes (bytes : Bytes) (record : RecordView) : Prop where
  magic : getLE 4 bytes 0 = kRecordMagic
  version : getLE 2 bytes 4 = kRecordFormatVersion
  headerSize : getLE 2 bytes 6 = kEncodedRecordHeaderSize
  total : getLE 4 bytes 8 = record.encodedSize
  canonical : record.encodedSize =
    (kEncodedRecordHeaderSize + (getLE 4 bytes 12 + getLE 4 bytes 16) + 7) / 8 * 8
  inside : record.encodedSize ≤ bytes.length
  bounded : record.encodedSize ≤ kMaxNormalRecordSize
  checksum : getLE 4 bytes 20 =
    (crc32cWithZeroedChecksumField (bytes.take record.encodedSize)).toNat
  opcode : Opcode.ofRaw? (getLE 2 bytes 48) = some record.opcode
  type : ValueType.ofRaw? (getLE 2 bytes 50) = some record.type
  padding : allZero ((bytes.take record.encodedSize).drop
    (kEncodedRecordHeaderSize + (getLE 4 bytes 12 + getLE 4 bytes 16))) = true
  sequence : record.sequence = getLE 8 bytes 24
  flags : record.flags = getLE 4 bytes 52
  keyHash : record.keyHash = getLE 8 bytes 32
  expireAtNs : record.expireAtNs = getLE 8 bytes 40
  key : record.key = slice (bytes.take record.encodedSize) kEncodedRecordHeaderSize
    (getLE 4 bytes 12)
  value : record.value = slice (bytes.take record.encodedSize)
    (kEncodedRecordHeaderSize + getLE 4 bytes 12) (getLE 4 bytes 16)

variable {record : RecordView}

theorem Decodes.decodeRecord_eq (decodes : Decodes bytes record) :
    decodeRecord bytes = .ok record := by
  have keyBound := getLE_lt 4 bytes 12
  have valueBound := getLE_lt 4 bytes 16
  have canonical := decodes.canonical
  have inside := decodes.inside
  have bounded := decodes.bounded
  have payload : checkedAdd (getLE 4 bytes 12) (getLE 4 bytes 16) =
      .ok (getLE 4 bytes 12 + getLE 4 bytes 16) := by
    refine checkedAdd_ok_iff.mpr ⟨?_, rfl⟩
    simp only [kSizeMax]
    omega
  have raw : checkedAdd kEncodedRecordHeaderSize (getLE 4 bytes 12 + getLE 4 bytes 16) =
      .ok (kEncodedRecordHeaderSize + (getLE 4 bytes 12 + getLE 4 bytes 16)) := by
    refine checkedAdd_ok_iff.mpr ⟨?_, rfl⟩
    simp only [kSizeMax, kEncodedRecordHeaderSize]
    omega
  have aligned : alignUpChecked (kEncodedRecordHeaderSize + (getLE 4 bytes 12 + getLE 4 bytes 16))
      kRecordAlignment = .ok record.encodedSize := by
    refine alignUpChecked_ok_iff.mpr ⟨?_, canonical⟩
    simp only [kSizeMax, kEncodedRecordHeaderSize]
    omega
  simp only [kEncodedRecordHeaderSize] at canonical
  have long : ¬ bytes.length < kEncodedRecordHeaderSize := by
    simp only [kEncodedRecordHeaderSize]
    omega
  have sizes : ¬ (record.encodedSize < kEncodedRecordHeaderSize ∨
      record.encodedSize > bytes.length ∨ record.encodedSize > kMaxNormalRecordSize ∨
      record.encodedSize % kRecordAlignment ≠ 0) := by
    simp only [kEncodedRecordHeaderSize, kRecordAlignment]
    omega
  unfold decodeRecord
  rw [if_neg long, if_neg (by simp [decodes.magic, decodes.version, decodes.headerSize])]
  simp only [decodes.total, if_neg sizes, payload, raw, aligned, ne_eq, not_true_eq_false,
    if_false, decodes.checksum, decodes.opcode, decodes.type, decodes.padding]
  rw [← decodes.sequence, ← decodes.flags, ← decodes.keyHash, ← decodes.expireAtNs, ← decodes.key,
    ← decodes.value]

theorem decodeRecord_eq_ok_iff :
    decodeRecord bytes = .ok record ↔ Decodes bytes record := by
  refine ⟨?_, Decodes.decodeRecord_eq⟩
  fun_cases decodeRecord bytes with
  | case11 _ header total keySize valueSize sizes payload payloadEq raw rawEq aligned encoded checksum
      opcode type typeEq opcodeEq padding =>
    intro success
    simp only [not_or, Nat.not_lt, ne_eq, not_not] at header sizes aligned checksum padding
    obtain ⟨-, rfl⟩ := checkedAdd_ok_iff.mp payloadEq
    obtain ⟨-, rfl⟩ := checkedAdd_ok_iff.mp rawEq
    obtain ⟨-, canonical⟩ := alignUpChecked_ok_iff.mp aligned
    obtain rfl := Except.ok.inj success
    exact ⟨header.1, header.2.1, header.2.2, rfl, canonical, sizes.2.1, sizes.2.2.1, checksum,
      opcodeEq, typeEq, padding, rfl, rfl, rfl, rfl, rfl, rfl⟩
  | _ => nofun

/-! ## Decoding an encoded record -/

def RecordInput.view (encodedSize : Nat) : RecordView where
  sequence := input.sequence
  opcode := input.opcode
  type := input.type
  flags := input.flags
  keyHash := input.keyHash
  expireAtNs := input.expireAtNs
  key := input.key
  value := input.value
  encodedSize := encodedSize

theorem Decodes.congr {left right : Bytes} (decodes : Decodes left record)
    (inside : record.encodedSize ≤ right.length)
    (same : left.take record.encodedSize = right.take record.encodedSize) :
    Decodes right record := by
  have canonical := decodes.canonical
  simp only [kEncodedRecordHeaderSize] at canonical
  have read {width start : Nat} (within : start + width ≤ 56) :
      getLE width right start = getLE width left start :=
    (getLE_congr (slice_eq_of_take_eq same (by omega))).symm
  rw [decodes_iff] at decodes ⊢
  simp (disch := decide) only [read, ← same]
  obtain ⟨magic, version, headerSize, total, aligned, -, rest⟩ := decodes
  exact ⟨magic, version, headerSize, total, aligned, inside, rest⟩

section Encoding

theorem recordFields_range (room : 56 + input.key.length + input.value.length ≤ size)
    {field : Nat × Bytes} (member : field ∈ recordFields input size) :
    field.1 + field.2.length ≤ size ∧ SparesRange 20 4 field := by
  simp only [recordFields, List.mem_cons, List.not_mem_nil, or_false] at member
  rcases member with rfl | rfl | rfl | rfl | rfl | rfl | rfl | rfl | rfl | rfl | rfl | rfl | rfl |
    rfl | rfl <;>
    simp only [length_encodeLE, kEncodedRecordHeaderSize, SparesRange] <;>
    refine ⟨by omega, ?_⟩ <;> first | exact .inl trivial | (refine .inr ?_; omega)

theorem recordFields_apart : (recordFields input size).Pairwise Apart := by
  apply pairwise_apart_of_isChain
  simp [recordFields, kEncodedRecordHeaderSize]

theorem eq_encoded_iff (room : 56 + input.key.length + input.value.length ≤ size) :
    bytes = putLE 4 (blitAll (List.replicate size 0) (recordFields input size)) 20
        (crc32cWithZeroedChecksumField
          (blitAll (List.replicate size 0) (recordFields input size))).toNat ↔
      ReadsAs size 20 4 (recordFields input size) bytes ∧
        getLE 4 bytes 20 = (crc32cWithZeroedChecksumField bytes).toNat := by
  rw [@eq_checksummed_iff 4 20 size (recordFields input size) bytes
    (fun other => (crc32cWithZeroedChecksumField other).toNat) (fun _ => UInt32.toNat_lt _)
    (fun _ member => (recordFields_range room member).1) recordFields_apart
    (fun _ member => (recordFields_range room member).2) (by omega)]
  refine and_congr_right fun reads => ?_
  have fits : 20 + (encodeLE 4 0).length ≤ bytes.length := by
    rw [reads.length, length_encodeLE]
    omega
  have after := drop_blit fits
  rw [length_encodeLE] at after
  rw [show crc32cWithZeroedChecksumField (putLE 4 bytes 20 0) = _ from
    crc32cWithZeroedChecksumField_congr (length_blit fits) (take_blit fits) after]

theorem uncovered_recordFields {i : Nat} :
    Uncovered (recordFields input size) i ↔
      kEncodedRecordHeaderSize + (input.key.length + input.value.length) ≤ i := by
  simp only [Uncovered, recordFields, List.forall_mem_cons, length_encodeLE, List.not_mem_nil,
    false_implies, implies_true, and_true, kEncodedRecordHeaderSize]
  omega

theorem recordFields_iff (room : 56 + input.key.length + input.value.length ≤ bytes.length)
    (small : bytes.length < 256 ^ 4) :
    (∀ field ∈ recordFields input bytes.length, field ≠ (20, encodeLE 4 0) →
      slice bytes field.1 field.2.length = field.2) ↔
      getLE 4 bytes 0 = kRecordMagic ∧ getLE 2 bytes 4 = kRecordFormatVersion ∧
      getLE 2 bytes 6 = kEncodedRecordHeaderSize ∧ getLE 4 bytes 8 = bytes.length ∧
      getLE 4 bytes 12 = input.key.length ∧ getLE 4 bytes 16 = input.value.length ∧
      getLE 8 bytes 24 = input.sequence ∧ getLE 8 bytes 32 = input.keyHash ∧
      getLE 8 bytes 40 = input.expireAtNs ∧ getLE 2 bytes 48 = input.opcode.raw ∧
      getLE 2 bytes 50 = input.type.raw ∧ getLE 4 bytes 52 = input.flags ∧
      slice bytes 56 input.key.length = input.key ∧
      slice bytes (56 + input.key.length) input.value.length = input.value := by
  have behind : ¬ 56 + input.key.length = 20 := by omega
  simp only [recordFields, List.forall_mem_cons, List.not_mem_nil, false_implies, implies_true,
    and_true, ne_eq, Prod.mk.injEq, Nat.reduceEqDiff, OfNat.zero_ne_ofNat, false_and,
    not_false_eq_true, true_implies, kEncodedRecordHeaderSize, not_true_eq_false, true_and, behind]
  have sequenceFits := input.sequenceFits
  have keyHashFits := input.keyHashFits
  have expireFits := input.expireFits
  have opcodeFits := input.opcode.raw_lt
  have typeFits := input.type.raw_lt
  have flagsFits := input.flagsFits
  simp (disch := first | omega | decide) only [slice_field_iff]

/-- The encodings of a record are the bytes of its size that decode to it. -/
theorem encodeRecord_ok_iff :
    encodeRecord input = .ok bytes ↔ Decodes bytes (input.view bytes.length) := by
  have whole : bytes.take (input.view bytes.length).encodedSize = bytes := List.take_length
  constructor
  · fun_cases encodeRecord input with
    | case1 => nofun
    | case2 size sized body =>
      intro encoded
      obtain ⟨canonical, bounded⟩ := encodedRecordSize_spec sized
      simp only [kEncodedRecordHeaderSize] at canonical
      obtain ⟨⟨rfl, read, rest⟩, stored⟩ :=
        (eq_encoded_iff (show 56 + input.key.length + input.value.length ≤ size by omega)).mp
          (Except.ok.inj encoded).symm
      obtain ⟨magic, version, headerSize, total, keySize, valueSize, sequence, keyHash, expireAtNs,
        opcode, type, flags, key, value⟩ := (recordFields_iff (by omega)
          (Nat.lt_of_le_of_lt bounded (by decide))).mp read
      refine ⟨magic, version, headerSize, total, ?_, Nat.le_refl _, bounded, by rw [whole, stored],
        by rw [opcode]; exact input.opcode.ofRaw?_raw, by rw [type]; exact input.type.ofRaw?_raw, ?_,
        sequence.symm, flags.symm, keyHash.symm, expireAtNs.symm, ?_, ?_⟩
      · rw [keySize, valueSize]
        simp only [RecordInput.view, kEncodedRecordHeaderSize]
        omega
      · rw [whole, keySize, valueSize, drop_eq_slice,
          allZero_slice_iff (by simp only [kEncodedRecordHeaderSize]; omega)]
        intro i low high
        simp only [kEncodedRecordHeaderSize] at low high
        exact rest i (by omega) (uncovered_recordFields.mpr low) (by omega)
      · rw [whole, keySize]
        exact key.symm
      · rw [whole, keySize, valueSize]
        exact value.symm
  · intro decodes
    have canonical := decodes.canonical
    have bounded := decodes.bounded
    have key := decodes.key
    have value := decodes.value
    have padding := decodes.padding
    have checksum := decodes.checksum
    rw [whole] at key value padding checksum
    simp only [RecordInput.view, kEncodedRecordHeaderSize] at canonical bounded key value
    have keySize : getLE 4 bytes 12 = input.key.length := by rw [key, length_slice (by omega)]
    have valueSize : getLE 4 bytes 16 = input.value.length := by rw [value, length_slice (by omega)]
    rw [keySize, valueSize] at canonical padding value
    rw [keySize] at key
    have sized : encodedRecordSize input = .ok bytes.length :=
      encodedRecordSize_eq_ok canonical bounded
    simp only [encodeRecord, sized]
    refine congrArg _ ((eq_encoded_iff (by omega)).mpr ⟨⟨rfl, ?_, fun i inside uncovered _ => ?_⟩,
      checksum⟩).symm
    · exact (recordFields_iff (by omega) (Nat.lt_of_le_of_lt bounded (by decide))).mpr
        ⟨decodes.magic, decodes.version, decodes.headerSize, decodes.total, keySize, valueSize,
          decodes.sequence.symm, decodes.keyHash.symm, decodes.expireAtNs.symm,
          (Opcode.raw_of_ofRaw? decodes.opcode).symm, (ValueType.raw_of_ofRaw? decodes.type).symm,
          decodes.flags.symm, key.symm, value.symm⟩
    · rw [drop_eq_slice, allZero_slice_iff (by simp only [kEncodedRecordHeaderSize]; omega)]
        at padding
      exact padding i (uncovered_recordFields.mp uncovered)
        (by simp only [kEncodedRecordHeaderSize]; omega)

theorem exists_encodeRecord (sized : encodedRecordSize input = .ok size) :
    ∃ bytes, encodeRecord input = .ok bytes ∧ bytes.length = size := by
  obtain ⟨value, -⟩ := encodedRecordSize_spec sized
  simp only [kEncodedRecordHeaderSize] at value
  simp only [encodeRecord, sized]
  exact ⟨_, rfl, ((eq_encoded_iff (by omega)).mp rfl).1.length⟩

theorem decodeRecord_encodeRecord (encoded : encodeRecord input = .ok bytes) :
    decodeRecord bytes = .ok (input.view bytes.length) :=
  (encodeRecord_ok_iff.mp encoded).decodeRecord_eq

end Encoding

end GlifiStore
