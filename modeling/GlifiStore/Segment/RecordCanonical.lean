import GlifiStore.Segment.Crc32cDivision
import GlifiStore.Segment.Record

/-!
# Canonical records

The decoder pins down every byte of a record: the header fields, the payload,
the padding and the checksum. Re-encoding what it accepts gives the accepted
bytes back.
-/

namespace GlifiStore

open ByteLayout

section Accepted

variable {bytes : Bytes} {record : RecordView}

def Decodes.input (decodes : Decodes bytes record) : RecordInput where
  sequence := record.sequence
  opcode := record.opcode
  type := record.type
  flags := record.flags
  keyHash := record.keyHash
  expireAtNs := record.expireAtNs
  key := record.key
  value := record.value
  sequenceFits := decodes.sequence ▸ getLE_lt 8 bytes 24
  flagsFits := decodes.flags ▸ getLE_lt 4 bytes 52
  keyHashFits := decodes.keyHash ▸ getLE_lt 8 bytes 32
  expireFits := decodes.expireAtNs ▸ getLE_lt 8 bytes 40

theorem Decodes.encodeRecord_eq (decodes : Decodes bytes record) :
    encodeRecord decodes.input = .ok (bytes.take record.encodedSize) := by
  have length : (bytes.take record.encodedSize).length = record.encodedSize := by
    rw [List.length_take, Nat.min_eq_left decodes.inside]
  rw [encodeRecord_ok_iff, length]
  exact decodes.congr (Nat.le_of_eq length.symm) (by rw [List.take_take, Nat.min_self])

end Accepted

/-- Encoding then decoding gives the input back, re-encoding an accepted record
gives its bytes back, and so the accepted bytes of a record are unique. -/
theorem record_codec_canonical :
    (∀ (input : RecordInput) (size : Nat), encodedRecordSize input = .ok size →
      ∃ bytes, encodeRecord input = .ok bytes ∧ bytes.length = size ∧
        decodeRecord bytes = .ok (input.view size)) ∧
    (∀ (bytes : Bytes) (record : RecordView), decodeRecord bytes = .ok record →
      ∃ input : RecordInput, input.view record.encodedSize = record ∧
        encodeRecord input = .ok (bytes.take record.encodedSize)) ∧
    (∀ (left right : Bytes) (record : RecordView), decodeRecord left = .ok record →
      decodeRecord right = .ok record →
        left.take record.encodedSize = right.take record.encodedSize) := by
  refine ⟨fun input size sized => ?_, fun bytes record accepted => ?_,
    fun left right record first second => ?_⟩
  · obtain ⟨bytes, encoded, length⟩ := exists_encodeRecord sized
    exact ⟨bytes, encoded, length, length ▸ decodeRecord_encodeRecord encoded⟩
  · have decodes := decodeRecord_eq_ok_iff.mp accepted
    exact ⟨decodes.input, rfl, decodes.encodeRecord_eq⟩
  · -- Both re-encode the same fields.
    have left := (decodeRecord_eq_ok_iff.mp first).encodeRecord_eq
    have right := (decodeRecord_eq_ok_iff.mp second).encodeRecord_eq
    exact Except.ok.inj (left.symm.trans right)

def smallInput : RecordInput :=
  ⟨1, .put, .bytes, 0, 7, 0, [1], [2], one_fits8, zero_fits4, by decide, zero_fits8⟩

theorem record_codec_canonical_small :
    encodedRecordSize smallInput = .ok 64 ∧
      ∃ bytes, encodeRecord smallInput = .ok bytes ∧ bytes.length = 64 ∧
        decodeRecord bytes = .ok (smallInput.view 64) ∧
        ∃ input : RecordInput, input.view 64 = smallInput.view 64 ∧
          encodeRecord input = .ok (bytes.take 64) := by
  obtain ⟨bytes, encoded, length, decoded⟩ := record_codec_canonical.1 smallInput 64 (by decide)
  exact ⟨by decide, bytes, encoded, length, decoded, record_codec_canonical.2.1 bytes _ decoded⟩

/-! ## Corrupted records -/

variable {bytes : Bytes} {start : Nat}

theorem checksum_putLE (behind : 24 ≤ start) (fits : start + 4 ≤ bytes.length)
    (first second : UInt32) :
    crc32cWithZeroedChecksumField (putLE 4 bytes start first.toNat) =
      crc32cWithZeroedChecksumField (putLE 4 bytes start second.toNat) ↔ first = second := by
  have before : (bytes.take start).length = start := List.length_take_of_le (by omega)
  have large : bytes.length > 20 + 4 := by omega
  simp only [crc32cWithZeroedChecksumField, length_putLE fits, if_pos large,
    if_pos (show bytes.length > 20 by omega), if_pos (show bytes.length ≥ 20 by omega)]
  simp only [putLE, blit, length_encodeLE, List.append_assoc, UInt32.not_inj,
    List.take_append_of_le_length (show 20 ≤ (bytes.take start).length by omega),
    List.drop_append_of_le_length (show 20 + 4 ≤ (bytes.take start).length by omega),
    crc32cUpdate_burst]

/-- An encoded record is refused after any change to four bytes in a row behind its checksum. -/
theorem record_burst_refused {input : RecordInput} (encoded : encodeRecord input = .ok bytes)
    (behind : 24 ≤ start) (fits : start + 4 ≤ bytes.length) (word : UInt32)
    (changed : getLE 4 bytes start ≠ word.toNat) (record : RecordView) :
    decodeRecord (putLE 4 bytes start word.toNat) ≠ .ok record := by
  intro accepted
  have left := encodeRecord_ok_iff.mp encoded
  have right := decodeRecord_eq_ok_iff.mp accepted
  have field {place : Nat} (header : place + 4 ≤ 24) :
      getLE 4 (putLE 4 bytes start word.toNat) place = getLE 4 bytes place :=
    getLE_congr (slice_putLE_of_disjoint fits (.inl (header.trans behind)))
  have size : bytes.length = record.encodedSize := by
    rw [← right.total, field (by decide), left.total]
    rfl
  have whole : bytes.take (input.view bytes.length).encodedSize = bytes := List.take_length
  have sums := left.checksum.symm.trans ((field (by decide)).symm.trans right.checksum)
  rw [whole, ← size, UInt32.toNat_inj, List.take_of_length_le (length_putLE fits).le] at sums
  obtain ⟨own, same⟩ : ∃ own : UInt32, own.toNat = getLE 4 bytes start :=
    ⟨.ofNat _, UInt32.toNat_ofNat_of_lt (getLE_lt 4 bytes start)⟩
  have kept := putLE_getLE fits
  rw [← same] at kept
  have equal := (checksum_putLE behind fits own word).mp (by rw [kept, sums])
  exact changed (same.symm.trans (congrArg _ equal))

theorem record_burst_refused_flags : ∃ bytes, encodeRecord smallInput = .ok bytes ∧
    ∀ record, decodeRecord (putLE 4 bytes 52 1) ≠ .ok record := by
  obtain ⟨bytes, encoded, length⟩ :=
    exists_encodeRecord (show encodedRecordSize smallInput = .ok 64 by decide)
  refine ⟨bytes, encoded, record_burst_refused encoded (by decide) (by omega) 1 ?_⟩
  rw [← (encodeRecord_ok_iff.mp encoded).flags]
  exact Nat.zero_ne_one

end GlifiStore
