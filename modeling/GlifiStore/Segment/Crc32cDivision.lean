import GlifiStore.Lib.ByteLayout
import GlifiStore.Segment.Crc32c

/-!
# CRC32C as a division

The table-driven update against the long division by the Castagnoli polynomial that defines
the checksum, one message bit a step, and the checksum with its own field treated as zero.
-/

namespace GlifiStore

open ByteLayout Function

/-- One step of the long division, with the low bit of a word as its highest coefficient: the
message bit meets the bit that leaves the remainder, and a set sum subtracts the polynomial. -/
def divideBit (remainder : UInt32) (bit : Bool) : UInt32 :=
  if remainder.toBitVec.getLsbD 0 ^^ bit then remainder >>> 1 ^^^ kCrc32cPoly
  else remainder >>> 1

/-- The low `count` bits of a word, lowest first. -/
def lowBits : Nat → UInt32 → List Bool
  | 0, _ => []
  | count + 1, word => word.toBitVec.getLsbD 0 :: lowBits count (word >>> 1)

def crc32cDivide (crc : UInt32) (data : Bytes) : UInt32 :=
  (data.flatMap fun byte => lowBits 8 byte.toUInt32).foldl divideBit crc

theorem crc32cBit_eq (crc : UInt32) : crc32cBit crc = divideBit crc false := by
  have low : crc &&& 1 = if crc.toBitVec.getLsbD 0 then 1 else 0 := by
    apply UInt32.toBitVec_inj.mp
    rw [UInt32.toBitVec_and]
    refine BitVec.and_one_eq_setWidth_ofBool_getLsbD.trans ?_
    cases crc.toBitVec.getLsbD 0 <;> rfl
  simp only [crc32cBit, divideBit, low]
  cases crc.toBitVec.getLsbD 0 <;> simp

theorem crc32cBit_xor (crc word : UInt32) :
    crc32cBit (crc ^^^ word) = divideBit crc (word.toBitVec.getLsbD 0) ^^^ (word >>> 1) := by
  have shifted : (crc ^^^ word) >>> 1 = crc >>> 1 ^^^ word >>> 1 :=
    UInt32.toBitVec_inj.mp (BitVec.ushiftRight_xor_distrib ..)
  simp only [crc32cBit_eq, divideBit, UInt32.toBitVec_xor, BitVec.getLsbD_xor, Bool.xor_false,
    shifted]
  cases crc.toBitVec.getLsbD 0 ^^ word.toBitVec.getLsbD 0
  · rfl
  · simp only [if_true]
    ac_rfl

/-- A word added to the remainder at once may as well enter it bit by bit. -/
theorem iterate_crc32cBit_xor (count : Nat) (crc word : UInt32) :
    crc32cBit^[count] (crc ^^^ word)
      = (lowBits count word).foldl divideBit crc ^^^ (fun word : UInt32 => word >>> 1)^[count] word := by
  induction count generalizing crc word with
  | zero => rfl
  | succ count ih =>
    simp only [Function.iterate_succ_apply, crc32cBit_xor, ih, lowBits, List.foldl_cons]

theorem crc32cTable_xor (crc word : UInt32) :
    crc32cTable (crc ^^^ word) = (lowBits 8 word).foldl divideBit crc ^^^ (word >>> 8) := by
  have shifted : (fun word : UInt32 => word >>> 1)^[8] word = word >>> 8 :=
    UInt32.toBitVec_inj.mp (by simp [Function.iterate_succ_apply])
  exact (iterate_crc32cBit_xor 8 crc word).trans (by rw [shifted])

theorem crc32cTable_low (word : UInt32) :
    crc32cTable word = crc32cTable (word &&& 0xFF) ^^^ (word >>> 8) := by
  have split : (word &&& 0xFF) ^^^ (word ^^^ (word &&& 0xFF)) = word := by
    rw [UInt32.xor_comm, UInt32.xor_assoc, UInt32.xor_self, UInt32.xor_zero]
  have clear : lowBits 8 (word ^^^ (word &&& 0xFF)) = lowBits 8 0 := by simp [lowBits]
  have rest : (word ^^^ (word &&& 0xFF)) >>> 8 = word >>> 8 := by
    rw [UInt32.shiftRight_xor, UInt32.shiftRight_and]
    simp [show (255 : UInt32) >>> 8 = 0 from rfl]
  have parted := crc32cTable_xor (word &&& 0xFF) (word ^^^ (word &&& 0xFF))
  have alone := crc32cTable_xor (word &&& 0xFF) 0
  simp only [UInt32.xor_zero, UInt32.zero_shiftRight] at alone
  rw [split, clear, rest, ← alone] at parted
  exact parted

theorem crc32cUpdate_eq_divide (crc : UInt32) (data : Bytes) :
    crc32cUpdate crc data = crc32cDivide crc data := by
  rw [crc32cDivide, List.foldl_flatMap]
  refine congrArg (List.foldl · crc data) (funext₂ fun crc byte => ?_)
  have small : byte.toUInt32 >>> 8 = 0 := by
    apply UInt32.toNat_inj.mp
    simpa [Nat.shiftRight_eq_div_pow] using byte.toNat_lt
  have whole := crc32cTable_low (crc ^^^ byte.toUInt32)
  rw [crc32cTable_xor, UInt32.shiftRight_xor, small] at whole
  simpa using whole.symm

theorem crc32cUpdate_append (crc : UInt32) (first second : Bytes) :
    crc32cUpdate crc (first ++ second) = crc32cUpdate (crc32cUpdate crc first) second :=
  List.foldl_append

/-- The bytes with the checksum field treated as zero. -/
def zeroChecksumField (bytes : Bytes) : Bytes :=
  bytes.mapIdx fun index byte => if 20 ≤ index ∧ index < 24 then 0 else byte

theorem zeroChecksumField_eq (bytes : Bytes) :
    zeroChecksumField bytes
      = bytes.take 20 ++ List.replicate (min 4 (bytes.length - 20)) 0 ++ bytes.drop 24 := by
  apply List.ext_getElem
  · simp [zeroChecksumField]
    omega
  · intro index inside _
    simp only [zeroChecksumField, List.getElem_mapIdx, List.getElem_append]
    grind

theorem crc32cWithZeroedChecksumField_long {bytes : Bytes} (long : 20 ≤ bytes.length) :
    crc32cWithZeroedChecksumField bytes = crc32c (zeroChecksumField bytes) := by
  simp only [crc32cWithZeroedChecksumField, crc32c, zeroChecksumField_eq, crc32cUpdate_append,
    if_pos long]
  by_cases field : bytes.length > 20
  · by_cases tail : bytes.length > 24
    · simp only [if_pos field, if_pos tail]
    · simp only [if_pos field, if_neg tail, List.drop_of_length_le (Nat.le_of_not_gt tail)]
      rfl
  · have ended : bytes.length - 20 = 0 := by omega
    simp only [if_neg field, ended, List.drop_of_length_le (by omega : bytes.length ≤ 24)]
    rfl

/-- A span that ends before the field is not read at all. -/
theorem crc32cWithZeroedChecksumField_short {bytes : Bytes} (short : bytes.length < 20) :
    crc32cWithZeroedChecksumField bytes = crc32c [] ∧ zeroChecksumField bytes = bytes := by
  constructor
  · simp only [crc32cWithZeroedChecksumField, if_neg (by omega : ¬ bytes.length ≥ 20),
      if_neg (by omega : ¬ bytes.length > 20)]
    rfl
  · have ended : bytes.length - 20 = 0 := by omega
    rw [zeroChecksumField_eq, ended, List.take_of_length_le (Nat.le_of_lt short),
      List.drop_of_length_le (by omega)]
    simp

/-- The update is the long division of its bytes, fed in pieces or at once. The variant with the
checksum field treated as zero agrees with it from twenty bytes on; a shorter span gets the
checksum of the empty one. -/
theorem crc32c_agreement (bytes : Bytes) :
    (∀ crc, crc32cUpdate crc bytes = crc32cDivide crc bytes) ∧
    (∀ crc tail, crc32cUpdate crc (bytes ++ tail)
      = crc32cUpdate (crc32cUpdate crc bytes) tail) ∧
    (crc32cWithZeroedChecksumField bytes = crc32c (zeroChecksumField bytes) ↔
      20 ≤ bytes.length ∨ crc32c bytes = crc32c []) := by
  refine ⟨fun crc => crc32cUpdate_eq_divide crc bytes,
    fun crc tail => crc32cUpdate_append crc bytes tail, ?_⟩
  rcases Nat.lt_or_ge bytes.length 20 with short | long
  · obtain ⟨skipped, unchanged⟩ := crc32cWithZeroedChecksumField_short short
    rw [skipped, unchanged, eq_comm]
    simp only [Nat.not_le.mpr short, false_or]
  · simp only [crc32cWithZeroedChecksumField_long long, long, true_or]

theorem short_span_unread :
    crc32cWithZeroedChecksumField [0] ≠ crc32c (zeroChecksumField [0]) := by
  decide

/-! ## Bursts -/

/-- The highest bit, which only the polynomial sets, tells whether it was subtracted. -/
theorem divideBit_injective (bit : Bool) : Injective (divideBit · bit) := by
  have bits (crc : UInt32) (i : Nat) : (divideBit crc bit).toBitVec.getLsbD i =
      (crc.toBitVec.getLsbD (i + 1) ^^
        ((crc.toBitVec.getLsbD 0 ^^ bit) && kCrc32cPoly.toBitVec.getLsbD i)) := by
    unfold divideBit
    split <;> simp_all [add_comm]
  intro first second same
  have agree (i : Nat) := congrArg (·.toBitVec.getLsbD i) same
  simp only [bits] at agree
  have low : first.toBitVec.getLsbD 0 = second.toBitVec.getLsbD 0 := by
    simpa [kCrc32cPoly] using agree 31
  rw [low] at agree
  refine UInt32.toBitVec_inj.mp (BitVec.eq_of_getLsbD_eq fun i _ => ?_)
  cases i with
  | zero => exact low
  | succ i => exact Bool.xor_left_inj.mp (agree i)

theorem crc32cDivide_injective (data : Bytes) : Injective (crc32cDivide · data) := by
  unfold crc32cDivide
  induction data.flatMap fun byte => lowBits 8 byte.toUInt32 with
  | nil => exact injective_id
  | cons bit _ ih => exact ih.comp (divideBit_injective bit)

theorem crc32cUpdate_word (crc word : UInt32) :
    crc32cUpdate crc (encodeLE 4 word.toNat) = crc32cBit^[32] (crc ^^^ word) := by
  have bits : (encodeLE 4 word.toNat).flatMap (fun byte => lowBits 8 byte.toUInt32) =
      lowBits 32 word := by
    simp [encodeLE, lowBits, Nat.div_div_eq_div_mul, BitVec.getElem_eq_testBit_toNat,
      Nat.testBit_eq_decide_div_mod_eq]
    omega
  have gone : (fun word : UInt32 => word >>> 1)^[32] word = 0 :=
    UInt32.toBitVec_inj.mp (by simp [iterate_succ_apply, BitVec.ushiftRight_eq_zero])
  rw [iterate_crc32cBit_xor, gone, UInt32.xor_zero, crc32cUpdate_eq_divide, crc32cDivide, bits]

/-- Whatever happens to four bytes in a row, the update shows it. -/
theorem crc32cUpdate_burst (crc : UInt32) (before after : Bytes) (first second : UInt32) :
    crc32cUpdate crc (before ++ (encodeLE 4 first.toNat ++ after)) =
      crc32cUpdate crc (before ++ (encodeLE 4 second.toNat ++ after)) ↔ first = second := by
  have bits := (funext crc32cBit_eq ▸ divideBit_injective false : Injective crc32cBit).iterate 32
  simp only [crc32cUpdate_append, crc32cUpdate_eq_divide _ after,
    (crc32cDivide_injective after).eq_iff, crc32cUpdate_word, bits.eq_iff, UInt32.xor_right_inj]

end GlifiStore
