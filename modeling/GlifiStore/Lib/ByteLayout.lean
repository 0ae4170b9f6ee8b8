import Mathlib

/-!
# Positional byte layouts

Fixed layouts are written by overwriting ranges of a buffer and read by slicing
them. `blit` and `slice` are the two operations, `putLE` and `getLE` their
little-endian integer forms, and the lemmas say that reading a range sees the
last write to it and no write to any other range.
-/

namespace ByteLayout

variable {α : Type}

theorem getD_set {values : List α} {index : Nat} (value dummy : α) (inside : index < values.length)
    (other : Nat) :
    (values.set index value).getD other dummy =
      if other = index then value else values.getD other dummy := by
  by_cases same : other = index
  · simp [same, inside]
  · simp [same, Ne.symm same]

/-! ## Little-endian integers -/

/-- The `width` bytes of `value`, least significant first. -/
def encodeLE : Nat → Nat → List UInt8
  | 0, _ => []
  | width + 1, value => UInt8.ofNat (value % 256) :: encodeLE width (value / 256)

/-- The number whose bytes, least significant first, are given. -/
def decodeLE : List UInt8 → Nat
  | [] => 0
  | byte :: rest => byte.toNat + 256 * decodeLE rest

@[simp]
theorem length_encodeLE (width value : Nat) : (encodeLE width value).length = width := by
  induction width generalizing value with
  | zero => rfl
  | succ width ih => simp [encodeLE, ih]

variable {width : Nat}

theorem decodeLE_encodeLE {value : Nat} (fits : value < 256 ^ width) :
    decodeLE (encodeLE width value) = value := by
  induction width generalizing value with
  | zero =>
    have none : value = 0 := by simpa using fits
    rw [none, encodeLE, decodeLE]
  | succ width ih =>
    have high : value / 256 < 256 ^ width := by
      rw [Nat.pow_succ, Nat.mul_comm] at fits
      exact Nat.div_lt_of_lt_mul fits
    have low : (UInt8.ofNat (value % 256)).toNat = value % 256 := by
      simp
    rw [encodeLE, decodeLE, ih high, low]
    omega

variable (bytes : List UInt8)

theorem decodeLE_lt : decodeLE bytes < 256 ^ bytes.length := by
  induction bytes with
  | nil => simp [decodeLE]
  | cons byte rest ih =>
    have bound : byte.toNat < 256 := byte.toNat_lt
    rw [decodeLE, List.length_cons, Nat.pow_succ]
    omega

theorem encodeLE_decodeLE : encodeLE bytes.length (decodeLE bytes) = bytes := by
  induction bytes with
  | nil => rfl
  | cons byte rest ih =>
    have bound : byte.toNat < 256 := byte.toNat_lt
    have low : (byte.toNat + 256 * decodeLE rest) % 256 = byte.toNat := by omega
    have high : (byte.toNat + 256 * decodeLE rest) / 256 = decodeLE rest := by omega
    rw [List.length_cons, decodeLE, encodeLE, low, high, ih, UInt8.ofNat_toNat]

theorem decodeLE_div (count : Nat) :
    decodeLE bytes / 256 ^ count = decodeLE (bytes.drop count) := by
  induction count generalizing bytes with
  | zero => simp
  | succ count ih =>
    cases bytes with
    | nil => simp [decodeLE]
    | cons byte rest =>
      have bound : byte.toNat < 256 := byte.toNat_lt
      have step : (byte.toNat + 256 * decodeLE rest) / 256 = decodeLE rest := by omega
      rw [decodeLE, List.drop_succ_cons, Nat.pow_succ', ← Nat.div_div_eq_div_mul, step, ih]

theorem decodeLE_mod : UInt8.ofNat (decodeLE bytes % 256) = bytes.head?.getD 0 := by
  cases bytes with
  | nil => rfl
  | cons byte rest =>
    have bound : byte.toNat < 256 := byte.toNat_lt
    have low : (byte.toNat + 256 * decodeLE rest) % 256 = byte.toNat := by omega
    simp [decodeLE, low]

/-! ## Reading and writing ranges -/

def slice {α : Type} (bytes : List α) (start count : Nat) : List α :=
  (bytes.drop start).take count

def blit {α : Type} (bytes : List α) (start : Nat) (data : List α) : List α :=
  bytes.take start ++ data ++ bytes.drop (start + data.length)

section Ranges

variable {bytes data : List α} {start count at' : Nat}

theorem getElem?_slice (bytes : List α) (start count i : Nat) :
    (slice bytes start count)[i]? = if i < count then bytes[start + i]? else none := by
  rw [slice, List.getElem?_take, List.getElem?_drop]

theorem length_slice (fits : start + count ≤ bytes.length) :
    (slice bytes start count).length = count := by
  simp only [slice, List.length_take, List.length_drop]
  omega

section Fits

variable (fits : start + data.length ≤ bytes.length)
include fits

@[simp]
theorem length_blit : (blit bytes start data).length = bytes.length := by
  simp only [blit, List.length_append, List.length_take, List.length_drop]
  omega

theorem getElem?_blit (i : Nat) :
    (blit bytes start data)[i]? =
      if start ≤ i ∧ i < start + data.length then data[i - start]? else bytes[i]? := by
  have lengthTake : (bytes.take start).length = start := by
    rw [List.length_take]
    omega
  rw [blit, List.append_assoc]
  by_cases low : i < start
  · have outside : ¬ (start ≤ i ∧ i < start + data.length) := by omega
    rw [List.getElem?_append_left (by omega), List.getElem?_take, if_pos low, if_neg outside]
  · rw [List.getElem?_append_right (by omega), lengthTake]
    by_cases high : i < start + data.length
    · rw [List.getElem?_append_left (by omega), if_pos (by omega)]
    · rw [List.getElem?_append_right (by omega), List.getElem?_drop, if_neg (by omega)]
      congr 1
      omega

theorem slice_blit_self
    (whole : data.length = count) : slice (blit bytes start data) start count = data := by
  apply List.ext_getElem?
  intro i
  rw [getElem?_slice, getElem?_blit fits]
  by_cases inside : i < count
  · rw [if_pos inside, if_pos (by omega), Nat.add_sub_cancel_left]
  · rw [if_neg inside, List.getElem?_eq_none (by omega)]

theorem slice_blit_of_disjoint (apart : at' + count ≤ start ∨ start + data.length ≤ at') :
    slice (blit bytes start data) at' count = slice bytes at' count := by
  apply List.ext_getElem?
  intro i
  rw [getElem?_slice, getElem?_slice]
  by_cases inside : i < count
  · rw [if_pos inside, if_pos inside, getElem?_blit fits, if_neg (by omega)]
  · rw [if_neg inside, if_neg inside]

end Fits

end Ranges

theorem drop_eq_slice (bytes : List α) (start : Nat) :
    bytes.drop start = slice bytes start (bytes.length - start) := by
  rw [slice, List.take_of_length_le (by simp)]

/-! ## Layouts of several fields -/

def blitAll {α : Type} (bytes : List α) (fields : List (Nat × List α)) : List α :=
  fields.foldl (fun buffer field => blit buffer field.1 field.2) bytes

def Apart {α : Type} (left right : Nat × List α) : Prop :=
  left.1 + left.2.length ≤ right.1 ∨ right.1 + right.2.length ≤ left.1

variable {fields : List (Nat × List α)}

theorem pairwise_apart_of_isChain
    (chain : fields.IsChain fun left right => left.1 + left.2.length ≤ right.1) :
    fields.Pairwise Apart := by
  have : Trans (fun left right : Nat × List α => left.1 + left.2.length ≤ right.1)
      (fun left right : Nat × List α => left.1 + left.2.length ≤ right.1)
      (fun left right : Nat × List α => left.1 + left.2.length ≤ right.1) :=
    ⟨fun first second => by omega⟩
  exact (List.isChain_iff_pairwise.mp chain).imp .inl

section Layouts

variable {bytes : List α} {start count : Nat}

section Fits

variable (fits : ∀ field ∈ fields, field.1 + field.2.length ≤ bytes.length)
include fits

theorem length_blitAll : (blitAll bytes fields).length = bytes.length := by
  induction fields generalizing bytes with
  | nil => rfl
  | cons field rest ih =>
    have here : (blit bytes field.1 field.2).length = bytes.length :=
      length_blit (fits field List.mem_cons_self)
    rw [blitAll, List.foldl_cons]
    refine (ih ?_).trans here
    intro other member
    rw [here]
    exact fits other (List.mem_cons_of_mem _ member)

theorem slice_blitAll_outside
    (apart : ∀ field ∈ fields, start + count ≤ field.1 ∨ field.1 + field.2.length ≤ start) :
    slice (blitAll bytes fields) start count = slice bytes start count := by
  induction fields generalizing bytes with
  | nil => rfl
  | cons field rest ih =>
    have here := fits field List.mem_cons_self
    rw [blitAll, List.foldl_cons]
    refine (ih ?_ ?_).trans (slice_blit_of_disjoint here (apart field List.mem_cons_self))
    · intro other member
      rw [length_blit here]
      exact fits other (List.mem_cons_of_mem _ member)
    · exact fun other member => apart other (List.mem_cons_of_mem _ member)

theorem slice_blitAll_mem
    (apart : fields.Pairwise Apart) {field : Nat × List α} (member : field ∈ fields) :
    slice (blitAll bytes fields) field.1 field.2.length = field.2 := by
  induction fields generalizing bytes with
  | nil => simp at member
  | cons head rest ih =>
    have here := fits head List.mem_cons_self
    have restFits : ∀ other ∈ rest, other.1 + other.2.length ≤ (blit bytes head.1 head.2).length := by
      intro other member
      rw [length_blit here]
      exact fits other (List.mem_cons_of_mem _ member)
    rw [List.pairwise_cons] at apart
    rw [blitAll, List.foldl_cons]
    rcases List.mem_cons.mp member with rfl | later
    · refine (slice_blitAll_outside restFits fun other otherMember => ?_).trans
        (slice_blit_self here rfl)
      exact apart.1 other otherMember
    · exact ih restFits apart.2 later

end Fits

end Layouts

/-! ## Canonical layouts -/

variable {left right : List α} {start i : Nat}

theorem getElem?_eq_of_slice_eq {count : Nat}
    (same : slice left start count = slice right start count) (low : start ≤ i)
    (high : i < start + count) : left[i]? = right[i]? := by
  have inside : i - start < count := by omega
  have position : start + (i - start) = i := by omega
  have bytes := congrArg (fun range : List α => range[i - start]?) same
  simpa only [getElem?_slice, if_pos inside, position] using bytes

def Uncovered {α : Type} (fields : List (Nat × List α)) (i : Nat) : Prop :=
  ∀ field ∈ fields, i < field.1 ∨ field.1 + field.2.length ≤ i

theorem uncovered_append {left right : List (Nat × List α)} :
    Uncovered (left ++ right) i ↔ Uncovered left i ∧ Uncovered right i :=
  List.forall_mem_append

variable {size : Nat}

/-- A buffer is the layout of some fields exactly when each field is read from
it and every other position holds the filler. -/
theorem eq_blitAll_replicate_iff {bytes : List α} {filler : α}
    (fits : ∀ field ∈ fields, field.1 + field.2.length ≤ size) (apart : fields.Pairwise Apart) :
    bytes = blitAll (List.replicate size filler) fields ↔
      bytes.length = size ∧ (∀ field ∈ fields, slice bytes field.1 field.2.length = field.2) ∧
        ∀ i < size, Uncovered fields i → bytes[i]? = some filler := by
  have within : ∀ field ∈ fields, field.1 + field.2.length ≤
      (List.replicate size filler).length := by simpa using fits
  have length : (blitAll (List.replicate size filler) fields).length = size := by
    rw [length_blitAll within, List.length_replicate]
  have filled : ∀ i < size, Uncovered fields i →
      (blitAll (List.replicate size filler) fields)[i]? = some filler := by
    intro i inside uncovered
    have untouched : slice (blitAll (List.replicate size filler) fields) i 1 =
        slice (List.replicate size filler) i 1 :=
      slice_blitAll_outside within fun field member => (uncovered field member).imp id id
    rw [getElem?_eq_of_slice_eq untouched (Nat.le_refl i) (Nat.lt_succ_self i)]
    simp [inside]
  constructor
  · rintro rfl
    exact ⟨length, fun field member => slice_blitAll_mem within apart member, filled⟩
  · rintro ⟨lengths, read, rest⟩
    apply List.ext_getElem?
    intro i
    by_cases inside : i < size
    · by_cases uncovered : Uncovered fields i
      · rw [rest i inside uncovered, filled i inside uncovered]
      · simp only [Uncovered, not_forall, not_or, Nat.not_lt, Nat.not_le] at uncovered
        obtain ⟨field, member, low, high⟩ := uncovered
        refine getElem?_eq_of_slice_eq ?_ low high
        rw [read field member, slice_blitAll_mem within apart member]
    · rw [List.getElem?_eq_none (by omega), List.getElem?_eq_none (by omega)]

variable {data : List α}

theorem take_blit {bytes : List α} (fits : start + data.length ≤ bytes.length) :
    (blit bytes start data).take start = bytes.take start := by
  have same : slice (blit bytes start data) 0 start = slice bytes 0 start :=
    slice_blit_of_disjoint fits (.inl (by omega))
  simpa [slice] using same

theorem drop_blit {bytes : List α} (fits : start + data.length ≤ bytes.length) :
    (blit bytes start data).drop (start + data.length) = bytes.drop (start + data.length) := by
  apply List.ext_getElem?
  intro i
  rw [List.getElem?_drop, List.getElem?_drop, getElem?_blit fits, if_neg (by omega)]

/-! ## Little-endian fields -/

def getLE (width : Nat) (bytes : List UInt8) (start : Nat) : Nat :=
  decodeLE (slice bytes start width)

def putLE (width : Nat) (bytes : List UInt8) (start value : Nat) : List UInt8 :=
  blit bytes start (encodeLE width value)

section Fields

variable {bytes data : List UInt8} {value at' count : Nat}

section Fits

variable (fits : start + width ≤ bytes.length)
include fits

@[simp]
theorem length_putLE : (putLE width bytes start value).length = bytes.length :=
  length_blit (by simpa using fits)

omit fits in
theorem getLE_lt (width : Nat) (bytes : List UInt8) (start : Nat) :
    getLE width bytes start < 256 ^ width := by
  refine Nat.lt_of_lt_of_le (decodeLE_lt _) (Nat.pow_le_pow_right (by decide) ?_)
  simp [slice]

theorem encodeLE_getLE : encodeLE width (getLE width bytes start) = slice bytes start width := by
  have length := length_slice fits
  rw [getLE]
  generalize slice bytes start width = range at length
  rw [← length, encodeLE_decodeLE]

theorem putLE_getLE : putLE width bytes start (getLE width bytes start) = bytes := by
  have range : (slice bytes start width).length = width := length_slice fits
  rw [putLE, encodeLE_getLE fits, blit, range, slice, List.append_assoc, ← List.drop_drop,
    List.take_append_drop, List.take_append_drop]

theorem putLE_putLE {other : Nat} :
    putLE width (putLE width bytes start other) start value = putLE width bytes start value := by
  have inner : start + (encodeLE width other).length ≤ bytes.length := by simpa using fits
  have after := drop_blit inner
  rw [length_encodeLE] at after
  rw [putLE, putLE, putLE, blit, take_blit inner, length_encodeLE, after, blit, length_encodeLE]

theorem getLE_putLE_self (small : value < 256 ^ width) :
    getLE width (putLE width bytes start value) start = value := by
  rw [getLE, putLE, slice_blit_self (by simpa using fits) (by simp), decodeLE_encodeLE small]

theorem slice_putLE_of_disjoint (apart : at' + count ≤ start ∨ start + width ≤ at') :
    slice (putLE width bytes start value) at' count = slice bytes at' count :=
  slice_blit_of_disjoint (by simpa using fits) (by simpa using apart)

end Fits

theorem getLE_blitAll_mem {fields : List (Nat × List UInt8)}
    (fits : ∀ field ∈ fields, field.1 + field.2.length ≤ bytes.length)
    (apart : fields.Pairwise Apart) (member : (start, encodeLE width value) ∈ fields)
    (small : value < 256 ^ width) : getLE width (blitAll bytes fields) start = value := by
  have read := slice_blitAll_mem fits apart member
  rw [length_encodeLE] at read
  rw [getLE, read, decodeLE_encodeLE small]

theorem getLE_congr {left right : List UInt8} (same : slice left start width = slice right start width) :
    getLE width left start = getLE width right start := by
  rw [getLE, getLE, same]

theorem slice_take (bytes : List α) (size start count : Nat) (inside : start + count ≤ size) :
    slice (bytes.take size) start count = slice bytes start count := by
  apply List.ext_getElem?
  intro i
  rw [getElem?_slice, getElem?_slice, List.getElem?_take]
  by_cases within : i < count
  · rw [if_pos within, if_pos within, if_pos (by omega)]
  · rw [if_neg within, if_neg within]

theorem slice_eq_of_take_eq (same : left.take size = right.take size)
    (inside : start + count ≤ size) :
    slice left start count = slice right start count := by
  rw [← slice_take left size start count inside, same, slice_take right size start count inside]

theorem slice_append_left {bytes : List α} (more : List α)
    (inside : start + count ≤ bytes.length) :
    slice (bytes ++ more) start count = slice bytes start count :=
  slice_eq_of_take_eq (by rw [List.take_append_of_le_length (Nat.le_refl _)]) inside

theorem getLE_append_left (more : List UInt8) (inside : start + width ≤ bytes.length) :
    getLE width (bytes ++ more) start = getLE width bytes start :=
  getLE_congr (slice_append_left more inside)

theorem getLE_take (inside : start + width ≤ size) :
    getLE width (bytes.take size) start = getLE width bytes start :=
  getLE_congr (slice_take bytes size start width inside)

theorem slice_eq_encodeLE_iff (fits : start + width ≤ bytes.length) (small : value < 256 ^ width) :
    slice bytes start width = encodeLE width value ↔ getLE width bytes start = value := by
  constructor
  · intro same
    rw [getLE, same, decodeLE_encodeLE small]
  · rintro rfl
    exact (encodeLE_getLE fits).symm

theorem slice_field_iff (fits : start + width ≤ bytes.length) (small : value < 256 ^ width) :
    slice bytes start (encodeLE width value).length = encodeLE width value ↔
      getLE width bytes start = value := by
  rw [length_encodeLE, slice_eq_encodeLE_iff fits small]

end Fields

/-! ## Checksummed layouts -/

/-- A field of a checksummed layout blanks the checksum or leaves it alone. -/
def SparesRange (start width : Nat) (field : Nat × List UInt8) : Prop :=
  field = (start, encodeLE width 0) ∨ field.1 + field.2.length ≤ start ∨ start + width ≤ field.1

/-- A buffer reads as a layout of fields, whatever the checksum at a position. -/
structure ReadsAs (size start width : Nat) (fields : List (Nat × List UInt8))
    (bytes : List UInt8) : Prop where
  length : bytes.length = size
  read : ∀ field ∈ fields, field ≠ (start, encodeLE width 0) →
    slice bytes field.1 field.2.length = field.2
  rest : ∀ i < size, Uncovered fields i → i < start ∨ start + width ≤ i → bytes[i]? = some 0

theorem getElem?_encodeLE_zero (inside : i < width) :
    (encodeLE width 0)[i]? = some 0 := by
  induction width generalizing i with
  | zero => omega
  | succ width ih =>
    cases i with
    | zero => rfl
    | succ i =>
      rw [encodeLE, List.getElem?_cons_succ]
      exact ih (by omega)

section Checksummed

variable {fields : List (Nat × List UInt8)} {bytes : List UInt8}

theorem readsAs_iff_of_apart (apart : ∀ field ∈ fields,
      field.1 + field.2.length ≤ start ∨ start + width ≤ field.1) (positive : 0 < width) :
    ReadsAs size start width fields bytes ↔
      bytes.length = size ∧ (∀ field ∈ fields, slice bytes field.1 field.2.length = field.2) ∧
      ∀ i < size, Uncovered fields i → i < start ∨ start + width ≤ i → bytes[i]? = some 0 := by
  have other {field : Nat × List UInt8} (member : field ∈ fields) :
      field ≠ (start, encodeLE width 0) := by
    rintro rfl
    have outside := apart _ member
    rw [length_encodeLE] at outside
    omega
  exact ⟨fun ⟨length, read, rest⟩ => ⟨length, fun field member => read field member (other member),
    rest⟩, fun ⟨length, read, rest⟩ => ⟨length, fun field member _ => read field member, rest⟩⟩

theorem ReadsAs.blank (reads : ReadsAs size start width fields bytes)
    (fits : ∀ field ∈ fields, field.1 + field.2.length ≤ size) (apart : fields.Pairwise Apart)
    (spares : ∀ field ∈ fields, SparesRange start width field) (inside : start + width ≤ size) :
    putLE width bytes start 0 = blitAll (List.replicate size 0) fields := by
  have within : start + width ≤ bytes.length := by rwa [reads.length]
  have covered : start + (encodeLE width 0).length ≤ bytes.length := by rwa [length_encodeLE]
  refine (eq_blitAll_replicate_iff fits apart).mpr ⟨?_, ?_, ?_⟩
  · rw [length_putLE within, reads.length]
  · intro field member
    rcases spares field member with rfl | disjoint
    · rw [putLE, slice_blit_self covered rfl]
    · by_cases same : field = (start, encodeLE width 0)
      · rw [same, putLE, slice_blit_self covered rfl]
      · rw [slice_putLE_of_disjoint within disjoint, reads.read field member same]
  · intro i bounded uncovered
    rw [putLE, getElem?_blit covered, length_encodeLE]
    split
    · next range => exact getElem?_encodeLE_zero (by omega)
    · next outside => exact reads.rest i bounded uncovered (by omega)

/-- A buffer is a layout with its checksum written exactly when it reads as the
layout and holds the checksum of its blanked bytes. -/
theorem eq_checksummed_iff {checksum : List UInt8 → Nat}
    (small : ∀ bytes, checksum bytes < 256 ^ width)
    (fits : ∀ field ∈ fields, field.1 + field.2.length ≤ size) (apart : fields.Pairwise Apart)
    (spares : ∀ field ∈ fields, SparesRange start width field) (inside : start + width ≤ size) :
    bytes = putLE width (blitAll (List.replicate size 0) fields) start
        (checksum (blitAll (List.replicate size 0) fields)) ↔
      ReadsAs size start width fields bytes ∧
        getLE width bytes start = checksum (putLE width bytes start 0) := by
  constructor
  · rintro rfl
    obtain ⟨length, read, rest⟩ := (eq_blitAll_replicate_iff fits apart).mp
      (Eq.refl (blitAll (List.replicate size (0 : UInt8)) fields))
    generalize blitAll (List.replicate size (0 : UInt8)) fields = body at length read rest
    have within : start + width ≤ body.length := by rwa [length]
    have reads : ReadsAs size start width fields (putLE width body start (checksum body)) := by
      refine ⟨by rw [length_putLE within, length], fun field member other => ?_,
        fun i bounded uncovered outside => ?_⟩
      · rcases spares field member with same | disjoint
        · exact absurd same other
        · rw [slice_putLE_of_disjoint within disjoint, read field member]
      · rw [putLE, getElem?_blit (by rwa [length_encodeLE]), length_encodeLE, if_neg (by omega)]
        exact rest i bounded uncovered
    refine ⟨reads, ?_⟩
    have blank := reads.blank fits apart spares inside
    have layout := (eq_blitAll_replicate_iff fits apart).mpr ⟨length, read, rest⟩
    rw [blank, getLE_putLE_self within (small _), ← layout]
  · rintro ⟨reads, stored⟩
    have within : start + width ≤ bytes.length := by rw [reads.length]; exact inside
    rw [← reads.blank fits apart spares inside, putLE_putLE within, ← stored, putLE_getLE within]

end Checksummed

/-! ## Values that fit every width -/

theorem zero_fits4 : 0 < 256 ^ 4 := by decide

theorem zero_fits8 : 0 < 256 ^ 8 := by decide

theorem one_fits4 : 1 < 256 ^ 4 := by decide

theorem one_fits8 : 1 < 256 ^ 8 := by decide

end ByteLayout
