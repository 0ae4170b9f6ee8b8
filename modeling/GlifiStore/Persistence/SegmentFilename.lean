import GlifiStore.Persistence.Directory

/-!
# Segment file names

`parse_segment_filename` reads an identity from the name that `segment_filename` gives
it and from the temporary name made of that one, and from no other name. The characters
of a name stand for its bytes.
-/

namespace GlifiStore

/-! ## Hexadecimal numbers of fixed width -/

def isLowerHex (value : Char) : Bool :=
  ('0' ≤ value && value ≤ '9') || ('a' ≤ value && value ≤ 'f')

/-- The digit that a turn of `parse_fixed_hex` adds. -/
def hexValue (character : Char) : Nat :=
  if character ≤ '9' then character.toNat - '0'.toNat else character.toNat - 'a'.toNat + 10

/-- `parse_fixed_hex` for an integer of this many bits. -/
def parseFixedHex (bits : Nat) (text : List Char) : Option Nat :=
  text.foldlM (fun value character =>
    if isLowerHex character then some ((value <<< 4 ||| hexValue character) % 2 ^ bits)
    else none) 0

theorem hexValue_hexDigit : ∀ digit < 16,
    isLowerHex (hexDigit digit) = true ∧ hexValue (hexDigit digit) = digit := by
  decide

theorem hexDigit_of_isLowerHex {character : Char} (hex : isLowerHex character = true) :
    ∃ digit < 16, character = hexDigit digit := by
  have bounds : 48 ≤ character.toNat ∧ character.toNat ≤ 57 ∨
      97 ≤ character.toNat ∧ character.toNat ≤ 102 := by
    simpa [isLowerHex, Char.le_def, UInt32.le_iff_toNat_le] using hex
  rw [← Char.ofNat_toNat character]
  rcases bounds with ⟨low, high⟩ | ⟨low, high⟩
  · exact ⟨character.toNat - 48, by omega, by interval_cases character.toNat <;> rfl⟩
  · exact ⟨character.toNat - 87, by omega, by interval_cases character.toNat <;> rfl⟩

theorem length_fixedHex (value width : Nat) : (fixedHex value width).toList.length = width := by
  simp [fixedHex]

theorem toList_fixedHex_succ (value width : Nat) :
    (fixedHex value (width + 1)).toList =
      (fixedHex (value / 16) width).toList ++ [hexDigit (value % 16)] := by
  simp only [fixedHex, String.toList_ofList, List.range_succ, List.map_append, List.map_cons,
    List.map_nil, Nat.add_sub_cancel, Nat.sub_self, Nat.pow_zero, Nat.div_one]
  congr 1
  refine List.map_congr_left fun position below => ?_
  have inside := List.mem_range.mp below
  rw [Nat.div_div_eq_div_mul, ← Nat.pow_succ', show width - position = width - 1 - position + 1 by
    omega]

variable {text : List Char}

theorem parseFixedHex_eq_some {bits value : Nat} (fits : 4 * text.length ≤ bits) :
    parseFixedHex bits text = some value ↔
      value < 16 ^ text.length ∧ text = (fixedHex value text.length).toList := by
  induction text using List.reverseRecOn generalizing value with
  | nil => simpa [parseFixedHex, fixedHex] using eq_comm
  | append_singleton text last ih =>
    rw [List.length_append, List.length_singleton] at fits ⊢
    have next : parseFixedHex bits (text ++ [last]) = some value ↔
        ∃ front, parseFixedHex bits text = some front ∧ isLowerHex last = true ∧
          (front <<< 4 ||| hexValue last) % 2 ^ bits = value := by
      simp [parseFixedHex, List.foldlM_append, Option.bind_eq_some_iff]
    have step {front digit : Nat} (small : front < 16 ^ text.length) (below : digit < 16) :
        (front <<< 4 ||| digit) % 2 ^ bits = 16 * front + digit := by
      rw [← Nat.shiftLeft_add_eq_or_of_lt (show digit < 2 ^ 4 from below), Nat.shiftLeft_eq,
        Nat.mul_comm]
      refine Nat.mod_eq_of_lt (Nat.lt_of_lt_of_le ?_ (Nat.pow_le_pow_right (by decide) fits))
      rw [Nat.pow_mul, show (2 : Nat) ^ 4 = 16 from rfl, Nat.pow_succ]
      omega
    rw [next, toList_fixedHex_succ, List.append_singleton_inj, Nat.pow_succ]
    constructor
    · rintro ⟨front, parsed, hex, rfl⟩
      obtain ⟨small, same⟩ := (ih (by omega)).mp parsed
      obtain ⟨digit, below, rfl⟩ := hexDigit_of_isLowerHex hex
      rw [(hexValue_hexDigit digit below).2, step small below,
        show (16 * front + digit) / 16 = front by omega,
        show (16 * front + digit) % 16 = digit by omega]
      exact ⟨by omega, same, rfl⟩
    · rintro ⟨small, same, rfl⟩
      have front : value / 16 < 16 ^ text.length := by omega
      obtain ⟨hex, digit⟩ := hexValue_hexDigit (value % 16) (Nat.mod_lt _ (by decide))
      refine ⟨value / 16, (ih (by omega)).mpr ⟨front, same⟩, hex, ?_⟩
      rw [digit, step front (Nat.mod_lt _ (by decide))]
      omega

/-! ## Names -/

structure ParsedSegmentFilename where
  segmentId : Nat
  generation : Nat
  temporary : Bool
  deriving DecidableEq, Repr

def kSegmentPrefix : List Char := "segment-".toList
def kSegmentSuffix : List Char := ".glifi".toList
def kTemporaryPrefix : List Char := ".segment-".toList
def kTemporarySuffix : List Char := ".glifi.tmp".toList

def kFinalSegmentFilenameBytes : Nat :=
  kSegmentPrefix.length + 16 + 1 + 8 + kSegmentSuffix.length

def kTemporarySegmentFilenameBytes : Nat :=
  kTemporaryPrefix.length + 16 + 1 + 8 + kTemporarySuffix.length

/-- What `parse_segment_filename` makes of a name whose two ends are canonical. -/
def parseIdentity (text : List Char) (idOffset : Nat) (temporary : Bool) :
    Result ParsedSegmentFilename :=
  let separator := idOffset + 16
  if text[separator]? ≠ some '-' then
    fail .invalidArgument "Segment filename is not canonical"
  else
    match parseFixedHex 64 ((text.drop idOffset).take 16),
        parseFixedHex 32 ((text.drop (separator + 1)).take 8) with
    | some segmentId, some generation =>
      if segmentId = 0 ∨ generation = 0 then
        fail .invalidArgument "Segment filename contains an invalid identity"
      else
        .ok ⟨segmentId, generation, temporary⟩
    | _, _ => fail .invalidArgument "Segment filename contains an invalid identity"

def parseSegmentFilename (name : String) : Result ParsedSegmentFilename :=
  let text := name.toList
  let temporary := text.length = kTemporarySegmentFilenameBytes ∧ kTemporaryPrefix <+: text ∧
    kTemporarySuffix <:+ text
  let final := text.length = kFinalSegmentFilenameBytes ∧ kSegmentPrefix <+: text ∧
    kSegmentSuffix <:+ text
  if ¬ temporary ∧ ¬ final then
    fail .invalidArgument "Segment filename is not canonical"
  else
    parseIdentity text (if temporary then kTemporaryPrefix.length else kSegmentPrefix.length)
      temporary

/-! ## Canonical names -/

namespace ParsedSegmentFilename

variable {parsed : ParsedSegmentFilename} (parsed : ParsedSegmentFilename)

def filename : String :=
  if parsed.temporary then "." ++ segmentFilename parsed.segmentId parsed.generation ++ ".tmp"
  else segmentFilename parsed.segmentId parsed.generation

structure Valid (parsed : ParsedSegmentFilename) : Prop where
  segmentId : parsed.segmentId ≠ 0 ∧ parsed.segmentId < 2 ^ 64
  generation : parsed.generation ≠ 0 ∧ parsed.generation < 2 ^ 32

def between (before after : List Char) : List Char :=
  before ++ ((fixedHex parsed.segmentId 16).toList ++
    '-' :: ((fixedHex parsed.generation 8).toList ++ after))

theorem toList_filename :
    parsed.filename.toList =
      if parsed.temporary then parsed.between kTemporaryPrefix kTemporarySuffix
      else parsed.between kSegmentPrefix kSegmentSuffix := by
  unfold filename between segmentFilename
  split
  · simp only [String.toList_append, List.append_assoc]
    rfl
  · simp only [String.toList_append, List.append_assoc]
    rfl

theorem canonical_between (before after : List Char) :
    (parsed.between before after).length = before.length + 16 + 1 + 8 + after.length ∧
      before <+: parsed.between before after ∧ after <:+ parsed.between before after := by
  refine ⟨?_, List.prefix_append _ _, ?_⟩
  · simp only [between, List.length_append, List.length_cons, length_fixedHex]
    omega
  · exact (((List.suffix_append _ _).trans (List.suffix_cons _ _)).trans
      (List.suffix_append _ _)).trans (List.suffix_append _ _)

end ParsedSegmentFilename

open ParsedSegmentFilename

variable {before after : List Char}

theorem exists_parts (size : text.length = before.length + 16 + 1 + 8 + after.length)
    (starts : before <+: text) (ends : after <:+ text) :
    ∃ digits separator last, digits.length = 16 ∧ last.length = 8 ∧
      text = before ++ (digits ++ separator :: last ++ after) := by
  obtain ⟨rest, rfl⟩ := starts
  rw [List.length_append] at size
  obtain ⟨middle, rfl⟩ := List.suffix_of_suffix_length_le ends (List.suffix_append before rest)
    (by omega)
  rw [List.length_append] at size
  obtain ⟨separator, last, same⟩ := List.exists_cons_of_length_eq_add_one
    (show (middle.drop 16).length = 8 + 1 by rw [List.length_drop]; omega)
  have second := congrArg List.length same
  rw [List.length_drop, List.length_cons] at second
  refine ⟨middle.take 16, separator, last, List.length_take_of_le (by omega), by omega, ?_⟩
  rw [← same, List.take_append_drop]

variable {parsed : ParsedSegmentFilename}

theorem parseIdentity_eq_ok {temporary : Bool}
    (size : text.length = before.length + 16 + 1 + 8 + after.length) (starts : before <+: text)
    (ends : after <:+ text) :
    parseIdentity text before.length temporary = .ok parsed ↔
      parsed.temporary = temporary ∧ parsed.Valid ∧ text = parsed.between before after := by
  obtain ⟨digits, separator, last, first, second, rfl⟩ := exists_parts size starts ends
  have separated : (before ++ (digits ++ separator :: last ++ after))[before.length + 16]? =
      some separator := by
    rw [List.getElem?_append_right (by omega), Nat.add_sub_cancel_left, List.append_assoc,
      List.getElem?_append_right (by omega), first]
    rfl
  have left : ((before ++ (digits ++ separator :: last ++ after)).drop before.length).take 16 =
      digits := by
    rw [List.drop_left, List.append_assoc, List.take_left' first]
  have right : ((before ++ (digits ++ separator :: last ++ after)).drop
      (before.length + 16 + 1)).take 8 = last := by
    rw [Nat.add_assoc, ← List.drop_drop, List.drop_left, List.append_assoc, ← List.drop_drop,
      List.drop_left' first, List.cons_append, List.drop_succ_cons, List.drop_zero,
      List.take_left' second]
  have numbers {value bits : Nat} {text : List Char} (fits : 4 * text.length = bits) :
      parseFixedHex bits text = some value ↔
        value < 2 ^ bits ∧ text = (fixedHex value text.length).toList := by
    rw [parseFixedHex_eq_some (Nat.le_of_eq fits), ← fits, Nat.pow_mul]
  have shape : before ++ (digits ++ separator :: last ++ after) = parsed.between before after ↔
      digits = (fixedHex parsed.segmentId 16).toList ∧ separator = '-' ∧
        last = (fixedHex parsed.generation 8).toList := by
    rw [ParsedSegmentFilename.between, List.append_cancel_left_eq, List.append_assoc]
    constructor
    · intro same
      obtain ⟨front, back⟩ := List.append_inj same (by rw [first, length_fixedHex])
      rw [List.cons_append, List.cons.injEq, List.append_cancel_right_eq] at back
      exact ⟨front, back⟩
    · rintro ⟨rfl, rfl, rfl⟩
      rfl
  rw [shape, parseIdentity, guard_eq_ok, separated, left, right, ne_eq, not_not, Option.some.injEq]
  constructor
  · rintro ⟨dash, accepted⟩
    split at accepted
    · next segmentId generation readId readGeneration =>
      rw [guard_eq_ok] at accepted
      obtain ⟨nonzero, made⟩ := accepted
      cases made
      obtain ⟨smallId, digitsId⟩ := (numbers (by omega)).mp readId
      obtain ⟨smallGeneration, digitsGeneration⟩ := (numbers (by omega)).mp readGeneration
      rw [first] at digitsId
      rw [second] at digitsGeneration
      obtain ⟨someId, someGeneration⟩ := not_or.mp nonzero
      exact ⟨rfl, ⟨⟨someId, smallId⟩, someGeneration, smallGeneration⟩, digitsId, dash,
        digitsGeneration⟩
    · exact nomatch accepted
  · rintro ⟨rfl, valid, rfl, rfl, rfl⟩
    rw [(numbers (by omega)).mpr ⟨valid.segmentId.2, by rw [length_fixedHex]⟩,
      (numbers (by omega)).mpr ⟨valid.generation.2, by rw [length_fixedHex]⟩]
    exact ⟨rfl, if_neg (not_or.mpr ⟨valid.segmentId.1, valid.generation.1⟩)⟩

theorem parseSegmentFilename_eq_ok {name : String} :
    parseSegmentFilename name = .ok parsed ↔ parsed.Valid ∧ name = parsed.filename := by
  have long := parsed.canonical_between kTemporaryPrefix kTemporarySuffix
  have short := parsed.canonical_between kSegmentPrefix kSegmentSuffix
  rw [← String.toList_inj, parsed.toList_filename, parseSegmentFilename]
  by_cases temporary : name.toList.length = kTemporarySegmentFilenameBytes ∧
      kTemporaryPrefix <+: name.toList ∧ kTemporarySuffix <:+ name.toList
  · rw [if_neg (fun neither => neither.1 temporary), if_pos temporary, decide_eq_true temporary,
      parseIdentity_eq_ok temporary.1 temporary.2.1 temporary.2.2]
    cases flag : parsed.temporary with
    | true => simp
    | false =>
      refine ⟨nofun, fun ⟨_, same⟩ => ?_⟩
      have size := short.1.symm.trans ((congrArg List.length same).symm.trans temporary.1)
      exact absurd size (by decide)
  rw [if_neg temporary, decide_eq_false temporary]
  by_cases final : name.toList.length = kFinalSegmentFilenameBytes ∧
      kSegmentPrefix <+: name.toList ∧ kSegmentSuffix <:+ name.toList
  · rw [if_neg (fun neither => neither.2 final), parseIdentity_eq_ok final.1 final.2.1 final.2.2]
    cases flag : parsed.temporary with
    | true => exact ⟨nofun, fun ⟨_, same⟩ => absurd (same ▸ long) temporary⟩
    | false => simp
  · rw [if_pos ⟨temporary, final⟩]
    refine ⟨nofun, fun ⟨_, same⟩ => ?_⟩
    split at same
    · exact absurd (same ▸ long) temporary
    · exact absurd (same ▸ short) final

/-- The name of an identity is read back as this identity, a name that is read is the one
that the engine gives to what was read, and no two names are read alike. -/
theorem segment_names_canonical :
    (∀ segmentId generation, segmentId ≠ 0 → segmentId < 2 ^ 64 → generation ≠ 0 →
      generation < 2 ^ 32 → parseSegmentFilename (segmentFilename segmentId generation) =
        .ok ⟨segmentId, generation, false⟩) ∧
    (∀ name parsed, parseSegmentFilename name = .ok parsed → name = parsed.filename) ∧
    ∀ left right parsed, parseSegmentFilename left = .ok parsed →
      parseSegmentFilename right = .ok parsed → left = right := by
  refine ⟨fun segmentId generation someId smallId someGeneration smallGeneration => ?_, ?_, ?_⟩
  · exact parseSegmentFilename_eq_ok.mpr ⟨⟨⟨someId, smallId⟩, someGeneration, smallGeneration⟩, rfl⟩
  · exact fun _ _ read => (parseSegmentFilename_eq_ok.mp read).2
  · intro left right parsed readLeft readRight
    rw [(parseSegmentFilename_eq_ok.mp readLeft).2, (parseSegmentFilename_eq_ok.mp readRight).2]

theorem first_segment_name_canonical :
    parseSegmentFilename (segmentFilename 1 1) = .ok ⟨1, 1, false⟩ :=
  segment_names_canonical.1 1 1 (by decide) (by decide) (by decide) (by decide)

/-- A temporary name has the identity of another name, which is the one that
`segment_filename` gives it. -/
theorem temporary_name_shares_identity :
    parseSegmentFilename ".segment-0000000000000001-00000001.glifi.tmp" = .ok ⟨1, 1, true⟩ ∧
      parseSegmentFilename "segment-0000000000000001-00000001.glifi" = .ok ⟨1, 1, false⟩ ∧
      segmentFilename 1 1 = "segment-0000000000000001-00000001.glifi" := by
  decide +kernel

end GlifiStore
