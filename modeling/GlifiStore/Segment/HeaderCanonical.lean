import GlifiStore.Segment.Header

/-!
# Canonical Segment headers

A valid header decodes to what was encoded and an accepted commit slot is the
encoding of its commit. Of the two slots of a header the newest valid one is
selected, whichever comes first, unless they claim one generation for different
commits.
-/

namespace GlifiStore

open ByteLayout

/-! ## Encoded headers -/

/-- The header bytes with a commit placed in one slot, as a step of
`encodeSlots` leaves them. -/
def placeCommit (bytes : Bytes) (index : Nat) : Option SegmentCommit → Bytes
  | none => bytes
  | some commit => blit bytes (slotOffset index) (commitSlotBytes commit)

/-- What a slot holds after its commit, if any, was encoded. -/
def DecodedCommitSlot.ofCommit? : Option SegmentCommit → DecodedCommitSlot
  | none => .empty
  | some commit => .valid commit

def ValidSlot (slot : Option SegmentCommit) : Prop :=
  ∀ commit, slot = some commit → validateCommit commit = .ok () ∧ commit.Fits

section Placement

variable {bytes : Bytes} {index : Nat} {slot : Option SegmentCommit}

section Fits

variable (fits : slotOffset index + kSegmentCommitSlotBytes ≤ bytes.length)
include fits

theorem length_placeCommit : (placeCommit bytes index slot).length = bytes.length := by
  cases slot with
  | none => rfl
  | some commit => exact length_blit (by rw [length_commitSlotBytes]; exact fits)

theorem slice_placeCommit_of_disjoint {start count : Nat}
    (apart : start + count ≤ slotOffset index ∨ slotOffset index + kSegmentCommitSlotBytes ≤ start) :
    slice (placeCommit bytes index slot) start count = slice bytes start count := by
  cases slot with
  | none => rfl
  | some commit =>
    refine slice_blit_of_disjoint (by rw [length_commitSlotBytes]; exact fits) ?_
    rw [length_commitSlotBytes]
    exact apart

theorem decode_placeCommit
    (blank : slice bytes (slotOffset index) kSegmentCommitSlotBytes =
      List.replicate kSegmentCommitSlotBytes 0) (valid : ValidSlot slot) :
    decodeSegmentCommitSlot (slice (placeCommit bytes index slot) (slotOffset index)
      kSegmentCommitSlotBytes) = .ok (.ofCommit? slot) := by
  cases slot with
  | none =>
    rw [placeCommit, blank]
    exact decodeSegmentCommitSlot_zero
  | some commit =>
    obtain ⟨accepted, sized⟩ := valid commit rfl
    rw [placeCommit, slice_blit_self (by rw [length_commitSlotBytes]; exact fits)
      length_commitSlotBytes]
    exact decodeSegmentCommitSlot_commitSlotBytes accepted sized

end Fits

theorem encodeSlots_cons {rest : List (Option SegmentCommit)} (valid : ValidSlot slot) :
    encodeSlots bytes index (slot :: rest) =
      encodeSlots (placeCommit bytes index slot) (index + 1) rest := by
  cases slot with
  | none => rfl
  | some commit => simp only [encodeSlots, encodeSegmentCommitSlot, (valid commit rfl).1, placeCommit]

end Placement

theorem decodeSegmentHeader_encodeSegmentHeader {identity : SegmentHeaderIdentity}
    {first second : Option SegmentCommit} (valid : validateIdentity identity = .ok ())
    (firstValid : ValidSlot first) (secondValid : ValidSlot second)
    (agree : ¬ Conflicting (.ofCommit? first) (.ofCommit? second)) :
    ∃ bytes, encodeSegmentHeader identity first second = .ok bytes ∧
      decodeSegmentHeader bytes =
        .ok { identity := identity, slots := [.ofCommit? first, .ofCommit? second] } := by
  have encoded : encodeSegmentHeader identity first second =
      .ok (placeCommit (placeCommit (identityBytes identity) 0 first) 1 second) := by
    have slots : encodeSlots (identityBytes identity) 0 [first, second] =
        .ok (placeCommit (placeCommit (identityBytes identity) 0 first) 1 second) := by
      rw [encodeSlots_cons firstValid, encodeSlots_cons secondValid]
      rfl
    unfold encodeSegmentHeader
    rw [valid]
    cases first with
    | none => exact slots
    | some left =>
      cases second with
      | none => exact slots
      | some right =>
        exact (if_neg fun same => agree ⟨left, right, rfl, rfl, same⟩).trans slots
  have length : (identityBytes identity).length = 4096 := length_identityBytes
  have firstFits : slotOffset 0 + kSegmentCommitSlotBytes ≤ (identityBytes identity).length := by
    rw [length]
    decide
  have placed := @length_placeCommit _ _ first firstFits
  have secondFits : slotOffset 1 + kSegmentCommitSlotBytes ≤
      (placeCommit (identityBytes identity) 0 first).length := by
    rw [placed, length]
    decide
  -- Outside the two slots the header is that of the identity.
  have outside {start count : Nat} (apart : start + count ≤ 128 ∨ 384 ≤ start) :
      slice (placeCommit (placeCommit (identityBytes identity) 0 first) 1 second) start count =
        slice (identityBytes identity) start count := by
    rw [slice_placeCommit_of_disjoint secondFits, slice_placeCommit_of_disjoint firstFits]
    · exact apart.imp id (Nat.le_trans (by decide))
    · exact apart.imp (Nat.le_trans · (by decide)) id
  have whole : (placeCommit (placeCommit (identityBytes identity) 0 first) 1 second).length = 4096 := by
    rw [length_placeCommit secondFits, placed, length]
  have block := @outside 0 kSegmentImmutableHeaderBytes (.inl (by decide))
  simp only [slice, List.drop_zero] at block
  refine ⟨_, encoded, decodeSegmentHeader_of_identity valid whole block ?_
    (decodeSlots_two ?_ ?_)⟩
  · rw [drop_eq_slice, whole, outside (.inr (by decide)),
      slice_identityBytes_zero (by decide) (by decide)]
    exact allZero_replicate _
  · rw [slice_placeCommit_of_disjoint secondFits (.inl (by decide))]
    exact decode_placeCommit firstFits (slice_identityBytes_zero (by decide) (by decide)) firstValid
  · refine decode_placeCommit secondFits ?_ secondValid
    rw [slice_placeCommit_of_disjoint firstFits (.inr (by decide))]
    exact slice_identityBytes_zero (by decide) (by decide)

theorem decodeSegmentHeader_slots {bytes : Bytes} {header : DecodedSegmentHeader}
    (accepted : decodeSegmentHeader bytes = .ok header) :
    ∃ left right, header.slots = [left, right] ∧
      decodeSegmentCommitSlot (slice bytes (slotOffset 0) kSegmentCommitSlotBytes) = .ok left ∧
      decodeSegmentCommitSlot (slice bytes (slotOffset 1) kSegmentCommitSlotBytes) = .ok right := by
  revert accepted
  fun_cases decodeSegmentHeader bytes with
  | case6 _ image _ _ built _ slots decoded =>
    intro accepted
    obtain rfl := Except.ok.inj accepted
    have within (index : Nat) (inside : slotOffset index + kSegmentCommitSlotBytes ≤ 4096) :
        slice image (slotOffset index) kSegmentCommitSlotBytes =
          slice bytes (slotOffset index) kSegmentCommitSlotBytes :=
      slice_take _ _ _ _ inside
    rw [← within 0 (by decide), ← within 1 (by decide)]
    simp only [kSegmentCommitSlotCount, decodeSlots] at decoded
    cases first : decodeSegmentCommitSlot (slice image (slotOffset 0) kSegmentCommitSlotBytes) with
    | error error => simp [first] at decoded
    | ok left =>
      cases second :
        decodeSegmentCommitSlot (slice image (slotOffset 1) kSegmentCommitSlotBytes) with
      | error error => simp [first, second] at decoded
      | ok right =>
        simp only [first, second, Except.ok.injEq] at decoded
        exact ⟨left, right, decoded.symm, rfl, rfl⟩
  | _ => rintro ⟨⟩

/-- Commits and headers decode to what was encoded, an accepted slot image is the
encoding of its commit, and of any two slots the newest valid one is selected in
either order, unless they conflict. -/
theorem segment_header_codec_sound :
    (∀ commit : SegmentCommit, validateCommit commit = .ok () → commit.Fits →
      ∃ bytes, encodeSegmentCommitSlot commit = .ok bytes ∧
        decodeSegmentCommitSlot bytes = .ok (.valid commit)) ∧
    (∀ (bytes : Bytes) (commit : SegmentCommit),
      decodeSegmentCommitSlot bytes = .ok (.valid commit) →
        encodeSegmentCommitSlot commit = .ok (bytes.take kSegmentCommitSlotBytes)) ∧
    (∀ (identity : SegmentHeaderIdentity) (first second : Option SegmentCommit),
      validateIdentity identity = .ok () → ValidSlot first → ValidSlot second →
      ¬ Conflicting (.ofCommit? first) (.ofCommit? second) →
      ∃ bytes, encodeSegmentHeader identity first second = .ok bytes ∧
        decodeSegmentHeader bytes =
          .ok { identity := identity, slots := [.ofCommit? first, .ofCommit? second] }) ∧
    (∀ (bytes : Bytes) (header : DecodedSegmentHeader), decodeSegmentHeader bytes = .ok header →
      ∃ left right, header.slots = [left, right] ∧
        decodeSegmentCommitSlot (slice bytes (slotOffset 0) kSegmentCommitSlotBytes) = .ok left ∧
        decodeSegmentCommitSlot (slice bytes (slotOffset 1) kSegmentCommitSlotBytes) = .ok right) ∧
    (∀ (identity : SegmentHeaderIdentity) (left right : DecodedCommitSlot),
      (selectNewestSegmentCommit ⟨identity, [left, right]⟩ =
          fail .corruptedData "equal commit generations contain conflicting metadata" ↔
        Conflicting left right) ∧
      (¬ Conflicting left right → (∃ commit, .valid commit ∈ [left, right]) →
        ∃ selected, selectNewestSegmentCommit ⟨identity, [left, right]⟩ = .ok selected ∧
          [left, right][selected.slotIndex]? = some (.valid selected.commit) ∧
          ∀ commit, .valid commit ∈ [left, right] →
            commit.commitGeneration ≤ selected.commit.commitGeneration) ∧
      (selectNewestSegmentCommit ⟨identity, [left, right]⟩).map (·.commit) =
        (selectNewestSegmentCommit ⟨identity, [right, left]⟩).map (·.commit) ∧
      (∀ commit, left = .valid commit → (∀ other, right ≠ .valid other) →
        selectNewestSegmentCommit ⟨identity, [left, right]⟩ = .ok ⟨0, commit⟩) ∧
      (∀ commit, right = .valid commit → (∀ other, left ≠ .valid other) →
        selectNewestSegmentCommit ⟨identity, [left, right]⟩ = .ok ⟨1, commit⟩)) := by
  refine ⟨fun commit valid fits => ?_, fun bytes commit accepted => ?_,
    fun identity first second => decodeSegmentHeader_encodeSegmentHeader,
    fun bytes header => decodeSegmentHeader_slots, fun identity left right =>
      ⟨select_conflict_iff, select_greatest, select_swap, ?_, ?_⟩⟩
  · refine ⟨commitSlotBytes commit, ?_, decodeSegmentCommitSlot_commitSlotBytes valid fits⟩
    rw [encodeSegmentCommitSlot, valid]
  · obtain ⟨valid, -, image⟩ := decodeSegmentCommitSlot_valid_iff.mp accepted
    rw [encodeSegmentCommitSlot, valid, image]
  · rintro commit rfl
    exact select_left
  · rintro commit rfl
    exact select_right

def sampleIdentity : SegmentHeaderIdentity :=
  ⟨List.replicate 16 1, 1, 1, 0, length_ones, one_fits8, one_fits4, zero_fits4⟩

def smallCommit (generation : Nat) : SegmentCommit :=
  ⟨generation, kSegmentHeaderReservedBytes, .active, 0, 0, 0⟩

theorem segment_header_codec_sound_small :
    (∃ bytes, encodeSegmentCommitSlot (smallCommit 1) = .ok bytes ∧
      decodeSegmentCommitSlot bytes = .ok (.valid (smallCommit 1)) ∧
      encodeSegmentCommitSlot (smallCommit 1) = .ok (bytes.take kSegmentCommitSlotBytes)) ∧
    (∃ bytes, encodeSegmentHeader sampleIdentity (some (smallCommit 1)) none = .ok bytes ∧
      decodeSegmentHeader bytes =
        .ok { identity := sampleIdentity, slots := [.valid (smallCommit 1), .empty] }) ∧
    selectNewestSegmentCommit ⟨sampleIdentity, [.valid (smallCommit 1), .invalid]⟩ =
      .ok ⟨0, smallCommit 1⟩ := by
  obtain ⟨codec, canonical, header, -, selection⟩ := segment_header_codec_sound
  have fits : (smallCommit 1).Fits := by constructor <;> decide
  obtain ⟨bytes, encoded, decoded⟩ := codec (smallCommit 1) (by decide) fits
  refine ⟨⟨bytes, encoded, decoded, canonical bytes _ decoded⟩,
    header sampleIdentity (some (smallCommit 1)) none (by decide) ?_ nofun ?_,
    (selection sampleIdentity _ .invalid).2.2.2.1 _ rfl nofun⟩
  · rintro commit ⟨⟩
    exact ⟨by decide, fits⟩
  · rintro ⟨_, _, -, impossible, -⟩
    exact nomatch impossible

end GlifiStore
