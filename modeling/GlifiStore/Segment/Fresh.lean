import GlifiStore.Segment.Live

/-!
# Fresh Segment files

What `create` writes: the identity block, an initial commit in the first slot and
zeros. Such a file is live without records and opens in its initial state.
-/

namespace GlifiStore

open ByteLayout CrashFile DurableSegmentFile

variable {identity : SegmentHeaderIdentity} {segment : DurableSegmentFile}

def freshImage (identity : SegmentHeaderIdentity) : Image UInt8 :=
  overwrite (fun _ => 0) 0
    (blit (identityBytes identity) (slotOffset 0) (commitSlotBytes initialCommit))

theorem create_spec (created : create identity = .ok segment) :
    validateIdentity identity = .ok () ∧
      segment = opened (freshImage identity) identity ⟨0, initialCommit⟩ true := by
  have initial : encodeSegmentCommitSlot initialCommit = .ok (commitSlotBytes initialCommit) := rfl
  unfold create encodeSegmentHeader at created
  cases valid : validateIdentity identity with
  | error error => simp [valid] at created
  | ok =>
    simp only [valid, encodeSlots, initial] at created
    exact ⟨rfl, (Except.ok.inj created).symm⟩

theorem opened_durable (image : Image UInt8) (selected : SelectedSegmentCommit) (writable : Bool) :
    (opened image identity selected writable).file.durable = image := rfl

theorem create_of_valid (valid : validateIdentity identity = .ok ()) :
    create identity =
      .ok (opened (freshImage identity) identity ⟨0, initialCommit⟩ true) := by
  have initial : encodeSegmentCommitSlot initialCommit = .ok (commitSlotBytes initialCommit) := rfl
  simp only [create, encodeSegmentHeader, valid, encodeSlots, initial, freshImage]

theorem initialCommit_describes : initialCommit.Describes [] :=
  ⟨rfl, rfl, rfl, rfl, ascending_nil 0⟩

/-- An image with the identity block, an initial first slot and zeros in the rest of
the header. -/
structure FreshImage (identity : SegmentHeaderIdentity) (image : Image UInt8) : Prop where
  valid : validateIdentity identity = .ok ()
  block : read image 0 kSegmentImmutableHeaderBytes =
    (identityBytes identity).take kSegmentImmutableHeaderBytes
  reserved : allZero (read image (slotOffset kSegmentCommitSlotCount)
    (kSegmentHeaderReservedBytes - slotOffset kSegmentCommitSlotCount)) = true
  first : slotBytes image 0 = commitSlotBytes initialCommit
  second : decodeSegmentCommitSlot (slotBytes image 1) = .ok .empty

theorem fresh_freshImage (valid : validateIdentity identity = .ok ()) :
    FreshImage identity (freshImage identity) := by
  unfold freshImage
  have length : (identityBytes identity).length = kSegmentHeaderReservedBytes :=
    length_identityBytes
  have fits : slotOffset 0 + (commitSlotBytes initialCommit).length ≤
      (identityBytes identity).length := by
    rw [length, length_commitSlotBytes]
    decide
  generalize headerEq : blit (identityBytes identity) (slotOffset 0)
    (commitSlotBytes initialCommit) = header
  have headerLength : header.length = kSegmentHeaderReservedBytes := by
    rw [← headerEq, length_blit fits, length]
  have outside : ∀ start count, (start + count ≤ slotOffset 0 ∨
      slotOffset 0 + kSegmentCommitSlotBytes ≤ start) →
      start + count ≤ kSegmentHeaderReservedBytes →
      read (overwrite (fun _ => 0) 0 header) start count =
        slice (identityBytes identity) start count := by
    intro start count apart inside
    rw [read_overwrite_inside (by rwa [headerLength]), ← headerEq,
      slice_blit_of_disjoint fits (by rwa [length_commitSlotBytes])]
  refine ⟨valid, ?_, ?_, ?_, ?_⟩
  · rw [outside _ _ (.inl (by decide)) (by decide), slice, List.drop_zero]
  · rw [outside _ _ (.inr (by decide)) (by decide),
      slice_identityBytes_zero (by decide) (by decide)]
    exact allZero_replicate _
  · rw [slotBytes, read_overwrite_inside (by rw [headerLength]; decide), ← headerEq,
      slice_blit_self fits length_commitSlotBytes]
  · rw [slotBytes, outside _ _ (.inr (by decide)) (by decide),
      slice_identityBytes_zero (by decide) (by decide)]
    exact decodeSegmentCommitSlot_zero

theorem FreshImage.live {image : Image UInt8} (fresh : FreshImage identity image) :
    Live (opened image identity ⟨0, initialCommit⟩ true) [] [] := by
  have second : Blank (slotBytes image 1) := .inl fresh.second
  have names : Names [] 0 initialCommit (slotBytes image 0) :=
    ⟨fresh.first, by decide, by decide, by decide, by decide, [], List.prefix_refl _,
      initialCommit_describes⟩
  have onlyTwo : ∀ index < kSegmentCommitSlotCount, index = 0 ∨ index = 1 := by decide
  have small : initialCommit.committedEnd ≤ kSegmentSizeBytes := by decide
  have zero : 0 < kSegmentCommitSlotCount := by decide
  refine ⟨?_, File.settled_synced _, List.prefix_refl _, initialCommit_describes, small, rfl,
    zero, names, initialCommit_describes, .inl second, fun _ => rfl⟩
  refine ⟨fresh.valid, fresh.block, fresh.reserved, rfl, by simp [opened, File.synced], ?_,
    by simp [opened, File.synced],
    0, by decide, by simp [opened, File.synced], _, names, ?_⟩
  · intro index bound
    rcases onlyTwo index bound with rfl | rfl
    · exact .inr ⟨_, names⟩
    · exact .inl second
  · intro index bound older decoded
    rcases onlyTwo index bound with rfl | rfl
    · have same := Except.ok.inj (decoded.symm.trans names.decoded)
      rw [DecodedCommitSlot.valid.inj same]
    · rcases second with empty | invalid
      · exact absurd (decoded.symm.trans empty) (by simp)
      · exact absurd (decoded.symm.trans invalid) (by simp)

theorem live_create (created : create identity = .ok segment) :
    Live segment [] [] := by
  obtain ⟨valid, same⟩ := create_spec created
  rw [same]
  exact (fresh_freshImage valid).live

theorem FreshImage.openFile {image : Image UInt8} (fresh : FreshImage identity image)
    (writable : Bool) :
    openFile image identity writable =
      .ok (opened image identity ⟨0, initialCommit⟩ writable) := by
  have live := fresh.live
  have survives : (File.synced image).Survives image := fun _ _ => rfl
  have header : decodeSegmentHeader (read image 0 kSegmentHeaderReservedBytes) =
      .ok { identity := identity, slots := [.valid initialCommit, .empty] } :=
    live.recoverable.decodeSegmentHeader_of_crash survives live.newest.decoded fresh.second
  exact openFile_ok_iff.mpr ⟨_, ⟨0, initialCommit⟩, header, rfl, rfl, rfl⟩

/-! ## Files with one commit -/

/-- A fresh image whose second slot was published for the bytes behind the header. -/
def committedImage (identity : SegmentHeaderIdentity) (commit : SegmentCommit) (bytes : Bytes) :
    Image UInt8 :=
  overwrite (overwrite (freshImage identity) (slotOffset 1) (commitSlotBytes commit))
    kSegmentHeaderReservedBytes bytes

theorem decodeSegmentHeader_committedImage {commit : SegmentCommit}
    (valid : validateIdentity identity = .ok ()) (committable : validateCommit commit = .ok ())
    (fits : commit.Fits) (bytes : Bytes) :
    decodeSegmentHeader (read (committedImage identity commit bytes) 0
        kSegmentHeaderReservedBytes) =
      .ok { identity := identity, slots := [.valid initialCommit, .valid commit] } := by
  have fresh := fresh_freshImage valid
  generalize imageEq : committedImage identity commit bytes = image
  have inner (start count : Nat) (inside : start + count ≤ kSegmentHeaderReservedBytes) :
      read image start count =
        read (overwrite (freshImage identity) (slotOffset 1) (commitSlotBytes commit)) start
          count := by
    rw [← imageEq]
    exact read_overwrite_of_disjoint (.inl inside)
  have outside (start count : Nat) (apart : start + count ≤ slotOffset 1 ∨
      slotOffset 1 + kSegmentCommitSlotBytes ≤ start)
      (inside : start + count ≤ kSegmentHeaderReservedBytes) :
      read image start count = read (freshImage identity) start count := by
    rw [inner start count inside]
    apply read_overwrite_of_disjoint
    rwa [length_commitSlotBytes]
  have first : slotBytes image 0 = commitSlotBytes initialCommit := by
    rw [← fresh.first]
    exact outside _ _ (.inl (by decide)) (by decide)
  have second : slotBytes image 1 = commitSlotBytes commit := by
    rw [slotBytes, inner _ _ (by decide), read_overwrite_self length_commitSlotBytes]
  refine decodeSegmentHeader_of_reads valid ?_ ?_ ?_ ?_
  · rw [outside _ _ (.inl (by decide)) (by decide), fresh.block]
  · rw [outside _ _ (.inr (by decide)) (by decide), fresh.reserved]
  · rw [first]
    exact decodeSegmentCommitSlot_commitSlotBytes (by decide) (by constructor <;> decide)
  · rw [second]
    exact decodeSegmentCommitSlot_commitSlotBytes committable fits

def emptySeal : SegmentCommit :=
  { initialCommit with commitGeneration := 2, state := .sealed }

/-- A fresh image that was sealed. -/
def sealedImage (identity : SegmentHeaderIdentity) : Image UInt8 :=
  committedImage identity emptySeal []

theorem openFile_sealedImage (valid : validateIdentity identity = .ok ()) (writable : Bool) :
    openFile (sealedImage identity) identity writable =
      .ok (opened (sealedImage identity) identity ⟨1, emptySeal⟩ writable) :=
  openFile_ok_iff.mpr ⟨_, ⟨1, emptySeal⟩, decodeSegmentHeader_committedImage valid (by decide)
    (by constructor <;> decide) _, rfl, rfl, rfl⟩

end GlifiStore
