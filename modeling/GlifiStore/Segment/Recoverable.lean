import GlifiStore.Segment.Extent

/-!
# Recoverable Segment files

What a file must look like for every crash to leave a slot that can be opened:
each slot holds a commit for a prefix of the committed records or none, and one
slot is out of reach of the unsynced writes.
-/

namespace GlifiStore

open ByteLayout CrashFile DurableSegmentFile

def slotBytes (image : Image UInt8) (index : Nat) : Bytes :=
  read image (slotOffset index) kSegmentCommitSlotBytes

def Blank (bytes : Bytes) : Prop :=
  decodeSegmentCommitSlot bytes = .ok .empty ∨ decodeSegmentCommitSlot bytes = .ok .invalid

/-- A crash that forges no commit: each slot is as it was durable, or as one
unsynced write meant it, or no slot at all. -/
def Unforged (file : File UInt8) (image : Image UInt8) : Prop :=
  ∀ index < kSegmentCommitSlotCount,
    slotBytes image index = slotBytes file.durable index ∨
    ⟨slotOffset index, slotBytes image index⟩ ∈ file.outstanding ∨
    Blank (slotBytes image index)

def collectRecord (records : List RecordView) (_ : RecordRef) (record : RecordView) :
    Result (List RecordView) :=
  .ok (records ++ [record])

/-- What opening a surviving image must give: a slot at least as new as every
durable one, whose extent holds a prefix of the appended records. -/
def RecoversPrefix (segment : DurableSegmentFile) (appended : List RecordView)
    (image : Image UInt8) : Prop :=
  ∃ opened, openFile image segment.identity false = .ok opened ∧
    (∀ index < kSegmentCommitSlotCount, ∀ commit,
      decodeSegmentCommitSlot (slotBytes segment.file.durable index) = .ok (.valid commit) →
        commit.commitGeneration ≤ opened.persisted.commit.commitGeneration) ∧
    ∃ scanned, opened.visitCommittedRecords collectRecord [] = .ok scanned ∧ scanned <+: appended

/-! ## Recoverable files -/

/-- Slot bytes of a commit that describes a prefix of the committed records and
whose generation has the parity of its slot. -/
structure Names (committed : List StoredRecord) (index : Nat) (commit : SegmentCommit)
    (bytes : Bytes) : Prop where
  encoded : bytes = commitSlotBytes commit
  positive : commit.commitGeneration ≠ 0
  bounded : commit.commitGeneration < 256 ^ 8
  parity : (commit.commitGeneration + index) % 2 = 1
  extent : commit.committedEnd ≤ kSegmentSizeBytes
  describes : ∃ kept, kept <+: committed ∧ commit.Describes kept

variable {committed : List StoredRecord} {index : Nat} {commit : SegmentCommit} {bytes : Bytes}

theorem Names.decoded (names : Names committed index commit bytes) :
    decodeSegmentCommitSlot bytes = .ok (.valid commit) := by
  obtain ⟨kept, -, describes⟩ := names.describes
  rw [names.encoded]
  exact decodeSegmentCommitSlot_commitSlotBytes (describes.valid names.positive names.extent)
    (describes.fits names.bounded names.extent)

theorem Names.mono {larger : List StoredRecord} (names : Names committed index commit bytes)
    (extends' : committed <+: larger) :
    Names larger index commit bytes :=
  { names with
    describes := by
      obtain ⟨kept, inside, describes⟩ := names.describes
      exact ⟨kept, inside.trans extends', describes⟩ }

def SlotContent (committed : List StoredRecord) (index : Nat) (bytes : Bytes) : Prop :=
  Blank bytes ∨ ∃ commit, Names committed index commit bytes

def SlotWrite (write : Write UInt8) : Prop :=
  ∃ index < kSegmentCommitSlotCount, write.start = slotOffset index ∧
    write.data.length = kSegmentCommitSlotBytes

/-- A file that every crash leaves recoverable. -/
structure Recoverable (file : File UInt8) (identity : SegmentHeaderIdentity)
    (committed : List StoredRecord) : Prop where
  identityValid : validateIdentity identity = .ok ()
  block : read file.durable 0 kSegmentImmutableHeaderBytes =
    (identityBytes identity).take kSegmentImmutableHeaderBytes
  reserved : allZero (read file.durable (slotOffset kSegmentCommitSlotCount)
    (kSegmentHeaderReservedBytes - slotOffset kSegmentCommitSlotCount)) = true
  extent : read file.durable kSegmentHeaderReservedBytes (extentBytes committed).length =
    extentBytes committed
  writes : ∀ write ∈ file.outstanding, SlotWrite write ∨
    kSegmentHeaderReservedBytes + (extentBytes committed).length ≤ write.start
  durableSlots : ∀ index < kSegmentCommitSlotCount,
    SlotContent committed index (slotBytes file.durable index)
  unsyncedSlots : ∀ index < kSegmentCommitSlotCount, ∀ bytes,
    ⟨slotOffset index, bytes⟩ ∈ file.outstanding → SlotContent committed index bytes
  /-- One slot is durable, out of reach of the unsynced writes and at least as
  new as the other durable one. -/
  anchor : ∃ index < kSegmentCommitSlotCount,
    (∀ write ∈ file.outstanding, write.Avoids (slotOffset index) kSegmentCommitSlotBytes) ∧
    ∃ commit, Names committed index commit (slotBytes file.durable index) ∧
      ∀ other < kSegmentCommitSlotCount, ∀ older,
        decodeSegmentCommitSlot (slotBytes file.durable other) = .ok (.valid older) →
          older.commitGeneration ≤ commit.commitGeneration

theorem slotOffset_spec (bound : index < kSegmentCommitSlotCount) :
    kSegmentImmutableHeaderBytes ≤ slotOffset index ∧
      slotOffset index + kSegmentCommitSlotBytes ≤ slotOffset kSegmentCommitSlotCount := by
  simp only [kSegmentImmutableHeaderBytes, slotOffset, kSegmentCommitSlotsOffset,
    kSegmentCommitSlotBytes, kSegmentCommitSlotCount] at *
  omega

theorem slotOffset_count : slotOffset kSegmentCommitSlotCount ≤ kSegmentHeaderReservedBytes := by
  decide

theorem SlotContent.decoded (content : SlotContent committed index bytes) :
    ∃ slot, decodeSegmentCommitSlot bytes = .ok slot ∧
      ∀ commit, slot = .valid commit → Names committed index commit bytes := by
  rcases content with (empty | invalid) | ⟨commit, names⟩
  · exact ⟨.empty, empty, by simp⟩
  · exact ⟨.invalid, invalid, by simp⟩
  · refine ⟨.valid commit, names.decoded, ?_⟩
    intro other eq
    rwa [← DecodedCommitSlot.valid.inj eq]

variable {kept : List StoredRecord}

theorem take_extentBytes_length (inside : kept <+: committed) :
    extentBytes kept = (extentBytes committed).take (extentBytes kept).length := by
  obtain ⟨rest, rfl⟩ := inside
  rw [extentBytes_append, List.take_left]

theorem foldlM_collectRecord (entries : List (RecordRef × RecordView)) (records : List RecordView) :
    entries.foldlM (fun visited entry => collectRecord visited entry.1 entry.2) records =
      .ok (records ++ entries.map Prod.snd) := by
  induction entries generalizing records with
  | nil => simp [pure, Except.pure]
  | cons entry rest ih =>
    have step : collectRecord records entry.1 entry.2 = .ok (records ++ [entry.2]) := rfl
    rw [List.foldlM_cons, step]
    refine (ih (records ++ [entry.2])).trans ?_
    simp

section Header

variable {file : File UInt8} {identity : SegmentHeaderIdentity} {image : Image UInt8}
  {first second : DecodedCommitSlot}

theorem decodeSegmentHeader_of_reads (valid : validateIdentity identity = .ok ())
    (block : read image 0 kSegmentImmutableHeaderBytes =
      (identityBytes identity).take kSegmentImmutableHeaderBytes)
    (reserved : allZero (read image (slotOffset kSegmentCommitSlotCount)
      (kSegmentHeaderReservedBytes - slotOffset kSegmentCommitSlotCount)) = true)
    (firstDecoded : decodeSegmentCommitSlot (slotBytes image 0) = .ok first)
    (secondDecoded : decodeSegmentCommitSlot (slotBytes image 1) = .ok second) :
    decodeSegmentHeader (read image 0 kSegmentHeaderReservedBytes) =
      .ok { identity := identity, slots := [first, second] } := by
  apply decodeSegmentHeader_of_identity valid (length_read _ _ _)
  · rw [take_read (by decide), block]
  · rw [drop_read slotOffset_count, Nat.zero_add]
    exact reserved
  · apply decodeSlots_two <;> rw [slice_read (by decide), Nat.zero_add]
    · exact firstDecoded
    · exact secondDecoded

namespace Recoverable

section Recoverable

variable (recoverable : Recoverable file identity committed)
include recoverable

theorem avoids_block : ∀ write ∈ file.outstanding, write.Avoids 0 kSegmentImmutableHeaderBytes := by
  intro write member
  left
  rcases recoverable.writes write member with ⟨index, bound, start, -⟩ | beyond
  · rw [start, Nat.zero_add]
    exact (slotOffset_spec bound).1
  · simp only [kSegmentHeaderReservedBytes, kSegmentImmutableHeaderBytes] at *
    omega

theorem avoids_reserved :
    ∀ write ∈ file.outstanding, write.Avoids (slotOffset kSegmentCommitSlotCount)
      (kSegmentHeaderReservedBytes - slotOffset kSegmentCommitSlotCount) := by
  intro write member
  have inside := slotOffset_count
  rcases recoverable.writes write member with ⟨index, bound, start, length⟩ | beyond
  · right
    rw [start, length]
    exact (slotOffset_spec bound).2
  · left
    omega

theorem avoids_extent :
    ∀ write ∈ file.outstanding,
      write.Avoids kSegmentHeaderReservedBytes (extentBytes committed).length := by
  intro write member
  have inside := slotOffset_count
  rcases recoverable.writes write member with ⟨index, bound, start, length⟩ | beyond
  · right
    have slot := (slotOffset_spec bound).2
    rw [start, length]
    omega
  · left
    exact beyond

theorem slotContent_of_crash (unforged : Unforged file image)
    (bound : index < kSegmentCommitSlotCount) :
    SlotContent committed index (slotBytes image index) := by
  rcases unforged index bound with durable | unsynced | blank
  · rw [durable]
    exact recoverable.durableSlots index bound
  · exact recoverable.unsyncedSlots index bound _ unsynced
  · exact .inl blank

theorem decodeSegmentHeader_of_crash (survives : file.Survives image)
    (firstDecoded : decodeSegmentCommitSlot (slotBytes image 0) = .ok first)
    (secondDecoded : decodeSegmentCommitSlot (slotBytes image 1) = .ok second) :
    decodeSegmentHeader (read image 0 kSegmentHeaderReservedBytes) =
      .ok { identity := identity, slots := [first, second] } := by
  refine decodeSegmentHeader_of_reads recoverable.identityValid ?_ ?_ firstDecoded secondDecoded
  · rw [survives.read_eq recoverable.avoids_block, recoverable.block]
  · rw [survives.read_eq recoverable.avoids_reserved, recoverable.reserved]

theorem extent_of_crash (survives : file.Survives image) (inside : kept <+: committed) :
    read image kSegmentHeaderReservedBytes (extentBytes kept).length = extentBytes kept := by
  have whole : read image kSegmentHeaderReservedBytes (extentBytes committed).length =
      extentBytes committed := by
    rw [survives.read_eq recoverable.avoids_extent, recoverable.extent]
  have shorter : (extentBytes kept).length ≤ (extentBytes committed).length := by
    obtain ⟨rest, rfl⟩ := inside
    rw [extentBytes_append, List.length_append]
    exact Nat.le_add_right _ _
  rw [← take_read shorter, whole]
  exact (take_extentBytes_length inside).symm

end Recoverable

theorem not_conflicting {left right : Bytes}
    (firstNamed : ∀ commit, first = .valid commit → Names committed 0 commit left)
    (secondNamed : ∀ commit, second = .valid commit → Names committed 1 commit right) :
    ¬ Conflicting first second := by
  rintro ⟨leftCommit, rightCommit, leftEq, rightEq, equal, -⟩
  have even := (firstNamed leftCommit leftEq).parity
  have odd := (secondNamed rightCommit rightEq).parity
  omega

theorem recoversPrefix (segment : DurableSegmentFile)
    (recoverable : Recoverable segment.file segment.identity committed)
    (survives : segment.file.Survives image) (unforged : Unforged segment.file image)
    {appended : List RecordView} (inside : committed.map StoredRecord.view <+: appended) :
    RecoversPrefix segment appended image := by
  obtain ⟨first, firstDecoded, firstNamed⟩ :=
    (recoverable.slotContent_of_crash unforged (show 0 < kSegmentCommitSlotCount by decide)).decoded
  obtain ⟨second, secondDecoded, secondNamed⟩ :=
    (recoverable.slotContent_of_crash unforged (show 1 < kSegmentCommitSlotCount by decide)).decoded
  have header := recoverable.decodeSegmentHeader_of_crash survives firstDecoded secondDecoded
  -- The anchor slot survives, so it is one of the decoded slots.
  obtain ⟨anchor, bound, clear, commit, names, newest⟩ := recoverable.anchor
  have intact : slotBytes image anchor = slotBytes segment.file.durable anchor :=
    survives.read_eq clear
  have anchored : .valid commit ∈ [first, second] := by
    have decoded := names.decoded
    rw [← intact] at decoded
    have cases : anchor = 0 ∨ anchor = 1 := by
      simp only [kSegmentCommitSlotCount] at bound
      omega
    rcases cases with rfl | rfl
    · simp [Except.ok.inj (firstDecoded.symm.trans decoded)]
    · simp [Except.ok.inj (secondDecoded.symm.trans decoded)]
  obtain ⟨selected, chosen, position, greatest⟩ :
      ∃ selected, selectNewestSegmentCommit ⟨segment.identity, [first, second]⟩ = .ok selected ∧ _ :=
    select_greatest (not_conflicting firstNamed secondNamed) ⟨commit, anchored⟩
  have named : ∃ index bytes, Names committed index selected.commit bytes := by
    have member : .valid selected.commit ∈ [first, second] := List.mem_of_getElem? position
    simp only [List.mem_cons, List.not_mem_nil, or_false] at member
    rcases member with here | here
    · exact ⟨0, _, firstNamed _ here.symm⟩
    · exact ⟨1, _, secondNamed _ here.symm⟩
  obtain ⟨index, bytes, named⟩ := named
  obtain ⟨kept, keptInside, describes⟩ := named.describes
  refine ⟨opened image segment.identity selected false, ?_, ?_, ?_⟩
  · exact openFile_ok_iff.mpr ⟨_, _, header, rfl, chosen, rfl⟩
  · intro other otherBound older decoded
    exact Nat.le_trans (newest other otherBound older decoded) (greatest commit anchored)
  · refine ⟨kept.map StoredRecord.view, ?_, (keptInside.map _).trans inside⟩
    rw [visitCommittedRecords_extent rfl describes ?_, foldlM_collectRecord,
      List.nil_append, located_views]
    have extent := recoverable.extent_of_crash survives keptInside
    simp only [committedBytes, opened, File.synced]
    rw [describes.ending, Nat.add_sub_cancel_left, extent]

end Recoverable

end Header

end GlifiStore
