import GlifiStore.Lib.CrashFile
import GlifiStore.Segment.Header

/-!
# Durable Segment files

`DurableSegmentFile` over a file that may lose unsynced writes. Every operation
takes the results of the system calls and hooks it makes, so a run is
determined by its operations.
-/

namespace GlifiStore

open ByteLayout CrashFile

inductive SegmentCommitSync where
  | immediate
  | deferred
  deriving DecidableEq, Repr

inductive SegmentCommitResult where
  | committed
  | notCommitted (error : Error)
  | indeterminate (error : Error)
  deriving DecidableEq, Repr

/-- The result of `write_all_at`: a failed write may have stored some bytes. -/
inductive WriteOutcome where
  | done
  | failed (written : Nat) (error : Error)

/-- A hook and the file sync it precedes. -/
structure SyncIo where
  before : Status
  sync : Status

structure CommitIo where
  before : Status
  write : WriteOutcome
  sync : SyncIo

structure FlushIo where
  record : SyncIo
  commit : CommitIo

/-- The system calls of `append_record`: the grants of the pacer, when there is
one, and the writes, both by chunk. -/
structure AppendIo where
  before : Status
  pacing : Option (Nat → Result Nat)
  write : Nat → WriteOutcome

structure SealIo where
  flush : FlushIo
  commit : CommitIo

def SyncIo.done : SyncIo := ⟨.ok (), .ok ()⟩

def CommitIo.done : CommitIo := ⟨.ok (), .done, .done⟩

def FlushIo.done : FlushIo := ⟨.done, .done⟩

def AppendIo.done : AppendIo := ⟨.ok (), none, fun _ => .done⟩

/-- An open Segment file. `healthy` is the shared health of its directory. -/
structure DurableSegmentFile where
  file : File UInt8
  identity : SegmentHeaderIdentity
  selected : SelectedSegmentCommit
  persisted : SelectedSegmentCommit
  healthy : Bool
  writable : Bool
  dirty : Bool
  pendingRecordCount : Nat
  pendingBytes : Nat

def initialCommit : SegmentCommit :=
  { commitGeneration := 1
    committedEnd := kSegmentHeaderReservedBytes
    state := .active
    recordCount := 0
    firstSequence := 0
    lastSequence := 0 }

def writeAllAt (file : File UInt8) (start : Nat) (data : Bytes) : WriteOutcome → Status × File UInt8
  | .done => (.ok (), file.write start data data.length)
  | .failed written error => (.error error, file.write start data written)

namespace DurableSegmentFile

def opened (image : Image UInt8) (identity : SegmentHeaderIdentity)
    (selected : SelectedSegmentCommit) (writable : Bool) : DurableSegmentFile where
  file := File.synced image
  identity := identity
  selected := selected
  persisted := selected
  healthy := true
  writable := writable
  dirty := false
  pendingRecordCount := 0
  pendingBytes := 0

/-- `create` on a directory that performs every step: the file is preallocated
with zeros and its header is synced before it gets its name. -/
def create (identity : SegmentHeaderIdentity) : Result DurableSegmentFile :=
  match encodeSegmentHeader identity (some initialCommit) none with
  | .error error => .error error
  | .ok header => .ok (opened (overwrite (fun _ => 0) 0 header) identity ⟨0, initialCommit⟩ true)

/-- `open` on a private file of exactly 64 MiB in a healthy directory. -/
def openFile (image : Image UInt8) (expected : SegmentHeaderIdentity) (writable : Bool) :
    Result DurableSegmentFile :=
  match decodeSegmentHeader (read image 0 kSegmentHeaderReservedBytes) with
  | .error error => .error error
  | .ok header =>
    if header.identity ≠ expected then
      fail .corruptedData "Segment header identity does not match its catalog identity"
    else
      match selectNewestSegmentCommit header with
      | .error error => .error error
      | .ok selected => .ok (opened image header.identity selected writable)

section Publishing

variable (segment : DurableSegmentFile)

def poison : DurableSegmentFile :=
  { segment with healthy := false }

def rollbackPendingMetadata : DurableSegmentFile :=
  { segment with
    selected :=
      { segment.selected with
        commit :=
          { segment.selected.commit with
            committedEnd := segment.persisted.commit.committedEnd
            recordCount := segment.persisted.commit.recordCount
            firstSequence := segment.persisted.commit.firstSequence
            lastSequence := segment.persisted.commit.lastSequence } }
    pendingRecordCount := 0
    pendingBytes := 0 }

def hasPendingCommit : Bool :=
  segment.pendingRecordCount > 0

/-- The sync of a written commit slot, common to `publish_commit` and
`sync_file`. -/
def syncCommitSlot (io : SyncIo) : SegmentCommitResult × DurableSegmentFile :=
  match io.before with
  | .error error => (.indeterminate error, segment.poison)
  | .ok () =>
    match io.sync with
    | .error error => (.indeterminate error, segment.poison)
    | .ok () => (.committed, { segment with file := segment.file.sync, dirty := false })

def nextSlot : Nat :=
  (segment.persisted.slotIndex + 1) % kSegmentCommitSlotCount

def adopt (file : File UInt8) (commit : SegmentCommit) : DurableSegmentFile :=
  { segment with
    file := file
    selected := ⟨segment.nextSlot, commit⟩
    persisted := ⟨segment.nextSlot, commit⟩
    pendingRecordCount := 0
    pendingBytes := 0 }

def publishCommit (commit : SegmentCommit)
    (sync : SegmentCommitSync) (io : CommitIo) : SegmentCommitResult × DurableSegmentFile :=
  match encodeSegmentCommitSlot commit with
  | .error error => (.notCommitted error, segment.rollbackPendingMetadata)
  | .ok encoded =>
    if commit.commitGeneration ≠ (segment.persisted.commit.commitGeneration + 1) % 2 ^ 64 then
      (.notCommitted ⟨.sequenceConflict, "Segment commit generation must advance by exactly one"⟩,
        segment.rollbackPendingMetadata)
    else
      match io.before with
      | .error error => (.notCommitted error, segment.rollbackPendingMetadata)
      | .ok () =>
        match writeAllAt segment.file (slotOffset segment.nextSlot) encoded io.write with
        | (.error error, file) =>
          (.indeterminate error, { segment.rollbackPendingMetadata.poison with file := file })
        | (.ok (), file) =>
          let written := segment.adopt file commit
          match sync with
          | .deferred => (.committed, { written with dirty := true })
          | .immediate => written.syncCommitSlot io.sync

def syncFile (io : SyncIo) : SegmentCommitResult × DurableSegmentFile :=
  if ¬ segment.healthy then
    (.indeterminate ⟨.ioError, "Segment file is poisoned"⟩, segment)
  else if ¬ segment.dirty then
    (.committed, segment)
  else
    segment.syncCommitSlot io

end Publishing

/-- The grant of a chunk: the whole rest of the record without a pacer. -/
def AppendIo.grant (io : AppendIo) (chunk remaining : Nat) : Result Nat :=
  match io.pacing with
  | none => .ok remaining
  | some acquire => acquire chunk

/-- The write loop of `append_record`, with the failure that ends it early. -/
def writeChunks (io : AppendIo) (segment : DurableSegmentFile) (start chunk : Nat) (data : Bytes) :
    Option SegmentCommitResult × DurableSegmentFile :=
  if data.length = 0 then
    (none, segment)
  else
    match AppendIo.grant io chunk data.length with
    | .error error => (some (.notCommitted error), segment)
    | .ok granted =>
      if granted = 0 ∨ granted > data.length then
        (some (.notCommitted
          ⟨.internalError, "Segment Record write pacer returned an invalid grant"⟩), segment)
      else
        match writeAllAt segment.file start (data.take granted) (io.write chunk) with
        | (.error error, file) =>
          (some (.notCommitted error), { segment with file := file, healthy := false })
        | (.ok (), file) =>
          writeChunks io { segment with file := file } (start + granted) (chunk + 1)
            (data.drop granted)
  termination_by data.length
  decreasing_by
    simp only [List.length_drop]
    omega

section Appending

variable (segment : DurableSegmentFile)

def noteAppended (record : RecordView) (size : Nat) : DurableSegmentFile :=
  { segment with
    selected :=
      { segment.selected with
        commit :=
          { segment.selected.commit with
            committedEnd := segment.selected.commit.committedEnd + size
            recordCount := segment.selected.commit.recordCount + 1
            firstSequence :=
              if segment.selected.commit.recordCount = 0 then record.sequence
              else segment.selected.commit.firstSequence
            lastSequence := record.sequence } }
    pendingRecordCount := segment.pendingRecordCount + 1
    pendingBytes := segment.pendingBytes + size
    dirty := true }

def appendRecord (encodedRecord : Bytes) (io : AppendIo) :
    SegmentCommitResult × DurableSegmentFile :=
  if ¬ segment.healthy then
    (.indeterminate ⟨.ioError, "Segment file is poisoned"⟩, segment)
  else if ¬ segment.writable then
    (.notCommitted ⟨.invalidArgument, "cannot append through a read-only Segment handle"⟩, segment)
  else if segment.selected.commit.state ≠ .active then
    (.notCommitted ⟨.segmentSealed, "cannot append to a sealed Segment"⟩, segment)
  else
    match decodeRecord encodedRecord with
    | .error error => (.notCommitted error, segment)
    | .ok record =>
      if record.sequence = 0 ∨ (segment.selected.commit.recordCount ≠ 0 ∧
          record.sequence ≤ segment.selected.commit.lastSequence) then
        (.notCommitted
          ⟨.sequenceConflict, "Record sequence must increase strictly within a Segment"⟩, segment)
      else if segment.selected.commit.recordCount = kUInt64Max ∨
          segment.persisted.commit.commitGeneration = kUInt64Max then
        (.notCommitted ⟨.arithmeticOverflow, "Segment commit metadata overflow"⟩, segment)
      else if encodedRecord.length > kSegmentSizeBytes - segment.selected.commit.committedEnd then
        (.notCommitted ⟨.segmentFull, "Record does not fit in the Segment"⟩, segment)
      else
        match io.before with
        | .error error => (.notCommitted error, segment)
        | .ok () =>
          match writeChunks io segment segment.selected.commit.committedEnd 0 encodedRecord with
          | (some failure, failed) => (failure, failed)
          | (none, written) => (.committed, written.noteAppended record encodedRecord.length)

def flushPendingCommit (sync : SegmentCommitSync) (io : FlushIo) :
    SegmentCommitResult × DurableSegmentFile :=
  if ¬ segment.hasPendingCommit then
    if segment.dirty ∧ sync = .immediate then
      segment.syncFile io.commit.sync
    else
      (.committed, segment)
  else
    match io.record.before with
    | .error error => (.notCommitted error, segment.rollbackPendingMetadata)
    | .ok () =>
      match io.record.sync with
      | .error error => (.notCommitted error, segment.rollbackPendingMetadata.poison)
      | .ok () =>
        let ordered := { segment with file := segment.file.sync }
        ordered.publishCommit
          { segment.selected.commit with
            commitGeneration := (segment.persisted.commit.commitGeneration + 1) % 2 ^ 64 }
          sync io.commit

def append (encodedRecord : Bytes) (sync : SegmentCommitSync)
    (appendIo : AppendIo) (flushIo : FlushIo) : SegmentCommitResult × DurableSegmentFile :=
  match segment.appendRecord encodedRecord appendIo with
  | (.committed, appended) => appended.flushPendingCommit sync flushIo
  | failed => failed

def publishSeal (io : CommitIo) : SegmentCommitResult × DurableSegmentFile :=
  segment.publishCommit
    { segment.selected.commit with
      commitGeneration := (segment.selected.commit.commitGeneration + 1) % 2 ^ 64
      state := .sealed }
    .immediate io

def sealFile (io : SealIo) : SegmentCommitResult × DurableSegmentFile :=
  if ¬ segment.healthy then
    (.indeterminate ⟨.ioError, "Segment file is poisoned"⟩, segment)
  else if ¬ segment.writable then
    (.notCommitted ⟨.invalidArgument, "cannot seal through a read-only Segment handle"⟩, segment)
  else if segment.selected.commit.state = .sealed then
    (.notCommitted ⟨.segmentSealed, "Segment is already sealed"⟩, segment)
  else if segment.selected.commit.commitGeneration = kUInt64Max then
    (.notCommitted ⟨.arithmeticOverflow, "Segment commit generation overflow"⟩, segment)
  else if segment.hasPendingCommit then
    match segment.flushPendingCommit .immediate io.flush with
    | (.committed, flushed) => flushed.publishSeal io.commit
    | failed => failed
  else
    segment.publishSeal io.commit

end Appending

/-! ## Scanning the committed extent -/

structure ScanProgress (σ : Type) where
  cursor : Nat
  recordCount : Nat
  first : Nat
  previous : Nat
  visited : σ

/-- The loop of `visit_committed_records` over the bytes from the cursor on. -/
def visitRecords {σ : Type} (identity : SegmentHeaderIdentity)
    (visitor : σ → RecordRef → RecordView → Result σ) (rest : Bytes) (progress : ScanProgress σ) :
    Result (ScanProgress σ) :=
  if rest.length = 0 then
    .ok progress
  else if rest.length < kEncodedRecordHeaderSize then
    fail .corruptedData "committed Segment extent ends in a truncated Record"
  else
    let encodedSize := getLE 4 rest 8
    if encodedSize < kEncodedRecordHeaderSize ∨ encodedSize > kMaxNormalRecordSize ∨
        encodedSize % kRecordAlignment ≠ 0 ∨ encodedSize > rest.length then
      fail .corruptedData "committed Segment contains an invalid Record extent"
    else
      match decodeRecord (rest.take encodedSize) with
      | .error error => .error error
      | .ok record =>
        if record.sequence = 0 ∨ (progress.previous ≠ 0 ∧ record.sequence ≤ progress.previous) then
          fail .corruptedData "committed Segment Record sequences are not strictly increasing"
        else
          let reference : RecordRef :=
            { segmentId := identity.segmentId
              offset := kSegmentHeaderReservedBytes + progress.cursor
              size := encodedSize
              sequence := record.sequence
              generation := identity.generation }
          match visitor progress.visited reference record with
          | .error error => .error error
          | .ok visited =>
            visitRecords identity visitor (rest.drop encodedSize)
              { cursor := progress.cursor + encodedSize
                recordCount := progress.recordCount + 1
                first := if progress.recordCount = 0 then record.sequence else progress.first
                previous := record.sequence
                visited := visited }
  termination_by rest.length
  decreasing_by
    simp only [List.length_drop, kEncodedRecordHeaderSize] at *
    omega

def visitCommittedRecords {σ : Type} (segment : DurableSegmentFile)
    (visitor : σ → RecordRef → RecordView → Result σ) (initial : σ) : Result σ :=
  if ¬ segment.healthy then
    fail .ioError "cannot scan a poisoned Segment file"
  else
    let commit := segment.persisted.commit
    let dataSize := commit.committedEnd - kSegmentHeaderReservedBytes
    if commit.recordCount = 0 then
      .ok initial
    else if commit.recordCount > dataSize / kEncodedRecordHeaderSize then
      fail .corruptedData "Segment commit Record count exceeds its extent"
    else
      match visitRecords segment.identity visitor
          (read segment.file.visible kSegmentHeaderReservedBytes dataSize) ⟨0, 0, 0, 0, initial⟩ with
      | .error error => .error error
      | .ok progress =>
        if progress.recordCount ≠ commit.recordCount ∨ progress.first ≠ commit.firstSequence ∨
            progress.previous ≠ commit.lastSequence then
          fail .corruptedData "Segment commit metadata does not match committed Records"
        else
          .ok progress.visited

end DurableSegmentFile

end GlifiStore
