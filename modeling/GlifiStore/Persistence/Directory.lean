import GlifiStore.Persistence.Recovery
import GlifiStore.Persistence.ResourceLimits

/-!
# The data directory

A directory maps names to files. Its operations are those of `DataDirectory` and
of the Segment file factory when every system call succeeds; each one publishes
through a temporary name, a rename and a directory sync.
-/

namespace GlifiStore

open CrashFile

/-! ## Names -/

/-- The names the engine gives, and all other names. -/
inductive EntryName where
  | manifest
  | manifestTemporary
  | storeLock
  | bootstrapIntent
  | bootstrapTemporary
  | compactionIntent
  | compactionTemporary
  | segment (segmentId generation : Nat)
  | segmentTemporary (segmentId generation : Nat)
  | other (text : String)
  deriving DecidableEq, Repr

def hexDigit (digit : Nat) : Char :=
  "0123456789abcdef".toList.getD digit '0'

/-- `fixed_hex`: lower-case digits, most significant first. -/
def fixedHex (value width : Nat) : String :=
  String.ofList ((List.range width).map fun position =>
    hexDigit (value / 16 ^ (width - 1 - position) % 16))

def segmentFilename (segmentId generation : Nat) : String :=
  "segment-" ++ fixedHex segmentId 16 ++ "-" ++ fixedHex generation 8 ++ ".glifi"

def EntryName.text : EntryName → String
  | .manifest => "manifest.glifi"
  | .manifestTemporary => ".manifest.glifi.tmp"
  | .storeLock => ".glifistore.lock"
  | .bootstrapIntent => ".glifistore.bootstrap"
  | .bootstrapTemporary => ".glifistore.bootstrap.tmp"
  | .compactionIntent => ".glifistore.compaction"
  | .compactionTemporary => ".glifistore.compaction.tmp"
  | .segment segmentId generation => segmentFilename segmentId generation
  | .segmentTemporary segmentId generation =>
    "." ++ segmentFilename segmentId generation ++ ".tmp"
  | .other text => text

def looksEngineOwned (text : String) : Bool :=
  ["segment-", ".segment-", "manifest", ".manifest", ".glifistore"].any fun start =>
    start.toList.isPrefixOf text.toList

/-! ## Files -/

structure DurableCompactionIntent where
  workerId : Nat
  oldManifest : Catalog
  nextManifest : Catalog

/-- What a file holds, as its decoder sees it. -/
inductive FileContent where
  | manifest (catalog : Catalog)
  | compactionIntent (intent : DurableCompactionIntent)
  | segment (image : Image UInt8)
  | unreadable (error : Error)

/-- A file and whether it is a private, singly linked regular file. -/
structure DirectoryFile where
  privateRegular : Bool
  content : FileContent

/-- The files by name, in enumeration order. -/
abbrev Directory := AList fun _ : EntryName => DirectoryFile

namespace Directory

variable (directory : Directory)

def readManifestFile (name : EntryName) (description : String) (maxBytes : Nat) : Result Catalog :=
  match directory.lookup name with
  | none => fail .notFound (description ++ " does not exist")
  | some file =>
    if ¬ file.privateRegular then
      fail .invalidArgument (description ++ " must be a private, singly linked regular file")
    else
      match file.content with
      | .manifest catalog =>
        if kManifestHeaderBytes + catalog.segments.length * kManifestSegmentEntryBytes >
            maxBytes then
          fail .storageExhausted (description ++ " exceeds the configured byte budget")
        else
          .ok catalog
      | .unreadable error => .error error
      | _ => fail .invalidRecord "manifest magic, version, layout, or reserved fields are invalid"

def readManifest (maxBytes : Nat) : Result Catalog :=
  directory.readManifestFile .manifest "manifest" maxBytes

def kCompactionIntentHeaderBytes : Nat := 128

def readCompactionIntent (maxManifestBytes : Nat) : Result DurableCompactionIntent :=
  if maxManifestBytes > kMaximumManifestBytes then
    fail .invalidArgument "compaction intent manifest byte budget is outside supported bounds"
  else
    match directory.lookup .compactionIntent with
    | none => fail .notFound "compaction intent does not exist"
    | some file =>
      if ¬ file.privateRegular then
        fail .invalidArgument "compaction intent must be a private, singly linked regular file"
      else
        match file.content with
        | .compactionIntent intent =>
          if kCompactionIntentHeaderBytes +
              (kManifestHeaderBytes +
                intent.oldManifest.segments.length * kManifestSegmentEntryBytes) +
              (kManifestHeaderBytes +
                intent.nextManifest.segments.length * kManifestSegmentEntryBytes) >
              kCompactionIntentHeaderBytes + 2 * maxManifestBytes then
            fail .storageExhausted "compaction intent exceeds the configured manifest byte budget"
          else
            .ok intent
        | .unreadable error => .error error
        | _ => fail .invalidRecord "compaction intent size is outside its format bounds"

/-- The image under a Segment name, with the checks that `open` makes before it
reads the header. -/
def segmentImage : SegmentDirectory := fun segmentId generation =>
  match directory.lookup (.segment segmentId generation) with
  | none => fail .notFound "Segment does not exist"
  | some file =>
    if ¬ file.privateRegular then
      fail .invalidArgument "Segment must be a private, singly linked regular file"
    else
      match file.content with
      | .segment image => .ok image
      | .unreadable error => .error error
      | _ => fail .invalidRecord "Segment file is not exactly 64 MiB"

/-- `DurableSegmentFile::create`: the file is prepared under its temporary name,
which replaces a stale one, and renamed. -/
def createSegment (identity : SegmentHeaderIdentity) : Result Directory :=
  match DurableSegmentFile.create identity with
  | .error error => .error error
  | .ok segment =>
    match directory.lookup (.segment identity.segmentId identity.generation) with
    | some _ =>
      fail .sequenceConflict "Segment identity already exists in the data directory"
    | none =>
      .ok ((directory.erase (.segmentTemporary identity.segmentId identity.generation)).insert
        (.segment identity.segmentId identity.generation) ⟨true, .segment segment.file.durable⟩)

def isRecoveryTemporary : EntryName → Bool
  | .manifestTemporary => true
  | .compactionTemporary => true
  | .segmentTemporary _ _ => true
  | _ => false

/-- The check of one name before the first removal of
`cleanup_recovery_temporaries`. -/
def checkRecoveryTemporary (name : EntryName) : Status :=
  if ¬ isRecoveryTemporary name then
    fail .invalidArgument "recovery cleanup received a non-temporary engine name"
  else
    match directory.lookup name with
    | none => fail .sequenceConflict "recovery temporary changed before cleanup"
    | some file =>
      if ¬ file.privateRegular then
        fail .invalidArgument "recovery temporary must be a private, singly linked regular file"
      else
        .ok ()

end Directory

end GlifiStore
