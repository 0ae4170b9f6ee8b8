import GlifiStore.Lib.StepProgram
import GlifiStore.Persistence.Directory
import GlifiStore.Segment.Fresh

/-!
# A data directory under crashes

The directory as its last sync made it durable, the directory as the process sees
it, and the files whose contents are not synced. A crash keeps of each name either
state, and anything under the name of a file that is not synced; a rename is one
step.
-/

namespace GlifiStore

open StepProgram

structure Volume where
  durable : Directory
  current : Directory
  unsynced : List EntryName

namespace Volume

def settled (directory : Directory) : Volume where
  durable := directory
  current := directory
  unsynced := []

/-- What a crash may leave. -/
def Crash (volume : Volume) (survived : Directory) : Prop :=
  ∀ name, survived.lookup name = volume.durable.lookup name ∨
    survived.lookup name = volume.current.lookup name ∨
    name ∈ volume.unsynced ∧ ∃ content, survived.lookup name = some ⟨true, content⟩

/-! ## System calls -/

variable (name : EntryName)

/-- A new file: it holds nothing that a decoder would accept. -/
def create (volume : Volume) : Volume :=
  { volume with
    current := volume.current.insert name ⟨true, .unreadable ⟨.invalidRecord, ""⟩⟩
    unsynced := name :: volume.unsynced }

def write (content : FileContent) (volume : Volume) : Volume :=
  { volume with current := volume.current.insert name ⟨true, content⟩ }

def syncFile (volume : Volume) : Volume :=
  { volume with unsynced := volume.unsynced.filter fun other => other ≠ name }

def rename (source target : EntryName) (volume : Volume) : Volume :=
  match volume.current.lookup source with
  | none => volume
  | some file =>
    { volume with
      current := (volume.current.erase source).insert target file
      unsynced := volume.unsynced.map fun name => if name = source then target else name }

def unlink (volume : Volume) : Volume :=
  { volume with
    current := volume.current.erase name
    unsynced := volume.unsynced.filter fun other => other ≠ name }

def syncDirectory (volume : Volume) : Volume :=
  { volume with durable := volume.current }

end Volume

/-! ## Operations of the directory -/

abbrev OnVolume (α : Type) := Program Volume Error α

def onDirectory {α : Type} (read : Directory → Result α) : OnVolume α :=
  query fun volume => read volume.current

def check {α : Type} (result : Result α) : OnVolume α :=
  query fun _ => result

/-- Publication through a temporary name: a stale temporary is removed, the new one
is written and synced before it gets its name, and the directory is synced. -/
def publishFile (temporary target : EntryName) (content : FileContent) : OnVolume Unit := do
  perform (Volume.unlink temporary)
  perform (Volume.create temporary)
  perform (Volume.write temporary content)
  perform (Volume.syncFile temporary)
  perform (Volume.rename temporary target)
  perform Volume.syncDirectory

def Directory.published (directory : Directory) (temporary target : EntryName)
    (content : FileContent) : Directory :=
  (directory.erase temporary).insert target ⟨true, content⟩

/-- The checks of `publish_manifest`: only a newer generation replaces a manifest. -/
def checkPublication (manifest : Manifest) (maxBytes : Nat) (directory : Directory) :
    Result Catalog :=
  match valid : validateManifest manifest .invalidArgument with
  | .error error => .error error
  | .ok () =>
    if kManifestHeaderBytes + manifest.segments.length * kManifestSegmentEntryBytes >
        maxBytes then
      fail .storageExhausted "manifest exceeds the configured byte budget"
    else
      let catalog : Catalog := ⟨manifest, validateManifest_ok_iff.mp valid⟩
      match directory.readManifest maxBytes with
      | .ok current =>
        if manifest.manifestGeneration ≤ current.manifestGeneration then
          fail .sequenceConflict "manifest publication generation must advance monotonically"
        else
          .ok catalog
      | .error error => if error.code ≠ .notFound then .error error else .ok catalog

def publishManifestSteps (manifest : Manifest) (maxBytes : Nat) : OnVolume Unit := do
  let catalog ← onDirectory (checkPublication manifest maxBytes)
  publishFile .manifestTemporary .manifest (.manifest catalog)

/-- The checks of `DurableSegmentFile::create`, and the image it writes. -/
def checkCreation (identity : SegmentHeaderIdentity) (directory : Directory) :
    Result (CrashFile.Image UInt8) :=
  match DurableSegmentFile.create identity with
  | .error error => .error error
  | .ok segment =>
    match directory.lookup (.segment identity.segmentId identity.generation) with
    | some _ =>
      fail .sequenceConflict "Segment identity already exists in the data directory"
    | none => .ok segment.file.durable

def createSegmentSteps (identity : SegmentHeaderIdentity) : OnVolume Unit := do
  let image ← onDirectory (checkCreation identity)
  publishFile (.segmentTemporary identity.segmentId identity.generation)
    (.segment identity.segmentId identity.generation) (.segment image)

/-! ## What a publication does -/

/-- In the middle of a publication: only the temporary and the target may differ from
the start, and the target holds what is published as soon as it differs. -/
structure Publishing (start : Volume) (temporary target : EntryName) (content : FileContent)
    (volume : Volume) : Prop where
  durable : ∀ name, name ≠ temporary → volume.durable.lookup name = start.durable.lookup name ∨
    volume.durable.lookup name = start.current.lookup name ∨
    name = target ∧ volume.durable.lookup name = some ⟨true, content⟩
  current : ∀ name, name ≠ temporary → volume.current.lookup name = start.current.lookup name ∨
    name = target ∧ volume.current.lookup name = some ⟨true, content⟩
  unsynced : ∀ name ∈ volume.unsynced, name = temporary ∨ name ∈ start.unsynced

/-- After a publication: the directory is synced with the target in it. -/
structure Installed (start : Volume) (temporary target : EntryName) (content : FileContent)
    (volume : Volume) : Prop where
  durable : volume.durable = start.current.published temporary target content
  current : volume.current = start.current.published temporary target content
  unsynced : ∀ name ∈ volume.unsynced, name ∈ start.unsynced

section Publication

variable {temporary target : EntryName} {content : FileContent} {start : Volume}

theorem erase_insert_erase (directory : Directory) (name : EntryName) (file : DirectoryFile) :
    ((directory.erase name).insert name file).erase name = directory.erase name := by
  apply AList.ext
  have absent : name ∉ (directory.entries.kerase name).keys :=
    List.notMem_keys_kerase name directory.nodupKeys
  simp [AList.erase, AList.insert, List.kinsert, List.kerase_of_notMem_keys absent]

theorem lookup_published (directory : Directory) (name : EntryName) :
    (directory.published temporary target content).lookup name =
      if name = target then some ⟨true, content⟩
      else if name = temporary then none else directory.lookup name := by
  unfold Directory.published
  by_cases aimed : name = target
  · subst aimed
    rw [AList.lookup_insert, if_pos rfl]
  · rw [AList.lookup_insert_ne aimed, if_neg aimed]
    by_cases stale : name = temporary
    · subst stale
      rw [AList.lookup_erase, if_pos rfl]
    · rw [AList.lookup_erase_ne stale, if_neg stale]

def Directory.prepared (directory : Directory) (temporary : EntryName) (content : FileContent) :
    Directory :=
  ((directory.erase temporary).insert temporary ⟨true, .unreadable ⟨.invalidRecord, ""⟩⟩).insert
    temporary ⟨true, content⟩

theorem lookup_prepared_ne {directory : Directory} {name : EntryName} (other : name ≠ temporary) :
    (directory.prepared temporary content).lookup name = directory.lookup name := by
  rw [Directory.prepared, AList.insert_insert, AList.lookup_insert_ne other,
    AList.lookup_erase_ne other]

theorem rename_prepared (durable directory : Directory) (unsynced : List EntryName) :
    Volume.rename temporary target ⟨durable, directory.prepared temporary content, unsynced⟩ =
      ⟨durable, directory.published temporary target content,
        unsynced.map fun name => if name = temporary then target else name⟩ := by
  simp only [Volume.rename, Directory.prepared, AList.lookup_insert, AList.insert_insert,
    Directory.published, erase_insert_erase]

theorem publishFile_meets (start : Volume) :
    Meets (publishFile temporary target content) start
      (Publishing start temporary target content)
      (fun _ left => Installed start temporary target content left) (fun _ _ => False) := by
  have erased {name : EntryName} (other : name ≠ temporary) :
      (start.current.erase temporary).lookup name = start.current.lookup name :=
    AList.lookup_erase_ne other
  have published (name : EntryName) (other : name ≠ temporary) :
      (start.current.published temporary target content).lookup name = start.current.lookup name ∨
        name = target ∧ (start.current.published temporary target content).lookup name =
          some ⟨true, content⟩ := by
    rw [lookup_published, if_neg other]
    split
    · next aimed => exact .inr ⟨aimed, rfl⟩
    · exact .inl rfl
  let others := start.unsynced.filter fun other => other ≠ temporary
  have left {name : EntryName} (member : name ∈ others) : name ≠ temporary ∧ name ∈ start.unsynced := by
    simpa [others, and_comm] using member
  have pending {name : EntryName} (member : name ∈ temporary :: others) :
      name = temporary ∨ name ∈ start.unsynced :=
    (List.mem_cons.mp member).imp_right fun inside => (left inside).2
  have synced {name : EntryName}
      (member : name ∈ (temporary :: others).filter fun other => other ≠ temporary) :
      name ∈ others := by
    obtain ⟨inside, other⟩ := List.mem_filter.mp member
    exact (List.mem_cons.mp inside).resolve_left (by simpa using other)
  have moved {name : EntryName}
      (member : name ∈ ((temporary :: others).filter fun other => other ≠ temporary).map
        fun name => if name = temporary then target else name) : name ∈ start.unsynced := by
    obtain ⟨old, inside, same⟩ := List.mem_map.mp member
    obtain ⟨other, unsynced⟩ := left (synced inside)
    rw [if_neg other] at same
    exact same ▸ unsynced
  -- Each step before the rename leaves every other name alone.
  refine meets_perform_bind ⟨fun _ _ => .inl rfl, fun _ other => .inl (erased other),
    fun _ member => .inr (left member).2⟩ ?_
  refine meets_perform_bind ⟨fun _ _ => .inl rfl,
    fun _ other => .inl ((AList.lookup_insert_ne other).trans (erased other)),
    fun _ => pending⟩ ?_
  refine meets_perform_bind ⟨fun _ _ => .inl rfl, fun _ other => .inl (lookup_prepared_ne other),
    fun _ => pending⟩ ?_
  refine meets_perform_bind ⟨fun _ _ => .inl rfl, fun _ other => .inl (lookup_prepared_ne other),
    fun _ member => .inr (left (synced member)).2⟩ ?_
  have renamed : Volume.rename temporary target (Volume.syncFile temporary (Volume.write temporary
      content (Volume.create temporary (Volume.unlink temporary start)))) = _ :=
    rename_prepared start.durable start.current _
  refine meets_perform_bind ?_ ?_
  · rw [renamed]
    exact ⟨fun _ _ => .inl rfl, published, fun _ member => .inr (moved member)⟩
  · rw [renamed]
    exact meets_perform
      ⟨fun name other => .inr (published name other), published, fun _ member => .inr (moved member)⟩
      ⟨rfl, rfl, fun _ => moved⟩

theorem publishFile_left_mem (start : Volume) :
    (publishFile temporary target content start).left ∈
      (publishFile temporary target content start).passed := by
  refine mem_passed_bind_right rfl (mem_passed_bind_right rfl (mem_passed_bind_right rfl ?_))
  refine mem_passed_bind_right rfl (mem_passed_bind_right rfl ?_)
  exact List.mem_singleton_self _

end Publication

/-! ## What the checks accept -/

section Checks

variable {directory : Directory}

theorem checkPublication_ok {manifest : Manifest} {maxBytes : Nat} {catalog : Catalog}
    (checked : checkPublication manifest maxBytes directory = .ok catalog) :
    catalog.toManifest = manifest := by
  revert checked
  fun_cases checkPublication manifest maxBytes directory with
  | case4 | case6 =>
    intro same
    rw [← Except.ok.inj same]
  | _ => exact nofun

theorem checkCreation_ok {identity : SegmentHeaderIdentity} {image : CrashFile.Image UInt8} :
    checkCreation identity directory = .ok image ↔
      validateIdentity identity = .ok () ∧
        directory.lookup (.segment identity.segmentId identity.generation) = none ∧
        image = freshImage identity := by
  constructor
  · fun_cases checkCreation identity directory with
    | case3 segment created absent =>
      rintro ⟨⟩
      obtain ⟨valid, same⟩ := create_spec created
      exact ⟨valid, absent, by rw [same, opened_durable]⟩
    | case1 => exact nofun
    | case2 => exact nofun
  · rintro ⟨valid, absent, rfl⟩
    simp only [checkCreation, create_of_valid valid, absent, opened_durable]

end Checks

end GlifiStore
