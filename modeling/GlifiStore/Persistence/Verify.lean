import GlifiStore.Persistence.OpenSteps
import GlifiStore.Persistence.PrepareStore

/-!
# Verification of a durable store

`verify_durable_store` reads a locked data directory: its manifest, its namespace
and every Segment of the catalog. What it accepts holds no intent and no Segment
that the catalog does not list.
-/

namespace GlifiStore

open StepProgram

structure DurableStoreVerifiedSegment where
  entry : ManifestSegmentEntry
  selected : SelectedSegmentCommit
  activeRequiresRotation : Bool
  scannedRecords : Nat

structure DurableStoreVerifyReport where
  manifest : Catalog
  namespaceAudit : NamespaceAuditReport
  segments : List DurableStoreVerifiedSegment
  scannedRecords : Nat
  activeRequiresRotationCount : Nat

/-- The records of a Segment, counted one by one or taken from its commit. -/
def countRecords (file : DurableSegmentFile) (scanRecords : Bool) : Result Nat :=
  if scanRecords then
    file.visitCommittedRecords (fun counted _ _ => .ok (counted + 1)) 0
  else
    .ok file.selected.commit.recordCount

def verifySegment (directory : Directory) (scanRecords : Bool) (report : DurableStoreVerifyReport)
    (entry : ManifestSegmentEntry) : Result DurableStoreVerifyReport := do
  let opened ← openSegment directory.segmentImage (report.manifest.identityOf entry)
  let requiresRotation ← validateLifecycle entry opened.selected.commit
  let scanned ← countRecords opened scanRecords
  .ok
    { report with
      segments := report.segments ++ [⟨entry, opened.selected, requiresRotation, scanned⟩]
      scannedRecords := report.scannedRecords + scanned
      activeRequiresRotationCount :=
        report.activeRequiresRotationCount + if requiresRotation then 1 else 0 }

def verifyDurableStore (environment : Environment) (scanRecords : Bool)
    (limits : DurableResourceLimits) (directory : Directory) : Result DurableStoreVerifyReport := do
  validateDurableResourceLimits limits
  let manifest ← directory.readManifest limits.maxManifestBytes
  validateDurableManifestResources environment manifest.toManifest limits
  let audit ← auditDataDirectory directory manifest.toManifest
  validateNamespaceForRecovery audit
  manifest.segments.foldlM (verifySegment directory scanRecords) ⟨manifest, audit, [], 0, 0⟩

/-! ## What verification accepts -/

/-- A directory that may be served, as far as its manifest and its namespace go. -/
structure Verified (environment : Environment) (limits : DurableResourceLimits)
    (directory : Directory) (manifest : Catalog) : Prop where
  limited : validateDurableResourceLimits limits = .ok ()
  read : directory.readManifest limits.maxManifestBytes = .ok manifest
  resources : validateDurableManifestResources environment manifest.toManifest limits = .ok ()
  audited : ∃ audit, auditDataDirectory directory manifest.toManifest = .ok audit ∧
    validateNamespaceForRecovery audit = .ok ()

variable {environment : Environment} {limits : DurableResourceLimits} {directory : Directory}
  {manifest : Catalog} {scanRecords : Bool} {report : DurableStoreVerifyReport}

theorem verifySegments_manifest {entries : List ManifestSegmentEntry}
    {final : DurableStoreVerifyReport}
    (verified : entries.foldlM (verifySegment directory scanRecords) report = .ok final) :
    final.manifest = report.manifest := by
  induction entries generalizing report with
  | nil => rw [← Except.ok.inj verified]
  | cons entry rest ih =>
    obtain ⟨next, first, verified⟩ := bind_eq_ok.mp (List.foldlM_cons.symm.trans verified)
    rw [ih verified]
    obtain ⟨opened, -, first⟩ := bind_eq_ok.mp first
    obtain ⟨requires, -, first⟩ := bind_eq_ok.mp first
    obtain ⟨scanned, -, first⟩ := bind_eq_ok.mp first
    rw [← Except.ok.inj first]

theorem verifyDurableStore_ok
    (verified : verifyDurableStore environment scanRecords limits directory = .ok report) :
    Verified environment limits directory report.manifest := by
  unfold verifyDurableStore at verified
  obtain ⟨_, limited, verified⟩ := bind_eq_ok.mp verified
  obtain ⟨manifest, read, verified⟩ := bind_eq_ok.mp verified
  obtain ⟨_, resources, verified⟩ := bind_eq_ok.mp verified
  obtain ⟨audit, audited, verified⟩ := bind_eq_ok.mp verified
  obtain ⟨_, safe, verified⟩ := bind_eq_ok.mp verified
  rw [verifySegments_manifest verified]
  exact ⟨limited, read, resources, audit, audited, safe⟩

variable {name : EntryName} {issue : NamespaceIssue} {file : DirectoryFile}

namespace Verified

section Verified

variable (verified : Verified environment limits directory manifest)
include verified

theorem entry_tolerated (held : directory.lookup name = some file)
    (raised : entryIssue manifest.toManifest name file = some issue) :
    issue.kind.blockingForRecovery = false := by
  obtain ⟨audit, audited, safe⟩ := verified.audited
  exact validateNamespaceForRecovery_ok.mp safe issue ((mem_issues audited).mpr (.entry held raised))

theorem absent_of_blocking (blocking : ∀ file, ∃ issue,
      entryIssue manifest.toManifest name file = some issue ∧
        issue.kind.blockingForRecovery = true) : directory.lookup name = none := by
  cases held : directory.lookup name with
  | none => rfl
  | some file =>
    obtain ⟨issue, raised, blocks⟩ := blocking file
    exact nomatch blocks.symm.trans (verified.entry_tolerated held raised)

theorem no_bootstrapIntent : directory.lookup .bootstrapIntent = none := by
  refine verified.absent_of_blocking fun file => ?_
  simp only [entryIssue, EntryName.parsed, plainIssue]
  split
  · exact ⟨_, rfl, rfl⟩
  · refine ⟨_, rfl, ?_⟩
    simp only
    split <;> rfl

theorem no_compactionIntent : directory.lookup .compactionIntent = none := by
  refine verified.absent_of_blocking fun file => ?_
  simp only [entryIssue, EntryName.parsed, plainIssue]
  split
  · exact ⟨_, rfl, rfl⟩
  · exact ⟨_, rfl, rfl⟩

theorem segment_listed {segmentId generation : Nat}
    (held : directory.lookup (.segment segmentId generation) ≠ none) :
    ∃ entry ∈ manifest.segments, entry.segmentId = segmentId ∧ entry.generation = generation := by
  refine Classical.byContradiction fun unlisted => held (verified.absent_of_blocking fun file => ?_)
  have nowhere : (manifest.toManifest.listedEntry segmentId generation).isNone = true :=
    manifest.wellFormed.listedEntry_isNone.mpr fun entry listed same =>
      unlisted ⟨entry, listed, same⟩
  simp only [entryIssue, EntryName.parsed]
  by_cases zero : segmentId = 0 ∨ generation = 0
  · simp only [if_pos zero, plainIssue]
    split
    · exact ⟨_, rfl, rfl⟩
    · refine ⟨_, rfl, ?_⟩
      simp only
      split <;> rfl
  · simp only [if_neg zero, nowhere, Bool.false_eq_true, if_false, if_true]
    split
    · exact ⟨_, rfl, rfl⟩
    · exact ⟨_, rfl, rfl⟩

theorem next_absent (generation : Nat) :
    directory.lookup (.segment manifest.nextSegmentId generation) = none := by
  refine Classical.byContradiction fun held => ?_
  obtain ⟨entry, listed, same, -⟩ := verified.segment_listed held
  exact Nat.ne_of_lt (manifest.wellFormed.next entry listed) same

end Verified

end Verified

/-! ## Interrupted rotations of a verified directory -/

theorem preparedOrphan_of_tolerated {manifest : Manifest} {issues : List NamespaceIssue}
    (tolerated : ∀ issue ∈ issues, issue.kind.blockingForRecovery = false) :
    preparedOrphan manifest false issues =
      if ∃ issue ∈ issues, issue.kind = .staleCompactionTemporary then none else some false := by
  induction issues with
  | nil => simp [preparedOrphan]
  | cons issue rest ih =>
    obtain ⟨first, others⟩ := List.forall_mem_cons.mp tolerated
    rw [preparedOrphan]
    cases kind : issue.kind with
    | staleManifestTemporary | staleSegmentTemporary => simp [kind, ih others]
    | staleCompactionTemporary => simp [kind]
    | _ =>
      rw [kind] at first
      exact nomatch first

theorem name_of_staleCompaction {manifest : Manifest}
    (raised : entryIssue manifest name file = some issue)
    (stale : issue.kind = .staleCompactionTemporary) : name = .compactionTemporary := by
  have plain (found : plainIssue name file = some issue) : name = .compactionTemporary := by
    revert found
    fun_cases plainIssue name file with
    | case5 => exact fun _ => rfl
    | case7 =>
      rintro ⟨⟩
      split at stale <;> exact nomatch stale
    | _ => rintro ⟨⟩ <;> exact nomatch stale
  revert raised
  fun_cases entryIssue manifest name file with
  | case1 => exact plain
  | _ => rintro ⟨⟩ <;> exact nomatch stale

theorem Verified.stale_iff (verified : Verified environment limits directory manifest)
    {audit : NamespaceAuditReport}
    (audited : auditDataDirectory directory manifest.toManifest = .ok audit) :
    (∃ issue ∈ audit.issues, issue.kind = .staleCompactionTemporary) ↔
      directory.lookup .compactionTemporary ≠ none := by
  constructor
  · rintro ⟨issue, member, kind⟩
    cases (mem_issues audited).mp member with
    | entry held raised =>
      obtain rfl := name_of_staleCompaction raised kind
      rw [held]
      exact nofun
    | required | catalog => exact nomatch kind
  · intro held
    obtain ⟨file, held⟩ := Option.ne_none_iff_exists'.mp held
    have raised : ∃ issue, entryIssue manifest.toManifest .compactionTemporary file = some issue ∧
        (issue.kind = .unsafeEntry ∨ issue.kind = .staleCompactionTemporary) := by
      simp only [entryIssue, EntryName.parsed, plainIssue]
      split
      · exact ⟨_, rfl, .inl rfl⟩
      · exact ⟨_, rfl, .inr rfl⟩
    obtain ⟨issue, raised, exposed | stale⟩ := raised
    · have tolerated := verified.entry_tolerated held raised
      rw [exposed] at tolerated
      exact nomatch tolerated
    · exact ⟨issue, (mem_issues audited).mpr (.entry held raised), stale⟩

end GlifiStore
