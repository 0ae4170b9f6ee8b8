import GlifiStore.Persistence.Directory

/-!
# The namespace audit

Enumerating the data directory against a manifest reports every entry that the
catalog does not explain and every catalog entry that is missing. Recovery
tolerates stale temporaries and nothing else.
-/

namespace GlifiStore

inductive NamespaceIssueKind where
  | staleManifestTemporary
  | staleSegmentTemporary
  | staleCompactionTemporary
  | compactionIntent
  | unlistedSegment
  | malformedEngineName
  | unknownEntry
  | unsafeEntry
  | missingCatalogSegment
  | missingRequiredEntry
  deriving DecidableEq, Repr

namespace NamespaceIssueKind

def text : NamespaceIssueKind → String
  | .staleManifestTemporary => "stale manifest temporary"
  | .staleSegmentTemporary => "stale Segment temporary"
  | .staleCompactionTemporary => "stale compaction temporary"
  | .compactionIntent => "compaction intent requiring recovery"
  | .unlistedSegment => "unlisted Segment"
  | .malformedEngineName => "malformed engine name"
  | .unknownEntry => "unknown entry"
  | .unsafeEntry => "unsafe entry"
  | .missingCatalogSegment => "missing catalog Segment"
  | .missingRequiredEntry => "missing required entry"

/-- The position of a kind in the enumeration. -/
def rank : NamespaceIssueKind → Nat
  | .staleManifestTemporary => 0
  | .staleSegmentTemporary => 1
  | .staleCompactionTemporary => 2
  | .compactionIntent => 3
  | .unlistedSegment => 4
  | .malformedEngineName => 5
  | .unknownEntry => 6
  | .unsafeEntry => 7
  | .missingCatalogSegment => 8
  | .missingRequiredEntry => 9

def blockingForRecovery (kind : NamespaceIssueKind) : Bool :=
  kind ≠ .staleManifestTemporary && kind ≠ .staleSegmentTemporary &&
    kind ≠ .staleCompactionTemporary

end NamespaceIssueKind

structure NamespaceIssue where
  kind : NamespaceIssueKind
  name : EntryName
  segmentId : Option Nat := none
  generation : Option Nat := none
  deriving DecidableEq, Repr

structure NamespaceAuditReport where
  entriesScanned : Nat
  catalogSegmentsSeen : Nat
  issues : List NamespaceIssue

def kNamespaceAnomalyBudget : Nat := 4096
def kMaximumNamespaceIssueCount : Nat := kMaximumManifestSegmentCount + kNamespaceAnomalyBudget

def issueLess (left right : NamespaceIssue) : Bool :=
  if left.name.text ≠ right.name.text then left.name.text < right.name.text
  else left.kind.rank < right.kind.rank

variable (manifest : Manifest)

/-- `std::lower_bound` by identity. -/
def Manifest.lowerBound (segmentId : Nat) : Option ManifestSegmentEntry :=
  manifest.segments.find? fun entry => ¬ entry.segmentId < segmentId

def Manifest.listedEntry (segmentId generation : Nat) : Option ManifestSegmentEntry :=
  (manifest.lowerBound segmentId).filter fun entry =>
    entry.segmentId = segmentId ∧ entry.generation = generation

/-- The identity in a canonical Segment name, and whether it is a temporary. -/
def EntryName.parsed : EntryName → Option (Nat × Nat × Bool)
  | .segment segmentId generation =>
    if segmentId = 0 ∨ generation = 0 then none else some (segmentId, generation, false)
  | .segmentTemporary segmentId generation =>
    if segmentId = 0 ∨ generation = 0 then none else some (segmentId, generation, true)
  | _ => none

/-- The issue of a name that is not a Segment name. -/
def plainIssue (name : EntryName) (file : DirectoryFile) : Option NamespaceIssue :=
  if ¬ file.privateRegular then
    some { kind := .unsafeEntry, name := name }
  else
    match name with
    | .manifest => none
    | .storeLock => none
    | .manifestTemporary => some { kind := .staleManifestTemporary, name := name }
    | .compactionTemporary => some { kind := .staleCompactionTemporary, name := name }
    | .compactionIntent => some { kind := .compactionIntent, name := name }
    | _ =>
      some
        { kind := if looksEngineOwned name.text then .malformedEngineName else .unknownEntry
          name := name }

def entryIssue (name : EntryName) (file : DirectoryFile) :
    Option NamespaceIssue :=
  match name.parsed with
  | none => plainIssue name file
  | some (segmentId, generation, temporary) =>
    let issue (kind : NamespaceIssueKind) : NamespaceIssue :=
      { kind := kind, name := name, segmentId := segmentId, generation := generation }
    if ¬ file.privateRegular then
      some (issue .unsafeEntry)
    else if temporary then
      some (issue .staleSegmentTemporary)
    else if (manifest.listedEntry segmentId generation).isNone then
      some (issue .unlistedSegment)
    else
      none

/-- The catalog entry that a directory entry is the file of. -/
def seenEntry (name : EntryName) : Option ManifestSegmentEntry :=
  match name.parsed with
  | some (segmentId, generation, false) => manifest.listedEntry segmentId generation
  | _ => none

def appendIssue (issues : List NamespaceIssue) (issue : NamespaceIssue) :
    Result (List NamespaceIssue) :=
  if issues.length ≥ kMaximumNamespaceIssueCount then
    fail .corruptedData "data-directory namespace exceeds the bounded issue-report limit"
  else
    .ok (issues ++ [issue])

structure AuditState where
  entriesScanned : Nat
  seen : List ManifestSegmentEntry
  issues : List NamespaceIssue

def addSeen (seen : List ManifestSegmentEntry) (name : EntryName) :
    List ManifestSegmentEntry :=
  match seenEntry manifest name with
  | some listed => if listed ∈ seen then seen else seen ++ [listed]
  | none => seen

def auditEntryLimit : Nat :=
  manifest.segments.length + kNamespaceAnomalyBudget + 4

def auditEntry (state : AuditState)
    (entry : Sigma fun _ : EntryName => DirectoryFile) : Result AuditState :=
  if state.entriesScanned + 1 > auditEntryLimit manifest then
    fail .corruptedData "data-directory namespace exceeds the manifest-relative entry limit"
  else
    let seen := addSeen manifest state.seen entry.1
    match entryIssue manifest entry.1 entry.2 with
    | none => .ok ⟨state.entriesScanned + 1, seen, state.issues⟩
    | some issue =>
      match appendIssue state.issues issue with
      | .error error => .error error
      | .ok issues => .ok ⟨state.entriesScanned + 1, seen, issues⟩

/-- The issues of the required names and catalog entries that were not seen. -/
def missingIssues (directory : Directory) (manifest : Manifest)
    (seen : List ManifestSegmentEntry) : List NamespaceIssue :=
  ([EntryName.manifest, EntryName.storeLock].filter fun name => name ∉ directory).map
      (fun name => { kind := .missingRequiredEntry, name := name }) ++
    (manifest.segments.filter fun entry => entry ∉ seen).map fun entry =>
      { kind := .missingCatalogSegment
        name := .segment entry.segmentId entry.generation
        segmentId := entry.segmentId
        generation := entry.generation }

def auditDataDirectory (directory : Directory) (manifest : Manifest) :
    Result NamespaceAuditReport := do
  validateManifest manifest .invalidArgument
  let state ← directory.entries.foldlM (auditEntry manifest) ⟨0, [], []⟩
  let issues ← (missingIssues directory manifest state.seen).foldlM appendIssue state.issues
  return {
    entriesScanned := state.entriesScanned
    catalogSegmentsSeen := state.seen.length
    issues := issues.mergeSort fun left right => !issueLess right left }

def validateNamespaceForRecovery (report : NamespaceAuditReport) : Status :=
  match report.issues.find? fun issue => issue.kind.blockingForRecovery with
  | none => .ok ()
  | some first =>
    let blockingCount := report.issues.countP fun issue => issue.kind.blockingForRecovery
    fail .corruptedData ("data-directory namespace has " ++ toString blockingCount ++
      " blocking issue(s); first: " ++ first.kind.text ++ " '" ++ first.name.text ++ "'")

theorem validateNamespaceForRecovery_ok {report : NamespaceAuditReport} :
    validateNamespaceForRecovery report = .ok () ↔
      ∀ issue ∈ report.issues, issue.kind.blockingForRecovery = false := by
  unfold validateNamespaceForRecovery
  split
  · next none => simpa using none
  · next first found =>
    have blocking : first.kind.blockingForRecovery = true := by
      simpa using List.find?_some found
    have member := List.mem_of_find?_eq_some found
    simp only [fail, reduceCtorEq, false_iff, not_forall]
    exact ⟨first, member, by simp [blocking]⟩

/-! ## Catalog lookups -/

variable {name : EntryName}

section Listed

variable {manifest : Manifest} {segmentId generation : Nat} {entry : ManifestSegmentEntry}

theorem Manifest.WellFormed.lowerBound_eq (wellFormed : manifest.WellFormed)
    (listed : entry ∈ manifest.segments) :
    manifest.lowerBound entry.segmentId = some entry := by
  obtain ⟨found, lower⟩ : ∃ found, manifest.lowerBound entry.segmentId = some found := by
    rw [← Option.isSome_iff_exists, Manifest.lowerBound, List.find?_isSome]
    exact ⟨entry, listed, by simp⟩
  have member := List.mem_of_find?_eq_some lower
  have above : ¬ found.segmentId < entry.segmentId := by simpa using List.find?_some lower
  rw [lower]
  obtain ⟨-, front, back, split, earlier⟩ := List.find?_eq_some_iff_append.mp lower
  have order := wellFormed.ordered
  rw [split] at listed order
  rcases List.mem_append.mp listed with before | after
  · have less := earlier entry before
    simp at less
  · rcases List.mem_cons.mp after with same | later
    · rw [same]
    · exact absurd ((List.pairwise_cons.mp (List.pairwise_append.mp order).2.1).1 entry later) above

theorem Manifest.WellFormed.listedEntry_eq_some (wellFormed : manifest.WellFormed) :
    manifest.listedEntry segmentId generation = some entry ↔
      entry ∈ manifest.segments ∧ entry.segmentId = segmentId ∧ entry.generation = generation := by
  rw [Manifest.listedEntry, Option.filter_eq_some_iff, decide_eq_true_eq]
  constructor
  · rintro ⟨found, identity⟩
    exact ⟨List.mem_of_find?_eq_some found, identity⟩
  · rintro ⟨listed, rfl, rfl⟩
    exact ⟨wellFormed.lowerBound_eq listed, rfl, rfl⟩

theorem Manifest.WellFormed.listedEntry_isNone (wellFormed : manifest.WellFormed) :
    (manifest.listedEntry segmentId generation).isNone ↔
      ∀ entry ∈ manifest.segments,
        ¬ (entry.segmentId = segmentId ∧ entry.generation = generation) := by
  rw [Option.isNone_iff_eq_none, Option.eq_none_iff_forall_ne_some]
  simp only [ne_eq, wellFormed.listedEntry_eq_some, not_and]

theorem Manifest.WellFormed.seenEntry_eq_some (wellFormed : manifest.WellFormed)
    (listed : entry ∈ manifest.segments) :
    seenEntry manifest name = some entry ↔ name = .segment entry.segmentId entry.generation := by
  have nonzero := wellFormed.nonzero entry listed
  unfold seenEntry EntryName.parsed
  cases name with
  | segment segmentId generation =>
    by_cases zero : segmentId = 0 ∨ generation = 0
    · simp only [zero, if_true, reduceCtorEq, EntryName.segment.injEq, false_iff]
      omega
    · simp only [zero, if_false, wellFormed.listedEntry_eq_some, listed, true_and,
        EntryName.segment.injEq, eq_comm]
  | segmentTemporary segmentId generation =>
    by_cases zero : segmentId = 0 ∨ generation = 0 <;> simp [zero]
  | _ => simp

end Listed

/-! ## What the audit reports -/

section Audit

variable {directory : Directory} {manifest : Manifest} {report : NamespaceAuditReport}

/-- The issues that a directory raises against a manifest. -/
inductive Raised (directory : Directory) (manifest : Manifest) : NamespaceIssue → Prop where
  | entry {name : EntryName} {file : DirectoryFile} {issue : NamespaceIssue} :
    directory.lookup name = some file → entryIssue manifest name file = some issue →
      Raised directory manifest issue
  | required {name : EntryName} :
    name ∈ [EntryName.manifest, EntryName.storeLock] → name ∉ directory →
      Raised directory manifest { kind := .missingRequiredEntry, name := name }
  | catalog {entry : ManifestSegmentEntry} :
    entry ∈ manifest.segments → .segment entry.segmentId entry.generation ∉ directory →
      Raised directory manifest
        { kind := .missingCatalogSegment
          name := .segment entry.segmentId entry.generation
          segmentId := entry.segmentId
          generation := entry.generation }

variable {issues extended : List NamespaceIssue} {issue : NamespaceIssue}

theorem appendIssue_ok :
    appendIssue issues issue = .ok extended ↔
      issues.length < kMaximumNamespaceIssueCount ∧ extended = issues ++ [issue] := by
  unfold appendIssue
  split
  · simp [fail]
    omega
  · simp [eq_comm]
    omega

theorem appendIssues_ok {more : List NamespaceIssue} :
    more.foldlM appendIssue issues = .ok extended ↔
      (more ≠ [] → issues.length + more.length ≤ kMaximumNamespaceIssueCount) ∧
        extended = issues ++ more := by
  induction more generalizing issues with
  | nil => simp [pure, Except.pure, eq_comm]
  | cons issue rest ih =>
    rw [List.foldlM_cons]
    cases appended : appendIssue issues issue with
    | error error =>
      have full : ¬ issues.length < kMaximumNamespaceIssueCount := fun room => by
        rw [appendIssue_ok.mpr ⟨room, rfl⟩] at appended
        cases appended
      simp only [bind, Except.bind, reduceCtorEq, List.length_cons, false_iff]
      rintro ⟨within, -⟩
      have := within nofun
      omega
    | ok next =>
      obtain ⟨room, rfl⟩ := appendIssue_ok.mp appended
      simp only [bind, Except.bind, ih, List.length_append, List.length_cons, List.length_nil,
        List.append_assoc, List.singleton_append]
      cases rest <;> simp <;> omega

variable {entry : ManifestSegmentEntry}

theorem mem_addSeen {seen : List ManifestSegmentEntry} :
    entry ∈ addSeen manifest seen name ↔ entry ∈ seen ∨ seenEntry manifest name = some entry := by
  unfold addSeen
  cases seenEntry manifest name with
  | none => simp
  | some listed =>
    by_cases known : listed ∈ seen
    · simp only [known, if_true, Option.some.injEq]
      exact ⟨.inl, fun either => either.elim id fun same => same ▸ known⟩
    · simp [known, eq_comm]

variable {state : AuditState}

theorem auditEntry_ok {next : AuditState} {entry : Sigma fun _ : EntryName => DirectoryFile} :
    auditEntry manifest state entry = .ok next ↔
      state.entriesScanned < auditEntryLimit manifest ∧
        (entryIssue manifest entry.1 entry.2 ≠ none →
          state.issues.length < kMaximumNamespaceIssueCount) ∧
        next = ⟨state.entriesScanned + 1, addSeen manifest state.seen entry.1,
          state.issues ++ (entryIssue manifest entry.1 entry.2).toList⟩ := by
  unfold auditEntry
  by_cases beyond : state.entriesScanned + 1 > auditEntryLimit manifest
  · simp only [beyond, if_true, fail, reduceCtorEq, false_iff]
    rintro ⟨within, -⟩
    omega
  simp only [beyond, if_false]
  have within : state.entriesScanned < auditEntryLimit manifest := by omega
  cases raised : entryIssue manifest entry.1 entry.2 with
  | none => simp [within, eq_comm]
  | some issue =>
    cases appended : appendIssue state.issues issue with
    | error error =>
      have full : ¬ state.issues.length < kMaximumNamespaceIssueCount := fun room => by
        rw [appendIssue_ok.mpr ⟨room, rfl⟩] at appended
        cases appended
      simp [appended, full]
    | ok issues =>
      obtain ⟨room, rfl⟩ := appendIssue_ok.mp appended
      simp [appended, within, room, eq_comm]

def entryIssues (manifest : Manifest) (entries : List (Sigma fun _ : EntryName => DirectoryFile)) :
    List NamespaceIssue :=
  entries.filterMap fun entry => entryIssue manifest entry.1 entry.2

theorem auditEntries_ok {entries : List (Sigma fun _ : EntryName => DirectoryFile)}
    {final : AuditState} (started : state.entriesScanned ≤ auditEntryLimit manifest)
    (reported : state.issues.length ≤ kMaximumNamespaceIssueCount) :
    entries.foldlM (auditEntry manifest) state = .ok final ↔
      state.entriesScanned + entries.length ≤ auditEntryLimit manifest ∧
        state.issues.length + (entryIssues manifest entries).length ≤
          kMaximumNamespaceIssueCount ∧
        final = ⟨state.entriesScanned + entries.length,
          entries.foldl (fun seen entry => addSeen manifest seen entry.1) state.seen, state.issues ++ entryIssues manifest entries⟩ := by
  induction entries generalizing state with
  | nil => simp [pure, Except.pure, entryIssues, started, reported, eq_comm]
  | cons entry rest ih =>
    rw [List.foldlM_cons]
    have counted : (entryIssues manifest (entry :: rest)) =
        (entryIssue manifest entry.1 entry.2).toList ++ entryIssues manifest rest := by
      cases raised : entryIssue manifest entry.1 entry.2 <;> simp [entryIssues, raised]
    cases audited : auditEntry manifest state entry with
    | error error =>
      simp only [bind, Except.bind, reduceCtorEq, false_iff]
      rintro ⟨within, room, -⟩
      have accepted : auditEntry manifest state entry = .ok _ := auditEntry_ok.mpr
        ⟨by rw [List.length_cons] at within; omega, fun raises => by
          rw [counted, List.length_append, Option.length_toList,
            Option.isSome_iff_ne_none.mpr raises] at room
          simp only [if_true] at room
          omega, rfl⟩
      rw [accepted] at audited
      cases audited
    | ok next =>
      obtain ⟨within, room, rfl⟩ := auditEntry_ok.mp audited
      have few : (state.issues ++ (entryIssue manifest entry.1 entry.2).toList).length ≤
          kMaximumNamespaceIssueCount := by
        cases raised : entryIssue manifest entry.1 entry.2 with
        | none => simpa using reported
        | some issue =>
          have := room (by simp [raised])
          simp only [Option.toList_some, List.length_append, List.length_singleton]
          omega
      simp only [bind, Except.bind]
      rw [ih (by simp only; omega) few]
      simp only [counted, List.length_append, List.length_cons, List.append_assoc,
        List.foldl_cons, Nat.add_assoc, Nat.add_comm 1]

def seenEntries (directory : Directory) (manifest : Manifest) : List ManifestSegmentEntry :=
  directory.entries.foldl (fun seen entry => addSeen manifest seen entry.1) []

def auditIssues (directory : Directory) (manifest : Manifest) : List NamespaceIssue :=
  entryIssues manifest directory.entries ++
    missingIssues directory manifest (seenEntries directory manifest)

theorem auditDataDirectory_ok :
    auditDataDirectory directory manifest = .ok report ↔
      manifest.WellFormed ∧ directory.entries.length ≤ auditEntryLimit manifest ∧
        (auditIssues directory manifest).length ≤ kMaximumNamespaceIssueCount ∧
        report =
          { entriesScanned := directory.entries.length
            catalogSegmentsSeen := (seenEntries directory manifest).length
            issues := (auditIssues directory manifest).mergeSort
              fun left right => !issueLess right left } := by
  have started : (⟨0, [], []⟩ : AuditState).entriesScanned ≤ auditEntryLimit manifest :=
    Nat.zero_le _
  have reported : (⟨0, [], []⟩ : AuditState).issues.length ≤ kMaximumNamespaceIssueCount :=
    Nat.zero_le _
  constructor
  · intro audited
    simp only [auditDataDirectory, bind_eq_ok, pure, Except.pure, Except.ok.injEq] at audited
    obtain ⟨_, valid, state, enumerated, issues, appended, rfl⟩ := audited
    obtain ⟨within, few, rfl⟩ := (auditEntries_ok started reported).mp enumerated
    obtain ⟨room, rfl⟩ := appendIssues_ok.mp appended
    simp only [Nat.zero_add, List.length_nil, List.nil_append] at within few room
    refine ⟨validateManifest_ok_iff.mp valid, within, ?_, by
      rw [Nat.zero_add]
      rfl⟩
    rw [auditIssues, List.length_append]
    cases missing : missingIssues directory manifest (seenEntries directory manifest) with
    | nil => exact few
    | cons issue rest =>
      rw [← missing]
      exact room (by rw [← seenEntries, missing]; nofun)
  · rintro ⟨wellFormed, within, few, rfl⟩
    rw [auditIssues, List.length_append] at few
    have enumerated : directory.entries.foldlM (auditEntry manifest) ⟨0, [], []⟩ =
        .ok ⟨directory.entries.length, seenEntries directory manifest,
          entryIssues manifest directory.entries⟩ :=
      (auditEntries_ok started reported).mpr
        ⟨by simpa using within, by simp only [List.length_nil]; omega, by simp [seenEntries]⟩
    exact bind_eq_ok.mpr ⟨(), validateManifest_ok_iff.mpr wellFormed, bind_eq_ok.mpr
      ⟨_, enumerated, bind_eq_ok.mpr ⟨_, appendIssues_ok.mpr ⟨fun _ => few, rfl⟩, rfl⟩⟩⟩

theorem mem_seenEntries :
    entry ∈ seenEntries directory manifest ↔
      ∃ name ∈ directory, seenEntry manifest name = some entry := by
  have fold (entries : List (Sigma fun _ : EntryName => DirectoryFile))
      (seen : List ManifestSegmentEntry) :
      entry ∈ entries.foldl (fun seen entry => addSeen manifest seen entry.1) seen ↔
        entry ∈ seen ∨ ∃ name ∈ entries.keys, seenEntry manifest name = some entry := by
    induction entries generalizing seen with
    | nil => simp
    | cons first rest ih => simp [ih, mem_addSeen, or_assoc]
  rw [seenEntries, fold]
  simp [AList.mem_keys, AList.keys]

theorem mem_auditIssues (wellFormed : manifest.WellFormed) :
    issue ∈ auditIssues directory manifest ↔ Raised directory manifest issue := by
  have unseen {entry : ManifestSegmentEntry} (listed : entry ∈ manifest.segments) :
      entry ∉ seenEntries directory manifest ↔
        .segment entry.segmentId entry.generation ∉ directory := by
    simp [mem_seenEntries, wellFormed.seenEntry_eq_some listed]
  simp only [auditIssues, missingIssues, entryIssues, List.mem_append, List.mem_filterMap,
    List.mem_map, List.mem_filter, decide_eq_true_eq]
  constructor
  · rintro (⟨⟨name, file⟩, member, raised⟩ | ⟨name, ⟨required, absent⟩, rfl⟩ |
      ⟨entry, ⟨listed, absent⟩, rfl⟩)
    · exact .entry (AList.mem_lookup_iff.mpr member) raised
    · exact .required required absent
    · exact .catalog listed ((unseen listed).mp absent)
  · rintro (⟨found, raised⟩ | ⟨required, absent⟩ | ⟨listed, absent⟩)
    · exact .inl ⟨⟨_, _⟩, AList.mem_lookup_iff.mp found, raised⟩
    · exact .inr (.inl ⟨_, ⟨required, absent⟩, rfl⟩)
    · exact .inr (.inr ⟨_, ⟨listed, (unseen listed).mpr absent⟩, rfl⟩)

theorem mem_issues (audited : auditDataDirectory directory manifest = .ok report) :
    issue ∈ report.issues ↔ Raised directory manifest issue := by
  obtain ⟨wellFormed, -, -, rfl⟩ := auditDataDirectory_ok.mp audited
  rw [List.mem_mergeSort, mem_auditIssues wellFormed]

end Audit

end GlifiStore
