import GlifiStore.Index.Growth

/-!
# The Index refines a finite map

Any sequence of operations is replayed against its own history: the current
reference of a key is the one of its last successful `insert_or_assign` that no
erasure followed. Every reachable table answers, counts and lists exactly that
map.
-/

namespace GlifiStore

open OpenAddressing

inductive IndexOperation where
  | insertOrAssign (key : Key) (ref : RecordRef)
  | erase (key : Key)
  | eraseNoCompact (key : Key)
  | reserve (count : Nat)
  | prepareInsert (key : Key)
  | prepareBatchInsert (additionalEntries additionalHeapKeyBytes : Nat)
  | find (key : Key)

inductive IndexAnswer where
  | mutated (result : Result IndexMutationResult)
  | erased (result : IndexMutationResult)
  | prepared (status : Status)
  | found (ref : Option RecordRef)

/-- The operations performed so far with their answers, newest first. -/
abbrev IndexHistory := List (IndexOperation × IndexAnswer)

/-- The reference of the last insertion of the key that no erasure followed. -/
def IndexHistory.current (key : Key) : IndexHistory → Option RecordRef
  | [] => none
  | (.insertOrAssign stored ref, .mutated (.ok _)) :: older =>
    if stored = key then some ref else IndexHistory.current key older
  | (.erase erased, _) :: older =>
    if erased = key then none else IndexHistory.current key older
  | (.eraseNoCompact erased, _) :: older =>
    if erased = key then none else IndexHistory.current key older
  | _ :: older => IndexHistory.current key older

namespace SwissTableIndex

variable (hash : Key → UInt64)
variable {table after : SwissTableIndex} {current : Key → Option RecordRef}

def perform (table : SwissTableIndex) : IndexOperation → SwissTableIndex × IndexAnswer
  | .insertOrAssign key ref =>
    let result := table.insertOrAssign hash key (hash key) ref
    (result.1, .mutated result.2)
  | .erase key =>
    let result := table.erase key (hash key)
    (result.1, .erased result.2)
  | .eraseNoCompact key =>
    let result := table.eraseNoCompact key (hash key)
    (result.1, .erased result.2)
  | .reserve count =>
    match table.reserve hash count with
    | .ok reserved => (reserved, .prepared (.ok ()))
    | .error error => (table, .prepared (.error error))
  | .prepareInsert key =>
    let result := table.prepareInsert hash key (hash key)
    (result.1, .prepared result.2)
  | .prepareBatchInsert additionalEntries additionalHeapKeyBytes =>
    let result := table.prepareBatchInsert hash additionalEntries additionalHeapKeyBytes
    (result.1, .prepared result.2)
  | .find key => (table, .found (table.find key (hash key)))

structure Traced where
  table : SwissTableIndex
  history : IndexHistory

def Traced.step (state : Traced) (operation : IndexOperation) : Traced :=
  let result := state.table.perform hash operation
  ⟨result.1, (operation, result.2) :: state.history⟩

def run (seed : UInt64) (operations : List IndexOperation) : Traced :=
  operations.foldl (Traced.step hash) ⟨{ seed := seed }, []⟩

/-- What an answer must be, given the table asked and the map it stands for. -/
def Answered (table : SwissTableIndex) (current : Key → Option RecordRef) :
    IndexOperation → IndexAnswer → Prop
  | .insertOrAssign key _, .mutated (.ok outcome) =>
    outcome.previous = current key ∧ outcome.inserted = (current key).isNone
  | .insertOrAssign key _, .mutated (.error _) => ¬ table.WithinLimits key
  | .erase key, .erased outcome => outcome.previous = current key ∧ outcome.inserted = false
  | .eraseNoCompact key, .erased outcome =>
    outcome.previous = current key ∧ outcome.inserted = false
  | .find key, .found ref => ref = current key
  | .reserve _, .prepared _ => True
  | .prepareInsert _, .prepared _ => True
  | .prepareBatchInsert _ _, .prepared _ => True
  | _, _ => False

variable {hash}

variable (hash) in
structure Represents (table : SwissTableIndex) (current : Key → Option RecordRef) : Prop where
  valid : table.Valid hash
  binds : ∀ key ref, Binds table.cellAt key ref ↔ current key = some ref

theorem Represents.find_eq (represents : Represents hash table current) (key : Key) :
    table.find key (hash key) = current key := by
  apply Option.ext
  intro ref
  rw [represents.valid.find_iff, represents.binds]

theorem Represents.preserved (represents : Represents hash table current)
    (preserved : Preserved hash table after) :
    Represents hash after current :=
  ⟨preserved.valid, fun key ref => (preserved.binds key ref).trans (represents.binds key ref)⟩

theorem Represents.assigned {key : Key} {ref : RecordRef} {outcome : IndexMutationResult}
    (represents : Represents hash table current)
    (assigned : Assigned hash table key ref after outcome) :
    Represents hash after fun other => if key = other then some ref else current other := by
  refine ⟨assigned.valid, fun other payload => ?_⟩
  rw [assigned.binds, represents.binds]
  by_cases same : key = other
  · subst same
    simp [eq_comm]
  · simp [same, Ne.symm same]

theorem Represents.erased {key : Key} {outcome : IndexMutationResult}
    (represents : Represents hash table current) (erased : Erased hash table key after outcome) :
    Represents hash after fun other => if key = other then none else current other := by
  refine ⟨erased.valid, fun other payload => ?_⟩
  rw [erased.binds, represents.binds]
  by_cases same : key = other
  · simp [same]
  · simp [same, Ne.symm same]

theorem Represents.step {state : Traced}
    (represents : Represents hash state.table fun key => state.history.current key)
    (operation : IndexOperation) :
    Answered state.table (fun key => state.history.current key) operation
        (state.table.perform hash operation).2 ∧
      Represents hash (state.step hash operation).table
        fun key => IndexHistory.current key (state.step hash operation).history := by
  have valid := represents.valid
  cases operation with
  | insertOrAssign key ref =>
    rcases valid.insertOrAssign_spec key ref with
      ⟨after, outcome, run, assigned⟩ | ⟨after, error, run, preserved, limit⟩
    · constructor
      · simp only [perform, run, Answered, ← represents.find_eq]
        exact ⟨assigned.previous, assigned.inserted⟩
      · simpa only [Traced.step, perform, run, IndexHistory.current] using
          represents.assigned assigned
    · constructor
      · simpa only [perform, run, Answered] using limit
      · simpa only [Traced.step, perform, run, IndexHistory.current] using
          represents.preserved preserved
  | erase key =>
    have erased := valid.erase_spec key
    exact ⟨⟨erased.previous.trans (represents.find_eq key), erased.inserted⟩,
      represents.erased erased⟩
  | eraseNoCompact key =>
    have erased := valid.eraseNoCompact_spec key
    exact ⟨⟨erased.previous.trans (represents.find_eq key), erased.inserted⟩,
      represents.erased erased⟩
  | reserve count =>
    cases run : state.table.reserve hash count with
    | ok reserved =>
      refine ⟨by simp only [perform, run, Answered], ?_⟩
      simpa only [Traced.step, perform, run, IndexHistory.current] using
        represents.preserved (valid.reserve_spec run)
    | error error =>
      refine ⟨by simp only [perform, run, Answered], ?_⟩
      simpa only [Traced.step, perform, run, IndexHistory.current] using represents
  | prepareInsert key => exact ⟨trivial, represents.preserved (valid.prepareInsert_spec key)⟩
  | prepareBatchInsert entries heapKeyBytes =>
    exact ⟨trivial, represents.preserved (valid.prepareBatchInsert_spec entries heapKeyBytes)⟩
  | find key => exact ⟨represents.find_eq key, represents⟩

variable (hash) in
theorem represents_empty (seed : UInt64) :
    Represents hash ({ seed := seed } : SwissTableIndex) fun _ => none := by
  obtain ⟨fresh, vacant⟩ :=
    emptyWith_fresh hash seed (Nat.zero_le 60) KeyArena.valid_empty rfl
  refine ⟨fresh.valid, fun key ref => ?_⟩
  constructor
  · intro bound
    exact absurd bound (vacant key ref)
  · intro impossible
    simp at impossible

variable (hash) in
theorem represents_run (seed : UInt64) (operations : List IndexOperation) :
    Represents hash (run hash seed operations).table
      fun key => (run hash seed operations).history.current key := by
  have preserve : ∀ (operations : List IndexOperation) (state : Traced),
      Represents hash state.table (fun key => state.history.current key) →
      Represents hash (operations.foldl (Traced.step hash) state).table
        fun key => (operations.foldl (Traced.step hash) state).history.current key := by
    intro operations
    induction operations with
    | nil => exact fun _ represents => represents
    | cons operation rest ih =>
      intro state represents
      exact ih _ (represents.step operation).2
  exact preserve operations _ (represents_empty hash seed)

theorem Represents.mem_entries (represents : Represents hash table current) (key : Key)
    (ref : RecordRef) :
    (key, ref) ∈ table.entries ↔ current key = some ref := by
  rw [represents.valid.mem_entries, represents.binds]

theorem Represents.size_eq (represents : Represents hash table current) :
    table.size = {key | current key ≠ none}.ncard := by
  have keys : {key | current key ≠ none} = ((table.entries.map Prod.fst).toFinset : Set Key) := by
    ext key
    simp only [Set.mem_ofPred_eq, List.coe_toFinset, List.mem_map, Prod.exists, exists_and_right,
      exists_eq_right, represents.mem_entries]
    exact Option.ne_none_iff_exists'
  rw [keys, Set.ncard_coe_finset,
    List.toFinset_card_of_nodup represents.valid.nodup_entries, List.length_map,
    represents.valid.length_entries]

/-- The Swiss table refines a finite map: after any operations, lookups, size and
entries are those of the map the history stands for, and so is the answer to
whatever operation comes next. -/
theorem run_refines_map (hash : Key → UInt64) (seed : UInt64) (operations : List IndexOperation)
    (next : IndexOperation) :
    let state := run hash seed operations
    (∀ key, state.table.find key (hash key) = state.history.current key) ∧
      state.table.size = {key | state.history.current key ≠ none}.ncard ∧
      (state.table.entries.map Prod.fst).Nodup ∧
      (∀ key ref, (key, ref) ∈ state.table.entries ↔ state.history.current key = some ref) ∧
      Answered state.table (fun key => state.history.current key) next
        (state.table.perform hash next).2 := by
  have represents := represents_run hash seed operations
  exact ⟨represents.find_eq, represents.size_eq, represents.valid.nodup_entries,
    represents.mem_entries, (represents.step next).1⟩

end SwissTableIndex

end GlifiStore
