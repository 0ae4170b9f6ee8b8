import GlifiStore.Index.Refinement

/-!
# What holds of every reachable table

The shape and the counters of a table, the accounting of arena-held keys, and
what a publication does after its preparation.
-/

namespace GlifiStore

open OpenAddressing

def IndexAnswer.error? : IndexAnswer → Option Error
  | .mutated (.error error) => some error
  | .prepared (.error error) => some error
  | _ => none

namespace SwissTableIndex

variable {hash : Key → UInt64} {table : SwissTableIndex} {key : Key} {error : Error}

/-! ## Internal errors -/

/-- The errors that only a broken table can return. -/
def internalErrors : List Error :=
  [⟨.corruptedData, "swiss table probe sequence exhausted without insert slot"⟩,
    ⟨.corruptedData, "swiss table rebuild encountered a duplicate key"⟩,
    ⟨.invalidArgument, "swiss table rehash capacity cannot hold live entries"⟩]

theorem not_internal_of_overflow (overflow : error.code = .arithmeticOverflow) :
    error ∉ internalErrors := by
  intro member
  simp only [internalErrors, List.mem_cons, List.not_mem_nil, or_false] at member
  rcases member with rfl | rfl | rfl <;> exact nomatch overflow

theorem not_internal_of_fail {α : Type} {code : ErrorCode} {message : String}
    (failed : (fail code message : Result α) = .error error)
    (ordinary : ⟨code, message⟩ ∉ internalErrors) : error ∉ internalErrors := by
  rw [← Except.error.inj failed]
  exact ordinary

theorem checkedAdd_error {lhs rhs : Nat} (failed : checkedAdd lhs rhs = .error error) :
    error ∉ internalErrors := by
  unfold checkedAdd at failed
  split at failed
  · exact not_internal_of_fail failed (by decide)
  · exact nomatch failed

variable {arena : KeyArena} {size : Nat}

theorem allocate_error (failed : arena.allocate size = .error error) :
    error ∉ internalErrors := by
  revert failed
  fun_cases KeyArena.allocate arena size with
  | case1 => nofun
  | case2 | case4 => exact fun failed => not_internal_of_fail failed (by decide)
  | case3 _ _ other added => exact fun failed => Except.error.inj failed ▸ checkedAdd_error added
  | case5 => nofun

theorem prepareAllocate_error (failed : arena.prepareAllocate size = .error error) :
    error ∉ internalErrors := by
  unfold KeyArena.prepareAllocate at failed
  split at failed
  · next other added => exact Except.error.inj failed ▸ checkedAdd_error added
  · unfold KeyArena.reserve at failed
    split at failed
    · exact not_internal_of_fail failed (by decide)
    · split at failed <;> exact nomatch failed

variable {index : Nat} {keyHash : UInt64}

theorem setKey_error (failed : (table.setKey index key keyHash).2 = .error error) :
    error ∉ internalErrors := by
  revert failed
  fun_cases setKey table index key keyHash with
  | case1 | case4 => exact fun failed => not_internal_of_fail failed (by decide)
  | case2 => nofun
  | case3 _ _ other exhausted =>
    exact fun failed => Except.error.inj failed ▸ allocate_error exhausted
  | case5 => nofun

variable {ref : RecordRef}

theorem insertAt_error (failed : (table.insertAt key keyHash ref index).2 = .error error) :
    error ∉ internalErrors := by
  unfold insertAt at failed
  split at failed
  · have stored := @setKey_error table key error index keyHash
    generalize table.setKey index key keyHash = result at failed stored
    obtain ⟨after, other | ok⟩ := result
    · have same : (Except.error other : Result IndexMutationResult) = .error error := failed
      exact stored (congrArg Except.error (Except.error.inj same))
    · exact nomatch failed
  · exact nomatch failed

section Valid

variable (valid : table.Valid hash)
include valid

theorem Valid.growIfNeeded_error
    (failed : table.growIfNeeded (rehash hash rehashDepth) = .error error) :
    error ∉ internalErrors := by
  rcases valid.growIfNeeded_spec 1 with ⟨grown, run, -⟩ | ⟨run, -⟩
  · exact nomatch failed.symm.trans run
  · exact not_internal_of_fail (run.symm.trans failed) (by decide)

theorem Valid.insertOrAssign_error
    (failed : (table.insertOrAssign hash key (hash key) ref).2 = .error error) :
    error ∉ internalErrors := by
  unfold insertOrAssign insertOrAssignWith at failed
  split at failed
  · exact not_internal_of_fail failed (by decide)
  split at failed
  · next other grows => exact Except.error.inj failed ▸ valid.growIfNeeded_error grows
  · next grown grows =>
    -- The search runs on the table that the growth check left, which has a vacant slot.
    obtain ⟨index, searched, -⟩ := (valid.growIfNeeded_ok grows).1.valid.insertFrom_spec key
    simp only [searched] at failed
    exact insertAt_error failed

theorem Valid.reserve_error {count : Nat}
    (failed : table.reserve hash count = .error error) : error ∉ internalErrors := by
  rcases valid.reserve_cases count with ⟨after, run, -⟩ | ⟨other, run, overflow, -⟩
  · exact nomatch failed.symm.trans run
  · exact Except.error.inj (run.symm.trans failed) ▸ not_internal_of_overflow overflow

theorem Valid.prepareInsert_error
    (failed : (table.prepareInsert hash key (hash key)).2 = .error error) :
    error ∉ internalErrors := by
  revert failed
  fun_cases prepareInsert hash table key (hash key) with
  | case1 | case3 => exact fun failed => not_internal_of_fail failed (by decide)
  | case4 _ _ _ other grows =>
    exact fun failed => Except.error.inj failed ▸ valid.growIfNeeded_error grows
  | case5 _ _ _ grown grows _ other prepares =>
    exact fun failed => Except.error.inj failed ▸ prepareAllocate_error prepares
  | _ => rintro ⟨⟩

theorem Valid.prepareBatchInsert_error {entries bytes : Nat}
    (failed : (table.prepareBatchInsert hash entries bytes).2 = .error error) :
    error ∉ internalErrors := by
  revert failed
  fun_cases prepareBatchInsert hash table entries bytes with
  | case1 => exact fun failed => not_internal_of_fail failed (by decide)
  | case2 _ other reserves => exact fun failed => Except.error.inj failed ▸ valid.reserve_error reserves
  | case3 _ reserved reserves other prepares =>
    exact fun failed => Except.error.inj failed ▸ prepareAllocate_error prepares
  | case4 => rintro ⟨⟩

theorem Valid.perform_error {operation : IndexOperation}
    (reported : (table.perform hash operation).2.error? = some error) : error ∉ internalErrors := by
  have status {answer : Status} (given : (IndexAnswer.prepared answer).error? = some error) :
      answer = .error error := by
    cases answer with
    | error other => exact congrArg Except.error (Option.some.inj given)
    | ok => cases given
  cases operation with
  | insertOrAssign key ref =>
    cases answer : (table.insertOrAssign hash key (hash key) ref).2 with
    | error other =>
      simp only [perform, answer] at reported
      exact Option.some.inj reported ▸ valid.insertOrAssign_error answer
    | ok outcome =>
      simp only [perform, answer] at reported
      cases reported
  | reserve count =>
    cases answer : table.reserve hash count with
    | error other =>
      simp only [perform, answer] at reported
      exact Option.some.inj reported ▸ valid.reserve_error answer
    | ok after =>
      simp only [perform, answer] at reported
      cases reported
  | prepareInsert key => exact valid.prepareInsert_error (status reported)
  | prepareBatchInsert entries bytes => exact valid.prepareBatchInsert_error (status reported)
  | erase key | find key | eraseNoCompact key => cases reported

/-! ## Structure -/

theorem Valid.growIfNeeded_twice :
    (table.growIfNeeded (rehash hash rehashDepth) >>= growIfNeeded (rehash hash rehashDepth)) =
      table.growIfNeeded (rehash hash rehashDepth) := by
  rcases valid.growIfNeeded_spec 1 with ⟨grown, run, preserved, settled⟩ | ⟨run, -⟩
  · rw [rehashDepth, run]
    exact preserved.valid.growIfNeeded_settled settled _
  · rw [rehashDepth, run]
    rfl

omit valid in
/-- In every reachable table the capacity is eight times a power of two, the
counters count the control bytes, at least one slot is empty, every full control
byte is the fingerprint of its key, no operation meets an internal error, and the
growth check is idempotent. -/
theorem run_structure (hash : Key → UInt64) (seed : UInt64) (operations : List IndexOperation) :
    let table := (run hash seed operations).table
    (∃ doublings, table.capacity = 8 * 2 ^ doublings) ∧
      table.control.length = table.capacity ∧
      table.control.countP isFull = table.size ∧
      table.control.count kSwissDeleted = table.deletedCount ∧
      table.size + table.deletedCount ≤ table.capacity - table.capacity / 8 ∧
      kSwissEmpty ∈ table.control ∧
      (∀ index, isFull (table.controlAt index) → table.controlAt index =
        h2 (table.mixHash (hash (table.slotKey (table.slotAt index))))) ∧
      (∀ operation error, (table.perform hash operation).2.error? = some error →
        error ∉ internalErrors) ∧
      (table.growIfNeeded (rehash hash rehashDepth) >>= growIfNeeded (rehash hash rehashDepth)) =
        table.growIfNeeded (rehash hash rehashDepth) := by
  intro table
  have valid : table.Valid hash := (represents_run hash seed operations).valid
  obtain ⟨doublings, -, capacity⟩ := valid.capacity
  obtain ⟨index, inside, empty⟩ := valid.exists_empty
  refine ⟨⟨doublings, capacity.trans (Nat.mul_comm _ _)⟩, valid.control, valid.size, valid.deleted,
    valid.occupancy, ?_, fun index full => (valid.full index full).fingerprint,
    fun operation error reported => valid.perform_error reported, valid.growIfNeeded_twice⟩
  rw [← valid.control] at inside
  rw [controlAt, List.getD_eq_getElem _ _ inside] at empty
  exact empty ▸ List.getElem_mem inside

/-! ## Arena accounting -/

variable {after : SwissTableIndex}

theorem Valid.rehash_preserved {newCapacity : Nat} {forceSameCapacity : Bool}
    (success : rehash hash rehashDepth table newCapacity forceSameCapacity = .ok after) :
    Preserved hash table after := by
  cases target : normalizeCapacity newCapacity with
  | error error =>
    rw [rehashDepth, rehash, target] at success
    cases success
  | ok normalized =>
    by_cases same : normalized = table.capacity ∧ ¬ forceSameCapacity
    · rw [rehashDepth, rehash, target] at success
      dsimp only at success
      rw [if_pos same] at success
      rw [← Except.ok.inj success]
      exact .refl valid
    · by_cases holds : table.size ≤ normalized - normalized / 8
      · obtain ⟨rebuilt, run, preserved, -⟩ := valid.rehash_spec 1 target same holds
        rw [← Except.ok.inj (run.symm.trans success)]
        exact preserved
      · rw [rehashDepth, rehash, target] at success
        dsimp only at success
        rw [if_neg same, if_pos (by omega)] at success
        cases success

omit valid in
theorem maybeCompactHeapKeys_dead (success : table.maybeCompactHeapKeys = .ok after) :
    after.heapDeadBytes < max after.heapLiveBytes kHeapArenaCompactDeadThreshold := by
  have positive : 0 < kHeapArenaCompactDeadThreshold := by decide
  revert success
  fun_cases maybeCompactHeapKeys table with
  | case4 =>
    fun_cases compactHeapKeys table with
    | case3 =>
      rintro ⟨⟩
      dsimp only
      omega
    | _ => nofun
  | case2 =>
    rintro ⟨⟩
    dsimp only
    omega
  | _ =>
    rintro ⟨⟩
    omega

theorem Preserved.mem_entries (preserved : Preserved hash table after) (entry : Key × RecordRef) :
    entry ∈ after.entries ↔ entry ∈ table.entries := by
  rw [valid.mem_entries, preserved.valid.mem_entries, preserved.binds]

theorem Valid.live_eq :
    table.heapLiveBytes = (List.zipWith (fun control slot =>
      if holdsHeapKey control slot then (table.slotKey slot).length else 0)
      table.control table.slots).sum := by
  rw [← valid.live, liveHeapBytes]
  congr 1
  rw [← List.map_uncurry_zip_eq_zipWith, ← List.map_uncurry_zip_eq_zipWith]
  refine List.map_congr_left fun pair member => ?_
  simp only [Function.uncurry, heapKeyBytes]
  split
  · next heap =>
    simp only [holdsHeapKey, Bool.and_eq_true] at heap
    rw [(valid.slotValid_of_mem pair member heap.1.1).length]
  · rfl

end Valid

/-- In every reachable table the arena holds the live and the dead key bytes, the
live ones are those of the live arena-held keys, compaction and rebuilding keep
every key, and an erasure leaves fewer dead bytes than live ones or the threshold. -/
theorem run_arena_accounted (hash : Key → UInt64) (seed : UInt64)
    (operations : List IndexOperation) :
    let table := (run hash seed operations).table
    table.heapKeys.allocatedBytes = table.heapLiveBytes + table.heapDeadBytes ∧
      table.heapLiveBytes = (List.zipWith (fun control slot =>
        if holdsHeapKey control slot then (table.slotKey slot).length else 0)
        table.control table.slots).sum ∧
      (∃ after, table.compactHeapKeys = .ok after ∧
        ∀ entry, entry ∈ after.entries ↔ entry ∈ table.entries) ∧
      (∀ newCapacity forceSameCapacity after,
        rehash hash rehashDepth table newCapacity forceSameCapacity = .ok after →
          ∀ entry, entry ∈ after.entries ↔ entry ∈ table.entries) ∧
      ∀ key, (table.erase key (hash key)).2.previous.isSome →
        (table.erase key (hash key)).1.heapDeadBytes <
          max (table.erase key (hash key)).1.heapLiveBytes 65536 := by
  intro table
  have valid : table.Valid hash := (represents_run hash seed operations).valid
  refine ⟨valid.accounted.symm, valid.live_eq, ?_, fun newCapacity force after rebuilt =>
    (valid.rehash_preserved rebuilt).mem_entries valid, fun key found => ?_⟩
  · obtain ⟨after, run, preserved⟩ := valid.compactHeapKeys_spec
    exact ⟨after, run, preserved.mem_entries valid⟩
  · have erased := valid.eraseNoCompact_spec key
    unfold erase at found ⊢
    generalize table.eraseNoCompact key (hash key) = result at erased found ⊢
    obtain ⟨after, outcome⟩ := result
    dsimp only at erased found ⊢
    obtain ⟨compacted, run, -⟩ := erased.valid.maybeCompactHeapKeys_spec
    by_cases previous : outcome.previous.isSome
    · rw [if_pos previous, run]
      exact maybeCompactHeapKeys_dead run
    · rw [if_neg previous] at found
      exact absurd found previous

end SwissTableIndex

end GlifiStore
