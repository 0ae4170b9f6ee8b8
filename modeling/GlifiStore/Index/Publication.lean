import GlifiStore.Index.Structure

/-!
# Publication after preparation

`prepare_insert` returns at once for a key that is present, while
`insert_or_assign` checks for growth before it looks for the key. A prepared
publication is in place exactly when the key was absent or the table was below its
growth thresholds.
-/

namespace GlifiStore

namespace SwissTableIndex

variable {hash : Key → UInt64} {table : SwissTableIndex} {key : Key} {ref : RecordRef}

variable (hash) in
/-- `insert_or_assign` succeeds whatever a rebuild would return, so it makes none,
and neither the table nor the storage of the arena grows. -/
def PublishesInPlace (table : SwissTableIndex) (key : Key) (ref : RecordRef) : Prop :=
  ∃ after outcome,
    (∀ rehash, table.insertOrAssignWith rehash key (hash key) ref = (after, .ok outcome)) ∧
      after.capacity = table.capacity ∧ after.heapKeys.capacity = table.heapKeys.capacity

structure ArenaReady (arena : KeyArena) (key : Key) : Prop where
  offset : arena.bump + heapLength key ≤ kUInt32Max
  storage : 0 < heapLength key → arena.bump + heapLength key ≤ arena.capacity

theorem growIfNeeded_unsettled (valid : table.Valid hash) (unsettled : ¬ table.Settled) :
    ∃ error, table.growIfNeeded (fun _ _ _ => fail .internalError "") = .error error := by
  rw [growIfNeeded, if_neg valid.nonzero, if_neg valid.counters]
  split
  · exact ⟨_, rfl⟩
  · next tombstones =>
    rw [if_neg fun room => unsettled ⟨by simpa using tombstones, room⟩]
    split
    · exact ⟨_, rfl⟩
    · split <;> exact ⟨_, rfl⟩

theorem Valid.publishesInPlace_iff (valid : table.Valid hash) (small : key.length < kInlineKeyMask)
    (ready : table.find key (hash key) = none → ArenaReady table.heapKeys key) :
    PublishesInPlace hash table key ref ↔ table.Settled := by
  constructor
  · rintro ⟨after, outcome, inserts, -, -⟩
    by_contra unsettled
    obtain ⟨error, fails⟩ := growIfNeeded_unsettled valid unsettled
    have result := inserts fun _ _ _ => fail .internalError ""
    rw [insertOrAssignWith, if_neg (Nat.not_le.mpr small), fails] at result
    cases result
  · intro settled
    obtain ⟨index, searched, placed⟩ := valid.insertFrom_spec key
    have inserts (rehash : SwissTableIndex → Nat → Bool → Result SwissTableIndex) :
        table.insertOrAssignWith rehash key (hash key) ref =
          table.insertAt key (hash key) ref index := by
      rw [insertOrAssignWith, if_neg (Nat.not_le.mpr small), valid.growIfNeeded_settled settled]
      simp only [searched]
    rcases valid.insertAt_spec settled.room small placed ref with
      ⟨after, outcome, run, stored⟩ | ⟨after, error, run, -, overflow⟩
    · refine ⟨after, outcome, fun rehash => (inserts rehash).trans run, stored.capacity, ?_⟩
      rw [stored.reserved]
      split
      · next added =>
        have absent : table.find key (hash key) = none := by
          simpa [stored.inserted] using added.1
        exact Nat.max_eq_left ((ready absent).storage added.2)
      · exact Nat.max_eq_left (Nat.zero_le _)
    · -- A key that is present is assigned without the arena.
      rcases valid.probed.place_spec placed with ⟨old, holds⟩ | free
      · obtain ⟨full, -, -⟩ := cellAt_eq_occupied.mp holds
        simp only [insertAt, full, not_true_eq_false, if_false] at run
        cases run
      · have offset := (ready ((valid.find_eq_none key).mpr free.absent)).offset
        omega

theorem arenaReady_of_prepareAllocate {arena prepared : KeyArena} (valid : arena.Valid)
    (long : kSwissInlineKeyBytes < key.length)
    (success : arena.prepareAllocate key.length = .ok prepared) : ArenaReady prepared key := by
  have whole : heapLength key = key.length := if_neg (Nat.not_le.mpr long)
  have length := valid.length
  unfold KeyArena.prepareAllocate at success
  split at success
  · exact nomatch success
  next needed added =>
  rw [← Except.ok.inj (guard_eq_ok.mp added).2, KeyArena.reserve, guard_eq_ok,
    if_pos (by omega)] at success
  rw [← Except.ok.inj success.2]
  refine ⟨?_, fun _ => ?_⟩ <;> simp only [whole] <;> omega

theorem Valid.prepareInsert_absent (valid : table.Valid hash)
    (absent : table.find key (hash key) = none)
    (success : (table.prepareInsert hash key (hash key)).2 = .ok ()) :
    (table.prepareInsert hash key (hash key)).1.Settled ∧
      ArenaReady (table.prepareInsert hash key (hash key)).1.heapKeys key := by
  have missing : ¬ (table.findSlotIndex key (hash key)).isSome = true := by
    rw [find, Option.map_eq_none_iff] at absent
    simp [absent]
  revert success
  fun_cases prepareInsert hash table key (hash key) with
  | case2 _ found => exact absurd found missing
  | case6 _ _ _ grown grows long prepared prepares =>
    intro _
    obtain ⟨preserved, settled⟩ := valid.growIfNeeded_ok grows
    exact ⟨⟨settled.tombstones, settled.room⟩,
      arenaReady_of_prepareAllocate preserved.valid.arena long prepares⟩
  | case7 _ _ _ grown grows short =>
    intro _
    obtain ⟨preserved, settled⟩ := valid.growIfNeeded_ok grows
    have none : heapLength key = 0 := if_pos (Nat.le_of_not_lt short)
    refine ⟨settled, ?_, fun some => absurd none (Nat.ne_of_gt some)⟩
    rw [none]
    exact preserved.valid.arena.bound
  | _ => rintro ⟨⟩

/-- A prepared publication is in place exactly when the key was absent or the table
was below its growth thresholds. -/
theorem prepareInsert_publishes_iff (hash : Key → UInt64) (seed : UInt64)
    (operations : List IndexOperation) (key : Key) (ref : RecordRef)
    (success : ((run hash seed operations).table.prepareInsert hash key (hash key)).2 = .ok ()) :
    let table := (run hash seed operations).table
    PublishesInPlace hash (table.prepareInsert hash key (hash key)).1 key ref ↔
      table.find key (hash key) = none ∨ table.Settled := by
  intro table
  have valid : table.Valid hash := (represents_run hash seed operations).valid
  have preserved := valid.prepareInsert_spec key
  have small : key.length < kInlineKeyMask := by
    by_contra large
    have refused : (table.prepareInsert hash key (hash key)).2 = .ok () := success
    rw [prepareInsert, if_pos (Nat.le_of_not_lt large)] at refused
    cases refused
  cases found : table.find key (hash key) with
  | none =>
    have prepared := valid.prepareInsert_absent found success
    rw [preserved.valid.publishesInPlace_iff small fun _ => prepared.2]
    exact ⟨fun _ => .inl rfl, fun _ => prepared.1⟩
  | some old =>
    have present : (table.findSlotIndex key (hash key)).isSome = true := by
      rw [find, Option.map_eq_some_iff] at found
      obtain ⟨index, searched, -⟩ := found
      rw [searched]
      rfl
    have unchanged : table.prepareInsert hash key (hash key) = (table, .ok ()) := by
      rw [prepareInsert, if_neg (Nat.not_le.mpr small), if_pos present]
    rw [unchanged, valid.publishesInPlace_iff small fun absent => by
      cases found.symm.trans absent]
    simp

def sevenInserts : List IndexOperation :=
  [0, 1, 2, 3, 4, 5, 6].map fun byte => .insertOrAssign [byte] default

/-- A key that is present in a table one insertion below the threshold. -/
theorem prepareInsert_publishes_present :
    let table := (run (fun _ => 0) 0 sevenInserts.dropLast).table
    table.find [0] 0 = some default ∧ (table.prepareInsert (fun _ => 0) [0] 0).2 = .ok () ∧
      PublishesInPlace (fun _ => 0) (table.prepareInsert (fun _ => 0) [0] 0).1 [0] default := by
  have prepares : ((run (fun _ => 0) 0 sevenInserts.dropLast).table.prepareInsert (fun _ => 0)
      [0] 0).2 = .ok () := by
    decide +kernel
  refine ⟨by decide +kernel, prepares, ?_⟩
  refine (prepareInsert_publishes_iff (fun _ => 0) 0 sevenInserts.dropLast [0] default
    prepares).mpr (.inr ?_)
  exact ⟨by decide +kernel, by decide +kernel⟩

theorem present_key_grows :
    let prepared := (run (fun _ => 0) 0 sevenInserts).table.prepareInsert (fun _ => 0) [0] 0
    prepared.2 = .ok () ∧ prepared.1.capacity = 8 ∧
      (prepared.1.insertOrAssign (fun _ => 0) [0] 0 default).1.capacity = 16 := by
  decide +kernel

end SwissTableIndex

end GlifiStore
