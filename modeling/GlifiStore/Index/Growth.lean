import GlifiStore.Index.Rebuild

/-!
# Growth

Capacity normalisation, the rebuild loop, and the operations that may rebuild
the table: each keeps every binding, and an insertion afterwards finds room.
-/

namespace GlifiStore

open ByteLayout OpenAddressing

namespace SwissTableIndex

variable {hash : Key → UInt64} {table : SwissTableIndex}
variable {doublings minimum normalized : Nat} {key : Key}

/-! ## Capacities -/

private theorem capacity_doubled :
    2 ^ doublings * kSwissGroupSize * 2 = 2 ^ (doublings + 1) * kSwissGroupSize := by
  rw [Nat.pow_succ, Nat.mul_right_comm]

private theorem capacity_le_half :
    ¬ 2 ^ doublings * kSwissGroupSize > kSizeMax / 2 ↔ doublings < 60 := by
  have half : kSizeMax / 2 = 2 ^ 63 - 1 := by decide
  rw [half]
  constructor
  · intro small
    apply Classical.byContradiction
    intro large
    have power : 2 ^ 60 ≤ 2 ^ doublings := Nat.pow_le_pow_right (by decide) (Nat.le_of_not_lt large)
    simp only [kSwissGroupSize] at small
    omega
  · intro small
    have power : 2 ^ doublings ≤ 2 ^ 59 := Nat.pow_le_pow_right (by decide) (by omega)
    simp only [kSwissGroupSize]
    omega

variable {fuel : Nat}

private theorem normalizeCapacityFrom_sound (low : doublings ≤ 60)
    (success : normalizeCapacityFrom minimum fuel (2 ^ doublings * kSwissGroupSize) =
      .ok normalized) :
    ∃ final ≤ 60, normalized = 2 ^ final * kSwissGroupSize ∧ minimum ≤ normalized ∧
      ∀ below, doublings ≤ below → below < final → 2 ^ below * kSwissGroupSize < minimum := by
  induction fuel generalizing doublings with
  | zero => simp [normalizeCapacityFrom, fail] at success
  | succ fuel ih =>
    rw [normalizeCapacityFrom] at success
    split at success
    · next less =>
      split at success
      · simp [fail] at success
      · next inRange =>
        rw [capacity_doubled] at success
        have strict : doublings < 60 := capacity_le_half.mp inRange
        obtain ⟨final, top, value, enough, minimal⟩ := ih (by omega) success
        refine ⟨final, top, value, enough, ?_⟩
        intro below lower upper
        by_cases first : below = doublings
        · rw [first]
          exact less
        · exact minimal below (by omega) upper
    · next reached =>
      obtain rfl := Except.ok.inj success
      exact ⟨doublings, low, rfl, Nat.le_of_not_lt reached, fun below lower upper => by omega⟩

private theorem normalizeCapacityFrom_complete {target : Nat} (order : doublings ≤ target)
    (top : target ≤ 60) (fuelled : target - doublings < fuel)
    (enough : minimum ≤ 2 ^ target * kSwissGroupSize) :
    ∃ normalized, normalizeCapacityFrom minimum fuel (2 ^ doublings * kSwissGroupSize) =
      .ok normalized := by
  induction fuel generalizing doublings with
  | zero => omega
  | succ fuel ih =>
    rw [normalizeCapacityFrom]
    split
    · next less =>
      have strict : doublings < target := by
        rcases Nat.lt_or_eq_of_le order with strict | same
        · exact strict
        · rw [same] at less
          omega
      rw [if_neg (capacity_le_half.mpr (by omega))]
      rw [capacity_doubled]
      exact ih (by omega) (by omega)
    · exact ⟨_, rfl⟩

theorem normalizeCapacity_sound (success : normalizeCapacity minimum = .ok normalized) :
    ∃ doublings ≤ 60, normalized = 2 ^ doublings * kSwissGroupSize ∧ minimum ≤ normalized := by
  obtain ⟨final, top, value, enough, -⟩ :=
    normalizeCapacityFrom_sound (Nat.zero_le 60)
      (by rw [Nat.pow_zero, Nat.one_mul]; exact success)
  exact ⟨final, top, value, enough⟩

theorem normalizeCapacity_eq_ok (fits : minimum ≤ 2 ^ 63) :
    ∃ normalized, normalizeCapacity minimum = .ok normalized := by
  have run := normalizeCapacityFrom_complete (Nat.zero_le 60) (Nat.le_refl 60)
    (show 60 - 0 < 62 by decide) fits
  rw [Nat.pow_zero, Nat.one_mul] at run
  exact run

theorem normalizeCapacity_error {error : Error}
    (failed : normalizeCapacity minimum = .error error) : error.code = .arithmeticOverflow := by
  have loop (fuel capacity : Nat)
      (failed : normalizeCapacityFrom minimum fuel capacity = .error error) :
      error.code = .arithmeticOverflow := by
    fun_induction normalizeCapacityFrom minimum fuel capacity with
    | case1 | case2 => rw [← Except.error.inj failed]
    | case3 _ _ _ _ ih => exact ih failed
    | case4 => exact nomatch failed
  exact loop _ _ failed

theorem normalizeCapacity_self (top : doublings ≤ 60) :
    normalizeCapacity (2 ^ doublings * kSwissGroupSize) = .ok (2 ^ doublings * kSwissGroupSize) := by
  have start : normalizeCapacityFrom (2 ^ doublings * kSwissGroupSize) 62 (2 ^ 0 * kSwissGroupSize) =
      normalizeCapacity (2 ^ doublings * kSwissGroupSize) := by
    rw [Nat.pow_zero, Nat.one_mul, normalizeCapacity]
  obtain ⟨normalized, success⟩ := normalizeCapacityFrom_complete (Nat.zero_le doublings) top
    (show doublings - 0 < 62 by omega) (Nat.le_refl (2 ^ doublings * kSwissGroupSize))
  obtain ⟨final, -, value, enough, minimal⟩ :=
    normalizeCapacityFrom_sound (Nat.zero_le 60) success
  rw [start] at success
  rw [success, value]
  have least : final ≤ doublings := by
    apply Classical.byContradiction
    intro above
    exact Nat.lt_irrefl _ (minimal doublings (Nat.zero_le _) (Nat.lt_of_not_le above))
  have greatest : doublings ≤ final := by
    apply Classical.byContradiction
    intro below
    have power : 2 ^ final < 2 ^ doublings :=
      Nat.pow_lt_pow_right (by decide) (Nat.lt_of_not_le below)
    rw [value] at enough
    simp only [kSwissGroupSize] at enough
    omega
  rw [Nat.le_antisymm least greatest]

/-! ## Inserting without growth -/

structure Settled (table : SwissTableIndex) : Prop where
  tombstones : table.tombstoneRebuildBeneficial = false
  room : table.effectiveOccupancy < table.maximumOccupancy

theorem settled_of_clean (clean : table.deletedCount = 0)
    (room : table.size < table.maximumOccupancy) : table.Settled :=
  ⟨by simp [tombstoneRebuildBeneficial, clean], by simpa [effectiveOccupancy, clean] using room⟩

theorem Valid.nonzero (valid : table.Valid hash) : ¬ table.capacity = 0 := by
  have positive := valid.capacity_pos
  simp only [kSwissGroupSize] at positive
  omega

theorem Valid.counters (valid : table.Valid hash) :
    ¬ (table.size > table.capacity ∨ table.deletedCount > table.capacity - table.size) := by
  have occupancy := valid.occupancy
  simp only [effectiveOccupancy, maximumOccupancy] at occupancy
  omega

theorem Valid.growIfNeeded_settled (valid : table.Valid hash) (settled : table.Settled)
    (rehash : SwissTableIndex → Nat → Bool → Result SwissTableIndex) :
    table.growIfNeeded rehash = .ok table := by
  rw [growIfNeeded, if_neg valid.nonzero, if_neg valid.counters,
    if_neg (by simp [settled.tombstones]), if_pos settled.room]

theorem Valid.insertFrom_spec (valid : table.Valid hash) (key : Key) :
    ∃ index, table.insertFrom key (hash key) (h2 (table.mixHash (hash key))) none
        (table.capacity / kSwissGroupSize) (table.probeStart (table.mixHash (hash key))) =
          .ok index ∧
      place table.cellAt key none (table.probePath hash key) = some index := by
  obtain ⟨empty, inside, holds⟩ := valid.exists_empty
  have found : (place table.cellAt key none (table.probePath hash key)).isSome :=
    place_isSome (valid.mem_probePath key inside) (cellAt_eq_vacant.mpr holds) none
  obtain ⟨index, placed⟩ := Option.isSome_iff_exists.mp found
  refine ⟨index, ?_, placed⟩
  rw [insertFrom_place valid.searchable _ _ (valid.groupStart _)]
  simp only [probePath] at placed
  rw [placed]

variable {grown : SwissTableIndex}

theorem Valid.insertOrAssignWith_spec
    {rehash : SwissTableIndex → Nat → Bool → Result SwissTableIndex}
    (small : key.length < kInlineKeyMask) (growth : table.growIfNeeded rehash = .ok grown)
    (valid : grown.Valid hash) (room : grown.effectiveOccupancy < grown.maximumOccupancy)
    (ref : RecordRef) :
    (∃ after outcome, table.insertOrAssignWith rehash key (hash key) ref = (after, .ok outcome) ∧
      Stored hash grown key ref after outcome) ∨
    (∃ after error, table.insertOrAssignWith rehash key (hash key) ref = (after, .error error) ∧
      Preserved hash grown after ∧ kUInt32Max < grown.heapKeys.bump + heapLength key) := by
  obtain ⟨index, searched, placed⟩ := valid.insertFrom_spec key
  have run : table.insertOrAssignWith rehash key (hash key) ref =
      grown.insertAt key (hash key) ref index := by
    rw [insertOrAssignWith, if_neg (Nat.not_le.mpr small), growth]
    simp only [searched]
  rw [run]
  exact valid.insertAt_spec room small placed ref

/-! ## Rebuilding -/

def entriesHeapLength (entries : List (Key × RecordRef)) : Nat :=
  (entries.map fun entry => heapLength entry.1).sum

@[simp]
theorem entriesHeapLength_nil : entriesHeapLength [] = 0 := rfl

@[simp]
theorem entriesHeapLength_cons (key : Key) (ref : RecordRef) (rest : List (Key × RecordRef)) :
    entriesHeapLength ((key, ref) :: rest) = heapLength key + entriesHeapLength rest := by
  simp [entriesHeapLength]

variable (hash) in
/-- A table under rebuilding: valid, without tombstones or dead arena bytes. -/
structure Fresh (table : SwissTableIndex) : Prop where
  valid : table.Valid hash
  deletedCount : table.deletedCount = 0
  dead : table.heapDeadBytes = 0

variable (hash) in
theorem emptyWith_fresh (seed : UInt64) (top : doublings ≤ 60) {arena : KeyArena}
    (arenaValid : arena.Valid) (unused : arena.bump = 0) :
    Fresh hash (emptyWith seed (2 ^ doublings * kSwissGroupSize) arena) ∧
      ∀ key ref, ¬ Binds (emptyWith seed (2 ^ doublings * kSwissGroupSize) arena).cellAt key ref := by
  have control (index : Nat) :
      (emptyWith seed (2 ^ doublings * kSwissGroupSize) arena).controlAt index = kSwissEmpty := by
    simp only [controlAt, emptyWith, List.getD_eq_getElem?_getD, List.getElem?_replicate]
    split <;> rfl
  have cells : (emptyWith seed (2 ^ doublings * kSwissGroupSize) arena).cellAt =
      fun _ => Cell.vacant := by
    funext index
    exact cellAt_eq_vacant.mpr (control index)
  refine ⟨⟨?_, rfl, rfl⟩, ?_⟩
  · constructor
    · exact ⟨doublings, top, rfl⟩
    · simp [emptyWith]
    · simp [emptyWith]
    · simp [emptyWith, List.countP_replicate, isFull]
    · simp [emptyWith, List.count_replicate, Ne.symm kSwissDeleted_ne_empty]
    · exact Nat.zero_le _
    · intro index full
      rw [control] at full
      exact absurd rfl (isFull_iff.mp full).1
    · rw [cells]
      exact Probed.vacant _
    · exact arenaValid
    · have weights : List.zipWith heapKeyBytes
          (List.replicate (2 ^ doublings * kSwissGroupSize) kSwissEmpty)
          (List.replicate (2 ^ doublings * kSwissGroupSize) {}) =
          List.replicate (2 ^ doublings * kSwissGroupSize) 0 := by
        rw [List.zipWith_replicate, Nat.min_self]
        rfl
      simp [liveHeapBytes, emptyWith, weights]
    · exact unused.symm
  · rw [cells]
    rintro key ref ⟨index, holds⟩
    simp at holds

variable (hash) in
structure Extended (table : SwissTableIndex) (key : Key) (ref : RecordRef)
    (after : SwissTableIndex) : Prop where
  fresh : Fresh hash after
  seed : after.seed = table.seed
  capacity : after.capacity = table.capacity
  size : after.size = table.size + 1
  bump : after.heapKeys.bump = table.heapKeys.bump + heapLength key
  binds : ∀ other payload, Binds after.cellAt other payload ↔
    (other = key ∧ payload = ref) ∨ Binds table.cellAt other payload

variable {after : SwissTableIndex}

theorem Extended.maximumOccupancy {ref : RecordRef} (extended : Extended hash table key ref after) :
    after.maximumOccupancy = table.maximumOccupancy := by
  simp only [SwissTableIndex.maximumOccupancy, extended.capacity]

theorem Fresh.insert_spec (fresh : Fresh hash table) (small : key.length < kInlineKeyMask)
    (absent : ∀ ref, ¬ Binds table.cellAt key ref) (room : table.size < table.maximumOccupancy)
    (rehash : SwissTableIndex → Nat → Bool → Result SwissTableIndex) (ref : RecordRef) :
    (∃ after outcome, table.insertOrAssignWith rehash key (hash key) ref = (after, .ok outcome) ∧
      outcome.inserted = true ∧ Extended hash table key ref after) ∨
    (∃ after error, table.insertOrAssignWith rehash key (hash key) ref = (after, .error error) ∧
      kUInt32Max < table.heapKeys.bump + heapLength key) := by
  have settled := settled_of_clean fresh.deletedCount room
  have growth := fresh.valid.growIfNeeded_settled settled rehash
  have missing : table.find key (hash key) = none := (fresh.valid.find_eq_none _).mpr absent
  rcases Valid.insertOrAssignWith_spec small growth fresh.valid settled.room ref with
    ⟨after, outcome, run, stored⟩ | ⟨after, error, run, -, overflow⟩
  · have inserted : outcome.inserted = true := by simp [stored.inserted, missing]
    have size := stored.size
    have bump := stored.bump
    rw [inserted, if_pos rfl] at size bump
    refine .inl ⟨after, outcome, run, inserted, ?_, stored.seed, stored.capacity, size, bump, ?_⟩
    · exact ⟨stored.valid, Nat.le_zero.mp (fresh.deletedCount ▸ stored.deletedCount),
        stored.dead.trans fresh.dead⟩
    · intro other payload
      rw [stored.binds]
      constructor
      · exact Or.imp_right And.right
      · rintro (same | earlier)
        · exact .inl same
        · refine .inr ⟨?_, earlier⟩
          rintro rfl
          exact absent payload earlier
  · exact .inr ⟨after, error, run, overflow⟩

theorem rebuildFrom_spec (rehash : SwissTableIndex → Nat → Bool → Result SwissTableIndex)
    (controls : Bytes) (slots : List Slot) {rebuilt : SwissTableIndex}
    (fresh : Fresh hash rebuilt)
    (distinct : ((table.entriesFrom controls slots).map Prod.fst).Nodup)
    (absent : ∀ entry ∈ table.entriesFrom controls slots, ∀ ref,
      ¬ Binds rebuilt.cellAt entry.1 ref)
    (small : ∀ entry ∈ table.entriesFrom controls slots, entry.1.length < kInlineKeyMask)
    (room : rebuilt.size + (table.entriesFrom controls slots).length ≤ rebuilt.maximumOccupancy)
    (fits : rebuilt.heapKeys.bump + entriesHeapLength (table.entriesFrom controls slots) ≤
      kUInt32Max) :
    ∃ final, rebuildFrom hash rehash table rebuilt controls slots = .ok final ∧
      Fresh hash final ∧ final.seed = rebuilt.seed ∧ final.capacity = rebuilt.capacity ∧
      final.size = rebuilt.size + (table.entriesFrom controls slots).length ∧
      final.heapKeys.bump =
        rebuilt.heapKeys.bump + entriesHeapLength (table.entriesFrom controls slots) ∧
      ∀ key ref, Binds final.cellAt key ref ↔
        Binds rebuilt.cellAt key ref ∨ (key, ref) ∈ table.entriesFrom controls slots := by
  induction controls generalizing slots rebuilt with
  | nil =>
    refine ⟨rebuilt, ?_, fresh, rfl, rfl, ?_, ?_, ?_⟩
    · rw [rebuildFrom.eq_def]
    · simp [entriesFrom]
    · simp [entriesFrom, entriesHeapLength]
    · simp [entriesFrom]
  | cons control controls ih =>
    cases slots with
    | nil =>
      refine ⟨rebuilt, ?_, fresh, rfl, rfl, ?_, ?_, ?_⟩
      · rw [rebuildFrom.eq_def]
      · simp [entriesFrom]
      · simp [entriesFrom, entriesHeapLength]
      · simp [entriesFrom]
    | cons slot slots =>
      by_cases full : isFull control
      · have entries : table.entriesFrom (control :: controls) (slot :: slots) =
            (table.slotKey slot, slot.ref) :: table.entriesFrom controls slots := by
          simp [entriesFrom, full]
        rw [entries] at distinct absent small room fits ⊢
        rw [entriesHeapLength_cons] at fits ⊢
        rw [List.length_cons] at room ⊢
        rw [List.map_cons, List.nodup_cons] at distinct
        have keySmall : (table.slotKey slot).length < kInlineKeyMask :=
          small (table.slotKey slot, slot.ref) List.mem_cons_self
        have keyAbsent : ∀ ref, ¬ Binds rebuilt.cellAt (table.slotKey slot) ref :=
          absent (table.slotKey slot, slot.ref) List.mem_cons_self
        rcases fresh.insert_spec keySmall keyAbsent (by omega) rehash slot.ref with
          ⟨next, outcome, run, inserted, extended⟩ | ⟨next, error, run, overflow⟩
        · have nextSize := extended.size
          have nextBump := extended.bump
          obtain ⟨final, runRest, finalFresh, seed, capacity, size, bump, binds⟩ :=
            ih slots extended.fresh distinct.2
              (by
                intro entry member ref bound
                rcases (extended.binds entry.1 ref).mp bound with ⟨same, -⟩ | earlier
                · exact distinct.1 (List.mem_map.mpr ⟨entry, member, same⟩)
                · exact absent entry (List.mem_cons_of_mem _ member) ref earlier)
              (fun entry member => small entry (List.mem_cons_of_mem _ member))
              (by rw [extended.maximumOccupancy, nextSize]; omega)
              (by rw [nextBump]; omega)
          refine ⟨final, ?_, finalFresh, seed.trans extended.seed,
            capacity.trans extended.capacity, by rw [size, nextSize]; omega,
            by rw [bump, nextBump]; omega, ?_⟩
          · rw [rebuildFrom, if_pos full]
            simp only [run, inserted, if_true]
            exact runRest
          · intro key ref
            rw [binds, extended.binds, List.mem_cons, Prod.mk.injEq]
            tauto
        · omega
      · have entries : table.entriesFrom (control :: controls) (slot :: slots) =
            table.entriesFrom controls slots := by
          simp [entriesFrom, full]
        rw [entries] at distinct absent small room fits ⊢
        rw [rebuildFrom, if_neg full]
        exact ih slots fresh distinct absent small room fits

section Valid

variable (valid : table.Valid hash)
include valid

theorem Valid.entry_small : ∀ entry ∈ table.entries, entry.1.length < kInlineKeyMask := by
  rintro ⟨key, ref⟩ member
  obtain ⟨index, holds⟩ := (valid.mem_entries key ref).mp member
  obtain ⟨full, rfl, -⟩ := cellAt_eq_occupied.mp holds
  have slotValid := valid.full index full
  rw [slotValid.length]
  exact slotValid.small

/-- A rebuild to a capacity that holds the live keys succeeds, keeps every
binding and leaves neither tombstones nor dead arena bytes. -/
theorem Valid.rehash_spec (depth : Nat) {newCapacity : Nat}
    {forceSameCapacity : Bool} (target : normalizeCapacity newCapacity = .ok normalized)
    (rebuilds : ¬ (normalized = table.capacity ∧ ¬ forceSameCapacity))
    (holds : table.size ≤ normalized - normalized / 8) :
    ∃ after, rehash hash (depth + 1) table newCapacity forceSameCapacity = .ok after ∧
      Preserved hash table after ∧ after.capacity = normalized ∧ after.deletedCount = 0 := by
  obtain ⟨doublings, top, value, -⟩ := normalizeCapacity_sound target
  have account := valid.accounted
  have bound := valid.arena.bound
  have liveFits : table.heapLiveBytes ≤ kUInt32Max := by omega
  obtain ⟨reserved, reserveOk⟩ := KeyArena.reserve_eq_ok {} liveFits
  have reservedSame := KeyArena.reserve_storage reserveOk
  have reservedValid := KeyArena.valid_empty.of_storage reservedSame
  have unused : reserved.bump = 0 := reservedSame.2
  obtain ⟨fresh, vacant⟩ := emptyWith_fresh hash table.seed top reservedValid unused
  rw [← value] at fresh vacant
  have liveSum : entriesHeapLength (table.entriesFrom table.control table.slots) =
      table.heapLiveBytes := by
    rw [entriesHeapLength, ← liveHeapBytes_eq table valid.slotValid_of_mem, valid.live]
  have count : (table.entriesFrom table.control table.slots).length = table.size :=
    valid.length_entries
  obtain ⟨final, run, finalFresh, seed, capacity, size, bump, binds⟩ :=
    rebuildFrom_spec (rehash hash depth) table.control table.slots fresh valid.nodup_entries
      (fun entry _ ref => vacant entry.1 ref) valid.entry_small
      (by
        rw [count]
        simp only [emptyWith, maximumOccupancy, Nat.zero_add]
        exact holds)
      (by
        rw [liveSum]
        simp only [emptyWith, unused, Nat.zero_add]
        exact liveFits)
  have finalSize : final.size = table.size := by
    rw [size, count]
    simp [emptyWith]
  have finalBump : final.heapKeys.bump = table.heapLiveBytes := by
    rw [bump, liveSum]
    simp [emptyWith, unused]
  have same : ({ table with
      capacity := normalized
      size := final.size
      deletedCount := 0
      heapLiveBytes := final.heapLiveBytes
      heapDeadBytes := 0
      control := final.control
      slots := final.slots
      heapKeys := final.heapKeys } : SwissTableIndex) = final :=
    SwissTableIndex.ext seed.symm rfl finalFresh.deletedCount.symm capacity.symm rfl
      finalFresh.dead.symm rfl rfl rfl
  refine ⟨final, ?_, ⟨finalFresh.valid, seed, finalSize, by rw [finalBump]; omega, ?_⟩, capacity,
    finalFresh.deletedCount⟩
  · rw [rehash, target]
    simp only
    rw [if_neg rebuilds, if_neg (Nat.not_lt.mpr holds), reserveOk]
    simp only [run, same]
  · intro key ref
    rw [binds, ← valid.mem_entries]
    constructor
    · rintro (earlier | member)
      · exact absurd earlier (vacant key ref)
      · exact member
    · exact .inr

/-! ## The operations that may rebuild -/

theorem Valid.rehash_same (depth : Nat) :
    ∃ after, rehash hash (depth + 1) table table.capacity true = .ok after ∧
      Preserved hash table after ∧ after.capacity = table.capacity ∧ after.deletedCount = 0 := by
  obtain ⟨doublings, top, value⟩ := valid.capacity
  have occupancy := valid.occupancy
  have normal : normalizeCapacity table.capacity = .ok table.capacity := by
    rw [value]
    exact normalizeCapacity_self top
  refine valid.rehash_spec depth normal (by simp) ?_
  simp only [effectiveOccupancy, maximumOccupancy] at occupancy
  omega

theorem Valid.growIfNeeded_spec (depth : Nat) :
    (∃ grown, table.growIfNeeded (rehash hash (depth + 1)) = .ok grown ∧
      Preserved hash table grown ∧ grown.Settled) ∨
    (table.growIfNeeded (rehash hash (depth + 1)) =
      fail .arithmeticOverflow "swiss table growth overflow" ∧ table.capacity > kSizeMax / 2) := by
  have positive := valid.capacity_pos
  have occupancy := valid.occupancy
  -- A rebuilt table is settled when its live keys are below the maximum.
  have rebuilt {after : SwissTableIndex} {capacity : Nat} (preserved : Preserved hash table after)
      (same : after.capacity = capacity) (clean : after.deletedCount = 0)
      (room : table.size < capacity - capacity / 8) : after.Settled :=
    settled_of_clean clean (by rwa [preserved.size, maximumOccupancy, same])
  simp only [effectiveOccupancy, maximumOccupancy, kSwissGroupSize] at occupancy positive
  rw [growIfNeeded, if_neg valid.nonzero, if_neg valid.counters]
  split
  · next tombstones =>
    left
    obtain ⟨after, run, preserved, capacity, clean⟩ := valid.rehash_same depth
    refine ⟨after, run, preserved, rebuilt preserved capacity clean ?_⟩
    simp only [tombstoneRebuildBeneficial, Bool.and_eq_true, decide_eq_true_eq] at tombstones
    omega
  · next kept =>
    split
    · next room => exact .inl ⟨table, rfl, .refl valid, by simpa using kept, room⟩
    · next full =>
      split
      · next reclaim =>
        left
        obtain ⟨after, run, preserved, capacity, clean⟩ := valid.rehash_same depth
        exact ⟨after, run, preserved, rebuilt preserved capacity clean reclaim.1⟩
      · split
        · next large => exact .inr ⟨rfl, large⟩
        · next doubles =>
          left
          obtain ⟨doublings, top, value⟩ := valid.capacity
          have normal : normalizeCapacity (table.capacity * 2) = .ok (table.capacity * 2) := by
            rw [value] at doubles ⊢
            rw [capacity_doubled]
            exact normalizeCapacity_self (capacity_le_half.mp doubles)
          have rebuilds : ¬ (table.capacity * 2 = table.capacity ∧ ¬ (false = true)) := by
            omega
          obtain ⟨after, run, preserved, capacity, clean⟩ :=
            valid.rehash_spec depth normal rebuilds (by omega)
          exact ⟨after, run, preserved, rebuilt preserved capacity clean (by omega)⟩

theorem Valid.growIfNeeded_ok (grows : table.growIfNeeded (rehash hash rehashDepth) = .ok grown) :
    Preserved hash table grown ∧ grown.Settled := by
  rcases valid.growIfNeeded_spec 1 with ⟨other, run, kept⟩ | ⟨run, -⟩
  · rw [← Except.ok.inj (run.symm.trans grows)]
    exact kept
  · exact nomatch run.symm.trans grows

structure WithinLimits (table : SwissTableIndex) (key : Key) : Prop where
  small : key.length < kInlineKeyMask
  doubles : table.capacity ≤ kSizeMax / 2
  arena : table.heapKeys.bump + heapLength key ≤ kUInt32Max

theorem Valid.insertOrAssign_spec (key : Key) (ref : RecordRef) :
    (∃ after outcome, table.insertOrAssign hash key (hash key) ref = (after, .ok outcome) ∧
      Assigned hash table key ref after outcome) ∨
    (∃ after error, table.insertOrAssign hash key (hash key) ref = (after, .error error) ∧
      Preserved hash table after ∧ ¬ table.WithinLimits key) := by
  rw [insertOrAssign, rehashDepth]
  by_cases small : key.length < kInlineKeyMask
  · rcases valid.growIfNeeded_spec 1 with ⟨grown, growth, preserved, settled⟩ | ⟨failed, large⟩
    · rcases Valid.insertOrAssignWith_spec small growth preserved.valid settled.room ref with
        ⟨after, outcome, run, stored⟩ | ⟨after, error, run, unchanged, overflow⟩
      · left
        have sameFind := preserved.find_eq valid key
        refine ⟨after, outcome, run, stored.valid, stored.seed.trans preserved.seed, ?_, ?_, ?_, ?_⟩
        · intro other payload
          rw [stored.binds, preserved.binds]
        · rw [stored.previous, sameFind]
        · rw [stored.inserted, sameFind]
        · rw [stored.size, preserved.size]
      · right
        refine ⟨after, error, run, preserved.trans unchanged, ?_⟩
        intro limits
        have arena := limits.arena
        have bump := preserved.bump
        omega
    · right
      refine ⟨table, ⟨.arithmeticOverflow, "swiss table growth overflow"⟩, ?_, .refl valid,
        fun limits => ?_⟩
      · rw [insertOrAssignWith, if_neg (Nat.not_le.mpr small), failed]
        rfl
      · exact absurd limits.doubles (Nat.not_le.mpr large)
  · right
    refine ⟨table, ⟨.invalidArgument, "index key exceeds supported size"⟩, ?_, .refl valid,
      fun limits => small limits.small⟩
    rw [insertOrAssignWith, if_pos (Nat.le_of_not_lt small)]
    rfl

/-- Room for some more keys: without tombstones to reclaim, they fit below the maximum. -/
def HasRoom (table : SwissTableIndex) (additional : Nat) : Prop :=
  table.effectiveOccupancy + additional ≤ table.maximumOccupancy ∧
    table.tombstoneRebuildBeneficial = false

theorem Valid.reserve_cases (count : Nat) :
    (∃ after, table.reserve hash count = .ok after ∧ Preserved hash table after ∧
      after.deletedCount ≤ table.deletedCount ∧
      (table.size < count → after.HasRoom (count - table.size))) ∨
    ∃ error, table.reserve hash count = .error error ∧ error.code = .arithmeticOverflow ∧
      2 ^ 62 < count := by
  have positive := valid.capacity_pos
  have occupancy := valid.occupancy
  have extra : reserveExtra count ≤ count ∧ count ≤ 7 * reserveExtra count := by
    simp only [reserveExtra]
    split <;> omega
  have rebuilt {after : SwissTableIndex} {capacity : Nat} (preserved : Preserved hash table after)
      (same : after.capacity = capacity) (clean : after.deletedCount = 0) (more : table.size < count)
      (enough : count + reserveExtra count ≤ capacity) : after.HasRoom (count - table.size) := by
    refine ⟨?_, by simp [tombstoneRebuildBeneficial, clean]⟩
    simp only [effectiveOccupancy, maximumOccupancy, same, clean, preserved.size]
    omega
  rw [reserve, if_neg valid.counters]
  dsimp only
  simp only [effectiveOccupancy, maximumOccupancy] at occupancy
  by_cases overflow : reserveExtra count > kSizeMax - count
  · rw [if_pos overflow]
    simp only [kSizeMax] at overflow
    exact .inr ⟨_, rfl, rfl, by omega⟩
  rw [if_neg overflow]
  cases normal : normalizeCapacity (max (count + reserveExtra count) kSwissGroupSize) with
  | error error =>
    refine .inr ⟨error, rfl, normalizeCapacity_error normal, Nat.lt_of_not_le fun small => ?_⟩
    obtain ⟨needed, accepted⟩ := normalizeCapacity_eq_ok
      (show max (count + reserveExtra count) kSwissGroupSize ≤ 2 ^ 63 by
        simp only [kSwissGroupSize]
        omega)
    cases normal.symm.trans accepted
  | ok needed =>
    obtain ⟨doublings, top, value, enough⟩ := normalizeCapacity_sound normal
    dsimp only
    rw [if_neg valid.nonzero]
    left
    by_cases larger : needed > table.capacity
    · have self : normalizeCapacity needed = .ok needed := by
        rw [value]
        exact normalizeCapacity_self top
      have rebuilds : ¬ (needed = table.capacity ∧ ¬ (false = true)) := by omega
      obtain ⟨after, run, preserved, capacity, clean⟩ := valid.rehash_spec 1 self rebuilds (by omega)
      rw [if_pos larger]
      exact ⟨after, run, preserved, by omega,
        fun more => rebuilt preserved capacity clean more (by omega)⟩
    rw [if_neg larger]
    by_cases more : count > table.size
    · rw [if_pos more]
      split
      · obtain ⟨after, run, preserved, capacity, clean⟩ := valid.rehash_same 1
        exact ⟨after, run, preserved, by omega,
          fun more => rebuilt preserved capacity clean more (by omega)⟩
      · next room =>
        simp only [not_or, effectiveOccupancy, maximumOccupancy] at room
        refine ⟨table, rfl, .refl valid, Nat.le_refl _, fun _ => ⟨?_, by simpa using room.2⟩⟩
        simp only [effectiveOccupancy, maximumOccupancy]
        omega
    · rw [if_neg more]
      exact ⟨table, rfl, .refl valid, Nat.le_refl _, fun other => absurd other more⟩

variable {count : Nat}

theorem Valid.reserve_spec (success : table.reserve hash count = .ok after) :
    Preserved hash table after := by
  rcases valid.reserve_cases count with ⟨other, run, preserved, -⟩ | ⟨error, run, -⟩
  · rw [Except.ok.inj (success.symm.trans run)]
    exact preserved
  · exact nomatch success.symm.trans run

omit valid in
theorem Fresh.reserve_spec (fresh : Fresh hash table) (unused : table.heapKeys.bump = 0)
    (empty : table.size = 0) (small : count ≤ 2 ^ 62) :
    ∃ after, table.reserve hash count = .ok after ∧ Fresh hash after ∧
      Preserved hash table after ∧ after.heapKeys.bump = 0 ∧ count ≤ after.maximumOccupancy := by
  rcases fresh.valid.reserve_cases count with
    ⟨after, run, preserved, deleted, room⟩ | ⟨error, run, -, large⟩
  · have bump := preserved.bump
    have account := preserved.valid.accounted
    have clean := fresh.deletedCount
    refine ⟨after, run, ⟨preserved.valid, by omega, by omega⟩, preserved, by omega, ?_⟩
    by_cases some : table.size < count
    · have enough := (room some).1
      simp only [effectiveOccupancy] at enough
      omega
    · omega
  · omega

theorem Valid.prepareAllocate_spec {size : Nat} {prepared : KeyArena}
    (success : table.heapKeys.prepareAllocate size = .ok prepared) :
    Preserved hash table { table with heapKeys := prepared } := by
  obtain ⟨storage, bump⟩ := KeyArena.prepareAllocate_storage success
  have keeps : Keeps table.heapKeys prepared :=
    ⟨Nat.le_of_eq bump.symm, fun offset count _ => KeyArena.data_congr storage offset count⟩
  refine valid.reslot rfl rfl rfl rfl rfl rfl ?_ (valid.arena.of_storage ⟨storage, bump⟩)
    valid.live ?_ (Nat.le_of_eq bump)
  · intro index full
    have slotValid := valid.full index full
    exact ⟨slotValid.transfer keeps rfl, slotValid.slotKey_eq keeps, rfl⟩
  · change table.heapLiveBytes + table.heapDeadBytes = prepared.bump
    rw [bump]
    exact valid.accounted

theorem Valid.prepareInsert_spec (key : Key) :
    Preserved hash table (table.prepareInsert hash key (hash key)).1 := by
  fun_cases prepareInsert hash table key (hash key) with
  | case1 | case2 | case3 | case4 => exact .refl valid
  | case5 _ _ _ grown grows | case7 _ _ _ grown grows => exact (valid.growIfNeeded_ok grows).1
  | case6 _ _ _ grown grows _ prepared success =>
    have preserved := (valid.growIfNeeded_ok grows).1
    exact preserved.trans (preserved.valid.prepareAllocate_spec success)

theorem Valid.prepareBatchInsert_spec (entries bytes : Nat) :
    Preserved hash table (table.prepareBatchInsert hash entries bytes).1 := by
  fun_cases prepareBatchInsert hash table entries bytes with
  | case1 | case2 => exact .refl valid
  | case3 _ reserved success => exact valid.reserve_spec success
  | case4 _ reserved success prepared allocated =>
    have preserved := valid.reserve_spec success
    exact preserved.trans (preserved.valid.prepareAllocate_spec allocated)

theorem Valid.erase_spec (key : Key) :
    Erased hash table key (table.erase key (hash key)).1 (table.erase key (hash key)).2 := by
  have erased := valid.eraseNoCompact_spec key
  unfold erase
  generalize table.eraseNoCompact key (hash key) = result at erased ⊢
  obtain ⟨after, outcome⟩ := result
  simp only at erased ⊢
  split
  · obtain ⟨compacted, run, preserved⟩ := erased.valid.maybeCompactHeapKeys_spec
    rw [run]
    refine ⟨preserved.valid, preserved.seed.trans erased.seed, ?_, erased.previous, erased.inserted⟩
    intro other payload
    rw [preserved.binds, erased.binds]
  · exact erased

end Valid

end SwissTableIndex

end GlifiStore
