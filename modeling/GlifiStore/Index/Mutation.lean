import GlifiStore.Index.Invariant

/-!
# Storing and erasing one key

The slot writes of `insert_or_assign`, the tombstone of `erase` and the two
forms of heap-key compaction, each with what it does to the bindings of a valid
table.
-/

namespace GlifiStore

open ByteLayout OpenAddressing SwissTableIndex

namespace SwissTableIndex

variable {hash : Key → UInt64} {table : SwissTableIndex} {index : Nat} {key : Key}
  {ref : RecordRef}

def heapLength (key : Key) : Nat :=
  if key.length ≤ kSwissInlineKeyBytes then 0 else key.length

variable (hash) in
/-- A key was bound to a reference: inserted, or assigned over its previous
reference. -/
structure Assigned (table : SwissTableIndex) (key : Key) (ref : RecordRef)
    (after : SwissTableIndex) (outcome : IndexMutationResult) : Prop where
  valid : after.Valid hash
  seed : after.seed = table.seed
  binds : ∀ other payload, Binds after.cellAt other payload ↔
    (other = key ∧ payload = ref) ∨ (other ≠ key ∧ Binds table.cellAt other payload)
  previous : outcome.previous = table.find key (hash key)
  inserted : outcome.inserted = (table.find key (hash key)).isNone
  size : after.size = table.size + if outcome.inserted then 1 else 0

variable (hash) in
/-- The same by a write to one slot, with the counters and the arena it leaves. -/
structure Stored (table : SwissTableIndex) (key : Key) (ref : RecordRef)
    (after : SwissTableIndex) (outcome : IndexMutationResult) : Prop
    extends Assigned hash table key ref after outcome where
  capacity : after.capacity = table.capacity
  deletedCount : after.deletedCount ≤ table.deletedCount
  dead : after.heapDeadBytes = table.heapDeadBytes
  bump : after.heapKeys.bump =
    table.heapKeys.bump + if outcome.inserted then heapLength key else 0
  reserved : after.heapKeys.capacity = max table.heapKeys.capacity
    (if outcome.inserted ∧ 0 < heapLength key then table.heapKeys.bump + heapLength key else 0)

/-! ## Replacing one slot -/

theorem Valid.setSlot_replaces (valid : table.Valid hash) (inside : index < table.capacity)
    (slot : Slot) :
    Replaces table (table.setSlot index slot) index (table.controlAt index) slot := by
  refine ⟨inside, rfl, rfl, ?_, rfl, Keeps.refl _⟩
  simp [setSlot, controlAt, valid.lt_control inside]

theorem Valid.assign (valid : table.Valid hash) {old : RecordRef}
    (holds : table.cellAt index = .occupied key old) (ref : RecordRef) :
    Stored hash table key ref (table.setSlot index ((table.slotAt index).withRef ref))
      { inserted := false, previous := some old } := by
  obtain ⟨full, stored, same⟩ := cellAt_eq_occupied.mp holds
  have replaces := valid.setSlot_replaces (lt_capacity_of_full valid.control full)
    ((table.slotAt index).withRef ref)
  have cells : (table.setSlot index ((table.slotAt index).withRef ref)).cellAt =
      Function.update table.cellAt index (.occupied key ref) := by
    rw [replaces.cellAt valid, cellOf_full full, ← stored]
    rfl
  have found : table.find key (hash key) = some old := (valid.find_iff key old).mpr ⟨index, holds⟩
  constructor
  · constructor
    · refine valid.replace replaces valid.size valid.deleted valid.occupancy ?_ ?_ valid.arena rfl
        valid.accounted
      · intro _
        have slotValid := valid.full index full
        exact ⟨slotValid.fingerprint, slotValid.tag, slotValid.length, slotValid.inline,
          slotValid.heap, slotValid.small⟩
      · rw [← replaces.cellAt valid, cells]
        exact valid.probed.assign holds ref
    · rfl
    · intro other payload
      rw [cells]
      exact (valid.probed.owned holds).binds_occupied ref other payload
    · exact found.symm
    · simp [found]
    · rfl
  · rfl
  · exact Nat.le_refl _
  · rfl
  · rfl
  · simp [setSlot]

theorem Valid.reset_cellAt (valid : table.Valid hash)
    (notFull : ¬ isFull (table.controlAt index)) (inside : index < table.capacity) :
    (table.setSlot index {}).cellAt = table.cellAt := by
  rw [(valid.setSlot_replaces inside {}).cellAt valid, Function.update_eq_self_iff]
  rw [isFull_iff, not_and_not_right] at notFull
  unfold cellOf cellAt
  split
  · rfl
  · next empty => rw [if_pos (notFull empty), if_pos (notFull empty)]

theorem Valid.reset (valid : table.Valid hash) (notFull : ¬ isFull (table.controlAt index))
    (inside : index < table.capacity) : (table.setSlot index {}).Valid hash := by
  have replaces := valid.setSlot_replaces inside {}
  refine valid.replace replaces valid.size valid.deleted valid.occupancy
    (fun full => absurd full notFull) ?_ valid.arena ?_ valid.accounted
  · rw [← replaces.cellAt valid, valid.reset_cellAt notFull inside]
    exact valid.probed
  · rw [heapKeyBytes_of_not_full notFull, heapKeyBytes_of_not_full notFull]
    rfl

/-! ## Storing a new key -/

def inlineSlot (key : Key) (keyHash : UInt64) (ref : RecordRef) : Slot where
  ref := ref
  key := .inlineKey (blit (List.replicate kSwissInlineKeyBytes 0) 0 key)
  keyHashTag := keyHash.toUInt32
  keySize := key.length
  keyIsInline := true

def heapSlot (key : Key) (keyHash : UInt64) (ref : RecordRef) (offset : Nat) : Slot where
  ref := ref
  key := .heapKeyOffset offset
  keyHashTag := keyHash.toUInt32
  keySize := key.length
  keyIsInline := false

theorem insertAt_inline (valid : table.Valid hash) (notFull : ¬ isFull (table.controlAt index))
    (inside : index < table.capacity) (short : key.length ≤ kSwissInlineKeyBytes)
    (keyHash : UInt64) :
    table.insertAt key keyHash ref index =
      (table.storeAt index (h2 (table.mixHash keyHash)) (inlineSlot key keyHash ref)
          table.heapKeys,
        .ok { inserted := true, previous := none }) := by
  have inSlots := valid.lt_slots inside
  have small : ¬ key.length ≥ kInlineKeyMask := by
    simp only [kInlineKeyMask, kSwissInlineKeyBytes] at short ⊢
    omega
  have none : heapKeyBytes (h2 (table.mixHash keyHash)) (inlineSlot key keyHash ref) = 0 := by
    simp [heapKeyBytes, holdsHeapKey, inlineSlot]
  simp only [insertAt, if_pos notFull, setKey, if_neg small, if_pos short, storeAt, none,
    Nat.add_zero, setSlot, List.set_set]
  simp [slotAt, inSlots, inlineSlot, Slot.withRef]

theorem insertAt_heap (valid : table.Valid hash) (notFull : ¬ isFull (table.controlAt index))
    (inside : index < table.capacity) (long : kSwissInlineKeyBytes < key.length)
    (small : key.length < kInlineKeyMask)
    (fits : table.heapKeys.bump + key.length ≤ kUInt32Max) (keyHash : UInt64) :
    table.insertAt key keyHash ref index =
      (table.storeAt index (h2 (table.mixHash keyHash))
          (heapSlot key keyHash ref table.heapKeys.bump) (table.heapKeys.push key),
        .ok { inserted := true, previous := none }) := by
  have inSlots := valid.lt_slots inside
  have positive : 0 < key.length := Nat.zero_lt_of_lt long
  have weight : heapKeyBytes (h2 (table.mixHash keyHash))
      (heapSlot key keyHash ref table.heapKeys.bump) = key.length := by
    simp [heapKeyBytes, holdsHeapKey, heapSlot, h2_full, positive]
  simp only [insertAt, if_pos notFull, setKey, if_neg (Nat.not_le.mpr small),
    if_neg (Nat.not_le.mpr long), KeyArena.allocate_eq_ok valid.arena positive fits,
    KeyArena.length_data_allocated valid.arena fits,
    ne_eq, not_true_eq_false, if_false, storeAt, weight, List.set_set,
    KeyArena.write_allocated _ valid.arena]
  simp [slotAt, inSlots, heapSlot, Slot.withRef]

theorem insertAt_exhausted (notFull : ¬ isFull (table.controlAt index))
    (long : kSwissInlineKeyBytes < key.length) (small : key.length < kInlineKeyMask)
    (full : kUInt32Max < table.heapKeys.bump + key.length) (keyHash : UInt64)
    (ref : RecordRef) : ∃ error, table.insertAt key keyHash ref index = (table.setSlot index {}, .error error) := by
  have positive : 0 < key.length := Nat.zero_lt_of_lt long
  obtain ⟨error, failed⟩ := KeyArena.allocate_eq_error positive full
  refine ⟨error, ?_⟩
  simp only [insertAt, if_pos notFull, setKey, if_neg (Nat.not_le.mpr small),
    if_neg (Nat.not_le.mpr long), failed]

theorem inlineSlot_slotKey (table : SwissTableIndex) (key : Key) (keyHash : UInt64)
    (ref : RecordRef) : table.slotKey (inlineSlot key keyHash ref) = key := by
  by_cases empty : key.length = 0
  · have none : key = [] := List.length_eq_zero_iff.mp empty
    simp [slotKey, inlineSlot, none]
  · have sized : ¬ (inlineSlot key keyHash ref).keySize = 0 := empty
    rw [slotKey, if_neg sized, if_pos (by simp [inlineSlot])]
    simp [inlineSlot, KeyStorage.inlineBytes, blit]

theorem inlineSlot_valid (table : SwissTableIndex) (short : key.length ≤ kSwissInlineKeyBytes) :
    table.SlotValid hash (h2 (table.mixHash (hash key))) (inlineSlot key (hash key) ref) := by
  have own := inlineSlot_slotKey table key (hash key) ref
  refine ⟨by rw [own], by rw [own]; rfl, by rw [own]; rfl, fun _ => short, ?_, ?_⟩
  · intro heap
    simp [inlineSlot] at heap
  · exact Nat.lt_of_le_of_lt short (by decide)

theorem heapSlot_slotKey {arena : KeyArena} (arenaValid : arena.Valid)
    (fits : arena.bump + key.length ≤ kUInt32Max) (nonempty : key.length ≠ 0)
    (pushed : table.heapKeys = arena.push key) (keyHash : UInt64) (ref : RecordRef) :
    table.slotKey (heapSlot key keyHash ref arena.bump) = key := by
  have sized : ¬ (heapSlot key keyHash ref arena.bump).keySize = 0 := nonempty
  rw [slotKey, if_neg sized, if_neg (by simp [heapSlot]), pushed]
  exact KeyArena.data_push_new arenaValid fits

theorem heapSlot_valid {arena : KeyArena} (arenaValid : arena.Valid)
    (fits : arena.bump + key.length ≤ kUInt32Max) (long : kSwissInlineKeyBytes < key.length)
    (small : key.length < kInlineKeyMask) (pushed : table.heapKeys = arena.push key) :
    table.SlotValid hash (h2 (table.mixHash (hash key)))
      (heapSlot key (hash key) ref arena.bump) := by
  have nonempty : key.length ≠ 0 := Nat.ne_zero_of_lt long
  have own := heapSlot_slotKey arenaValid fits nonempty pushed (hash key) ref
  refine ⟨by rw [own], by rw [own]; rfl, by rw [own]; rfl, ?_, ?_, small⟩
  · intro inline
    simp [heapSlot] at inline
  · intro _
    exact ⟨long, by rw [pushed]; exact Nat.le_refl _⟩

theorem Valid.free_lt_capacity (valid : table.Valid hash)
    (free : Free (table.probePath hash) table.cellAt key index) : index < table.capacity := by
  obtain ⟨before, after, split, -⟩ := free.onPath
  have member : index ∈ table.probePath hash key := by simp [split]
  exact valid.lt_capacity_of_mem member

theorem Valid.stored_of_storeAt (valid : table.Valid hash)
    (free : Free (table.probePath hash) table.cellAt key index)
    (room : table.effectiveOccupancy < table.maximumOccupancy) {slot : Slot} {arena : KeyArena}
    (keeps : Keeps table.heapKeys arena) (arenaValid : arena.Valid)
    (slotValid : (table.storeAt index (h2 (table.mixHash (hash key))) slot arena).SlotValid hash
      (h2 (table.mixHash (hash key))) slot)
    (own : (table.storeAt index (h2 (table.mixHash (hash key))) slot arena).slotKey slot = key)
    (reference : slot.ref = ref)
    (weight : heapKeyBytes (h2 (table.mixHash (hash key))) slot = heapLength key)
    (bump : arena.bump = table.heapKeys.bump + heapLength key)
    (reserved : arena.capacity = max table.heapKeys.capacity
      (if 0 < heapLength key then table.heapKeys.bump + heapLength key else 0)) :
    Stored hash table key ref (table.storeAt index (h2 (table.mixHash (hash key))) slot arena)
      { inserted := true, previous := none } := by
  have inside := valid.free_lt_capacity free
  have notFull := Free.not_full free
  have full := h2_full (table.mixHash (hash key))
  generalize h2 (table.mixHash (hash key)) = control at *
  have replaces : Replaces table (table.storeAt index control slot arena) index control slot :=
    ⟨inside, rfl, rfl, rfl, rfl, keeps⟩
  have cells := replaces.cellAt valid
  rw [cellOf_full full, own, reference] at cells
  have absent : table.find key (hash key) = none :=
    (valid.find_eq_none key).mpr free.absent
  constructor
  · constructor
    · refine valid.replace replaces ?_ ?_ ?_ (fun _ => slotValid) ?_ arenaValid ?_ ?_
      · rw [replaces.control, valid.countP_set inside, valid.size, if_neg notFull, if_pos full]
        rfl
      · rw [replaces.control, List.count_eq_countP, valid.countP_set inside,
          ← List.count_eq_countP, valid.deleted]
        have notDeleted := (isFull_iff.mp full).2
        by_cases wasDeleted : table.controlAt index = kSwissDeleted <;>
          simp [storeAt, wasDeleted, notDeleted]
      · simp only [storeAt, effectiveOccupancy] at room ⊢
        split <;> omega
      · rw [← replaces.cellAt valid, cells]
        exact valid.probed.insert free ref
      · rw [heapKeyBytes_of_not_full notFull]
        exact Nat.add_zero _
      · have before := valid.accounted
        simp only [storeAt, bump, weight]
        omega
    · rfl
    · intro other payload
      rw [cells]
      exact free.owned.binds_occupied ref other payload
    · exact absent.symm
    · simp [absent]
    · rfl
  · rfl
  · simp only [storeAt]
    split <;> omega
  · rfl
  · exact bump
  · simpa [storeAt] using reserved

theorem Valid.insertAt_spec (valid : table.Valid hash)
    (room : table.effectiveOccupancy < table.maximumOccupancy)
    (small : key.length < kInlineKeyMask)
    (placed : place table.cellAt key none (table.probePath hash key) = some index)
    (ref : RecordRef) :
    (∃ after outcome, table.insertAt key (hash key) ref index = (after, .ok outcome) ∧
      Stored hash table key ref after outcome) ∨
    (∃ after error, table.insertAt key (hash key) ref index = (after, .error error) ∧
      Preserved hash table after ∧ kUInt32Max < table.heapKeys.bump + heapLength key) := by
  rcases valid.probed.place_spec placed with ⟨old, holds⟩ | free
  · left
    obtain ⟨full, stored, same⟩ := cellAt_eq_occupied.mp holds
    refine ⟨_, _, ?_, valid.assign holds ref⟩
    simp only [insertAt, full, not_true_eq_false, if_false, same]
  · have notFull := Free.not_full free
    have inside := valid.free_lt_capacity free
    by_cases short : key.length ≤ kSwissInlineKeyBytes
    · left
      have none : heapLength key = 0 := if_pos short
      refine ⟨_, _, insertAt_inline valid notFull inside short (hash key), ?_⟩
      refine valid.stored_of_storeAt free room (Keeps.refl _) valid.arena
        ?_ (inlineSlot_slotKey _ _ _ _) rfl ?_ (by rw [none, Nat.add_zero]) (by simp [none])
      · exact inlineSlot_valid _ short
      · rw [none]
        simp [heapKeyBytes, holdsHeapKey, inlineSlot]
    · have long : kSwissInlineKeyBytes < key.length := Nat.lt_of_not_le short
      have whole : heapLength key = key.length := if_neg short
      have positive : 0 < key.length := Nat.lt_of_le_of_lt (Nat.zero_le _) long
      by_cases fits : table.heapKeys.bump + key.length ≤ kUInt32Max
      · left
        refine ⟨_, _, insertAt_heap valid notFull inside long small fits (hash key), ?_⟩
        refine valid.stored_of_storeAt free room (Keeps.push valid.arena fits)
          (valid.arena.push fits) ?_ ?_ rfl ?_ (by rw [whole]; rfl)
          (by rw [whole, if_pos positive]; rfl)
        · exact heapSlot_valid valid.arena fits long small rfl
        · exact heapSlot_slotKey valid.arena fits (Nat.ne_of_gt positive) rfl _ _
        · rw [whole]
          simp [heapKeyBytes, holdsHeapKey, heapSlot, h2_full, positive]
      · right
        obtain ⟨error, failed⟩ :=
          insertAt_exhausted notFull long small (Nat.lt_of_not_le fits) (hash key) ref
        refine ⟨_, error, failed, ⟨valid.reset notFull inside, rfl, rfl, Nat.le_refl _, ?_⟩, ?_⟩
        · intro other payload
          rw [valid.reset_cellAt notFull inside]
        · rw [whole]
          exact Nat.lt_of_not_le fits

/-! ## Erasing a key -/

def erasedAt (table : SwissTableIndex) (index : Nat) : SwissTableIndex :=
  { table.clearSlot index with size := (table.clearSlot index).size - 1 }

theorem erasedAt_replaces (inside : index < table.capacity) :
    Replaces table (table.erasedAt index) index kSwissDeleted {} :=
  ⟨inside, rfl, rfl, rfl, rfl, Keeps.refl _⟩

theorem Valid.erasedAt (valid : table.Valid hash) (full : isFull (table.controlAt index)) :
    (table.erasedAt index).Valid hash := by
  have inside := lt_capacity_of_full valid.control full
  have replaces := erasedAt_replaces inside
  have before := valid.accounted
  have held : (if !(table.slotAt index).keyIsInline && decide ((table.slotAt index).keySize > 0)
      then (table.slotAt index).keySize else 0) =
      heapKeyBytes (table.controlAt index) (table.slotAt index) := by
    simp [heapKeyBytes, holdsHeapKey, full]
  have contained : heapKeyBytes (table.controlAt index) (table.slotAt index) ≤
      table.heapLiveBytes := by
    rw [← valid.live]
    exact le_sum_zipWith heapKeyBytes kSwissEmpty {} (valid.lt_control inside)
      (valid.lt_slots inside)
  have positive : 0 < table.size := by
    rw [← valid.size]
    exact List.countP_pos_iff.mpr ⟨_, valid.controlAt_mem inside, full⟩
  refine valid.replace replaces ?_ ?_ ?_ (absurd · (by decide)) ?_ valid.arena ?_ ?_
  · rw [replaces.control, valid.countP_set inside, valid.size, if_pos full]
    rfl
  · have different : table.controlAt index ≠ kSwissDeleted := (isFull_iff.mp full).2
    rw [replaces.control, List.count_eq_countP, valid.countP_set inside, ← List.count_eq_countP,
      valid.deleted]
    simp [SwissTableIndex.erasedAt, clearSlot, different]
  · have occupied := valid.occupancy
    simp only [effectiveOccupancy, SwissTableIndex.erasedAt, clearSlot] at occupied ⊢
    omega
  · exact valid.probed.erase index
  · simp only [SwissTableIndex.erasedAt, clearSlot, held]
    exact Nat.sub_add_cancel contained
  · simp only [SwissTableIndex.erasedAt, clearSlot, held]
    omega

variable (hash) in
structure Erased (table : SwissTableIndex) (key : Key) (after : SwissTableIndex)
    (outcome : IndexMutationResult) : Prop where
  valid : after.Valid hash
  seed : after.seed = table.seed
  binds : ∀ other payload, Binds after.cellAt other payload ↔
    other ≠ key ∧ Binds table.cellAt other payload
  previous : outcome.previous = table.find key (hash key)
  inserted : outcome.inserted = false

theorem Valid.eraseNoCompact_spec (valid : table.Valid hash) (key : Key) :
    Erased hash table key (table.eraseNoCompact key (hash key)).1
      (table.eraseNoCompact key (hash key)).2 := by
  unfold eraseNoCompact
  split
  · next missing =>
    have absent : table.find key (hash key) = none := by simp [find, missing]
    refine ⟨valid, rfl, ?_, absent.symm, rfl⟩
    intro other payload
    constructor
    · intro bound
      refine ⟨?_, bound⟩
      rintro rfl
      exact (valid.find_eq_none other).mp absent payload bound
    · exact fun both => both.2
  · next index found =>
    have holds := (valid.findSlotIndex_iff key index).mp found
    obtain ⟨full, -, -⟩ := cellAt_eq_occupied.mp holds
    have inside := lt_capacity_of_full valid.control full
    refine ⟨valid.erasedAt full, rfl, ?_, ?_, rfl⟩
    · intro other payload
      have cells := (erasedAt_replaces inside).cellAt valid
      simp only [SwissTableIndex.erasedAt] at cells
      rw [cells]
      exact valid.probed.binds_erase holds other payload
    · simp [find, found]

end SwissTableIndex

end GlifiStore
