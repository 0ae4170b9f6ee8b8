import GlifiStore.Index.Mutation

/-!
# Heap-key compaction and rebuilding

Compaction moves the arena-held keys of the live slots to a fresh arena;
rebuilding inserts every live key into a fresh table. Both keep all bindings.
-/

namespace GlifiStore

open ByteLayout OpenAddressing KeyArena

namespace SwissTableIndex

variable {hash : Key → UInt64} {table : SwissTableIndex}
variable {slot : Slot} {control : UInt8} {controls : Bytes} {source final : KeyArena}
  {slots : List Slot}

/-! ## Entries -/

def entryOf (table : SwissTableIndex) (control : UInt8) (slot : Slot) : Option (Key × RecordRef) :=
  if isFull control then some (table.slotKey slot, slot.ref) else none

theorem entriesFrom_eq (table : SwissTableIndex) (controls : Bytes) (slots : List Slot) :
    table.entriesFrom controls slots =
      (controls.zip slots).filterMap fun pair => table.entryOf pair.1 pair.2 := by
  induction controls generalizing slots with
  | nil => simp [entriesFrom]
  | cons control controls ih =>
    cases slots with
    | nil => simp [entriesFrom]
    | cons slot slots =>
      rw [entriesFrom, List.zip_cons_cons, ih]
      by_cases full : isFull control <;> simp [full, entryOf]

section Valid

variable (valid : table.Valid hash)
include valid

theorem Valid.length_zip : (table.control.zip table.slots).length = table.capacity := by
  simp [valid.control, valid.slots]

theorem Valid.getElem_zip {index : Nat} (inside : index < (table.control.zip table.slots).length) :
    (table.control.zip table.slots)[index] = (table.controlAt index, table.slotAt index) := by
  rw [valid.length_zip] at inside
  rw [List.getElem_zip]
  simp [controlAt, slotAt, valid.control, valid.slots, inside]

theorem Valid.mem_zip :
    (control, slot) ∈ table.control.zip table.slots ↔
      ∃ index < table.capacity, table.controlAt index = control ∧ table.slotAt index = slot := by
  constructor
  · intro member
    obtain ⟨index, inside, holds⟩ := List.getElem_of_mem member
    rw [valid.getElem_zip] at holds
    exact ⟨index, valid.length_zip ▸ inside, Prod.mk.inj holds⟩
  · rintro ⟨index, inside, rfl, rfl⟩
    rw [← valid.length_zip] at inside
    exact valid.getElem_zip inside ▸ List.getElem_mem inside

theorem Valid.slotValid_of_mem :
    ∀ pair ∈ table.control.zip table.slots, isFull pair.1 →
      table.SlotValid hash pair.1 pair.2 := by
  rintro ⟨control, slot⟩ member full
  obtain ⟨index, -, rfl, rfl⟩ := valid.mem_zip.mp member
  exact valid.full index full

theorem Valid.mem_entries (key : Key) (ref : RecordRef) :
    (key, ref) ∈ table.entries ↔ Binds table.cellAt key ref := by
  rw [entries, entriesFrom_eq, List.mem_filterMap]
  constructor
  · rintro ⟨⟨control, slot⟩, member, entry⟩
    obtain ⟨index, -, rfl, rfl⟩ := valid.mem_zip.mp member
    simp only [entryOf] at entry
    split at entry
    · next full =>
      obtain ⟨rfl, rfl⟩ := Prod.mk.inj (Option.some.inj entry)
      exact ⟨index, cellAt_of_full full⟩
    · simp at entry
  · rintro ⟨index, holds⟩
    obtain ⟨full, rfl, rfl⟩ := cellAt_eq_occupied.mp holds
    have inside := lt_capacity_of_full valid.control full
    refine ⟨(table.controlAt index, table.slotAt index), ?_, ?_⟩
    · exact valid.mem_zip.mpr ⟨index, inside, rfl, rfl⟩
    · simp [entryOf, full]

omit valid in
theorem entriesFrom_length (table : SwissTableIndex) (lengths : controls.length = slots.length) :
    (table.entriesFrom controls slots).length = controls.countP isFull := by
  induction controls generalizing slots with
  | nil => simp [entriesFrom]
  | cons control controls ih =>
    cases slots with
    | nil => simp at lengths
    | cons slot slots =>
      have step : (table.entriesFrom controls slots).length = _ := ih (by simpa using lengths)
      by_cases full : isFull control <;> simp [entriesFrom, full, step]

theorem Valid.length_entries : table.entries.length = table.size := by
  rw [entries, entriesFrom_length table (by rw [valid.control, valid.slots]), valid.size]

theorem Valid.nodup_entries : (table.entries.map Prod.fst).Nodup := by
  rw [entries, entriesFrom_eq, List.map_filterMap]
  refine List.pairwise_filterMap.mpr (List.pairwise_iff_getElem.mpr ?_)
  intro first second inFirst inSecond before key atFirst other atSecond same
  have bound (index : Nat) (stored : Key) (entry : Option.map Prod.fst
      (table.entryOf (table.controlAt index) (table.slotAt index)) = some stored) :
      ∃ ref, table.cellAt index = .occupied stored ref := by
    simp only [entryOf] at entry
    split at entry
    · next full =>
      obtain rfl : table.slotKey (table.slotAt index) = stored := by simpa using entry
      exact ⟨_, cellAt_of_full full⟩
    · simp at entry
  rw [valid.getElem_zip] at atFirst atSecond
  obtain ⟨_, left⟩ := bound first key atFirst
  obtain ⟨_, right⟩ := bound second other atSecond
  subst same
  exact absurd (valid.probed.unique left right) (Nat.ne_of_lt before)

end Valid

theorem SlotValid.heapKeyBytes_eq_heapLength (full : isFull control)
    (valid : table.SlotValid hash control slot) :
    heapKeyBytes control slot = heapLength (table.slotKey slot) := by
  rw [valid.heapKeyBytes_eq full, heapLength, valid.length]
  by_cases inline : slot.keyIsInline
  · rw [if_pos inline, if_pos (valid.inline inline)]
  · rw [if_neg inline, if_neg]
    exact Nat.not_le.mpr (valid.heap (by simpa using inline)).1

theorem liveHeapBytes_eq (table : SwissTableIndex)
    (valid : ∀ pair ∈ controls.zip slots, isFull pair.1 → table.SlotValid hash pair.1 pair.2) :
    liveHeapBytes controls slots =
      ((table.entriesFrom controls slots).map fun entry => heapLength entry.1).sum := by
  induction controls generalizing slots with
  | nil => simp [liveHeapBytes, entriesFrom]
  | cons control controls ih =>
    cases slots with
    | nil => simp [liveHeapBytes, entriesFrom]
    | cons slot slots =>
      have step : liveHeapBytes controls slots = _ :=
        ih fun pair member => valid pair (by simp [member])
      simp only [liveHeapBytes] at step
      rw [liveHeapBytes, List.zipWith_cons_cons, List.sum_cons, step, entriesFrom]
      by_cases full : isFull control
      · rw [if_pos full, (valid (control, slot) (by simp) full).heapKeyBytes_eq_heapLength full,
          List.map_cons, List.sum_cons]
      · rw [if_neg full, heapKeyBytes_of_not_full full, Nat.zero_add]

/-! ## Heap-key compaction -/

variable {after : SwissTableIndex}

theorem Valid.reslot (valid : table.Valid hash) (seed : after.seed = table.seed)
    (size : after.size = table.size) (deleted : after.deletedCount = table.deletedCount)
    (capacity : after.capacity = table.capacity) (control : after.control = table.control)
    (slots : after.slots.length = table.slots.length)
    (full : ∀ index, isFull (table.controlAt index) →
      after.SlotValid hash (table.controlAt index) (after.slotAt index) ∧
      after.slotKey (after.slotAt index) = table.slotKey (table.slotAt index) ∧
      (after.slotAt index).ref = (table.slotAt index).ref) (arena : after.heapKeys.Valid)
    (live : liveHeapBytes table.control after.slots = after.heapLiveBytes)
    (accounted : after.heapLiveBytes + after.heapDeadBytes = after.heapKeys.bump)
    (bump : after.heapKeys.bump ≤ table.heapKeys.bump) : Preserved hash table after := by
  have sameControl (index : Nat) : after.controlAt index = table.controlAt index := by
    rw [controlAt, control]
    rfl
  have cells : after.cellAt = table.cellAt := by
    funext index
    by_cases holds : isFull (table.controlAt index)
    · rw [cellAt_of_full holds, cellAt_of_full (by rw [sameControl]; exact holds),
        (full index holds).2.1, (full index holds).2.2]
    · unfold cellAt
      rw [sameControl]
      rw [isFull_iff] at holds
      split
      · rfl
      · split
        · rfl
        · next notEmpty notDeleted => exact absurd ⟨notEmpty, notDeleted⟩ holds
  have path : after.probePath hash = table.probePath hash := by
    funext key
    simp only [probePath, SwissTableIndex.probeStart, capacity, mixHash_congr seed]
  refine ⟨?_, seed, size, bump, fun key ref => by rw [cells]⟩
  constructor
  · rw [capacity]
    exact valid.capacity
  · rw [control, capacity]
    exact valid.control
  · rw [slots, capacity]
    exact valid.slots
  · rw [control, size]
    exact valid.size
  · rw [control, deleted]
    exact valid.deleted
  · simpa [effectiveOccupancy, maximumOccupancy, size, deleted, capacity] using valid.occupancy
  · intro index holds
    rw [sameControl] at holds ⊢
    exact (full index holds).1
  · rw [cells, path]
    exact valid.probed
  · exact arena
  · rw [control]
    exact live
  · exact accounted

/-- A slot moved to the compacted arena: only the offset of an arena key changes,
and its bytes were copied. -/
structure Moved (source final : KeyArena) (control : UInt8) (slot moved : Slot) : Prop where
  ref : moved.ref = slot.ref
  tag : moved.keyHashTag = slot.keyHashTag
  size : moved.keySize = slot.keySize
  inline : moved.keyIsInline = slot.keyIsInline
  unmoved : ¬ holdsHeapKey control slot → moved = slot
  copied : holdsHeapKey control slot →
    final.data moved.key.heapOffset slot.keySize = source.data slot.key.heapOffset slot.keySize ∧
    moved.key.heapOffset + slot.keySize ≤ final.bump

variable {moved : Slot}

theorem Moved.mono {arena : KeyArena} (step : Moved source arena control slot moved)
    (keeps : Keeps arena final) :
    Moved source final control slot moved := by
  refine ⟨step.ref, step.tag, step.size, step.inline, step.unmoved, ?_⟩
  intro heap
  obtain ⟨same, inside⟩ := step.copied heap
  exact ⟨(keeps.data _ _ inside).trans same, Nat.le_trans inside keeps.bump⟩

theorem compactSlots_spec (sourceValid : source.Valid) (controls : Bytes) (slots : List Slot)
    {compacted : KeyArena} (compactedValid : compacted.Valid)
    (lengths : controls.length = slots.length)
    (inside : ∀ pair ∈ controls.zip slots, holdsHeapKey pair.1 pair.2 →
      pair.2.key.heapOffset + pair.2.keySize ≤ source.bump)
    (fits : compacted.bump + liveHeapBytes controls slots ≤ kUInt32Max) :
    ∃ final moved, compactSlots source compacted controls slots = .ok (final, moved) ∧
      final.Valid ∧ Keeps compacted final ∧
      final.bump = compacted.bump + liveHeapBytes controls slots ∧
      List.Forall₂ (fun pair slot => Moved source final pair.1 pair.2 slot)
        (controls.zip slots) moved := by
  induction controls generalizing slots compacted with
  | nil =>
    have none : slots = [] := List.length_eq_zero_iff.mp (by simpa using lengths.symm)
    subst none
    exact ⟨compacted, [], rfl, compactedValid, Keeps.refl _, by simp [liveHeapBytes], .nil⟩
  | cons control controls ih =>
    cases slots with
    | nil => simp at lengths
    | cons slot slots =>
      have restLengths : controls.length = slots.length := by simpa using lengths
      have restInside : ∀ pair ∈ controls.zip slots, holdsHeapKey pair.1 pair.2 →
          pair.2.key.heapOffset + pair.2.keySize ≤ source.bump :=
        fun pair member => inside pair (by simp [member])
      have total : liveHeapBytes (control :: controls) (slot :: slots) =
          heapKeyBytes control slot + liveHeapBytes controls slots := by
        simp [liveHeapBytes]
      rw [total] at fits ⊢
      by_cases heap : holdsHeapKey control slot
      · have weight : heapKeyBytes control slot = slot.keySize := if_pos heap
        have positive : 0 < slot.keySize := by
          simp only [holdsHeapKey, Bool.and_eq_true, decide_eq_true_eq] at heap
          exact heap.2
        have within := inside (control, slot) (by simp) heap
        have bytesLength : (source.data slot.key.heapOffset slot.keySize).length =
            slot.keySize := by
          rw [data_eq_slice sourceValid within, length_slice]
          rw [sourceValid.length]
          exact within
        rw [weight] at fits ⊢
        have room : compacted.bump + slot.keySize ≤ kUInt32Max := by omega
        have bytesRoom : compacted.bump +
            (source.data slot.key.heapOffset slot.keySize).length ≤ kUInt32Max := by
          rw [bytesLength]
          exact room
        have pushedBump : (compacted.push (source.data slot.key.heapOffset slot.keySize)).bump =
            compacted.bump + slot.keySize := by
          simp [push, bytesLength]
        have pushedValid := compactedValid.push bytesRoom
        obtain ⟨final, moved, run, finalValid, keeps, bump, pairs⟩ :=
          ih slots pushedValid restLengths restInside (by rw [pushedBump]; omega)
        have written := write_allocated compacted compactedValid
          (source.data slot.key.heapOffset slot.keySize)
        rw [bytesLength] at written
        refine ⟨final, { slot with key := .heapKeyOffset compacted.bump } :: moved, ?_, finalValid,
          (Keeps.push compactedValid bytesRoom).trans keeps, by rw [bump, pushedBump]; omega, ?_⟩
        · simp only [compactSlots, if_pos heap, bytesLength, ne_eq, not_true_eq_false, if_false,
            allocate_eq_ok compactedValid positive room,
            length_data_allocated compactedValid room, written, run]
        · refine .cons ?_ pairs
          refine Moved.mono ⟨rfl, rfl, rfl, rfl, fun other => absurd heap other, fun _ => ?_⟩ keeps
          refine ⟨?_, Nat.le_of_eq pushedBump.symm⟩
          have copy := data_push_new compactedValid bytesRoom
          rw [bytesLength] at copy
          exact copy
      · have weight : heapKeyBytes control slot = 0 := if_neg heap
        rw [weight] at fits ⊢
        obtain ⟨final, moved, run, finalValid, keeps, bump, pairs⟩ :=
          ih slots compactedValid restLengths restInside (by omega)
        refine ⟨final, slot :: moved, ?_, finalValid, keeps, by rw [bump]; omega, ?_⟩
        · simp only [compactSlots, if_neg heap, run]
        · exact .cons ⟨rfl, rfl, rfl, rfl, fun _ => rfl, fun other => absurd other heap⟩ pairs

theorem Moved.slotValid (step : Moved table.heapKeys after.heapKeys control slot moved)
    (full : isFull control) (valid : table.SlotValid hash control slot)
    (seed : after.seed = table.seed) :
    after.SlotValid hash control moved ∧ after.slotKey moved = table.slotKey slot ∧
      moved.ref = slot.ref := by
  have same : after.slotKey moved = table.slotKey slot := by
    by_cases heap : holdsHeapKey control slot
    · have positive : ¬ slot.keySize = 0 := by
        simp only [holdsHeapKey, Bool.and_eq_true, decide_eq_true_eq] at heap
        omega
      have notInline : ¬ slot.keyIsInline = true := by
        simp only [holdsHeapKey, Bool.and_eq_true, Bool.not_eq_true'] at heap
        simp [heap.1.2]
      rw [slotKey, slotKey, step.size, step.inline, if_neg positive, if_neg positive,
        if_neg notInline, if_neg notInline, (step.copied heap).1]
    · rw [step.unmoved heap]
      unfold slotKey
      split
      · rfl
      · split
        · rfl
        · next notInline =>
          have long := (valid.heap (by simpa using notInline)).1
          refine absurd ?_ heap
          have positive : 0 < slot.keySize := Nat.lt_of_le_of_lt (Nat.zero_le _) long
          simp [holdsHeapKey, full, notInline, positive]
  refine ⟨⟨?_, ?_, ?_, ?_, ?_, ?_⟩, same, step.ref⟩
  · rw [same, mixHash_congr seed]
    exact valid.fingerprint
  · rw [same, step.tag]
    exact valid.tag
  · rw [same, step.size]
    exact valid.length
  · rw [step.inline, step.size]
    exact valid.inline
  · rw [step.inline, step.size]
    intro notInline
    have long := (valid.heap notInline).1
    have positive : 0 < slot.keySize := Nat.lt_of_le_of_lt (Nat.zero_le _) long
    have heap : holdsHeapKey control slot := by simp [holdsHeapKey, full, notInline, positive]
    exact ⟨long, (step.copied heap).2⟩
  · rw [step.size]
    exact valid.small

theorem Moved.heapKeyBytes_eq (step : Moved source final control slot moved) :
    heapKeyBytes control moved = heapKeyBytes control slot := by
  unfold heapKeyBytes holdsHeapKey
  rw [step.inline, step.size]

private theorem zipWith_moved {moved : List Slot} (lengths : controls.length = slots.length)
    (pairs : List.Forall₂ (fun pair slot => Moved source final pair.1 pair.2 slot)
      (controls.zip slots) moved) :
    liveHeapBytes controls moved = liveHeapBytes controls slots := by
  induction controls generalizing slots moved with
  | nil => simp [liveHeapBytes]
  | cons control controls ih =>
    cases slots with
    | nil => simp at lengths
    | cons slot slots =>
      cases pairs with
      | cons step rest =>
        have tail := ih (by simpa using lengths) rest
        simp only [liveHeapBytes] at tail
        simp only [liveHeapBytes, List.zipWith_cons_cons, List.sum_cons, tail,
          Moved.heapKeyBytes_eq step]

theorem Valid.compactHeapKeys_spec (valid : table.Valid hash) :
    ∃ after, table.compactHeapKeys = .ok after ∧ Preserved hash table after := by
  have lengths : table.control.length = table.slots.length := by rw [valid.control, valid.slots]
  have account := valid.accounted
  have bound := valid.arena.bound
  have liveFits : liveHeapBytes table.control table.slots ≤ kUInt32Max := by
    rw [valid.live]
    omega
  obtain ⟨reserved, reserveOk⟩ := reserve_eq_ok {} liveFits
  have reservedSame := reserve_storage reserveOk
  have reservedValid := valid_empty.of_storage reservedSame
  have reservedBump : reserved.bump = 0 := reservedSame.2
  have inside : ∀ pair ∈ table.control.zip table.slots, holdsHeapKey pair.1 pair.2 →
      pair.2.key.heapOffset + pair.2.keySize ≤ table.heapKeys.bump := by
    intro pair member heap
    simp only [holdsHeapKey, Bool.and_eq_true, Bool.not_eq_true'] at heap
    exact ((valid.slotValid_of_mem pair member heap.1.1).heap heap.1.2).2
  obtain ⟨final, moved, run, finalValid, -, bump, pairs⟩ :=
    compactSlots_spec valid.arena table.control table.slots reservedValid lengths inside
      (by rw [reservedBump]; omega)
  rw [reservedBump, Nat.zero_add] at bump
  have movedLength : moved.length = table.slots.length := by
    rw [← List.Forall₂.length_eq pairs, List.length_zip, lengths, Nat.min_self]
  refine ⟨{ table with
      slots := moved
      heapKeys := final
      heapDeadBytes := 0
      heapLiveBytes := final.allocatedBytes }, ?_, ?_⟩
  · simp only [liveHeapBytes] at reserveOk
    simp only [compactHeapKeys, reserveOk, run]
  · refine valid.reslot rfl rfl rfl rfl rfl movedLength ?_ finalValid ?_ rfl ?_
    · intro index full
      have within := lt_capacity_of_full valid.control full
      have inMoved : index < moved.length := movedLength ▸ valid.lt_slots within
      have step := (List.forall₂_iff_get.mp pairs).2 index (valid.length_zip ▸ within) inMoved
      have after : moved[index] = moved.getD index {} := by simp [inMoved]
      rw [List.get_eq_getElem, List.get_eq_getElem, valid.getElem_zip, after] at step
      exact Moved.slotValid step full (valid.full index full) rfl
    · rw [zipWith_moved lengths pairs, ← bump]
      rfl
    · change final.bump ≤ table.heapKeys.bump
      rw [bump, valid.live]
      omega

theorem Valid.maybeCompactHeapKeys_spec (valid : table.Valid hash) :
    ∃ after, table.maybeCompactHeapKeys = .ok after ∧ Preserved hash table after := by
  unfold maybeCompactHeapKeys
  split
  · exact ⟨table, rfl, .refl valid⟩
  · split
    · next empty =>
      refine ⟨_, rfl, valid.reslot rfl rfl rfl rfl rfl rfl ?_ KeyArena.Valid.clear valid.live ?_
        (Nat.zero_le _)⟩
      · intro index full
        have slotValid := valid.full index full
        have within := lt_capacity_of_full valid.control full
        have weight := le_sum_zipWith heapKeyBytes kSwissEmpty ({} : Slot)
          (valid.lt_control within) (valid.lt_slots within)
        have total := valid.live
        simp only [liveHeapBytes, empty] at total
        rw [total] at weight
        have none : heapKeyBytes (table.controlAt index) (table.slotAt index) = 0 :=
          Nat.le_zero.mp weight
        rw [slotValid.heapKeyBytes_eq full] at none
        -- Without live arena bytes every live key is inline, so the arena can go.
        have inline : (table.slotAt index).keyIsInline = true := by
          apply Classical.byContradiction
          intro notInline
          have long := (slotValid.heap (by simpa using notInline)).1
          rw [if_neg notInline] at none
          omega
        have same : SwissTableIndex.slotKey
            { table with heapKeys := table.heapKeys.clear, heapDeadBytes := 0 }
            (table.slotAt index) = table.slotKey (table.slotAt index) := by
          simp only [slotKey, inline, if_true]
        refine ⟨⟨?_, ?_, ?_, slotValid.inline, ?_, slotValid.small⟩, same, rfl⟩
        · exact same.symm ▸ slotValid.fingerprint
        · exact same.symm ▸ slotValid.tag
        · exact same.symm ▸ slotValid.length
        · intro notInline
          have clash : (table.slotAt index).keyIsInline = false := notInline
          simp [inline] at clash
      · simp [empty, clear]
    · split
      · exact ⟨table, rfl, .refl valid⟩
      · exact valid.compactHeapKeys_spec

end SwissTableIndex

end GlifiStore
