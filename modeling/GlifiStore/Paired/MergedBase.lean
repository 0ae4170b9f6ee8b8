import GlifiStore.Paired.ReadGeneration

/-!
# The new base of a merge

A merge walks over the slots of the cut's base and then of its delta. Here is what
the visited slots contribute to the new base, and that a base with the
contributions of all slots answers every lookup as the cut does.
-/

namespace GlifiStore

open ByteLayout OpenAddressing ReadTable CopyOnWrite CompactReadRecord ImmutableReadIndex

variable {hash : Key → UInt64} {heap : DeltaHeap}

structure PairReadGeneration.Valid (hash : Key → UInt64) (heap : DeltaHeap)
    (generation : PairReadGeneration) : Prop where
  base : generation.base.Valid hash
  delta : generation.delta.Valid hash heap

/-! ## Slots -/

variable {index : ImmutableReadIndex}

theorem ImmutableReadIndex.Valid.recordAt (valid : index.Valid hash) {slot : Nat}
    (inside : slot < index.capacity) :
    index.recordAt slot = (index.cellAt slot).value?.map view := by
  unfold ImmutableReadIndex.recordAt
  rw [if_neg (by omega)]
  split
  · next empty => rw [valid.cellAt_eq_vacant.mpr empty]; rfl
  · next full =>
    obtain ⟨record, stored, -⟩ := valid.full full
    rw [cellAt_eq_occupied.mpr ⟨full, stored, rfl⟩, stored]
    rfl

theorem DeltaState.Valid.recordAt {state : DeltaState} (valid : state.Valid hash heap)
    (sound : heap.Valid hash) {slot : Nat} (inside : slot < state.capacity) :
    state.recordAt heap slot =
      (state.spine.cells heap slot).value?.map fun record => record.view (hash record.key) := by
  unfold DeltaState.recordAt
  rw [if_neg (by omega), DeltaSpine.pageAt_eq]
  cases reached : state.spine.pageTable heap (slot / kDeltaPageSlots) with
  | none =>
    rw [DeltaSpine.cells, through_none reached]
    rfl
  | some address =>
    have stored := getElem?_of_lt (valid.reachable.pages reached)
    have page := sound.pages _ (List.mem_of_getElem? stored)
    have cell : state.spine.cells heap slot = DeltaSpine.pageCell heap.records
        (heap.pages.getD address default) (slot % kDeltaPageSlots) := through_some reached stored
    rw [cell]
    simp only
    split
    · next empty => rw [page.pageCell_eq_vacant.mpr empty]; rfl
    · next full =>
      obtain ⟨pointer, record, points, held, hashed, -⟩ := page.full full
      rw [pageCell_eq_occupied.mpr ⟨full, by rw [points]; exact held, rfl⟩, points, hashed]
      simp [Cell.value?, held]

/-! ## What the visited slots contribute -/

/-- The record that a base slot with this key contributes: the stored one, or the
put of the delta over it. -/
def Contributes (hash : Key → UInt64) (heap : DeltaHeap) (cut : PairReadGeneration) (key : Key)
    (stored record : CompactReadRecord) : Prop :=
  match cut.delta.find heap (hash key) key with
  | none => record = ofView stored.view
  | some override =>
    override.opcode = .put ∧ record = ofView (override.view (hash key))

/-- What the new base holds after `baseSlots` and `deltaSlots` slots. -/
def Merged (hash : Key → UInt64) (heap : DeltaHeap) (cut : PairReadGeneration)
    (baseSlots deltaSlots : Nat) (key : Key) (record : CompactReadRecord) : Prop :=
  (∃ slot < baseSlots, ∃ stored, cut.base.cellAt slot = .occupied key stored ∧
    Contributes hash heap cut key stored record) ∨
  (∃ slot < deltaSlots, ∃ stored, cut.delta.spine.cells heap slot = .occupied key stored ∧
    stored.opcode = .put ∧ record = ofView (stored.view (hash key)))

variable {cut : PairReadGeneration} {baseSlots deltaSlots : Nat} {key : Key}
  {record : CompactReadRecord}

theorem merged_zero : ¬ Merged hash heap cut 0 0 key record := by
  rintro (⟨slot, below, -⟩ | ⟨slot, below, -⟩) <;> exact absurd below (Nat.not_lt_zero slot)

theorem merged_succ_base :
    Merged hash heap cut (baseSlots + 1) deltaSlots key record ↔
      (∃ stored, cut.base.cellAt baseSlots = .occupied key stored ∧
        Contributes hash heap cut key stored record) ∨
      Merged hash heap cut baseSlots deltaSlots key record := by
  rw [Merged, Nat.exists_lt_succ_right, or_right_comm, or_comm]
  rfl

theorem merged_succ_delta :
    Merged hash heap cut baseSlots (deltaSlots + 1) key record ↔
      (∃ stored, cut.delta.spine.cells heap deltaSlots = .occupied key stored ∧
        stored.opcode = .put ∧ record = ofView (stored.view (hash key))) ∨
      Merged hash heap cut baseSlots deltaSlots key record := by
  rw [Merged, Nat.exists_lt_succ_right, ← or_assoc, or_comm]
  rfl

variable {own : Key}

theorem merged_next_base {stored : CompactReadRecord}
    (holds : cut.base.cellAt baseSlots = .occupied own stored) :
    Merged hash heap cut (baseSlots + 1) deltaSlots key record ↔
      (key = own ∧ Contributes hash heap cut own stored record) ∨
        Merged hash heap cut baseSlots deltaSlots key record := by
  rw [merged_succ_base, holds]
  refine or_congr_left ⟨?_, ?_⟩
  · rintro ⟨_, ⟨⟩, contributes⟩
    exact ⟨rfl, contributes⟩
  · rintro ⟨rfl, contributes⟩
    exact ⟨stored, rfl, contributes⟩

theorem merged_next_delta {stored : DeltaRecord}
    (holds : cut.delta.spine.cells heap deltaSlots = .occupied own stored) :
    Merged hash heap cut baseSlots (deltaSlots + 1) key record ↔
      (key = own ∧ stored.opcode = .put ∧ record = ofView (stored.view (hash own))) ∨
        Merged hash heap cut baseSlots deltaSlots key record := by
  rw [merged_succ_delta, holds]
  refine or_congr_left ⟨?_, ?_⟩
  · rintro ⟨_, ⟨⟩, put⟩
    exact ⟨rfl, put⟩
  · rintro ⟨rfl, put⟩
    exact ⟨stored, rfl, put⟩

theorem merged_fresh_base (valid : cut.Valid hash heap) {stored : CompactReadRecord}
    (holds : cut.base.cellAt baseSlots = .occupied own stored) (record : CompactReadRecord) :
    ¬ Merged hash heap cut baseSlots 0 own record := by
  rintro (⟨slot, below, other, holds', -⟩ | ⟨slot, below, -⟩)
  · have same := valid.base.probed.unique holds holds'
    omega
  · exact absurd below (Nat.not_lt_zero slot)

theorem merged_same_delta (valid : cut.Valid hash heap) (sound : heap.Valid hash)
    {stored : DeltaRecord} (holds : cut.delta.spine.cells heap deltaSlots = .occupied own stored)
    (earlier : Merged hash heap cut baseSlots deltaSlots own record) :
    record = ofView (stored.view (hash own)) := by
  rcases earlier with ⟨slot, below, other, holds', contributes⟩ | ⟨slot, below, other, holds', -⟩
  · have found := (valid.delta.find_iff sound).mpr ⟨deltaSlots, holds⟩
    simp only [Contributes, found] at contributes
    exact contributes.2
  · have same := valid.delta.probed.unique holds holds'
    omega

/-! ## Bases under construction -/

def visited (heap : DeltaHeap) (cut : PairReadGeneration) (baseSlots deltaSlots : Nat) : Nat :=
  occupancy baseSlots cut.base.cellAt + occupancy deltaSlots (cut.delta.spine.cells heap)

/-- The new base holds what the visited slots contribute. -/
structure Filling (hash : Key → UInt64) (heap : DeltaHeap) (cut : PairReadGeneration)
    (baseSlots deltaSlots : Nat) (index : ImmutableReadIndex) : Prop where
  valid : index.Valid hash
  binds : ∀ key record, Binds index.cellAt key record ↔
    Merged hash heap cut baseSlots deltaSlots key record
  counted : index.records.length ≤ visited heap cut baseSlots deltaSlots
  baseInside : baseSlots ≤ cut.base.capacity
  deltaInside : deltaSlots ≤ cut.delta.capacity
  sized : index.recordCapacity = cut.base.size + cut.delta.size

namespace Filling

variable {baseNext deltaNext : Nat}

theorem skip (filling : Filling hash heap cut baseSlots deltaSlots index)
    (merged : ∀ key record, Merged hash heap cut baseNext deltaNext key record ↔
      Merged hash heap cut baseSlots deltaSlots key record)
    (visits : visited heap cut baseSlots deltaSlots ≤ visited heap cut baseNext deltaNext)
    (baseInside : baseNext ≤ cut.base.capacity) (deltaInside : deltaNext ≤ cut.delta.capacity) :
    Filling hash heap cut baseNext deltaNext index :=
  { filling with
    binds := fun key record => by rw [filling.binds, merged]
    counted := Nat.le_trans filling.counted visits
    baseInside, deltaInside }

theorem append (filling : Filling hash heap cut baseSlots deltaSlots index)
    (valid : cut.Valid hash heap) {source : ReadRecordView}
    (hashed : source.hash = hash source.key) (small : source.key.length ≤ kUInt32Max)
    (fresh : ∀ record, ¬ Merged hash heap cut baseSlots deltaSlots source.key record)
    (merged : ∀ key record, Merged hash heap cut baseNext deltaNext key record ↔
      (key = source.key ∧ record = ofView source) ∨
        Merged hash heap cut baseSlots deltaSlots key record)
    (visits : visited heap cut baseSlots deltaSlots + 1 ≤ visited heap cut baseNext deltaNext)
    (baseInside : baseNext ≤ cut.base.capacity) (deltaInside : deltaNext ≤ cut.delta.capacity) :
    ∃ appended, index.append source = some appended ∧
      Filling hash heap cut baseNext deltaNext appended := by
  have counted := filling.counted
  have all : visited heap cut baseNext deltaNext ≤ cut.base.size + cut.delta.size := by
    have base := occupancy_mono cut.base.cellAt baseInside
    have delta := occupancy_mono (cut.delta.spine.cells heap) deltaInside
    rw [valid.base.counted, ← valid.base.sized] at base
    rw [valid.delta.counted] at delta
    exact Nat.add_le_add base delta
  have room : index.records.length < index.recordCapacity := by
    rw [filling.sized]
    omega
  have absent : ∀ record, ¬ Binds index.cellAt source.key record := by
    intro record bound
    exact fresh record ((filling.binds _ _).mp bound)
  obtain ⟨appended, done⟩ := Option.isSome_iff_exists.mp (filling.valid.append_isSome room small)
  obtain ⟨appendedValid, binds⟩ := filling.valid.append hashed absent done
  obtain ⟨-, -, slot, -, rfl⟩ := append_cases done
  refine ⟨_, done, appendedValid, ?_, ?_, baseInside, deltaInside, filling.sized⟩
  · intro key record
    rw [binds, merged, filling.binds]
    constructor
    · rintro (added | ⟨-, old⟩)
      · exact .inl added
      · exact .inr old
    · rintro (added | old)
      · exact .inl added
      · by_cases same : key = source.key
        · exact absurd old (same ▸ fresh record)
        · exact .inr ⟨same, old⟩
  · show (index.records ++ [_]).length ≤ _
    rw [List.length_append, List.length_singleton]
    omega

end Filling
/-! ## The finished base -/

theorem CompactReadRecord.retained_view (put : record.opcode = .put) :
    record.view.retained = record.view := by
  obtain ⟨reference, hash, key, pin, durable, opcode⟩ := record
  obtain rfl : opcode = .put := put
  cases durable <;> cases pin <;> rfl

theorem DeltaRecord.retained_view {record : DeltaRecord} (put : record.opcode = .put)
    (hash : UInt64) : (record.view hash).retained = record.view hash := by
  obtain ⟨reference, key, pin, opcode, durable⟩ := record
  obtain rfl : opcode = .put := put
  cases durable <;> cases pin <;> rfl

/-- The part of `lookup` in the base. -/
def ImmutableReadIndex.lookup (hash : Key → UInt64) (index : ImmutableReadIndex) (key : Key) :
    Option ReadRecordView :=
  match index.find (hash key) key with
  | none => none
  | some record => if record.opcode = .erase then none else some record.view

def DeltaRecord.answer (record : DeltaRecord) (hash : UInt64) : Option ReadRecordView :=
  if record.opcode = .erase then none else some (record.view hash)

theorem PairReadGeneration.lookup_eq (generation : PairReadGeneration) (heap : DeltaHeap)
    (key : Key) :
    generation.lookup hash heap key =
      match generation.delta.find heap (hash key) key with
      | some record => record.answer (hash key)
      | none => generation.base.lookup hash key := rfl

theorem ImmutableReadIndex.Valid.lookup_of_binds (valid : index.Valid hash)
    (binds : Binds index.cellAt key record) :
    index.lookup hash key = if record.opcode = .erase then none else some record.view := by
  rw [lookup, valid.find_iff.mpr binds]

theorem ImmutableReadIndex.Valid.lookup_of_absent (valid : index.Valid hash)
    (absent : ∀ record, ¬ Binds index.cellAt key record) :
    index.lookup hash key = none := by
  rw [lookup, valid.find_eq_none.mpr absent]

theorem inside_of_occupied {capacity slot : Nat} {β : Type} {cells : Nat → Cell Key β} {value : β}
    (whole : Whole capacity) (probed : Probed (fun key => readPath capacity (hash key)) cells)
    (holds : cells slot = .occupied key value) : slot < capacity := by
  obtain ⟨before, after, split, -⟩ := probed.onPath holds
  have onPath : slot ∈ readPath capacity (hash key) := by
    rw [split]
    exact List.mem_append_right _ List.mem_cons_self
  exact lt_of_mem_groupPath (whole.probeStart (hash key)) onPath

/-- Once every slot is visited, a lookup in the new base is a lookup in the cut. -/
theorem Filling.lookup (valid : cut.Valid hash heap)
    (sound : heap.Valid hash)
    (filling : Filling hash heap cut cut.base.capacity cut.delta.capacity index) (key : Key) :
    index.lookup hash key = cut.lookup hash heap key := by
  rw [PairReadGeneration.lookup_eq]
  cases found : cut.delta.find heap (hash key) key with
  | some override =>
    obtain ⟨slot, holds⟩ := (valid.delta.find_iff sound).mp found
    have inside := inside_of_occupied valid.delta.capacity.toWhole valid.delta.probed holds
    cases opcode : override.opcode with
    | put =>
      have binds := (filling.binds key _).mpr (.inr ⟨slot, inside, override, holds, opcode, rfl⟩)
      rw [filling.valid.lookup_of_binds binds, view_ofView, DeltaRecord.retained_view opcode]
      rfl
    | erase =>
      simp only [DeltaRecord.answer, opcode, if_true]
      refine filling.valid.lookup_of_absent fun record bound => ?_
      rcases (filling.binds key record).mp bound with
        ⟨other, -, stored, -, contributes⟩ | ⟨other, -, stored, holds', put, -⟩
      · simp only [Contributes, found, opcode] at contributes
        exact nomatch contributes.1
      · obtain rfl := valid.delta.probed.unique holds holds'
        rw [holds] at holds'
        rw [← (Cell.occupied.inj holds').2, opcode] at put
        exact nomatch put
  | none =>
    have noDelta := (valid.delta.find_eq_none sound).mp found
    cases below : cut.base.find (hash key) key with
    | none =>
      have noBase := valid.base.find_eq_none.mp below
      rw [valid.base.lookup_of_absent noBase]
      refine filling.valid.lookup_of_absent fun record bound => ?_
      rcases (filling.binds key record).mp bound with
        ⟨slot, -, stored, holds, -⟩ | ⟨slot, -, stored, holds, -⟩
      · exact noBase stored ⟨slot, holds⟩
      · exact noDelta stored ⟨slot, holds⟩
    | some stored =>
      obtain ⟨slot, holds⟩ := valid.base.find_iff.mp below
      have inside := inside_of_occupied valid.base.whole valid.base.probed holds
      have binds := (filling.binds key (ofView stored.view)).mpr
        (.inl ⟨slot, inside, stored, holds, by simp only [Contributes, found]⟩)
      rw [filling.valid.lookup_of_binds binds, valid.base.lookup_of_binds ⟨slot, holds⟩]
      cases opcode : stored.opcode with
      | erase =>
        have same : (ofView stored.view).opcode = .erase := opcode
        rw [if_pos same, if_pos rfl]
      | put =>
        have same : (ofView stored.view).opcode = .put := opcode
        rw [if_neg (by rw [same]; exact nofun), if_neg nofun, view_ofView, retained_view opcode]

end GlifiStore
