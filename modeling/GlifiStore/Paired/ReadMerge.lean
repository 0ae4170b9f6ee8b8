import GlifiStore.Paired.MergedBase

/-!
# The turns of a merge

After any number of turns the new base holds exactly what the visited slots
contribute, and no append throws.
-/

namespace GlifiStore

open ByteLayout OpenAddressing ReadTable CopyOnWrite PairReadMerge

variable {hash : Key → UInt64} {heap : DeltaHeap}

namespace PairReadMerge

/-- The control bytes of the new base are cleared up to `initializedSlots`. -/
structure Clearing (merge : PairReadMerge) (builder : IncrementalBaseBuilder) : Prop where
  whole : Whole builder.index.capacity
  control : builder.index.control.length = builder.index.capacity
  cleared : ∀ slot < builder.initializedSlots, builder.index.control[slot]? = some kSwissEmpty
  inside : builder.initializedSlots ≤ builder.index.capacity
  indices : builder.index.recordIndices.length = builder.index.capacity
  records : builder.index.records = []
  empty : builder.index.size = 0
  room : builder.index.recordCapacity ≤ builder.index.capacity - builder.index.capacity / 4
  bounded : builder.index.recordCapacity ≤ kUInt32Max
  sized : builder.index.recordCapacity = merge.cut.base.size + merge.cut.delta.size
  unvisited : merge.baseCursor = 0 ∧ merge.deltaCursor = 0

def Cursors (merge : PairReadMerge) : Prop :=
  match merge.phase with
  | .initializing => False
  | .base => merge.deltaCursor = 0
  | .delta => merge.baseCursor = merge.cut.base.capacity
  | .ready => merge.baseCursor = merge.cut.base.capacity ∧
      merge.deltaCursor = merge.cut.delta.capacity

def Progress (hash : Key → UInt64) (heap : DeltaHeap) (merge : PairReadMerge)
    (builder : IncrementalBaseBuilder) : Prop :=
  (merge.phase = .initializing ∧ merge.Clearing builder) ∨
    (merge.Cursors ∧
      Filling hash heap merge.cut merge.baseCursor merge.deltaCursor builder.index)

structure Sound (hash : Key → UInt64) (heap : DeltaHeap) (merge : PairReadMerge) : Prop where
  cut : merge.cut.Valid hash heap
  progress : ∀ builder, merge.builder = some builder → merge.Progress hash heap builder

/-- A turn that goes on keeps the merge sound and leaves everything but its
progress alone. -/
structure Advances (hash : Key → UInt64) (heap : DeltaHeap) (merge next : PairReadMerge) : Prop where
  sound : next.Sound hash heap
  cut : next.cut = merge.cut
  current : next.current = merge.current
  postDelta : next.postDelta = merge.postDelta

def TurnSound (hash : Key → UInt64) (heap : DeltaHeap) (merge : PairReadMerge) : MergeTurn → Prop
  | .done => True
  | .next next _ => Advances hash heap merge next
  | .thrown _ => False

variable {merge : PairReadMerge} {builder : IncrementalBaseBuilder}

theorem clearingTurn_sound (cut : merge.cut.Valid hash heap) (clearing : merge.Clearing builder)
    (stands : merge.builder = some builder) (phase : merge.phase = .initializing)
    (maximumSlots processed : Nat) :
    TurnSound hash heap merge (merge.turn heap maximumSlots processed) := by
  simp only [turn, stands, phase]
  split
  · next complete =>
    have blank : builder.index.Blank := by
      refine ⟨clearing.whole, ?_, clearing.indices, clearing.records, clearing.empty,
        clearing.room, clearing.bounded⟩
      refine List.eq_replicate_iff.mpr ⟨clearing.control, fun byte member => ?_⟩
      obtain ⟨slot, inside, rfl⟩ := List.getElem_of_mem member
      have byte := clearing.cleared slot (by rw [complete, ← clearing.control]; exact inside)
      rw [List.getElem?_eq_getElem inside] at byte
      exact Option.some.inj byte
    refine ⟨⟨cut, ?_⟩, rfl, rfl, rfl⟩
    intro other same
    obtain rfl := Option.some.inj same
    refine .inr ⟨clearing.unvisited.2, ?_⟩
    show Filling hash heap merge.cut merge.baseCursor merge.deltaCursor builder.index
    rw [clearing.unvisited.1, clearing.unvisited.2]
    refine ⟨blank.valid hash, ?_, ?_, Nat.zero_le _, Nat.zero_le _, clearing.sized⟩
    · intro key record
      rw [blank.cellAt]
      constructor
      · rintro ⟨slot, holds⟩
        exact nomatch holds
      · exact fun merged => absurd merged merged_zero
    · rw [clearing.records]
      exact Nat.zero_le _
  · split
    · trivial
    · refine ⟨⟨cut, ?_⟩, rfl, rfl, rfl⟩
      intro other same
      obtain rfl := Option.some.inj same
      have inside := clearing.inside
      have fits : builder.initializedSlots +
          (List.replicate (min (maximumSlots - processed)
            (builder.index.capacity - builder.initializedSlots)) kSwissEmpty).length ≤
          builder.index.control.length := by
        rw [List.length_replicate, clearing.control]
        omega
      refine .inl ⟨rfl, clearing.whole, (length_blit fits).trans clearing.control, ?_, ?_,
        clearing.indices, clearing.records, clearing.empty, clearing.room, clearing.bounded,
        clearing.sized, clearing.unvisited⟩
      · intro slot below
        show (blit _ _ _)[slot]? = _
        rw [getElem?_blit fits]
        split
        · next covered =>
          rw [List.getElem?_replicate, if_pos]
          rw [List.length_replicate] at covered
          omega
        · next outside =>
          rw [List.length_replicate] at outside
          refine clearing.cleared slot ?_
          simp only [IncrementalBaseBuilder.initializeNext] at below
          omega
      · show _ + min _ _ ≤ builder.index.capacity
        omega

variable {base delta processed : Nat}

theorem skip_sound {phase : MergePhase} (cut : merge.cut.Valid hash heap)
    (stands : merge.builder = some builder)
    (cursors : Cursors { merge with phase, baseCursor := base, deltaCursor := delta })
    (filling : Filling hash heap merge.cut base delta builder.index) :
    TurnSound hash heap merge
      (.next { merge with phase, baseCursor := base, deltaCursor := delta } processed) := by
  refine ⟨⟨cut, fun other same => ?_⟩, rfl, rfl, rfl⟩
  obtain rfl : builder = other := Option.some.inj (stands.symm.trans same)
  exact .inr ⟨cursors, filling⟩

theorem insert_sound {record : ReadRecordView} (cut : merge.cut.Valid hash heap)
    (cursors : Cursors { merge with baseCursor := base, deltaCursor := delta })
    (appends : ∃ appended, builder.index.append record = some appended ∧
      Filling hash heap merge.cut base delta appended) :
    TurnSound hash heap merge
      (insert { merge with baseCursor := base, deltaCursor := delta } builder processed record) := by
  obtain ⟨appended, done, filling⟩ := appends
  simp only [insert, done]
  refine ⟨⟨cut, fun other same => ?_⟩, rfl, rfl, rfl⟩
  obtain rfl := Option.some.inj same
  exact .inr ⟨cursors, filling⟩

variable {spine : DeltaSpine} {slot : Nat} {record : DeltaRecord}

theorem cells_key {key : Key} (holds : spine.cells heap slot = .occupied key record) :
    record.key = key := by
  unfold DeltaSpine.cells through at holds
  split at holds
  · exact (pageCell_eq_occupied.mp holds).2.2
  · exact nomatch holds

theorem cells_small (sound : heap.Valid hash) {key : Key}
    (holds : spine.cells heap slot = .occupied key record) :
    key.length ≤ kUInt32Max := by
  have own := cells_key holds
  unfold DeltaSpine.cells through at holds
  split at holds
  · obtain ⟨-, points, -⟩ := pageCell_eq_occupied.mp holds
    obtain ⟨address, -, stored⟩ := Option.bind_eq_some_iff.mp points
    rw [← own]
    exact sound.small record (List.mem_of_getElem? stored)
  · exact nomatch holds

theorem baseTurn_sound (cut : merge.cut.Valid hash heap) (sound : heap.Valid hash)
    (stands : merge.builder = some builder) (phase : merge.phase = .base)
    (unvisited : merge.deltaCursor = 0)
    (filling : Filling hash heap merge.cut merge.baseCursor merge.deltaCursor builder.index)
    (maximumSlots processed : Nat) :
    TurnSound hash heap merge (merge.baseTurn heap builder maximumSlots processed) := by
  unfold baseTurn
  split
  · next complete => exact skip_sound cut stands complete filling
  · next unfinished =>
    split
    · trivial
    · have inside : merge.baseCursor < merge.cut.base.capacity :=
        Nat.lt_of_le_of_ne filling.baseInside unfinished
      have cursors : PairReadMerge.Cursors { merge with baseCursor := merge.baseCursor + 1 } := by
        simp only [Cursors, phase]
        exact unvisited
      have visits : visited heap merge.cut (merge.baseCursor + 1) merge.deltaCursor =
          visited heap merge.cut merge.baseCursor merge.deltaCursor +
            if (merge.cut.base.cellAt merge.baseCursor).value?.isSome then 1 else 0 := by
        unfold visited
        rw [occupancy_succ]
        omega
      simp only [cut.base.recordAt inside]
      cases cell : merge.cut.base.cellAt merge.baseCursor with
      | vacant =>
        rw [cell] at visits
        exact skip_sound cut stands cursors (filling.skip
          (fun key record => by simp [merged_succ_base, cell]) (Nat.le_of_eq visits.symm) inside
          filling.deltaInside)
      | tombstone => exact absurd cell (ImmutableReadIndex.cellAt_ne_tombstone _ _)
      | occupied own stored =>
        obtain ⟨-, points, rfl⟩ := ImmutableReadIndex.cellAt_eq_occupied.mp cell
        have member := List.mem_of_getElem? points
        have hashed : stored.view.hash = hash stored.key := cut.base.hashed stored member
        have small := cut.base.small stored member
        have fresh := merged_fresh_base cut cell
        rw [← unvisited] at fresh
        rw [cell] at visits
        have own : stored.view.key = stored.key := rfl
        simp only [Cell.value?, Option.map_some, hashed, own]
        cases found : merge.cut.delta.find heap (hash stored.key) stored.key with
        | none =>
          refine insert_sound cut cursors (filling.append cut hashed small fresh
            (fun key record => ?_) (Nat.le_of_eq visits.symm) inside filling.deltaInside)
          simp only [merged_next_base cell, Contributes, own, found]
        | some override =>
          obtain ⟨slot, holds⟩ := (cut.delta.find_iff sound).mp found
          have same := cells_key holds
          simp only
          split
          · next put =>
            have key : (override.view (hash stored.key)).key = stored.key := same
            refine insert_sound cut cursors (filling.append cut
              (by rw [key]; rfl) (by rw [key]; exact small) (by rw [key]; exact fresh)
              (fun key' record => ?_) (Nat.le_of_eq visits.symm) inside filling.deltaInside)
            simp only [key, merged_next_base cell, Contributes, found, put, true_and]
          · next erased =>
            refine skip_sound cut stands cursors (filling.skip (fun key record => ?_)
              (by rw [visits]; exact Nat.le_add_right _ _) inside filling.deltaInside)
            simp [merged_next_base cell, Contributes, found, erased]

theorem deltaTurn_sound (cut : merge.cut.Valid hash heap) (sound : heap.Valid hash)
    (stands : merge.builder = some builder) (phase : merge.phase = .delta)
    (walked : merge.baseCursor = merge.cut.base.capacity)
    (filling : Filling hash heap merge.cut merge.baseCursor merge.deltaCursor builder.index)
    (maximumSlots processed : Nat) :
    TurnSound hash heap merge (merge.deltaTurn heap builder maximumSlots processed) := by
  unfold deltaTurn
  split
  · next complete => exact skip_sound cut stands ⟨walked, complete⟩ filling
  · next unfinished =>
    split
    · trivial
    · have inside : merge.deltaCursor < merge.cut.delta.capacity :=
        Nat.lt_of_le_of_ne filling.deltaInside unfinished
      have cursors : PairReadMerge.Cursors { merge with deltaCursor := merge.deltaCursor + 1 } := by
        simp only [Cursors, phase]
        exact walked
      have visits : visited heap merge.cut merge.baseCursor (merge.deltaCursor + 1) =
          visited heap merge.cut merge.baseCursor merge.deltaCursor +
            if (merge.cut.delta.spine.cells heap merge.deltaCursor).value?.isSome then 1 else 0 := by
        unfold visited
        rw [occupancy_succ]
        omega
      have grows : visited heap merge.cut merge.baseCursor merge.deltaCursor ≤
          visited heap merge.cut merge.baseCursor (merge.deltaCursor + 1) := by
        rw [visits]
        exact Nat.le_add_right _ _
      simp only [cut.delta.recordAt sound inside]
      cases cell : merge.cut.delta.spine.cells heap merge.deltaCursor with
      | vacant =>
        exact skip_sound cut stands cursors (filling.skip
          (fun key record => by simp [merged_succ_delta, cell]) grows filling.baseInside inside)
      | tombstone => exact absurd cell (DeltaBuilder.cells_ne_tombstone _ _ _)
      | occupied own stored =>
        obtain rfl := cells_key cell
        rw [cell] at visits
        have opcode : (stored.view (hash stored.key)).opcode = stored.opcode := rfl
        have key : (stored.view (hash stored.key)).key = stored.key := rfl
        have hashed : (stored.view (hash stored.key)).hash = hash stored.key := rfl
        simp only [Cell.value?, Option.map_some, opcode, key, hashed]
        split
        · next erased =>
          exact skip_sound cut stands cursors (filling.skip
            (fun key record => by simp [merged_next_delta cell, erased]) grows filling.baseInside
            inside)
        · next kept =>
          have put : stored.opcode = .put := by
            cases opcode : stored.opcode with
            | put => rfl
            | erase => exact absurd opcode kept
          have merged : ∀ key record,
              Merged hash heap merge.cut merge.baseCursor (merge.deltaCursor + 1) key record ↔
                (key = stored.key ∧
                  record = CompactReadRecord.ofView (stored.view (hash stored.key))) ∨
                Merged hash heap merge.cut merge.baseCursor merge.deltaCursor key record :=
            fun _ _ => by simp only [merged_next_delta cell, put, true_and]
          split
          · next contained =>
            obtain ⟨existing, found⟩ := Option.isSome_iff_exists.mp contained
            have earlier := (filling.binds _ _).mp (filling.valid.find_iff.mp found)
            refine skip_sound cut stands cursors (filling.skip (fun key record => ?_)
              grows filling.baseInside inside)
            rw [merged]
            constructor
            · rintro (⟨rfl, rfl⟩ | old)
              · rw [← merged_same_delta cut sound cell earlier]
                exact earlier
              · exact old
            · exact .inr
          · next missing =>
            have absent := filling.valid.find_eq_none.mp (Option.not_isSome_iff_eq_none.mp missing)
            refine insert_sound cut cursors (filling.append cut rfl
              (cells_small sound cell) (fun record earlier => ?_) merged (Nat.le_of_eq visits.symm)
              filling.baseInside inside)
            exact absent record ((filling.binds _ _).mpr earlier)

theorem turn_sound (sound : merge.Sound hash heap) (heapSound : heap.Valid hash)
    (maximumSlots processed : Nat) :
    TurnSound hash heap merge (merge.turn heap maximumSlots processed) := by
  cases stands : merge.builder with
  | none =>
    simp only [turn, stands]
    trivial
  | some builder =>
    rcases sound.progress builder stands with ⟨phase, clearing⟩ | ⟨cursors, filling⟩
    · exact clearingTurn_sound sound.cut clearing stands phase maximumSlots processed
    · simp only [turn, stands]
      cases phase : merge.phase with
      | initializing => simp [Cursors, phase] at cursors
      | base =>
        simp only [Cursors, phase] at cursors
        exact baseTurn_sound sound.cut heapSound stands phase cursors filling maximumSlots processed
      | delta =>
        simp only [Cursors, phase] at cursors
        exact deltaTurn_sound sound.cut heapSound stands phase cursors filling maximumSlots processed
      | ready => trivial

theorem turns_sound (heapSound : heap.Valid hash) (maximumSlots fuel : Nat)
    (sound : merge.Sound hash heap) (processed : Nat) :
    Advances hash heap merge (turns heap maximumSlots fuel merge processed).1 ∧
      ∃ final, (turns heap maximumSlots fuel merge processed).2 = .ok final := by
  induction fuel generalizing merge processed with
  | zero => exact ⟨⟨sound, rfl, rfl, rfl⟩, processed, rfl⟩
  | succ fuel ih =>
    have here := turn_sound sound heapSound maximumSlots processed
    rw [turns]
    cases turned : merge.turn heap maximumSlots processed with
    | done => exact ⟨⟨sound, rfl, rfl, rfl⟩, processed, rfl⟩
    | thrown left =>
      rw [turned] at here
      exact here.elim
    | next next processed' =>
      rw [turned] at here
      obtain ⟨later, finished⟩ := ih here.sound processed'
      exact ⟨⟨later.sound, later.cut.trans here.cut, later.current.trans here.current,
        later.postDelta.trans here.postDelta⟩, finished⟩

theorem advance_sound (heapSound : heap.Valid hash) (sound : merge.Sound hash heap)
    (maximumSlots : Nat) : Advances hash heap merge (merge.advance heap maximumSlots).1 := by
  unfold advance
  split
  · exact ⟨sound, rfl, rfl, rfl⟩
  · exact (turns_sound heapSound maximumSlots _ sound 0).1

end PairReadMerge

end GlifiStore
