import GlifiStore.Paired.ReadMerge

/-!
# The slots of a merge

A quantum processes as many slots as it is given, or all that are left: a merge that stops
has used its quantum up or is ready, and it is ready exactly when no slot is left. The
turns of a quantum are enough for it.
-/

namespace GlifiStore

open ByteLayout OpenAddressing ReadTable CopyOnWrite PairReadMerge

variable {hash : Key → UInt64} {heap : DeltaHeap}

namespace PairReadMerge

def slotsLeft (merge : PairReadMerge) : Nat :=
  match merge.builder with
  | none => 0
  | some builder =>
    (builder.index.capacity - builder.initializedSlots) +
      (if merge.phase = .initializing ∨ merge.phase = .base then
        merge.cut.base.capacity - merge.baseCursor
      else 0) +
      (if merge.phase ≠ .ready then merge.cut.delta.capacity - merge.deltaCursor else 0)

def phasesLeft (merge : PairReadMerge) : Nat :=
  match merge.phase with
  | .initializing => 3
  | .base => 2
  | .delta => 1
  | .ready => 0

structure Settled (merge : PairReadMerge) : Prop where
  cleared : ∀ builder, merge.builder = some builder → merge.phase ≠ .initializing →
    builder.initializedSlots = builder.index.capacity
  finished : merge.builder = none → merge.phase = .ready
  ready : merge.slotsLeft = 0 ↔ merge.phase = .ready

variable {merge next : PairReadMerge} {builder : IncrementalBaseBuilder}
  {maximumSlots processed processed' : Nat}

/-- What a turn that goes on does to the cursors. -/
inductive Moves (merge : PairReadMerge) (builder : IncrementalBaseBuilder)
    (maximumSlots processed : Nat) : PairReadMerge → Nat → Prop
  | enterBase (phase : merge.phase = .initializing)
    (complete : builder.initializedSlots = builder.index.capacity) :
    Moves merge builder maximumSlots processed { merge with phase := .base } processed
  | clear (phase : merge.phase = .initializing) (unfinished : processed ≠ maximumSlots) :
    Moves merge builder maximumSlots processed
      { merge with builder := some (builder.initializeNext (maximumSlots - processed)).2 }
      (processed + (builder.initializeNext (maximumSlots - processed)).1)
  | enterDelta (phase : merge.phase = .base)
    (complete : merge.baseCursor = merge.cut.base.capacity) :
    Moves merge builder maximumSlots processed { merge with phase := .delta } processed
  | base (phase : merge.phase = .base) (partly : merge.baseCursor ≠ merge.cut.base.capacity)
    (unfinished : processed ≠ maximumSlots) (index : ImmutableReadIndex)
    (same : index.capacity = builder.index.capacity) :
    Moves merge builder maximumSlots processed
      { merge with
        baseCursor := merge.baseCursor + 1
        builder := some { builder with index := index } }
      (processed + 1)
  | enterReady (phase : merge.phase = .delta)
    (complete : merge.deltaCursor = merge.cut.delta.capacity) :
    Moves merge builder maximumSlots processed { merge with phase := .ready } processed
  | delta (phase : merge.phase = .delta) (partly : merge.deltaCursor ≠ merge.cut.delta.capacity)
    (unfinished : processed ≠ maximumSlots) (index : ImmutableReadIndex)
    (same : index.capacity = builder.index.capacity) :
    Moves merge builder maximumSlots processed
      { merge with
        deltaCursor := merge.deltaCursor + 1
        builder := some { builder with index := index } }
      (processed + 1)

variable {advanced : PairReadMerge} {record : ReadRecordView}

theorem insert_cases (inserted : advanced.insert builder processed record = .next next processed') :
    ∃ index, index.capacity = builder.index.capacity ∧
      next = { advanced with builder := some { builder with index := index } } ∧
      processed' = processed := by
  unfold insert at inserted
  split at inserted
  · next index appended =>
    obtain ⟨-, -, slot, -, rfl⟩ := ImmutableReadIndex.append_cases appended
    obtain ⟨rfl, rfl⟩ := MergeTurn.next.inj inserted
    exact ⟨builder.index.appended record slot, rfl, rfl, rfl⟩
  · exact nomatch inserted

theorem baseTurn_moves (stands : merge.builder = some builder) (phase : merge.phase = .base)
    (turned : merge.baseTurn heap builder maximumSlots processed = .next next processed') :
    Moves merge builder maximumSlots processed next processed' := by
  have skips (partly : merge.baseCursor ≠ merge.cut.base.capacity)
      (unfinished : processed ≠ maximumSlots) : Moves merge builder maximumSlots processed
        { merge with baseCursor := merge.baseCursor + 1 } (processed + 1) := by
    have move := Moves.base phase partly unfinished builder.index rfl
    rwa [← stands] at move
  revert turned
  fun_cases baseTurn merge heap builder maximumSlots processed with
  | case1 complete =>
    intro turned
    obtain ⟨rfl, rfl⟩ := MergeTurn.next.inj turned
    exact .enterDelta phase complete
  | case2 => exact nofun
  | case3 partly unfinished | case6 partly unfinished =>
    intro turned
    obtain ⟨rfl, rfl⟩ := MergeTurn.next.inj turned
    exact skips partly unfinished
  | case4 partly unfinished | case5 partly unfinished =>
    intro turned
    obtain ⟨index, same, rfl, rfl⟩ := insert_cases turned
    exact .base phase partly unfinished index same

theorem deltaTurn_moves (stands : merge.builder = some builder) (phase : merge.phase = .delta)
    (turned : merge.deltaTurn heap builder maximumSlots processed = .next next processed') :
    Moves merge builder maximumSlots processed next processed' := by
  have skips (partly : merge.deltaCursor ≠ merge.cut.delta.capacity)
      (unfinished : processed ≠ maximumSlots) : Moves merge builder maximumSlots processed
        { merge with deltaCursor := merge.deltaCursor + 1 } (processed + 1) := by
    have move := Moves.delta phase partly unfinished builder.index rfl
    rwa [← stands] at move
  revert turned
  fun_cases deltaTurn merge heap builder maximumSlots processed with
  | case1 complete =>
    intro turned
    obtain ⟨rfl, rfl⟩ := MergeTurn.next.inj turned
    exact .enterReady phase complete
  | case2 => exact nofun
  | case3 partly unfinished | case4 partly unfinished | case5 partly unfinished =>
    intro turned
    obtain ⟨rfl, rfl⟩ := MergeTurn.next.inj turned
    exact skips partly unfinished
  | case6 partly unfinished =>
    intro turned
    obtain ⟨index, same, rfl, rfl⟩ := insert_cases turned
    exact .delta phase partly unfinished index same

theorem turn_moves (stands : merge.builder = some builder)
    (turned : merge.turn heap maximumSlots processed = .next next processed') :
    Moves merge builder maximumSlots processed next processed' ∧
      (next.phase = .initializing → builder.initializedSlots ≠ builder.index.capacity) := by
  unfold turn at turned
  rw [stands] at turned
  cases phase : merge.phase with
  | ready =>
    simp only [phase] at turned
    exact nomatch turned
  | initializing =>
    simp only [phase] at turned
    split at turned
    · next complete =>
      obtain ⟨rfl, rfl⟩ := MergeTurn.next.inj turned
      have move : Moves merge builder maximumSlots processed _ _ := .enterBase phase complete
      rw [stands] at move
      exact ⟨move, nofun⟩
    next uncleared =>
    split at turned
    · exact nomatch turned
    · next unfinished =>
      obtain ⟨rfl, rfl⟩ := MergeTurn.next.inj turned
      have move : Moves merge builder maximumSlots processed _ _ := .clear phase unfinished
      rw [phase] at move
      exact ⟨move, fun _ => uncleared⟩
  | base =>
    simp only [phase] at turned
    have move := baseTurn_moves stands phase turned
    exact ⟨move, fun early => by cases move <;> simp_all⟩
  | delta =>
    simp only [phase] at turned
    have move := deltaTurn_moves stands phase turned
    exact ⟨move, fun early => by cases move <;> simp_all⟩

structure Inside (merge : PairReadMerge) (builder : IncrementalBaseBuilder) : Prop where
  builder : builder.initializedSlots ≤ builder.index.capacity ∨ merge.phase ≠ .initializing
  base : merge.baseCursor ≤ merge.cut.base.capacity
  delta : merge.deltaCursor ≤ merge.cut.delta.capacity

theorem Sound.inside (sound : merge.Sound hash heap) (stands : merge.builder = some builder) :
    merge.Inside builder := by
  rcases sound.progress builder stands with ⟨-, clearing⟩ | ⟨cursors, filling⟩
  · obtain ⟨base, delta⟩ := clearing.unvisited
    exact ⟨.inl clearing.inside, by omega, by omega⟩
  · refine ⟨.inr fun phase => ?_, filling.baseInside, filling.deltaInside⟩
    simp [Cursors, phase] at cursors

section Moves

variable (moves : Moves merge builder maximumSlots processed next processed')
include moves

/-- Every turn that goes on leaves a phase or processes a slot within the quantum. -/
theorem Moves.decreases (inside : merge.Inside builder) (within : processed ≤ maximumSlots)
    (clears : next.phase = .initializing → builder.initializedSlots ≠ builder.index.capacity) :
    processed' ≤ maximumSlots ∧
      maximumSlots - processed' + next.phasesLeft < maximumSlots - processed + merge.phasesLeft := by
  cases moves with
  | enterBase phase | enterDelta phase | enterReady phase | base phase | delta phase =>
    simp only [phasesLeft, phase]
    omega
  | clear phase unfinished =>
    have room := inside.builder.resolve_right (not_not.mpr phase)
    have uncleared := clears phase
    simp only [phasesLeft, phase, IncrementalBaseBuilder.initializeNext]
    omega

theorem Moves.slotsLeft (stands : merge.builder = some builder) (inside : merge.Inside builder)
    (within : processed ≤ maximumSlots) :
    next.slotsLeft + processed' = merge.slotsLeft + processed := by
  obtain ⟨initialized, base, delta⟩ := inside
  cases moves with
  | enterBase phase complete => simp [slotsLeft, stands, phase]
  | enterDelta phase complete | enterReady phase complete =>
    simp [slotsLeft, stands, phase, complete]
  | clear phase unfinished =>
    have room := initialized.resolve_right (not_not.mpr phase)
    simp only [slotsLeft, stands, phase, IncrementalBaseBuilder.initializeNext,
      ImmutableReadIndex.initializeControlSlots]
    omega
  | base phase partly unfinished index same =>
    simp only [slotsLeft, stands, phase, same, or_true, if_true, ne_eq, reduceCtorEq,
      not_false_eq_true]
    omega
  | delta phase partly unfinished index same =>
    simp only [slotsLeft, stands, phase, same, or_false, if_false, if_true, ne_eq,
      reduceCtorEq, not_false_eq_true]
    omega

theorem Moves.cleared (stands : merge.builder = some builder)
    (cleared : merge.phase ≠ .initializing →
      builder.initializedSlots = builder.index.capacity) :
    ∃ after, next.builder = some after ∧ after.index.capacity = builder.index.capacity ∧
      (next.phase ≠ .initializing → after.initializedSlots = after.index.capacity) ∧
      next.maximumPostEntries = merge.maximumPostEntries := by
  cases moves with
  | enterBase phase complete => exact ⟨builder, stands, rfl, fun _ => complete, rfl⟩
  | enterDelta phase complete | enterReady phase complete =>
    exact ⟨builder, stands, rfl, fun _ => cleared (by rw [phase]; exact nofun), rfl⟩
  | clear phase unfinished => exact ⟨_, rfl, rfl, fun early => absurd phase early, rfl⟩
  | base phase partly unfinished index same | delta phase partly unfinished index same =>
    exact ⟨_, rfl, same, fun late => (cleared late).trans same.symm, rfl⟩

end Moves

theorem insert_ne_done :
    advanced.insert builder processed record ≠ .done := by
  unfold insert
  split <;> exact nofun

theorem baseTurn_done (turned : merge.baseTurn heap builder maximumSlots processed = .done) :
    merge.baseCursor ≠ merge.cut.base.capacity ∧ processed = maximumSlots := by
  revert turned
  fun_cases baseTurn merge heap builder maximumSlots processed with
  | case2 partly used => exact fun _ => ⟨partly, used⟩
  | case4 | case5 => exact fun turned => absurd turned insert_ne_done
  | _ => exact nofun

theorem deltaTurn_done (turned : merge.deltaTurn heap builder maximumSlots processed = .done) :
    merge.deltaCursor ≠ merge.cut.delta.capacity ∧ processed = maximumSlots := by
  revert turned
  fun_cases deltaTurn merge heap builder maximumSlots processed with
  | case2 partly used => exact fun _ => ⟨partly, used⟩
  | case6 => exact fun turned => absurd turned insert_ne_done
  | _ => exact nofun

theorem turn_done (stands : merge.builder = some builder) (inside : merge.Inside builder)
    (cleared : merge.phase ≠ .initializing → builder.initializedSlots = builder.index.capacity)
    (turned : merge.turn heap maximumSlots processed = .done) :
    (merge.phase = .ready ∧ merge.slotsLeft = 0) ∨
      (merge.phase ≠ .ready ∧ processed = maximumSlots ∧ 0 < merge.slotsLeft) := by
  obtain ⟨initialized, base, delta⟩ := inside
  unfold turn at turned
  rw [stands] at turned
  unfold slotsLeft
  rw [stands]
  cases phase : merge.phase with
  | ready => exact .inl ⟨rfl, by simp [cleared (by rw [phase]; exact nofun)]⟩
  | initializing =>
    have room := initialized.resolve_right (not_not.mpr phase)
    simp only [phase] at turned
    split at turned
    · exact nomatch turned
    split at turned
    · next used => exact .inr ⟨nofun, used, by simp only [true_or, if_true]; omega⟩
    · exact nomatch turned
  | base =>
    simp only [phase] at turned
    obtain ⟨partly, used⟩ := baseTurn_done turned
    exact .inr ⟨nofun, used, by simp only [or_true, if_true]; omega⟩
  | delta =>
    simp only [phase] at turned
    obtain ⟨partly, used⟩ := deltaTurn_done turned
    refine .inr ⟨nofun, used, ?_⟩
    simp only [ne_eq, reduceCtorEq, not_false_eq_true, if_true]
    omega

/-! ## Quanta -/

structure Spends (merge : PairReadMerge) (builder : IncrementalBaseBuilder)
    (maximumSlots processed : Nat) (outcome : PairReadMerge × Result Nat) : Prop where
  settled : outcome.1.Settled
  final : ∃ after, outcome.1.builder = some after ∧
    after.index.capacity = builder.index.capacity
  post : outcome.1.maximumPostEntries = merge.maximumPostEntries
  slots : outcome.1.slotsLeft = merge.slotsLeft - min (maximumSlots - processed) merge.slotsLeft
  succeeds : ∃ spent, outcome.2 = .ok spent

theorem turns_spend (heapSound : heap.Valid hash) {fuel : Nat}
    (sound : merge.Sound hash heap) (stands : merge.builder = some builder)
    (cleared : merge.phase ≠ .initializing → builder.initializedSlots = builder.index.capacity)
    (within : processed ≤ maximumSlots)
    (enough : maximumSlots - processed + merge.phasesLeft < fuel) :
    Spends merge builder maximumSlots processed
      (turns heap maximumSlots fuel merge processed) := by
  induction fuel generalizing merge builder processed with
  | zero => omega
  | succ fuel ih =>
    have here := turn_sound sound heapSound maximumSlots processed
    rw [turns]
    cases turned : merge.turn heap maximumSlots processed with
    | thrown left =>
      rw [turned] at here
      exact here.elim
    | done =>
      have stops := turn_done stands (sound.inside stands) cleared turned
      have settled : merge.Settled := by
        refine ⟨fun other same => ?_, fun none => ?_, ?_⟩
        · obtain rfl : builder = other := Option.some.inj (stands.symm.trans same)
          exact cleared
        · rw [stands] at none
          cases none
        · rcases stops with ⟨ready, none⟩ | ⟨busy, -, some⟩
          · exact ⟨fun _ => ready, fun _ => none⟩
          · exact ⟨fun none => absurd none (by omega), fun ready => absurd ready busy⟩
      refine ⟨settled, ⟨builder, stands, rfl⟩, rfl, ?_, processed, rfl⟩
      show merge.slotsLeft = _
      omega
    | next next processed' =>
      rw [turned] at here
      obtain ⟨moves, clears⟩ := turn_moves stands turned
      obtain ⟨within', less⟩ := moves.decreases (sound.inside stands) within clears
      have slots := moves.slotsLeft stands (sound.inside stands) within
      obtain ⟨after, stands', capacity, cleared', post⟩ := moves.cleared stands cleared
      have later := ih here.sound stands' cleared' within' (by omega)
      have increases : processed ≤ processed' := by
        cases moves <;> omega
      refine ⟨later.settled, ?_, later.post.trans post, ?_, later.succeeds⟩
      · obtain ⟨last, final, bound⟩ := later.final
        exact ⟨last, final, bound.trans capacity⟩
      · have left := later.slots
        dsimp only at left ⊢
        omega

/-- A quantum lowers the slots that are left by as many as it is given, or by all of them. -/
theorem advance_spends (heapSound : heap.Valid hash) (sound : merge.Sound hash heap)
    (settled : merge.Settled) (maximumSlots : Nat) :
    (merge.advance heap maximumSlots).1.Settled ∧
      (merge.advance heap maximumSlots).1.slotsLeft =
        merge.slotsLeft - min maximumSlots merge.slotsLeft ∧
      (merge.advance heap maximumSlots).1.maximumPostEntries = merge.maximumPostEntries ∧
      (∀ after, (merge.advance heap maximumSlots).1.builder = some after →
        ∃ builder, merge.builder = some builder ∧
          after.index.capacity = builder.index.capacity) ∧
      (maximumSlots ≠ 0 → ∃ spent, (merge.advance heap maximumSlots).2 = .ok spent) := by
  unfold advance
  split
  · next none =>
    refine ⟨settled, by rw [none, Nat.zero_min, Nat.sub_zero], rfl, ?_, fun some => absurd none some⟩
    exact fun after stands => ⟨after, stands, rfl⟩
  cases stands : merge.builder with
  | none =>
    have still : turns heap maximumSlots (maximumSlots + 4) merge 0 = (merge, .ok 0) := by
      simp [turns, turn, stands]
    have empty : merge.slotsLeft = 0 := settled.ready.mpr (settled.finished stands)
    rw [still]
    refine ⟨settled, by rw [empty, Nat.zero_sub], rfl, ?_, fun _ => ⟨0, rfl⟩⟩
    intro after found
    rw [stands] at found
    cases found
  | some builder =>
    have spends := turns_spend heapSound sound stands (settled.cleared builder stands)
      (Nat.zero_le maximumSlots)
      (show maximumSlots - 0 + merge.phasesLeft < maximumSlots + 4 by
        have few : merge.phasesLeft ≤ 3 := by
          unfold phasesLeft
          split <;> decide
        omega)
    refine ⟨spends.settled, spends.slots, spends.post, ?_, fun _ => spends.succeeds⟩
    intro after found
    obtain ⟨last, final, capacity⟩ := spends.final
    obtain rfl : last = after := Option.some.inj (final.symm.trans found)
    exact ⟨builder, rfl, capacity⟩

end PairReadMerge

end GlifiStore
