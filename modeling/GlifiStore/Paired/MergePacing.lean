import GlifiStore.Lib.Runs
import GlifiStore.Paired.LaneMeasure

/-!
# The pace of a merge

Before every batch the writer advances its merge by a share of the slots that are left: the
share that the batch takes of the capacity after the cut. A batch that takes all of that
capacity, or more, gets all slots; so the merge is ready when the capacity is used up.
-/

namespace GlifiStore

open ByteLayout OpenAddressing ReadTable CopyOnWrite PairReadMerge

def saturatingAdd (left right : Nat) : Nat :=
  if right > kSizeMax - left then kSizeMax else left + right

theorem saturatingAdd_eq {left right : Nat} (fits : left + right ≤ kSizeMax) :
    saturatingAdd left right = left + right :=
  if_neg (by omega)

namespace PairReadMerge

variable (merge : PairReadMerge)

def isReady : Bool := merge.phase = .ready

def remainingSlots : Nat :=
  match merge.builder with
  | none => 0
  | some builder =>
    let remaining := builder.index.capacity - builder.initializedSlots
    let remaining :=
      if merge.phase = .initializing ∨ merge.phase = .base then
        saturatingAdd remaining (merge.cut.base.capacity - merge.baseCursor)
      else remaining
    if merge.phase ≠ .ready then
      saturatingAdd remaining (merge.cut.delta.capacity - merge.deltaCursor)
    else remaining

def postCapacityRemaining (heap : DeltaHeap) : Nat :=
  if merge.postDelta.size > merge.maximumPostEntries then 0
  else
    min (merge.maximumPostEntries - merge.postDelta.size)
      (merge.postDelta.availableRecordVersions heap)

/-- `merge_advance_budget`. The products and sums are those of `std::size_t`. -/
def advanceBudget (heap : DeltaHeap) (maximumNewRecords minimumSlots : Nat) : Nat :=
  let remainingSlots := merge.remainingSlots
  if remainingSlots = 0 then 0
  else
    let postCapacity := merge.postCapacityRemaining heap
    if maximumNewRecords = 0 then min remainingSlots minimumSlots
    else if maximumNewRecords ≥ postCapacity then remainingSlots
    else
      let quotient := remainingSlots / postCapacity
      let remainder := remainingSlots % postCapacity
      let tailProduct := remainder * maximumNewRecords % 2 ^ 64
      let proportional :=
        (quotient * maximumNewRecords % 2 ^ 64 + tailProduct / postCapacity) % 2 ^ 64
      let proportional :=
        if tailProduct % postCapacity ≠ 0 then (proportional + 1) % 2 ^ 64 else proportional
      min remainingSlots (max minimumSlots proportional)

def postRefuses (heap : DeltaHeap) (maximumNewEntries : Nat) : Bool :=
  ¬ (merge.postDelta.size ≤ merge.maximumPostEntries ∧
    maximumNewEntries ≤ merge.maximumPostEntries - merge.postDelta.size ∧
    maximumNewEntries ≤ merge.postDelta.availableRecordVersions heap)

end PairReadMerge

variable {count : Nat}

theorem canPublishIncremental_with_merge {heap : DeltaHeap} {current : PairReadGeneration}
    {merge : PairReadMerge} :
    canPublishIncremental heap current (some merge) count =
      (canPublishIncremental heap current none count && !merge.postRefuses heap count) := by
  unfold canPublishIncremental postRefuses
  dsimp only
  split
  · rfl
  · rw [Bool.eq_iff_iff]
    simp [and_assoc]

variable {minimumSlots : Nat}

namespace PairReadMerge

variable {merge : PairReadMerge} {heap : DeltaHeap}

theorem Measured.remainingSlots_eq (measured : merge.Measured) :
    merge.remainingSlots = merge.slotsLeft := by
  have base := measured.cutBase
  have delta := measured.cutDelta.capacity
  unfold remainingSlots slotsLeft
  cases stands : merge.builder with
  | none => rfl
  | some builder =>
    have index := measured.builder builder stands
    have bound : builder.index.capacity + merge.cut.base.capacity + merge.cut.delta.capacity ≤
        kSizeMax := by
      have small : kMaximumBaseCapacity + kMaximumBaseCapacity + kIncrementalDeltaCapacity ≤
          kSizeMax := by decide
      omega
    dsimp only
    cases merge.phase with
    | initializing | base =>
      have inner := @saturatingAdd_eq (builder.index.capacity - builder.initializedSlots)
        (merge.cut.base.capacity - merge.baseCursor) (by omega)
      simp only [true_or, or_true, if_true, ne_eq, reduceCtorEq, not_false_eq_true]
      rw [inner, saturatingAdd_eq (by omega)]
    | delta =>
      simp only [reduceCtorEq, or_false, if_false, ne_eq, not_false_eq_true, if_true]
      rw [saturatingAdd_eq (by omega)]
      omega
    | ready => simp

theorem Measured.remainingSlots_eq_zero (measured : merge.Measured) :
    merge.remainingSlots = 0 ↔ merge.isReady = true := by
  rw [measured.remainingSlots_eq, measured.settled.ready, isReady, decide_eq_true_eq]

theorem Measured.of_postRefuses (measured : merge.Measured)
    (refuses : merge.postRefuses heap count = true) :
    count ≠ 0 ∧ merge.postCapacityRemaining heap ≤ count := by
  have size := measured.postSize
  unfold postRefuses at refuses
  unfold postCapacityRemaining
  rw [decide_eq_true_eq] at refuses
  rw [if_neg (by omega)]
  omega

theorem advanceBudget_eq_remainingSlots (some : count ≠ 0)
    (all : merge.postCapacityRemaining heap ≤ count) :
    merge.advanceBudget heap count minimumSlots = merge.remainingSlots := by
  unfold advanceBudget
  dsimp only
  by_cases none : merge.remainingSlots = 0
  · rw [if_pos none, none]
  · rw [if_neg none, if_neg some, if_pos all]

theorem advanceBudget_pos (heap : DeltaHeap) (count : Nat) (left : merge.remainingSlots ≠ 0)
    (positive : 0 < minimumSlots) : 0 < merge.advanceBudget heap count minimumSlots := by
  unfold advanceBudget
  dsimp only
  rw [if_neg left]
  split
  · omega
  · split <;> omega

end PairReadMerge

/-! ## Paced batches -/

section Paced

variable {hash : Key → UInt64} {lane : ReadLane}

def ReadLane.advanceFor (hash : Key → UInt64) (minimumSlots : Nat) (lane : ReadLane)
    (count : Nat) : ReadLane :=
  match lane.merge with
  | none => lane
  | some merge =>
    (lane.step hash (.advanceMerge (merge.advanceBudget lane.heap count minimumSlots))).1

/-- A batch as the writer takes it: the merge is advanced by its budget, and the batch is
published when it is admitted. -/
def ReadLane.pacedBatch (hash : Key → UInt64) (minimumSlots : Nat) (lane : ReadLane)
    (mutations : List ReadMutation) : ReadLane :=
  let advanced := lane.advanceFor hash minimumSlots mutations.length
  if canPublishIncremental advanced.heap advanced.newest advanced.merge mutations.length then
    (advanced.step hash (.publish mutations true)).1
  else advanced

/-- The merge of a lane keeps pace with a batch. -/
structure PairReadMerge.KeepsPace (merge : PairReadMerge) (heap : DeltaHeap)
    (minimumSlots count : Nat) : Prop where
  /-- No slot is left exactly when the merge is ready. -/
  before : merge.remainingSlots = 0 ↔ merge.isReady = true
  after : (merge.advance heap (merge.advanceBudget heap count minimumSlots)).1.remainingSlots = 0 ↔
    (merge.advance heap (merge.advanceBudget heap count minimumSlots)).1.isReady = true
  /-- The advance processes its budget, or all slots that are left. -/
  spends : (merge.advance heap (merge.advanceBudget heap count minimumSlots)).1.remainingSlots =
    merge.remainingSlots -
      min (merge.advanceBudget heap count minimumSlots) merge.remainingSlots
  succeeds : merge.remainingSlots ≠ 0 →
    ∃ spent, (merge.advance heap (merge.advanceBudget heap count minimumSlots)).2 = .ok spent
  /-- The merge is ready when the capacity after the cut refuses the batch. -/
  inTime :
    (merge.advance heap (merge.advanceBudget heap count minimumSlots)).1.postRefuses heap count =
      true →
    (merge.advance heap (merge.advanceBudget heap count minimumSlots)).1.isReady = true

def ReadLane.KeepsPace (minimumSlots : Nat) (lane : ReadLane) (mutations : List ReadMutation) :
    Prop :=
  ∀ merge ∈ lane.merge, merge.KeepsPace lane.heap minimumSlots mutations.length

theorem ReadLane.Sound.keepsPace (sound : lane.Sound hash) (positive : 0 < minimumSlots)
    (mutations : List ReadMutation) :
    lane.KeepsPace minimumSlots mutations := by
  intro merge stands
  obtain ⟨history, tracked⟩ := sound.tracked
  have measured := sound.measured.merge merge stands
  have merging := (tracked.merge merge stands).sound
  generalize budgeted :
    merge.advanceBudget lane.heap mutations.length minimumSlots = budget
  obtain ⟨-, slots, postEntries, -, succeeds⟩ :=
    advance_spends tracked.heap merging measured.settled budget
  have advances := advance_sound tracked.heap merging budget
  have measured' := measured.advance merging tracked.heap budget
  have spends : (merge.advance lane.heap budget).1.remainingSlots =
      merge.remainingSlots - min budget merge.remainingSlots := by
    rw [measured.remainingSlots_eq, measured'.remainingSlots_eq, slots]
  constructor
  case before => exact measured.remainingSlots_eq_zero
  all_goals rw [budgeted]
  case after => exact measured'.remainingSlots_eq_zero
  case spends => exact spends
  case succeeds =>
    intro left
    have some := advanceBudget_pos lane.heap mutations.length left positive
    rw [budgeted] at some
    exact succeeds (by omega)
  case inTime =>
    intro refuses
    have same : (merge.advance lane.heap budget).1.postRefuses lane.heap mutations.length =
        merge.postRefuses lane.heap mutations.length := by
      unfold postRefuses
      rw [advances.postDelta, postEntries]
    rw [same] at refuses
    obtain ⟨nonempty, all⟩ := measured.of_postRefuses refuses
    rw [advanceBudget_eq_remainingSlots nonempty all] at budgeted
    refine measured'.remainingSlots_eq_zero.mp ?_
    rw [spends, budgeted, Nat.min_self, Nat.sub_self]

theorem ReadLane.Sound.pacedBatch (sound : lane.Sound hash) (minimumSlots : Nat)
    (mutations : List ReadMutation) :
    (lane.pacedBatch hash minimumSlots mutations).Sound hash := by
  have advanced : (lane.advanceFor hash minimumSlots mutations.length).Sound hash := by
    unfold ReadLane.advanceFor
    split
    · exact sound
    · exact sound.step (show LaneAction.Valid hash (.advanceMerge _) from trivial)
  unfold ReadLane.pacedBatch
  dsimp only
  split
  · exact advanced.step (show LaneAction.Valid hash (.publish mutations true) from trivial)
  · exact advanced

/-- However a lane and its merge came about, and whatever batches follow, the merge keeps
pace with each of them. -/
theorem merge_keeps_pace {records : List PublishedReadRecord} {raw : RawStorage} {lane : ReadLane}
    (snapshot : ImmutableReadIndex.SnapshotValid hash records)
    (opened : openReadLane records raw = .ok lane) (actions : List LaneAction)
    (valid : ∀ action ∈ actions, action.Valid hash) {minimumSlots : Nat}
    (positive : 0 < minimumSlots) (batches : List (List ReadMutation)) :
    Runs.Guarded (ReadLane.pacedBatch hash minimumSlots) (ReadLane.KeepsPace minimumSlots)
      (lane.run hash actions).1 batches := by
  have sound := (openReadLane_sound snapshot opened).run valid
  generalize (lane.run hash actions).1 = reached at sound
  induction batches generalizing reached with
  | nil => trivial
  | cons batch rest ih =>
    exact ⟨sound.keepsPace positive batch, ih _ (sound.pacedBatch minimumSlots batch)⟩

end Paced

/-- A lane with a key, and a merge that its next batch advances by two slots of very many. -/
theorem merge_keeps_pace_of_two :
    ∃ lane, openReadLane [] ⟨fun _ => 0, fun _ => 0⟩ = .ok lane ∧
      let actions : List LaneAction :=
        [.publish [{ key := [1], record := ⟨1, 0, 64, 1, 1⟩, segment := some ⟨1, 1⟩ }] false,
          .startMerge 65536 ⟨fun _ => 0, fun _ => 0⟩]
      let final := (lane.run (fun _ => 0) actions).1
      Runs.Guarded (ReadLane.pacedBatch (fun _ => 0) 1) (ReadLane.KeepsPace 1) final
          [[{ key := [2], record := ⟨1, 64, 64, 2, 1⟩, opcode := .erase }]] ∧
        final.merge.map (fun merge => (merge.remainingSlots, merge.advanceBudget final.heap 1 1)) =
          some (65552, 2) := by
  have opened : openReadLane [] ⟨fun _ => 0, fun _ => 0⟩ = .ok _ := rfl
  refine ⟨_, opened, ?_⟩
  intro actions final
  have valid : ∀ action ∈ actions, action.Valid (fun _ => 0) := by
    simp [actions, LaneAction.Valid]
  exact ⟨merge_keeps_pace .nil opened actions valid (by decide) _, by decide +kernel⟩

end GlifiStore
