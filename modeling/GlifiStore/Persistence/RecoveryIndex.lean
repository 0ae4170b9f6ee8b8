import GlifiStore.Index.Refinement
import GlifiStore.Persistence.Recovery

/-!
# What the recovered Index holds

Filling a reserved Index with the latest records binds exactly the visible ones
and counts their bytes, unless the key arena or a counter is exhausted.
-/

namespace GlifiStore

open OpenAddressing SwissTableIndex

def LatestRecord.visible (record : LatestRecord) : Bool :=
  !record.deleted && !record.expired

def visibleBindings (latest : List (Key × LatestRecord)) : List (Key × RecordRef) :=
  (latest.filter fun entry => entry.2.visible).map fun entry => (entry.1, entry.2.reference)

variable (inside : RecordRef → Bool)

/-- The bytes of the references that a Segment predicate selects. -/
def bytesWhere (bindings : List (Key × RecordRef)) : Nat :=
  ((bindings.filter fun binding => inside binding.2).map fun binding => binding.2.size).sum

def isActiveRef (activeSegment : Nat) (reference : RecordRef) : Bool :=
  reference.segmentId = activeSegment

def isSealedRef (activeSegment : Nat) (reference : RecordRef) : Bool :=
  reference.segmentId ≠ activeSegment

@[simp]
theorem bytesWhere_nil : bytesWhere inside [] = 0 := rfl

@[simp]
theorem bytesWhere_cons (key : Key) (ref : RecordRef) (rest : List (Key × RecordRef)) :
    bytesWhere inside ((key, ref) :: rest) =
      (if inside ref then ref.size else 0) + bytesWhere inside rest := by
  by_cases holds : inside ref <;> simp [bytesWhere, holds]

theorem visibleBindings_cons (entry : Key × LatestRecord) (rest : List (Key × LatestRecord)) :
    visibleBindings (entry :: rest) =
      if entry.2.visible then (entry.1, entry.2.reference) :: visibleBindings rest
      else visibleBindings rest := by
  by_cases visible : entry.2.visible <;> simp [visibleBindings, visible]

/-- The counters are `std::uint64_t`. -/
structure LiveIndex.Counted (built : LiveIndex) : Prop where
  active : built.activeBytes ≤ kUInt64Max
  sealed : built.sealedBytes ≤ kUInt64Max

variable {built next : LiveIndex}

theorem LiveIndex.addLiveBytes_ok_iff {activeSegment : Nat} {reference : RecordRef}
    (counted : built.Counted) :
    built.addLiveBytes activeSegment reference = .ok next ↔
      next = ⟨built.index,
        built.activeBytes + (if isActiveRef activeSegment reference then reference.size else 0),
        built.sealedBytes + (if isSealedRef activeSegment reference then reference.size else 0)⟩ ∧
      next.Counted := by
  obtain ⟨activeFits, sealedFits⟩ := counted
  unfold addLiveBytes
  by_cases same : reference.segmentId = activeSegment
  · rw [if_pos same]
    simp only [isActiveRef, isSealedRef, same, decide_true, if_true, ne_eq, not_true_eq_false,
      decide_false, Bool.false_eq_true, if_false, Nat.add_zero]
    split
    · next overflow =>
      simp only [fail, reduceCtorEq, false_iff]
      rintro ⟨rfl, active, -⟩
      simp only at active
      omega
    · next fits =>
      simp only [Except.ok.injEq, eq_comm (a := next), iff_self_and]
      rintro rfl
      exact ⟨by simp only; omega, sealedFits⟩
  · rw [if_neg same]
    simp only [isActiveRef, isSealedRef, same, decide_true, if_true, ne_eq, not_false_eq_true,
      decide_false, Bool.false_eq_true, if_false, Nat.add_zero]
    split
    · next overflow =>
      simp only [fail, reduceCtorEq, false_iff]
      rintro ⟨rfl, -, «sealed»⟩
      simp only at «sealed»
      omega
    · next fits =>
      simp only [Except.ok.injEq, eq_comm (a := next), iff_self_and]
      rintro rfl
      exact ⟨activeFits, by simp only; omega⟩

section Fill

variable {routing : WorkerRoutingState} {activeSegment : Nat}

structure Filled (routing : WorkerRoutingState) (activeSegment : Nat) (built : LiveIndex)
    (bindings : List (Key × RecordRef)) (final : LiveIndex) : Prop where
  fresh : Fresh (hashKeyRouting · routing) final.index
  counted : final.Counted
  maximumOccupancy : final.index.maximumOccupancy = built.index.maximumOccupancy
  size : final.index.size = built.index.size + bindings.length
  bump : final.index.heapKeys.bump = built.index.heapKeys.bump + entriesHeapLength bindings
  binds : ∀ key ref, Binds final.index.cellAt key ref ↔
    Binds built.index.cellAt key ref ∨ (key, ref) ∈ bindings
  activeBytes : final.activeBytes =
    built.activeBytes + bytesWhere (isActiveRef activeSegment) bindings
  sealedBytes : final.sealedBytes =
    built.sealedBytes + bytesWhere (isSealedRef activeSegment) bindings

structure Insertable (routing : WorkerRoutingState) (entry : Key × LatestRecord) : Prop where
  small : entry.1.length < kInlineKeyMask
  hashed : UInt64.ofNat entry.2.keyHash = hashKeyRouting entry.1 routing

variable (activeSegment) in
theorem insertLatest_spec {entry : Key × LatestRecord}
    (fresh : Fresh (hashKeyRouting · routing) built.index) (counted : built.Counted)
    (visible : entry.2.visible = true) (insertable : Insertable routing entry)
    (absent : ∀ ref, ¬ Binds built.index.cellAt entry.1 ref)
    (room : built.index.size < built.index.maximumOccupancy) :
    (∃ next, insertLatest routing activeSegment built entry = .ok next ∧
      Filled routing activeSegment built [(entry.1, entry.2.reference)] next) ∨
    (∃ error, insertLatest routing activeSegment built entry = .error error ∧
      (kUInt32Max < built.index.heapKeys.bump + heapLength entry.1 ∨
        kUInt64Max < built.activeBytes +
          bytesWhere (isActiveRef activeSegment) [(entry.1, entry.2.reference)] ∨
        kUInt64Max < built.sealedBytes +
          bytesWhere (isSealedRef activeSegment) [(entry.1, entry.2.reference)])) := by
  have notDeleted : ¬ entry.2.deleted = true := by
    simp only [LatestRecord.visible, Bool.and_eq_true, Bool.not_eq_true'] at visible
    simp [visible.1]
  have notExpired : ¬ entry.2.expired = true := by
    simp only [LatestRecord.visible, Bool.and_eq_true, Bool.not_eq_true'] at visible
    simp [visible.2]
  unfold insertLatest
  rw [if_neg notDeleted, if_neg notExpired, insertable.hashed, insertOrAssign]
  rcases fresh.insert_spec insertable.small absent room
      (rehash (hashKeyRouting · routing) rehashDepth) entry.2.reference with
    ⟨after, outcome, run, -, extended⟩ | ⟨after, error, run, overflow⟩
  · simp only [run]
    have same (inside : RecordRef → Bool) : bytesWhere inside [(entry.1, entry.2.reference)] =
        if inside entry.2.reference then entry.2.reference.size else 0 := by
      rw [bytesWhere_cons]
      rfl
    have kept : ({ built with index := after } : LiveIndex).Counted :=
      ⟨counted.active, counted.sealed⟩
    cases added : ({ built with index := after } : LiveIndex).addLiveBytes activeSegment
        entry.2.reference with
    | ok next =>
      obtain ⟨rfl, nextCounted⟩ := (LiveIndex.addLiveBytes_ok_iff kept).mp added
      refine .inl ⟨_, rfl, extended.fresh, nextCounted, extended.maximumOccupancy, extended.size,
        ?_, ?_, ?_, ?_⟩
      · rw [extended.bump, entriesHeapLength_cons, entriesHeapLength_nil, Nat.add_zero]
      · intro key ref
        rw [extended.binds, List.mem_singleton, Prod.mk.injEq, or_comm]
      · rw [same]
      · rw [same]
    | error error =>
      refine .inr ⟨error, rfl, .inr ?_⟩
      rw [same, same]
      apply Classical.byContradiction
      intro fits
      simp only [not_or, Nat.not_lt] at fits
      have success := (LiveIndex.addLiveBytes_ok_iff kept).mpr ⟨rfl, ⟨fits.1, fits.2⟩⟩
      rw [added] at success
      simp at success
  · simp only [run]
    exact .inr ⟨error, rfl, .inl overflow⟩

theorem Filled.refl (fresh : Fresh (hashKeyRouting · routing) built.index) (counted : built.Counted)
    : Filled routing activeSegment built [] built where
  fresh := fresh
  counted := counted
  maximumOccupancy := rfl
  size := rfl
  bump := rfl
  binds := by simp
  activeBytes := rfl
  sealedBytes := rfl

theorem Filled.cons {final : LiveIndex} {key : Key} {ref : RecordRef}
    {rest : List (Key × RecordRef)} (first : Filled routing activeSegment built [(key, ref)] next)
    (later : Filled routing activeSegment next rest final) :
    Filled routing activeSegment built ((key, ref) :: rest) final where
  fresh := later.fresh
  counted := later.counted
  maximumOccupancy := later.maximumOccupancy.trans first.maximumOccupancy
  size := by
    rw [later.size, first.size]
    simp only [List.length_cons, List.length_nil]
    omega
  bump := by
    rw [later.bump, first.bump, entriesHeapLength_cons, entriesHeapLength_cons, Nat.add_assoc]
    rfl
  binds := by
    intro other payload
    rw [later.binds, first.binds, List.mem_singleton, List.mem_cons, or_assoc]
  activeBytes := by
    rw [later.activeBytes, first.activeBytes, bytesWhere_cons, bytesWhere_cons, Nat.add_assoc]
    rfl
  sealedBytes := by
    rw [later.sealedBytes, first.sealedBytes, bytesWhere_cons, bytesWhere_cons, Nat.add_assoc]
    rfl

def Exceeds (activeSegment : Nat) (built : LiveIndex) (bindings : List (Key × RecordRef)) : Prop :=
  kUInt32Max < built.index.heapKeys.bump + entriesHeapLength bindings ∨
    kUInt64Max < built.activeBytes + bytesWhere (isActiveRef activeSegment) bindings ∨
    kUInt64Max < built.sealedBytes + bytesWhere (isSealedRef activeSegment) bindings

variable (activeSegment) in
/-- Filling binds and counts every visible record, or exceeds a limit. -/
theorem fill_spec {latest : List (Key × LatestRecord)}
    (fresh : Fresh (hashKeyRouting · routing) built.index) (counted : built.Counted)
    (distinct : (latest.map Prod.fst).Nodup)
    (absent : ∀ entry ∈ latest, ∀ ref, ¬ Binds built.index.cellAt entry.1 ref)
    (insertable : ∀ entry ∈ latest, Insertable routing entry)
    (room : built.index.size + (visibleBindings latest).length ≤ built.index.maximumOccupancy) :
    (∃ final, latest.foldlM (insertLatest routing activeSegment) built = .ok final ∧
      Filled routing activeSegment built (visibleBindings latest) final) ∨
    (∃ error, latest.foldlM (insertLatest routing activeSegment) built = .error error ∧
      Exceeds activeSegment built (visibleBindings latest)) := by
  induction latest generalizing built with
  | nil => exact .inl ⟨built, rfl, .refl fresh counted⟩
  | cons entry rest ih =>
    rw [List.map_cons, List.nodup_cons] at distinct
    rw [visibleBindings_cons] at room ⊢
    rw [List.foldlM_cons]
    cases visible : entry.2.visible with
    | false =>
      rw [visible, if_neg (by simp)] at room
      have skipped : insertLatest routing activeSegment built entry = .ok built := by
        unfold insertLatest
        cases deleted : entry.2.deleted
        · simp only [LatestRecord.visible, deleted, Bool.not_false, Bool.true_and,
            Bool.not_eq_false'] at visible
          simp [visible]
        · simp
      rw [skipped, if_neg (by simp)]
      exact ih fresh counted distinct.2
        (fun other member => absent other (List.mem_cons_of_mem _ member))
        (fun other member => insertable other (List.mem_cons_of_mem _ member)) room
    | true =>
      rw [visible, if_pos rfl, List.length_cons] at room
      rw [if_pos rfl]
      rcases insertLatest_spec activeSegment fresh counted visible (insertable entry List.mem_cons_self)
          (absent entry List.mem_cons_self) (by omega) with
        ⟨next, inserted, first⟩ | ⟨error, failed, exceeds⟩
      · rw [inserted]
        have nextAbsent : ∀ other ∈ rest, ∀ ref, ¬ Binds next.index.cellAt other.1 ref := by
          intro other member ref bound
          rcases (first.binds other.1 ref).mp bound with earlier | same
          · exact absent other (List.mem_cons_of_mem _ member) ref earlier
          · have sameKey := (Prod.mk.inj (List.mem_singleton.mp same)).1
            exact distinct.1 (List.mem_map.mpr ⟨other, member, sameKey⟩)
        have nextRoom : next.index.size + (visibleBindings rest).length ≤
            next.index.maximumOccupancy := by
          rw [first.maximumOccupancy, first.size, List.length_singleton]
          omega
        rcases ih first.fresh first.counted distinct.2 nextAbsent
            (fun other member => insertable other (List.mem_cons_of_mem _ member)) nextRoom with
          ⟨final, run, later⟩ | ⟨error, run, exceeds⟩
        · exact .inl ⟨final, run, first.cons later⟩
        · refine .inr ⟨error, run, ?_⟩
          have bump := first.bump
          have activeBytes := first.activeBytes
          have sealedBytes := first.sealedBytes
          simp only [Exceeds, entriesHeapLength_cons, entriesHeapLength_nil, bytesWhere_cons,
            bytesWhere_nil] at exceeds bump activeBytes sealedBytes ⊢
          omega
      · rw [failed]
        refine .inr ⟨error, rfl, ?_⟩
        simp only [Exceeds, entriesHeapLength_cons, bytesWhere_cons, bytesWhere_nil] at exceeds ⊢
        omega

end Fill

end GlifiStore
