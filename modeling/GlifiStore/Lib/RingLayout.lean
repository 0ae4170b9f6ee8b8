import GlifiStore.Lib.ByteLayout

/-!
# Blocks laid around a ring

Blocks follow one another from a cursor that is taken modulo the size of a ring. A block is
not split where the ring ends: it runs on past the end. Blocks that together fit the ring
share no position.
-/

namespace RingLayout

open ByteLayout

variable {α : Type}

def total (blocks : List (List α)) : Nat := (blocks.map List.length).sum

/-- Where each block begins, with the block. -/
def fields (size : Nat) : Nat → List (List α) → List (Nat × List α)
  | _, [] => []
  | cursor, block :: rest => (cursor % size, block) :: fields size (cursor + block.length) rest

@[simp]
theorem total_nil : total ([] : List (List α)) = 0 := rfl

@[simp]
theorem total_cons (block : List α) (blocks : List (List α)) :
    total (block :: blocks) = block.length + total blocks := by
  simp [total]

@[simp]
theorem total_append (first second : List (List α)) :
    total (first ++ second) = total first + total second := by
  simp [total]

theorem fields_append (size cursor : Nat) (first second : List (List α)) :
    fields size cursor (first ++ second) =
      fields size cursor first ++ fields size (cursor + total first) second := by
  induction first generalizing cursor with
  | nil => rfl
  | cons block rest ih => simp [fields, ih, Nat.add_assoc]

theorem getElem?_fields (size cursor : Nat) (blocks : List (List α)) (i : Nat) :
    (fields size cursor blocks)[i]? =
      blocks[i]?.map fun block => ((cursor + total (blocks.take i)) % size, block) := by
  induction blocks generalizing cursor i with
  | nil => rfl
  | cons block rest ih =>
    cases i with
    | zero => simp [fields]
    | succ i => simp [fields, ih, Nat.add_assoc]

variable {size : Nat}

theorem apart_mod {first second : Nat} {left right : List α} (positive : 0 < size)
    (follows : first + left.length ≤ second) (window : second + right.length ≤ first + size) :
    Apart (first % size, left) (second % size, right) := by
  have start : first % size < size := Nat.mod_lt _ positive
  obtain ⟨distance, rfl⟩ := Nat.exists_eq_add_of_le (Nat.le_of_add_right_le follows)
  rw [← Nat.mod_add_mod first size distance]
  unfold Apart
  dsimp only
  generalize first % size = offset at start ⊢
  by_cases inside : offset + distance < size
  · rw [Nat.mod_eq_of_lt inside]
    exact .inl (by omega)
  · -- The second range begins after the wrap and ends before the first one begins.
    rw [Nat.mod_eq_sub_mod (by omega), Nat.mod_eq_of_lt (by omega)]
    exact .inr (by omega)

variable {cursor : Nat} {blocks : List (List α)} {block : List α}

theorem apart_of_mem_fields (positive : 0 < size) (fits : total blocks + block.length ≤ size)
    {field : Nat × List α} (member : field ∈ fields size cursor blocks) :
    Apart field ((cursor + total blocks) % size, block) := by
  obtain ⟨i, found⟩ := List.getElem?_of_mem member
  rw [getElem?_fields] at found
  obtain ⟨other, present, rfl⟩ := Option.map_eq_some_iff.mp found
  have split : total blocks = total (blocks.take i) + other.length + total (blocks.drop (i + 1)) := by
    obtain ⟨bound, rfl⟩ := List.getElem?_eq_some_iff.mp present
    conv_lhs => rw [← List.take_append_drop i blocks, List.drop_eq_getElem_cons bound]
    rw [total_append, total_cons, Nat.add_assoc]
  exact apart_mod positive (by omega) (by omega)

theorem pairwise_apart_fields (positive : 0 < size) (fits : total blocks ≤ size) :
    (fields size cursor blocks).Pairwise Apart := by
  induction blocks using List.reverseRecOn with
  | nil => exact .nil
  | append_singleton blocks block ih =>
    rw [total_append, total_cons, total_nil, Nat.add_zero] at fits
    rw [fields_append, List.pairwise_append]
    refine ⟨ih (by omega), List.pairwise_singleton _ _, fun field member last found => ?_⟩
    obtain rfl := List.mem_singleton.mp found
    exact apart_of_mem_fields positive fits member

/-! ## Storage -/

/-- The storage has every block where it begins. -/
def Holds (storage : List α) (blocks : List (Nat × List α)) : Prop :=
  ∀ field ∈ blocks, slice storage field.1 field.2.length = field.2

variable {storage : List α} {blocks : List (Nat × List α)} {start : Nat}

theorem Holds.blit (holds : Holds storage blocks) (fits : start + block.length ≤ storage.length)
    (apart : ∀ field ∈ blocks, Apart field (start, block)) :
    Holds (blit storage start block) (blocks ++ [(start, block)]) := by
  intro field member
  rcases List.mem_append.mp member with old | new
  · rw [slice_blit_of_disjoint fits (apart field old)]
    exact holds field old
  · obtain rfl := List.mem_singleton.mp new
    exact slice_blit_self fits rfl

variable {first second : List α}

theorem blit_append (fits : start + (first ++ second).length ≤ storage.length) :
    ByteLayout.blit (ByteLayout.blit storage start first) (start + first.length) second =
      ByteLayout.blit storage start (first ++ second) := by
  rw [List.length_append] at fits
  have before : (ByteLayout.blit storage start first).length = storage.length :=
    length_blit (by omega)
  apply List.ext_getElem?
  intro i
  rw [getElem?_blit (by omega), getElem?_blit (by omega),
    getElem?_blit (by rw [List.length_append]; omega), List.length_append]
  by_cases later : start + first.length ≤ i ∧ i < start + first.length + second.length
  · rw [if_pos later, if_pos (by omega), List.getElem?_append_right (by omega)]
    congr 1
    omega
  · rw [if_neg later]
    by_cases early : start ≤ i ∧ i < start + first.length
    · rw [if_pos early, if_pos (by omega), List.getElem?_append_left (by omega)]
    · rw [if_neg early, if_neg (by omega)]

theorem slice_of_append (both : slice storage start (first ++ second).length = first ++ second) :
    slice storage start first.length = first ∧
      slice storage (start + first.length) second.length = second := by
  have front := congrArg (List.take first.length) both
  have back := congrArg (List.drop first.length) both
  simp only [slice, List.take_take, List.drop_take, List.drop_drop, List.length_append,
    Nat.min_eq_left (Nat.le_add_right _ _), Nat.add_sub_cancel_left, List.take_left,
    List.drop_left] at front back
  exact ⟨front, back⟩

theorem Holds.mono {fewer : List (Nat × List α)} (holds : Holds storage blocks)
    (fewer_subset : fewer ⊆ blocks) : Holds storage fewer :=
  fun field member => holds field (fewer_subset member)

end RingLayout
