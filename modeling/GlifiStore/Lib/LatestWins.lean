import Mathlib

/-!
# Latest-wins logs

A log of keyed entries decides each key by its last entry. Under increasing
stamps that is the entry with the greatest stamp.
-/

namespace LatestWins

variable {κ ε : Type} [DecidableEq κ] {keyOf : ε → κ}

def deciding (keyOf : ε → κ) (log : List ε) (key : κ) : Option ε :=
  (log.filter fun entry => keyOf entry = key).getLast?

@[simp]
theorem deciding_nil (key : κ) : deciding keyOf [] key = none := rfl

theorem deciding_append (left right : List ε) (key : κ) :
    deciding keyOf (left ++ right) key = (deciding keyOf right key).or (deciding keyOf left key) := by
  rw [deciding, List.filter_append, List.getLast?_append]
  rfl

theorem deciding_concat (log : List ε) (entry : ε) (key : κ) :
    deciding keyOf (log ++ [entry]) key =
      if keyOf entry = key then some entry else deciding keyOf log key := by
  rw [deciding_append]
  by_cases same : keyOf entry = key <;> simp [deciding, same]

theorem mem_of_deciding {log : List ε} {key : κ} {entry : ε}
    (decides : deciding keyOf log key = some entry) : entry ∈ log ∧ keyOf entry = key := by
  have member := List.mem_of_getLast? decides
  simpa using member

theorem deciding_eq_none {log : List ε} {key : κ} :
    deciding keyOf log key = none ↔ ∀ entry ∈ log, keyOf entry ≠ key := by
  simp [deciding]

/-- With increasing stamps the deciding entry is the one stamped greatest. -/
theorem deciding_eq_some {stamp : ε → Nat} {log : List ε} {key : κ} {entry : ε}
    (ordered : log.Pairwise fun earlier later => stamp earlier < stamp later) :
    deciding keyOf log key = some entry ↔
      entry ∈ log ∧ keyOf entry = key ∧
        ∀ other ∈ log, keyOf other = key → stamp other ≤ stamp entry := by
  induction log using List.reverseRecOn with
  | nil => simp
  | append_singleton log last ih =>
    rw [List.pairwise_append] at ordered
    obtain ⟨before, -, after⟩ := ordered
    have greatest : ∀ other ∈ log, stamp other < stamp last := fun other member =>
      after other member last (List.mem_singleton_self last)
    rw [deciding_concat]
    simp only [List.mem_append, List.mem_singleton]
    split
    · next same =>
      constructor
      · rintro ⟨rfl⟩
        refine ⟨.inr rfl, same, ?_⟩
        rintro other (member | rfl) -
        · exact Nat.le_of_lt (greatest other member)
        · exact Nat.le_refl _
      · rintro ⟨member | rfl, -, most⟩
        · have less := greatest entry member
          have more := most last (.inr rfl) same
          omega
        · rfl
    · next differs =>
      rw [ih before]
      constructor
      · rintro ⟨member, same, most⟩
        refine ⟨.inl member, same, ?_⟩
        rintro other (earlier | rfl) sameKey
        · exact most other earlier sameKey
        · exact absurd sameKey differs
      · rintro ⟨member | rfl, same, most⟩
        · exact ⟨member, same, fun other earlier => most other (.inl earlier)⟩
        · exact absurd same differs

end LatestWins
