import Mathlib

/-!
# Runs of keyed operations

A family of slots, one per key, and operations that each read and write the slot
of their key and leave a reply at a position of their own. The outcome of a run
depends on the order of the operations of each key only.
-/

namespace KeyedRuns

variable {κ σ μ ρ : Type} [DecidableEq κ]

/-- How an operation finds its slot, its place among the replies and its effect. -/
structure Machine (κ σ μ ρ : Type) where
  key : μ → κ
  position : μ → Nat
  apply : σ → μ → σ × ρ

structure Outcome (κ σ ρ : Type) where
  slots : κ → σ
  replies : List ρ

variable (machine : Machine κ σ μ ρ)

def step (outcome : Outcome κ σ ρ) (operation : μ) : Outcome κ σ ρ :=
  let applied := machine.apply (outcome.slots (machine.key operation)) operation
  { slots := Function.update outcome.slots (machine.key operation) applied.1
    replies := outcome.replies.set (machine.position operation) applied.2 }

def run (outcome : Outcome κ σ ρ) (operations : List μ) : Outcome κ σ ρ :=
  operations.foldl (step machine) outcome

def slotAfter (key : κ) (slot : σ) (operations : List μ) : σ :=
  (operations.filter fun operation => machine.key operation = key).foldl
    (fun slot operation => (machine.apply slot operation).1) slot

variable {machine} {outcome : Outcome κ σ ρ} {operations : List μ} {key : κ} {slot : σ}
  {operation : μ}

theorem slotAfter_cons :
    slotAfter machine key slot (operation :: operations) =
      slotAfter machine key
        (if machine.key operation = key then (machine.apply slot operation).1 else slot)
        operations := by
  rw [slotAfter, slotAfter, List.filter_cons]
  by_cases same : machine.key operation = key <;> simp [same]

theorem slotAfter_append {later : List μ} :
    slotAfter machine key slot (operations ++ later) =
      slotAfter machine key (slotAfter machine key slot operations) later := by
  simp only [slotAfter, List.filter_append, List.foldl_append]

theorem slotAfter_of_keeps (keeps : ∀ operation ∈ operations, machine.key operation = key →
      (machine.apply slot operation).1 = slot) :
    slotAfter machine key slot operations = slot := by
  induction operations with
  | nil => rfl
  | cons operation rest ih =>
    obtain ⟨here, later⟩ := List.forall_mem_cons.mp keeps
    rw [slotAfter_cons]
    split
    · next same => rw [here same, ih later]
    · exact ih later

/-- Operations of a key that either write one and the same value or nothing. -/
structure Agree (machine : Machine κ σ μ ρ) (key : κ) (takes : μ → Prop) (value : σ)
    (operations : List μ) : Prop where
  writes : ∀ operation ∈ operations, machine.key operation = key → takes operation →
    ∀ slot, (machine.apply slot operation).1 = value
  keeps : ∀ operation ∈ operations, machine.key operation = key → ¬ takes operation →
    ∀ slot, (machine.apply slot operation).1 = slot

variable {takes : μ → Prop}

theorem Agree.slotAfter_of_exists {value : σ} (agree : Agree machine key takes value operations)
    (found : ∃ operation ∈ operations, machine.key operation = key ∧ takes operation) :
    slotAfter machine key slot operations = value := by
  induction operations generalizing slot with
  | nil => simp at found
  | cons operation rest ih =>
    have tail : Agree machine key takes value rest :=
      ⟨fun other member => agree.writes other (List.mem_cons_of_mem _ member),
        fun other member => agree.keeps other (List.mem_cons_of_mem _ member)⟩
    rw [slotAfter_cons]
    by_cases later : ∃ other ∈ rest, machine.key other = key ∧ takes other
    · exact ih tail later
    · -- The operation in front is then the last one that writes.
      obtain ⟨writer, member, same, taken⟩ := found
      rcases List.mem_cons.mp member with rfl | inside
      · rw [if_pos same, agree.writes writer List.mem_cons_self same taken]
        exact slotAfter_of_keeps fun other member sameKey => tail.keeps other member sameKey
          (fun takesIt => later ⟨other, member, sameKey, takesIt⟩) value
      · exact absurd ⟨writer, inside, same, taken⟩ later

variable {others : List μ}

theorem Agree.slotAfter_perm {value : σ} (agree : Agree machine key takes value operations)
    (same : others.Perm operations) :
    slotAfter machine key slot others = slotAfter machine key slot operations := by
  have moved : Agree machine key takes value others :=
    ⟨fun operation member => agree.writes operation (same.mem_iff.mp member),
      fun operation member => agree.keeps operation (same.mem_iff.mp member)⟩
  by_cases found : ∃ operation ∈ operations, machine.key operation = key ∧ takes operation
  · obtain ⟨operation, member, holds⟩ := found
    rw [agree.slotAfter_of_exists ⟨operation, member, holds⟩,
      moved.slotAfter_of_exists ⟨operation, same.mem_iff.mpr member, holds⟩]
  · rw [slotAfter_of_keeps fun operation member sameKey => agree.keeps operation member sameKey
        (fun taken => found ⟨operation, member, sameKey, taken⟩) slot,
      slotAfter_of_keeps fun operation member sameKey => moved.keeps operation member sameKey
        (fun taken => found ⟨operation, same.mem_iff.mp member, sameKey, taken⟩) slot]

theorem slots_run (key : κ) :
    (run machine outcome operations).slots key =
      slotAfter machine key (outcome.slots key) operations := by
  induction operations generalizing outcome with
  | nil => rfl
  | cons operation rest ih =>
    rw [run, List.foldl_cons, ← run, ih, slotAfter_cons]
    by_cases same : machine.key operation = key
    · simp [step, same]
    · simp [step, same, Function.update_of_ne (Ne.symm same)]

@[simp] theorem length_run :
    (run machine outcome operations).replies.length = outcome.replies.length := by
  induction operations generalizing outcome with
  | nil => rfl
  | cons operation rest ih =>
    rw [run, List.foldl_cons, ← run, ih, step, List.length_set]

theorem replies_untouched {place : Nat}
    (free : ∀ operation ∈ operations, machine.position operation ≠ place) :
    (run machine outcome operations).replies[place]? = outcome.replies[place]? := by
  induction operations generalizing outcome with
  | nil => rfl
  | cons operation rest ih =>
    obtain ⟨here, later⟩ := List.forall_mem_cons.mp free
    rw [run, List.foldl_cons, ← run, ih later, step, List.getElem?_set_ne here]

theorem replies_run {before after : List μ}
    (inside : machine.position operation < outcome.replies.length)
    (later : ∀ other ∈ after, machine.position other ≠ machine.position operation) :
    (run machine outcome (before ++ operation :: after)).replies[machine.position operation]? =
      some (machine.apply (slotAfter machine (machine.key operation)
        (outcome.slots (machine.key operation)) before) operation).2 := by
  have bound : machine.position operation < (run machine outcome before).replies.length := by
    rwa [length_run]
  rw [run, List.foldl_append, List.foldl_cons, ← run, ← run, replies_untouched later, step,
    List.getElem?_set_self bound, slots_run]

/-- Two orders of the same operations have the same outcome when every slot and
every reply agrees. -/
theorem run_eq_run (same : others.Perm operations)
    (slots : ∀ key, slotAfter machine key (outcome.slots key) others =
      slotAfter machine key (outcome.slots key) operations) (replies : ∀ operation ∈ operations,
      (run machine outcome others).replies[machine.position operation]? =
        (run machine outcome operations).replies[machine.position operation]?) :
    run machine outcome others = run machine outcome operations := by
  have sameSlots : (run machine outcome others).slots = (run machine outcome operations).slots := by
    funext key
    rw [slots_run, slots_run, slots]
  have sameReplies : (run machine outcome others).replies =
      (run machine outcome operations).replies := by
    apply List.ext_getElem?
    intro place
    by_cases taken : ∃ operation ∈ operations, machine.position operation = place
    · obtain ⟨operation, member, rfl⟩ := taken
      exact replies operation member
    · have free : ∀ operation ∈ operations, machine.position operation ≠ place :=
        fun operation member found => taken ⟨operation, member, found⟩
      rw [replies_untouched free, replies_untouched fun operation member =>
        free operation (same.mem_iff.mp member)]
  cases left : run machine outcome others
  cases right : run machine outcome operations
  simp_all

end KeyedRuns
