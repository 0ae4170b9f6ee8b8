import Mathlib

/-!
# Copy-on-write objects

Readers and a writer share a heap of objects and reach them through tables of
addresses. Before the writer changes an object it copies it to a fresh address
and remembers the copy; the objects that were there when it started, below its
`mark`, stay as they are. `Private` says which addresses a writer may write, and
`through` reads a paged function through a table of addresses.
-/

namespace CopyOnWrite

variable {α γ : Type}

/-! ## Private copies -/

/-- The copies a writer has made, as pairs of a table index and an address. -/
abbrev Copies := List (Nat × Nat)

def Touched (copies : Copies) (address : Nat) : Prop :=
  ∃ index, (index, address) ∈ copies

variable {copies : Copies} {index address : Nat}

theorem mem_of_lookup (found : copies.lookup index = some address) : (index, address) ∈ copies := by
  obtain ⟨before, after, split, -⟩ := List.lookup_eq_some_iff.mp found
  simp [split]

theorem not_mem_of_lookup (missing : copies.lookup index = none) (address : Nat) :
    (index, address) ∉ copies := by
  intro member
  simpa using List.lookup_eq_none_iff.mp missing _ member

/-- The object a copy starts from: the shared one, or a new one. -/
def original [Inhabited α] (objects : List α) (address : Option Nat) : α :=
  (address.bind (objects[·]?)).getD default

/-- Everything in the table is shared or the writer's own copy, and every copy
stands in the table at its own index. -/
structure Private (mark size : Nat) (table : Nat → Option Nat) (copies : Copies) : Prop where
  started : mark ≤ size
  placed : ∀ {index address}, (index, address) ∈ copies → table index = some address
  fresh : ∀ {index address}, (index, address) ∈ copies → mark ≤ address ∧ address < size
  shared : ∀ {index address}, table index = some address →
    address < mark ∨ (index, address) ∈ copies
  distinct : ∀ {left right address}, (left, address) ∈ copies → (right, address) ∈ copies →
    left = right

def Settled (size : Nat) (table : Nat → Option Nat) : Prop :=
  ∀ {index address}, table index = some address → address < size

theorem Settled.private {size : Nat} {table : Nat → Option Nat} (settled : Settled size table) :
    Private size size table [] where
  started := Nat.le_refl size
  placed := nofun
  fresh := nofun
  shared := fun reached => .inl (settled reached)
  distinct := nofun

variable {theirs : Copies}

namespace Private

variable {mark size : Nat} {table : Nat → Option Nat}

section Mine

variable (mine : Private mark size table copies)
include mine

theorem settled : Settled size table := by
  intro index address reached
  rcases mine.shared reached with old | copied
  · exact Nat.lt_of_lt_of_le old mine.started
  · exact (mine.fresh copied).2

theorem mono {larger : Nat} (grows : size ≤ larger) : Private mark larger table copies where
  started := Nat.le_trans mine.started grows
  placed := mine.placed
  fresh := fun copied => ⟨(mine.fresh copied).1, Nat.lt_of_lt_of_le (mine.fresh copied).2 grows⟩
  shared := mine.shared
  distinct := mine.distinct

theorem copy (uncopied : ∀ address, (index, address) ∉ copies) :
    Private mark (size + 1) (Function.update table index (some size))
      (copies ++ [(index, size)]) where
  started := Nat.le_succ_of_le mine.started
  placed := by
    intro other address copied
    rcases List.mem_append.mp copied with old | new
    · have different : other ≠ index := by
        rintro rfl
        exact uncopied address old
      rw [Function.update_of_ne different]
      exact mine.placed old
    · obtain ⟨rfl, rfl⟩ : other = index ∧ address = size := by simpa using new
      exact Function.update_self ..
  fresh := by
    intro other address copied
    have started := mine.started
    rcases List.mem_append.mp copied with old | new
    · have fresh := mine.fresh old
      omega
    · obtain ⟨-, rfl⟩ : other = index ∧ address = size := by simpa using new
      omega
  shared := by
    intro other address reached
    by_cases same : other = index
    · subst same
      rw [Function.update_self] at reached
      exact .inr (by simp [Option.some.inj reached])
    · rw [Function.update_of_ne same] at reached
      exact (mine.shared reached).imp id (List.mem_append_left _)
  distinct := by
    intro left right address atLeft atRight
    have old : ∀ {index address}, (index, address) ∈ copies → address ≠ size := by
      intro index address copied
      have fresh := mine.fresh copied
      omega
    rcases List.mem_append.mp atLeft with left' | left' <;>
      rcases List.mem_append.mp atRight with right' | right'
    · exact mine.distinct left' right'
    · exact absurd (by simpa using right' : right = index ∧ address = size).2 (old left')
    · exact absurd (by simpa using left' : left = index ∧ address = size).2 (old right')
    · simp only [List.mem_singleton, Prod.mk.injEq] at left' right'
      rw [left'.1, right'.1]

theorem untouched {other : Nat → Option Nat} (separate : Private mark size other theirs)
    (apart : ∀ address, Touched copies address → ¬ Touched theirs address)
    (reached : table index = some address) :
    address < size ∧ ¬ Touched theirs address := by
  refine ⟨mine.settled reached, ?_⟩
  rcases mine.shared reached with old | copied
  · rintro ⟨index, copied⟩
    have fresh := separate.fresh copied
    omega
  · exact apart address ⟨index, copied⟩

theorem not_touched_of_lt (old : address < mark) : ¬ Touched copies address := by
  rintro ⟨index, copied⟩
  have fresh := mine.fresh copied
  omega

end Mine

end Private

/-! ## Frames -/

/-- The heap grew, and only touched objects changed. -/
structure Frame (touched : Nat → Prop) (before after : List α) : Prop where
  grows : before.length ≤ after.length
  kept : ∀ {address}, address < before.length → ¬ touched address →
    after[address]? = before[address]?

namespace Frame

variable {touched other : Nat → Prop} {before middle after : List α}

theorem refl (touched : Nat → Prop) (objects : List α) : Frame touched objects objects :=
  ⟨Nat.le_refl _, fun _ _ => rfl⟩

theorem trans (first : Frame touched before middle) (second : Frame touched middle after) :
    Frame touched before after where
  grows := Nat.le_trans first.grows second.grows
  kept := by
    intro address inside untouched
    rw [second.kept (Nat.lt_of_lt_of_le inside first.grows) untouched,
      first.kept inside untouched]

theorem trans_above (first : Frame touched before middle) (second : Frame other middle after)
    (above : ∀ {address}, address < before.length → ¬ other address) :
    Frame touched before after where
  grows := Nat.le_trans first.grows second.grows
  kept := by
    intro address inside untouched
    rw [second.kept (Nat.lt_of_lt_of_le inside first.grows) (above inside),
      first.kept inside untouched]

theorem push (touched : Nat → Prop) (objects : List α) (object : α) :
    Frame touched objects (objects ++ [object]) :=
  ⟨by simp, fun inside _ => List.getElem?_append_left inside⟩

theorem set (hit : touched address) (objects : List α) (object : α) :
    Frame touched objects (objects.set address object) := by
  refine ⟨by simp, ?_⟩
  intro other inside untouched
  rw [List.getElem?_set_ne]
  rintro rfl
  exact untouched hit

end Frame

/-- A writer's step: it writes its copies only, and new copies are fresh. -/
structure Change (copies : Copies) (before : List α) (further : Copies) (after : List α) :
    Prop where
  frame : Frame (Touched copies) before after
  grown : ∀ {address}, Touched further address →
    Touched copies address ∨ before.length ≤ address

namespace Change

variable {further final : Copies} {before middle after : List α}

theorem refl (copies : Copies) (objects : List α) : Change copies objects copies objects :=
  ⟨Frame.refl _ _, .inl⟩

theorem trans (first : Change copies before further middle)
    (second : Change further middle final after) : Change copies before final after where
  frame := by
    refine ⟨Nat.le_trans first.frame.grows second.frame.grows, ?_⟩
    intro address inside untouched
    have later : ¬ Touched further address := fun hit =>
      (first.grown hit).elim untouched fun fresh => absurd fresh (by omega)
    rw [second.frame.kept (Nat.lt_of_lt_of_le inside first.frame.grows) later,
      first.frame.kept inside untouched]
  grown := by
    intro address hit
    rcases second.grown hit with hit | fresh
    · exact first.grown hit
    · exact .inr (Nat.le_trans first.frame.grows fresh)

theorem copy (copies : Copies) (objects : List α) (index : Nat) (object : α) :
    Change copies objects (copies ++ [(index, objects.length)]) (objects ++ [object]) := by
  refine ⟨Frame.push _ objects object, ?_⟩
  rintro address ⟨other, member⟩
  rcases List.mem_append.mp member with old | new
  · exact .inl ⟨other, old⟩
  · obtain ⟨-, rfl⟩ : other = index ∧ address = objects.length := by simpa using new
    exact .inr (Nat.le_refl _)

theorem write (hit : Touched copies address) (objects : List α) (object : α) :
    Change copies objects copies (objects.set address object) :=
  ⟨Frame.set hit objects object, .inl⟩

theorem apart (change : Change copies before further after)
    (separate : ∀ address, Touched theirs address → ¬ Touched copies address)
    (allocated : ∀ {index address}, (index, address) ∈ theirs → address < before.length)
    (address : Nat) (hit : Touched theirs address) : ¬ Touched further address := by
  intro both
  rcases change.grown both with old | fresh
  · exact separate address hit old
  · obtain ⟨index, member⟩ := hit
    exact absurd (allocated member) (by omega)

end Change

/-! ## Reading through a table -/

section Through

variable (width : Nat) (entry : α → Nat → γ) (absent : γ)

/-- The entry of an index in the object its page number leads to. -/
def through (table : Nat → Option Nat) (objects : List α) (index : Nat) : γ :=
  match (table (index / width)).bind (objects[·]?) with
  | some object => entry object (index % width)
  | none => absent

variable {width entry absent} {table : Nat → Option Nat} {objects : List α}

theorem through_none (missing : table (index / width) = none) :
    through width entry absent table objects index = absent := by
  simp [through, missing]

theorem through_some {object : α} (reached : table (index / width) = some address)
    (stored : objects[address]? = some object) :
    through width entry absent table objects index = entry object (index % width) := by
  simp [through, reached, stored]

theorem through_frame {touched : Nat → Prop} {after : List α} (frame : Frame touched objects after)
    (apart : ∀ {index address}, table index = some address →
      address < objects.length ∧ ¬ touched address) :
    through width entry absent table after = through width entry absent table objects := by
  funext index
  cases reached : table (index / width) with
  | none => rw [through_none reached, through_none reached]
  | some address =>
    obtain ⟨inside, untouched⟩ := apart reached
    simp only [through, reached, Option.bind_some, frame.kept inside untouched]

theorem through_copy [Inhabited α] (blank : ∀ offset, entry default offset = absent)
    (settled : Settled objects.length table) (index : Nat) :
    through width entry absent (Function.update table index (some objects.length))
        (objects ++ [original objects (table index)]) =
      through width entry absent table objects := by
  funext position
  by_cases same : position / width = index
  · have copied : (objects ++ [original objects (table index)])[objects.length]? =
        some (original objects (table index)) := by simp
    rw [through_some (by rw [same, Function.update_self]) copied]
    cases reached : table index with
    | none => rw [through_none (by rw [same, reached]), original, Option.bind_none]; exact blank _
    | some address =>
      have stored := List.getElem?_eq_getElem (settled reached)
      rw [through_some (by rw [same, reached]) stored]
      simp [original, stored]
  · cases reached : table (position / width) with
    | none =>
      rw [through_none (by rw [Function.update_of_ne same, reached]), through_none reached]
    | some address =>
      have inside : address < objects.length := settled reached
      have moved : Function.update table index (some objects.length) (position / width) =
          some address := by rw [Function.update_of_ne same, reached]
      simp only [through, moved, reached, Option.bind_some, List.getElem?_append_left inside]

theorem through_write {mark : Nat} (mine : Private mark objects.length table copies)
    {before after : α} {value : γ} (copied : (index / width, address) ∈ copies)
    (stored : objects[address]? = some before) (here : entry after (index % width) = value)
    (elsewhere : ∀ offset, offset ≠ index % width → entry after offset = entry before offset) :
    through width entry absent table (objects.set address after) =
      Function.update (through width entry absent table objects) index value := by
  have inside := (mine.fresh copied).2
  funext position
  by_cases samePage : position / width = index / width
  · have reached : table (position / width) = some address := by
      rw [samePage]
      exact mine.placed copied
    have written : (objects.set address after)[address]? = some after := by simp [inside]
    rw [through_some reached written]
    by_cases same : position = index
    · rw [same, here, Function.update_self]
    · have offset : position % width ≠ index % width := by
        intro sameOffset
        apply same
        rw [← Nat.div_add_mod position width, ← Nat.div_add_mod index width, samePage, sameOffset]
      rw [elsewhere _ offset, Function.update_of_ne same, through_some reached stored]
  · have different : position ≠ index := by
      rintro rfl
      exact samePage rfl
    rw [Function.update_of_ne different]
    cases reached : table (position / width) with
    | none => rw [through_none reached, through_none reached]
    | some other =>
      -- Another index never leads to this copy: the copy is fresh and has one index.
      have apart : address ≠ other := by
        rintro rfl
        rcases mine.shared reached with old | shared
        · exact absurd (mine.fresh copied).1 (by omega)
        · exact samePage (mine.distinct shared copied)
      simp only [through, reached, Option.bind_some, List.getElem?_set_ne apart]

end Through

end CopyOnWrite
