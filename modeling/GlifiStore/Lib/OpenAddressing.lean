import Mathlib

/-!
# Open addressing with tombstones

A table is a function from cell positions to cells, and every key has a probe
path: the positions visited, in order, when the key is searched. Searching
stops at the first vacant cell; erasing leaves a tombstone, which searching
walks over and insertion may reuse. `Probed` is the invariant under which the
search along a probe path is exact, and the three updates of the table keep it.
-/

namespace OpenAddressing

universe u v w

variable {ι : Type u} {κ : Type v} {β : Type w}

inductive Cell (κ : Type v) (β : Type w) where
  | vacant
  | tombstone
  | occupied (key : κ) (value : β)

def Binds (cells : ι → Cell κ β) (key : κ) (value : β) : Prop :=
  ∃ position, cells position = .occupied key value

/-- Every stored key is met on its own probe path before any vacant cell, and
no key is stored twice. -/
structure Probed (path : κ → List ι) (cells : ι → Cell κ β) : Prop where
  onPath : ∀ {position key value}, cells position = .occupied key value →
    ∃ before after, path key = before ++ position :: after ∧
      ∀ earlier ∈ before, cells earlier ≠ .vacant
  unique : ∀ {left right key value other}, cells left = .occupied key value →
    cells right = .occupied key other → left = right

/-- A place where a key may be put without losing any other key. -/
structure Free (path : κ → List ι) (cells : ι → Cell κ β) (key : κ)
    (position : ι) : Prop where
  unoccupied : cells position = .vacant ∨ cells position = .tombstone
  onPath : ∃ before after, path key = before ++ position :: after ∧
    ∀ earlier ∈ before, cells earlier ≠ .vacant
  absent : ∀ value, ¬ Binds cells key value

section Search

variable [DecidableEq κ]
variable {key : κ} {position : ι} {value : β} {before rest : List ι} {cells : ι → Cell κ β}
variable {path : κ → List ι}

def search (cells : ι → Cell κ β) (key : κ) : List ι → Option ι
  | [] => none
  | position :: rest =>
    match cells position with
    | .vacant => none
    | .tombstone => search cells key rest
    | .occupied stored _ => if stored = key then some position else search cells key rest

/-- The position to write `key` to: its own cell, or else the first tombstone
met, or else the vacant cell that ends the search. -/
def place (cells : ι → Cell κ β) (key : κ) : Option ι → List ι → Option ι
  | _, [] => none
  | reusable, position :: rest =>
    match cells position with
    | .vacant => some (reusable.getD position)
    | .tombstone => place cells key (reusable.or (some position)) rest
    | .occupied stored _ =>
      if stored = key then some position else place cells key reusable rest

theorem search_sound {path : List ι} (found : search cells key path = some position) :
    ∃ value, cells position = .occupied key value := by
  induction path with
  | nil => simp [search] at found
  | cons head rest ih =>
    unfold search at found
    split at found
    · simp at found
    · exact ih found
    · next stored value holds =>
      split at found
      · next same =>
        obtain rfl := Option.some.inj found
        exact ⟨value, by rw [holds, same]⟩
      · exact ih found

theorem search_of_onPath {after : List ι} (holds : cells position = .occupied key value)
    (live : ∀ earlier ∈ before, cells earlier ≠ .vacant)
    (fresh : ∀ earlier ∈ before, ∀ other, cells earlier ≠ .occupied key other) :
    search cells key (before ++ position :: after) = some position := by
  induction before with
  | nil => simp [search, holds]
  | cons head rest ih =>
    have step := ih (fun earlier member => live earlier (List.mem_cons_of_mem _ member))
      (fun earlier member => fresh earlier (List.mem_cons_of_mem _ member))
    rw [List.cons_append, search]
    split
    · next vacant => exact absurd vacant (live head List.mem_cons_self)
    · exact step
    · next stored other occupied =>
      rw [if_neg]
      · exact step
      · rintro rfl
        exact fresh head List.mem_cons_self other occupied

theorem Probed.search_iff (probed : Probed path cells) :
    search cells key (path key) = some position ↔
      ∃ value, cells position = .occupied key value := by
  refine ⟨search_sound, ?_⟩
  rintro ⟨value, holds⟩
  obtain ⟨before, after, split, live⟩ := probed.onPath holds
  -- The key's own position may also occur earlier on the path, so cut at its first occurrence.
  classical
  by_cases earlier : position ∈ before
  · obtain ⟨first, rest, cut, fresh⟩ := List.eq_append_cons_of_mem earlier
    rw [split, cut, List.append_assoc, List.cons_append]
    refine search_of_onPath holds (fun other member => live other (by simp [cut, member])) ?_
    intro other member shadow occupied
    exact fresh (probed.unique occupied holds ▸ member)
  · rw [split]
    refine search_of_onPath holds live ?_
    intro other member shadow occupied
    exact earlier (probed.unique occupied holds ▸ member)

theorem Probed.search_eq_none (probed : Probed path cells) :
    search cells key (path key) = none ↔ ∀ value, ¬ Binds cells key value := by
  constructor
  · rintro missing value ⟨position, holds⟩
    have found := probed.search_iff.mpr ⟨value, holds⟩
    simp [missing] at found
  · intro absent
    cases found : search cells key (path key) with
    | none => rfl
    | some position =>
      obtain ⟨value, holds⟩ := probed.search_iff.mp found
      exact absurd ⟨position, holds⟩ (absent value)

omit [DecidableEq κ] in
theorem Probed.absent_of_vacant (probed : Probed path cells) {after : List ι}
    {stop : ι} (split : path key = before ++ stop :: after) (vacant : cells stop = .vacant)
    (fresh : ∀ earlier ∈ before, ∀ other, cells earlier ≠ .occupied key other) (value : β) :
    ¬ Binds cells key value := by
  rintro ⟨position, holds⟩
  obtain ⟨front, back, cut, live⟩ := probed.onPath holds
  have clash : cells position ≠ .vacant := by simp [holds]
  rw [split] at cut
  rcases List.append_eq_append_iff.mp cut with ⟨middle, frontEq, restEq⟩ | ⟨middle, beforeEq, restEq⟩
  · cases middle with
    | nil => exact clash ((List.cons.inj restEq).1 ▸ vacant)
    | cons head middle =>
      refine live stop ?_ vacant
      simp [frontEq, (List.cons.inj restEq).1]
  · cases middle with
    | nil => exact clash ((List.cons.inj restEq).1 ▸ vacant)
    | cons head middle =>
      refine fresh position ?_ value holds
      simp [beforeEq, (List.cons.inj restEq).1]

/-- What the insertion search carries past the cells it has already visited. -/
private structure Visited (cells : ι → Cell κ β) (key : κ) (before : List ι)
    (reusable : Option ι) : Prop where
  live : ∀ earlier ∈ before, cells earlier ≠ .vacant
  fresh : ∀ earlier ∈ before, ∀ other, cells earlier ≠ .occupied key other
  tombstone : ∀ position, reusable = some position →
    cells position = .tombstone ∧ ∃ front back, before = front ++ position :: back

omit [DecidableEq κ] in
private theorem Visited.advance {head : ι} {reusable next : Option ι}
    (visited : Visited cells key before reusable) (live : cells head ≠ .vacant)
    (fresh : ∀ other, cells head ≠ .occupied key other)
    (reuse : ∀ position, next = some position →
      reusable = some position ∨ position = head ∧ cells head = .tombstone) :
    Visited cells key (before ++ [head]) next where
  live earlier member := by
    rcases List.mem_append.mp member with old | new
    · exact visited.live earlier old
    · exact List.mem_singleton.mp new ▸ live
  fresh earlier member := by
    rcases List.mem_append.mp member with old | new
    · exact visited.fresh earlier old
    · exact List.mem_singleton.mp new ▸ fresh
  tombstone position chosen := by
    rcases reuse position chosen with old | ⟨rfl, here⟩
    · obtain ⟨tombstone, front, back, cut⟩ := visited.tombstone position old
      exact ⟨tombstone, front, back ++ [head], by simp [cut]⟩
    · exact ⟨here, before, [], rfl⟩

private theorem place_spec_from (probed : Probed path cells)
    {reusable : Option ι} (split : path key = before ++ rest)
    (visited : Visited cells key before reusable)
    (placed : place cells key reusable rest = some position) :
    (∃ value, cells position = .occupied key value) ∨ Free path cells key position := by
  induction rest generalizing before reusable with
  | nil => simp [place] at placed
  | cons head rest ih =>
    have advance : path key = (before ++ [head]) ++ rest := by simp [split]
    unfold place at placed
    cases holds : cells head with
    | vacant =>
      have absent := probed.absent_of_vacant split holds visited.fresh
      rw [holds] at placed
      obtain rfl := Option.some.inj placed
      cases found : reusable with
      | none => exact .inr ⟨.inl (by simpa using holds), ⟨before, rest, by simpa using split,
          visited.live⟩, absent⟩
      | some reused =>
        obtain ⟨tombstone, front, back, cut⟩ := visited.tombstone reused found
        exact .inr ⟨.inr tombstone, ⟨front, back ++ head :: rest, by simp [split, cut],
          fun earlier member => visited.live earlier (by simp [cut, member])⟩, absent⟩
    | tombstone =>
      rw [holds] at placed
      refine ih advance (visited.advance (by simp [holds]) (by simp [holds]) ?_) placed
      intro candidate chosen
      cases found : reusable with
      | none => exact .inr ⟨by simpa [found, eq_comm] using chosen, holds⟩
      | some reused => exact .inl (by simpa [found] using chosen)
    | occupied stored value =>
      rw [holds] at placed
      by_cases same : stored = key
      · obtain rfl : head = position := by simpa [same] using placed
        exact .inl ⟨value, by rw [holds, same]⟩
      · refine ih advance (visited.advance (by simp [holds]) (by simp [holds, same]) ?_)
          (by simpa [same] using placed)
        exact fun _ => .inl

theorem Probed.place_spec (probed : Probed path cells)
    (placed : place cells key none (path key) = some position) :
    (∃ value, cells position = .occupied key value) ∨ Free path cells key position := by
  have start : path key = [] ++ path key := rfl
  exact place_spec_from probed start ⟨by simp, by simp, by simp⟩ placed

theorem place_isSome {path : List ι} {stop : ι} (member : stop ∈ path)
    (vacant : cells stop = .vacant) (reusable : Option ι) :
    (place cells key reusable path).isSome := by
  induction path generalizing reusable with
  | nil => simp at member
  | cons head rest ih =>
    have step : cells head ≠ .vacant → ∀ reusable, (place cells key reusable rest).isSome := by
      intro live
      rcases List.mem_cons.mp member with same | later
      · exact absurd (same ▸ vacant) live
      · exact ih later
    unfold place
    split
    · rfl
    · next tombstone => exact step (by simp [tombstone]) _
    · next occupied =>
      split
      · rfl
      · exact step (by simp [occupied]) _

def Cell.value? : Cell κ β → Option β
  | .occupied _ value => some value
  | .vacant | .tombstone => none

def fetch (cells : ι → Cell κ β) (key : κ) (path : List ι) : Option β :=
  (search cells key path).bind fun position => (cells position).value?

theorem fetch_cons_of_vacant (vacant : cells position = .vacant) :
    fetch cells key (position :: rest) = none := by
  simp [fetch, search, vacant]

theorem fetch_cons_of_occupied {stored : κ} (holds : cells position = .occupied stored value) :
    fetch cells key (position :: rest) =
      if stored = key then some value else fetch cells key rest := by
  by_cases same : stored = key <;> simp [fetch, search, holds, same, Cell.value?]

theorem Probed.fetch_iff (probed : Probed path cells) :
    fetch cells key (path key) = some value ↔ Binds cells key value := by
  constructor
  · intro fetched
    obtain ⟨position, found, stored⟩ := Option.bind_eq_some_iff.mp fetched
    obtain ⟨other, holds⟩ := probed.search_iff.mp found
    rw [holds] at stored
    exact ⟨position, by rw [holds, Option.some.inj stored]⟩
  · rintro ⟨position, holds⟩
    rw [fetch, probed.search_iff.mpr ⟨value, holds⟩, Option.bind_some, holds]
    rfl

theorem Probed.fetch_eq_none (probed : Probed path cells) :
    fetch cells key (path key) = none ↔ ∀ value, ¬ Binds cells key value := by
  simp only [← probed.fetch_iff, Option.eq_none_iff_forall_ne_some, ne_eq]

end Search

section Append

variable {cells : ι → Cell κ β}

def firstVacant (cells : ι → Cell κ β) : List ι → Option ι
  | [] => none
  | position :: rest =>
    match cells position with
    | .vacant => some position
    | _ => firstVacant cells rest

theorem firstVacant_split {path : List ι} {position : ι}
    (found : firstVacant cells path = some position) :
    cells position = .vacant ∧ ∃ before after, path = before ++ position :: after ∧
      ∀ earlier ∈ before, cells earlier ≠ .vacant := by
  induction path with
  | nil => simp [firstVacant] at found
  | cons head rest ih =>
    by_cases vacant : cells head = .vacant
    · obtain rfl : head = position := by simpa [firstVacant, vacant] using found
      exact ⟨vacant, [], rest, rfl, by simp⟩
    · have later : firstVacant cells rest = some position := by
        rw [firstVacant] at found
        split at found
        · next here => exact absurd here vacant
        · exact found
      obtain ⟨stop, before, after, split, live⟩ := ih later
      refine ⟨stop, head :: before, after, by simp [split], ?_⟩
      intro earlier member
      rcases List.mem_cons.mp member with rfl | member
      · exact vacant
      · exact live earlier member

theorem firstVacant_free {path : κ → List ι} {key : κ} {position : ι}
    (absent : ∀ value, ¬ Binds cells key value)
    (found : firstVacant cells (path key) = some position) : Free path cells key position :=
  ⟨.inl (firstVacant_split found).1, (firstVacant_split found).2, absent⟩

theorem firstVacant_isSome {path : List ι} {stop : ι} (member : stop ∈ path)
    (vacant : cells stop = .vacant) : (firstVacant cells path).isSome := by
  induction path with
  | nil => simp at member
  | cons head rest ih =>
    rw [firstVacant]
    split
    · rfl
    · next live =>
      rcases List.mem_cons.mp member with rfl | later
      · exact absurd vacant live
      · exact ih later

end Append

section Update

variable [DecidableEq ι]
variable {key : κ} {position : ι} {old : β} {path : κ → List ι} {cells : ι → Cell κ β}

omit [DecidableEq ι] in
theorem Probed.vacant (path : κ → List ι) : Probed path fun _ => (Cell.vacant : Cell κ β) :=
  ⟨by simp, by simp⟩

/-- A cell may take a key that is in no other cell, on the probe path of the key. -/
theorem Probed.update (probed : Probed path cells) {cell : Cell κ β} (full : cell ≠ .vacant)
    (stores : ∀ {stored value}, cell = .occupied stored value →
      (∀ {slot other}, cells slot = .occupied stored other → slot = position) ∧
      ∃ before after, path stored = before ++ position :: after ∧
        ∀ earlier ∈ before, cells earlier ≠ .vacant) :
    Probed path (Function.update cells position cell) := by
  have live {earlier : ι} (vacant : cells earlier ≠ .vacant) :
      Function.update cells position cell earlier ≠ .vacant := by
    by_cases same : earlier = position <;> simp [same, full, vacant]
  constructor
  · intro other stored payload holds
    have met : ∃ before after, path stored = before ++ other :: after ∧
        ∀ earlier ∈ before, cells earlier ≠ .vacant := by
      by_cases same : other = position
      · subst same
        exact (stores (by simpa using holds)).2
      · rw [Function.update_of_ne same] at holds
        exact probed.onPath holds
    obtain ⟨before, after, split, clear⟩ := met
    exact ⟨before, after, split, fun earlier member => live (clear earlier member)⟩
  · intro left right stored first second atLeft atRight
    by_cases leftSame : left = position <;> by_cases rightSame : right = position
    · rw [leftSame, rightSame]
    · subst leftSame
      rw [Function.update_of_ne rightSame] at atRight
      exact absurd ((stores (by simpa using atLeft)).1 atRight) rightSame
    · subst rightSame
      rw [Function.update_of_ne leftSame] at atLeft
      exact absurd ((stores (by simpa using atRight)).1 atLeft) leftSame
    · rw [Function.update_of_ne leftSame] at atLeft
      rw [Function.update_of_ne rightSame] at atRight
      exact probed.unique atLeft atRight

/-- The only cell that may hold the key, and it holds no other. -/
structure Owned (cells : ι → Cell κ β) (key : κ) (position : ι) : Prop where
  only : ∀ {slot value}, cells slot = .occupied key value → slot = position
  own : ∀ {stored value}, cells position = .occupied stored value → stored = key

theorem Owned.binds_update (owned : Owned cells key position) (cell : Cell κ β)
    (stores : ∀ {stored value}, cell = .occupied stored value → stored = key) (other : κ)
    (payload : β) :
    Binds (Function.update cells position cell) other payload ↔
      cell = .occupied other payload ∨ (other ≠ key ∧ Binds cells other payload) := by
  constructor
  · rintro ⟨slot, holds⟩
    by_cases same : slot = position
    · subst same
      exact .inl (by simpa using holds)
    · rw [Function.update_of_ne same] at holds
      refine .inr ⟨?_, slot, holds⟩
      rintro rfl
      exact same (owned.only holds)
  · rintro (rfl | ⟨different, slot, holds⟩)
    · exact ⟨position, by simp⟩
    · refine ⟨slot, ?_⟩
      rwa [Function.update_of_ne]
      rintro rfl
      exact different (owned.own holds)

omit [DecidableEq ι] in
theorem Free.owned (free : Free path cells key position) : Owned cells key position where
  only holds := absurd ⟨_, holds⟩ (free.absent _)
  own holds := by rcases free.unoccupied with vacant | tombstone <;> simp_all

omit [DecidableEq ι] in
theorem Probed.owned (probed : Probed path cells) (holds : cells position = .occupied key old) :
    Owned cells key position where
  only stores := probed.unique stores holds
  own stores := (Cell.occupied.inj (holds.symm.trans stores)).1.symm

theorem Owned.binds_occupied (owned : Owned cells key position) (value : β) (other : κ)
    (payload : β) :
    Binds (Function.update cells position (.occupied key value)) other payload ↔
      (other = key ∧ payload = value) ∨ (other ≠ key ∧ Binds cells other payload) := by
  rw [owned.binds_update _ fun stores => (Cell.occupied.inj stores).1.symm, Cell.occupied.injEq,
    eq_comm, @eq_comm _ value]

theorem Probed.insert (probed : Probed path cells) (free : Free path cells key position) (value : β) :
    Probed path (Function.update cells position (.occupied key value)) :=
  probed.update nofun fun stores => by
    obtain ⟨rfl, -⟩ := Cell.occupied.inj stores
    exact ⟨free.owned.only, free.onPath⟩

theorem Probed.assign (probed : Probed path cells) (holds : cells position = .occupied key old)
    (value : β) :
    Probed path (Function.update cells position (.occupied key value)) :=
  probed.update nofun fun stores => by
    obtain ⟨rfl, -⟩ := Cell.occupied.inj stores
    exact ⟨(probed.owned holds).only, probed.onPath holds⟩

theorem Probed.erase (probed : Probed path cells) (position : ι) :
    Probed path (Function.update cells position .tombstone) :=
  probed.update nofun nofun

theorem Probed.binds_erase (probed : Probed path cells) (holds : cells position = .occupied key old)
    (other : κ) (payload : β) :
    Binds (Function.update cells position .tombstone) other payload ↔
      other ≠ key ∧ Binds cells other payload := by
  simp [(probed.owned holds).binds_update .tombstone nofun]

end Update

section Occupancy

variable {capacity : Nat} {cells : Nat → Cell κ β}

def occupancy (capacity : Nat) (cells : Nat → Cell κ β) : Nat :=
  (List.range capacity).countP fun position => (cells position).value?.isSome

theorem occupancy_congr {other : Nat → Cell κ β}
    (same : ∀ position < capacity, (other position).value?.isSome = (cells position).value?.isSome) :
    occupancy capacity other = occupancy capacity cells := by
  refine List.countP_congr fun position member => ?_
  rw [same position (List.mem_range.mp member)]

theorem occupancy_succ (capacity : Nat) (cells : Nat → Cell κ β) :
    occupancy (capacity + 1) cells =
      occupancy capacity cells + if (cells capacity).value?.isSome then 1 else 0 := by
  rw [occupancy, List.range_succ, List.countP_append, List.countP_singleton]
  rfl

theorem occupancy_mono {larger : Nat} (cells : Nat → Cell κ β) (grows : capacity ≤ larger) :
    occupancy capacity cells ≤ occupancy larger cells := by
  induction grows with
  | refl => exact Nat.le_refl _
  | step _ ih =>
    rw [occupancy_succ]
    omega

theorem occupancy_insert {position : Nat} {key : κ} {value : β} (inside : position < capacity)
    (free : (cells position).value? = none) :
    occupancy capacity (Function.update cells position (.occupied key value)) =
      occupancy capacity cells + 1 := by
  induction capacity with
  | zero => omega
  | succ capacity ih =>
    simp only [occupancy, List.range_succ, List.countP_append, List.countP_singleton] at ih ⊢
    by_cases last : position = capacity
    · subst last
      have below : occupancy position (Function.update cells position (.occupied key value)) =
          occupancy position cells := by
        refine occupancy_congr fun other smaller => ?_
        rw [Function.update_of_ne (by omega)]
      simp only [occupancy] at below
      rw [below, Function.update_self, free]
      rfl
    · rw [ih (by omega), Function.update_of_ne (Ne.symm last)]
      omega

theorem occupancy_assign {position : Nat} {key : κ} {old value : β}
    (holds : cells position = .occupied key old) :
    occupancy capacity (Function.update cells position (.occupied key value)) =
      occupancy capacity cells := by
  refine occupancy_congr fun other _ => ?_
  by_cases same : other = position
  · rw [same, Function.update_self, holds]
    rfl
  · rw [Function.update_of_ne same]

theorem exists_free (room : occupancy capacity cells < capacity) :
    ∃ position < capacity, (cells position).value? = none := by
  refine Classical.byContradiction fun missing => ?_
  have every : (List.range capacity).countP (fun position => (cells position).value?.isSome) =
      (List.range capacity).length := by
    refine List.countP_eq_length.mpr fun position member => Option.isSome_iff_ne_none.mpr ?_
    exact fun free => missing ⟨position, List.mem_range.mp member, free⟩
  rw [List.length_range] at every
  exact absurd every (Nat.ne_of_lt room)

theorem exists_vacant (live : ∀ position, cells position ≠ .tombstone)
    (room : occupancy capacity cells < capacity) :
    ∃ position < capacity, cells position = .vacant := by
  obtain ⟨position, inside, free⟩ := exists_free room
  refine ⟨position, inside, ?_⟩
  cases cell : cells position with
  | vacant => rfl
  | tombstone => exact absurd cell (live position)
  | occupied key value =>
    rw [cell] at free
    exact nomatch free

end Occupancy

end OpenAddressing
