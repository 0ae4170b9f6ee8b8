import GlifiStore.Lib.Runs

/-!
# The synchronous lane of a shard in combining mode

Callers of `mutate` and `mutate_batch` push their nodes on a list and compete for
the execution token; the one that gets it executes the nodes of all. Each step
below is one atomic action of one caller, so a run is an interleaving.
-/

namespace GlifiStore

inductive ShardExecutionToken where
  | idle
  | executing
  deriving DecidableEq, Repr

/-- A `SyncMutation`: the caller that waits for it and its place in the batch. -/
structure SyncNode (Caller : Type) where
  owner : Caller
  index : Nat
  deriving DecidableEq, Repr

/-- The two calls of `process_sync_lane` in the loop of `combine_sync_lane`. -/
inductive CombineRound where
  | first
  | second
  deriving DecidableEq, Repr

inductive CallerPosition (Caller : Type) where
  /-- Not in a mutation of this shard, or before its push. -/
  | outside
  /-- After the push, before the first attempt on the token. -/
  | entering
  /-- At the start of `process_sync_lane`, before its functors are built. -/
  | starting (round : CombineRound)
  /-- In the loop of `process_sync_lane`, with the nodes taken but not done yet. -/
  | draining (round : CombineRound) (batch : List (SyncNode Caller))
  /-- Before the pending check. -/
  | sampling (round : CombineRound)
  /-- Before the release of the token, with the result of the check. -/
  | releasing (round : CombineRound) (pending : Bool)
  /-- Before `try_reacquire_execution_token_if_pending`. -/
  | reacquiring (pending : Bool)
  /-- Back at the head of the loop. -/
  | looping
  /-- Out of `combine_sync_lane`, waiting for its nodes. -/
  | left
  deriving DecidableEq, Repr

variable {Caller : Type}

/-- Positions between an acquisition of the token and its release. -/
def CallerPosition.Holds : CallerPosition Caller → Prop
  | .starting _ | .draining _ _ | .sampling _ | .releasing _ _ => True
  | _ => False

/-- Positions from which the caller still looks at the list. -/
def CallerPosition.Tends : CallerPosition Caller → Prop
  | .entering | .starting _ | .draining _ _ | .sampling _ | .releasing _ true | .reacquiring true
  | .looping => True
  | _ => False

/-- The lane: the list under the sync mutex, newest first, the token, the done
flags, and for each caller its position and the nodes it pushed. -/
structure CombiningLane (Caller : Type) where
  syncList : List (SyncNode Caller)
  token : ShardExecutionToken
  done : List (SyncNode Caller)
  position : Caller → CallerPosition Caller
  admitted : Caller → Nat

inductive CallerAction where
  /-- Push the nodes of a call under the sync mutex. -/
  | push (count : Nat)
  /-- Take the next atomic step. -/
  | proceed
  /-- Fail to build the functors of `process_sync_lane`. -/
  | allocationFails
  deriving DecidableEq, Repr

namespace CombiningLane

def initial : CombiningLane Caller where
  syncList := []
  token := .idle
  done := []
  position := fun _ => .outside
  admitted := fun _ => 0

variable [DecidableEq Caller] (lane : CombiningLane Caller) (caller : Caller)

def move (position : CallerPosition Caller) : CombiningLane Caller :=
  { lane with position := Function.update lane.position caller position }

/-- `try_acquire_execution_token`, and where the caller goes on. -/
def tryAcquire (acquired refused : CallerPosition Caller) : CombiningLane Caller :=
  match lane.token with
  | .idle => { lane.move caller acquired with token := .executing }
  | .executing => lane.move caller refused

def release (position : CallerPosition Caller) : CombiningLane Caller :=
  { lane.move caller position with token := .idle }

def pushedNodes (count : Nat) : List (SyncNode Caller) :=
  ((List.range count).map (SyncNode.mk caller)).reverse

def Returns : Prop :=
  ∀ index < lane.admitted caller, ⟨caller, index⟩ ∈ lane.done

instance (lane : CombiningLane Caller) (caller : Caller) : Decidable (lane.Returns caller) :=
  inferInstanceAs (Decidable (∀ index < lane.admitted caller, _))

/-- One atomic step of a caller; an action that is not enabled changes nothing. -/
def step (input : Caller × CallerAction) : CombiningLane Caller :=
  match lane.position input.1, input.2 with
  | .outside, .push (count + 1) =>
    { lane.move input.1 .entering with
      syncList := pushedNodes input.1 (count + 1) ++ lane.syncList
      admitted := Function.update lane.admitted input.1 (count + 1) }
  | .entering, .proceed => lane.tryAcquire input.1 (.starting .first) .left
  | .starting round, .allocationFails => lane.move input.1 (.sampling round)
  | .starting round, .proceed => lane.move input.1 (.draining round [])
  | .draining round [], .proceed =>
    match lane.syncList with
    | [] => lane.move input.1 (.sampling round)
    | taken => { lane.move input.1 (.draining round taken.reverse) with syncList := [] }
  | .draining round (node :: batch), .proceed =>
    { lane.move input.1 (.draining round batch) with done := node :: lane.done }
  | .sampling round, .proceed => lane.move input.1 (.releasing round (lane.syncList ≠ []))
  | .releasing .first pending, .proceed => lane.release input.1 (.reacquiring pending)
  | .releasing .second pending, .proceed =>
    lane.release input.1 (if pending then .looping else .left)
  | .reacquiring true, .proceed => lane.tryAcquire input.1 (.starting .second) .left
  | .reacquiring false, .proceed => lane.move input.1 .left
  | .looping, .proceed => lane.tryAcquire input.1 (.starting .first) .left
  | .left, .proceed =>
    if lane.Returns input.1 then
      -- The nodes of a call live on its stack.
      { lane.move input.1 .outside with
        done := lane.done.filter fun node => node.owner ≠ input.1
        admitted := Function.update lane.admitted input.1 0 }
    else
      lane
  | _, _ => lane

/-- Work is listed, the token is free and every caller has left the loop. -/
def Stranded : Prop :=
  lane.syncList ≠ [] ∧ lane.token = .idle ∧
    ∀ caller, lane.position caller = .outside ∨ lane.position caller = .left

/-- A caller whose own node is still listed is not refused the token by a holder
that has already found the list empty. -/
def NotOverlooked (input : Caller × CallerAction) : Prop :=
  lane.position input.1 = .entering → input.2 = .proceed →
    ∀ holder round, lane.position holder = .releasing round false →
      ∀ node ∈ lane.syncList, node.owner ≠ input.1

/-! ## The invariant -/

omit [DecidableEq Caller] in
theorem tends_of_holds {position : CallerPosition Caller} (held : position.Holds) :
    position.Tends ∨ ∃ round, position = .releasing round false := by
  cases position with
  | releasing round pending =>
    cases pending with
    | true => exact .inl trivial
    | false => exact .inr ⟨round, rfl⟩
  | starting | draining | sampling => exact .inl trivial
  | _ => exact held.elim

structure TokenHeld (token : ShardExecutionToken) (position : Caller → CallerPosition Caller) :
    Prop where
  idle : token = .idle → ∀ caller, ¬ (position caller).Holds
  executing : token = .executing → ∃ holder, (position holder).Holds
  unique : ∀ first second, (position first).Holds → (position second).Holds → first = second

structure Sound (lane : CombiningLane Caller) : Prop where
  held : TokenHeld lane.token lane.position
  /-- Somebody still looks at a list that is not empty. -/
  tended : lane.syncList ≠ [] → ∃ caller, (lane.position caller).Tends
  /-- What was pushed after a holder found the list empty has its owner still in
  front of the token. -/
  fresh : ∀ holder round, lane.position holder = .releasing round false →
    ∀ node ∈ lane.syncList, lane.position node.owner = .entering
  /-- A node that is not done is listed or in the batch of the holder. -/
  tracked : ∀ node : SyncNode Caller, node.index < lane.admitted node.owner →
    node ∈ lane.done ∨ node ∈ lane.syncList ∨ ∃ holder round batch,
      lane.position holder = .draining round batch ∧ node ∈ batch

variable {node : SyncNode Caller}

section Steps

variable {lane : CombiningLane Caller} {caller : Caller}
variable {round : CombineRound} {position : CallerPosition Caller}

@[simp] theorem move_position (position : CallerPosition Caller) (other : Caller) :
    (lane.move caller position).position other =
      if other = caller then position else lane.position other := by
  simp [move, Function.update_apply]

omit [DecidableEq Caller] in
theorem mem_pushedNodes {count : Nat} :
    node ∈ pushedNodes caller count ↔ node.owner = caller ∧ node.index < count := by
  simp only [pushedNodes, List.mem_reverse, List.mem_map, List.mem_range]
  constructor
  · rintro ⟨index, below, rfl⟩
    exact ⟨rfl, below⟩
  · rintro ⟨rfl, below⟩
    exact ⟨node.index, below, rfl⟩

section Sound

variable (sound : lane.Sound)
include sound

theorem Sound.held_move (holds : position.Holds ↔ (lane.position caller).Holds) :
    TokenHeld lane.token (lane.move caller position).position := by
  have same : ∀ other, ((lane.move caller position).position other).Holds ↔
      (lane.position other).Holds := by
    intro other
    rw [move_position]
    split
    · next equal => rw [equal, holds]
    · rfl
  exact ⟨fun token other => by rw [same]; exact sound.held.idle token other,
    fun token => by simpa only [same] using sound.held.executing token,
    fun first second => by simpa only [same] using sound.held.unique first second⟩

theorem Sound.tracked_move (position : CallerPosition Caller)
    (batch : ∀ round batch, lane.position caller = .draining round batch → batch = [])
    (node : SyncNode Caller) (admitted : node.index < lane.admitted node.owner) :
    node ∈ lane.done ∨ node ∈ lane.syncList ∨ ∃ holder round batch,
      (lane.move caller position).position holder = .draining round batch ∧ node ∈ batch := by
  rcases sound.tracked node admitted with done | listed | ⟨holder, round, taken, found, member⟩
  · exact .inl done
  · exact .inr (.inl listed)
  · have other : holder ≠ caller := by
      rintro rfl
      simp [batch round taken found] at member
    exact .inr (.inr ⟨holder, round, taken, by rw [move_position, if_neg other, found], member⟩)

theorem Sound.move (holds : position.Holds ↔ (lane.position caller).Holds)
    (tends : lane.syncList ≠ [] → (lane.position caller).Tends → position.Tends)
    (empty : ∀ round, position = .releasing round false → lane.syncList = [])
    (entered : lane.position caller ≠ .entering)
    (batch : ∀ round batch, lane.position caller = .draining round batch → batch = []) :
    (lane.move caller position).Sound where
  held := sound.held_move holds
  tended := by
    intro nonempty
    obtain ⟨other, tending⟩ := sound.tended nonempty
    refine ⟨other, ?_⟩
    rw [move_position]
    split
    · next same => exact tends nonempty (same ▸ tending)
    · exact tending
  fresh := by
    intro holder round found node listed
    rw [move_position] at found ⊢
    split at found
    · have none : (lane.move caller position).syncList = [] := empty round found
      simp [none] at listed
    · have entering := sound.fresh holder round found node listed
      have differs : node.owner ≠ caller := fun same => entered (same ▸ entering)
      rw [if_neg differs, entering]
  tracked := sound.tracked_move position batch

theorem Sound.acquire (token : lane.token = .idle) (round : CombineRound) :
    Sound { lane.move caller (.starting round) with token := .executing } := by
  have free := sound.held.idle token
  exact
    { held :=
        { idle := nofun
          executing := fun _ => ⟨caller, by simp [CallerPosition.Holds]⟩
          unique := by
            intro first second
            simp only [move_position]
            grind }
      tended := fun _ => ⟨caller, by simp [CallerPosition.Tends]⟩
      fresh := by
        intro holder round found
        simp only [move_position] at found
        split at found
        · cases found
        · exact (free holder (by simp [found, CallerPosition.Holds])).elim
      tracked := sound.tracked_move _ fun round batch found =>
        (free caller (by simp [found, CallerPosition.Holds])).elim }

theorem Sound.refuse (token : lane.token = .executing) (waits : ¬ (lane.position caller).Holds)
    (seen : lane.NotOverlooked (caller, .proceed)) : (lane.move caller .left).Sound := by
  -- A holder that found the list empty leaves the nodes to owners other than the caller.
  have fresh : ∀ holder round, lane.position holder = .releasing round false →
      ∀ node ∈ lane.syncList, node.owner ≠ caller ∧ lane.position node.owner = .entering := by
    intro holder round found node listed
    have entering := sound.fresh holder round found node listed
    refine ⟨fun same => ?_, entering⟩
    exact seen (same ▸ entering) rfl holder round found node listed same
  obtain ⟨holder, held⟩ := sound.held.executing token
  have other : holder ≠ caller := by
    rintro rfl
    exact waits held
  exact
    { held := sound.held_move (iff_of_false nofun waits)
      tended := by
        intro nonempty
        rcases tends_of_holds held with tending | ⟨round, found⟩
        · exact ⟨holder, by rwa [move_position, if_neg other]⟩
        · obtain ⟨node, listed⟩ := List.exists_mem_of_ne_nil _ nonempty
          obtain ⟨differs, entering⟩ := fresh holder round found node listed
          exact ⟨node.owner, by simp [differs, entering, CallerPosition.Tends]⟩
      fresh := by
        intro holder round found node listed
        rw [move_position] at found ⊢
        split at found
        · cases found
        · obtain ⟨differs, entering⟩ := fresh holder round found node listed
          rw [if_neg differs, entering]
      tracked := sound.tracked_move _ fun round batch found =>
        (waits (by simp [found, CallerPosition.Holds])).elim }

theorem Sound.tryAcquire (waits : ¬ (lane.position caller).Holds)
    (seen : lane.NotOverlooked (caller, .proceed)) (round : CombineRound) :
    (lane.tryAcquire caller (.starting round) .left).Sound := by
  unfold CombiningLane.tryAcquire
  cases token : lane.token with
  | idle => exact sound.acquire token round
  | executing => exact sound.refuse token waits seen

theorem Sound.release {pending : Bool}
    (releases : lane.position caller = .releasing round pending) (released : ¬ position.Holds)
    (tends : pending = true → position.Tends) :
    (lane.release caller position).Sound := by
  have alone : ∀ other, (lane.position other).Holds → other = caller := fun other holds =>
    sound.held.unique other caller holds (by simp [releases, CallerPosition.Holds])
  have free : ∀ other, ¬ ((lane.release caller position).position other).Holds := by
    intro other
    simp only [CombiningLane.release, move_position]
    split
    · exact released
    · next differs => exact fun holds => differs (alone other holds)
  exact
    { held := ⟨fun _ => free, nofun, fun first _ holds => (free first holds).elim⟩
      tended := by
        intro nonempty
        cases pending with
        | true => exact ⟨caller, by simpa [CombiningLane.release] using tends rfl⟩
        | false =>
          obtain ⟨node, listed⟩ := List.exists_mem_of_ne_nil _ nonempty
          have entering := sound.fresh caller round releases node listed
          have differs : node.owner ≠ caller := by
            intro same
            simp [← same, entering] at releases
          exact ⟨node.owner,
            by simp [CombiningLane.release, differs, entering, CallerPosition.Tends]⟩
      fresh := fun holder round found =>
        (free holder (by simp [found, CallerPosition.Holds])).elim
      tracked := sound.tracked_move position fun round batch found => by simp [found] at releases }

theorem Sound.push (starts : lane.position caller = .outside) (count : Nat) :
    Sound
      { lane.move caller .entering with
        syncList := pushedNodes caller count ++ lane.syncList
        admitted := Function.update lane.admitted caller count } where
  held := sound.held_move (by simp [starts, CallerPosition.Holds])
  tended := fun _ => ⟨caller, by simp [CallerPosition.Tends]⟩
  fresh := by
    intro holder round found node listed
    rw [move_position] at found ⊢
    split at found
    · cases found
    · split
      · rfl
      · next differs =>
        rcases List.mem_append.mp listed with own | older
        · exact absurd (mem_pushedNodes.mp own).1 differs
        · exact sound.fresh holder round found node older
  tracked := by
    intro node admitted
    by_cases same : node.owner = caller
    · refine .inr (.inl (List.mem_append_left _ (mem_pushedNodes.mpr ⟨same, ?_⟩)))
      simpa [same] using admitted
    · replace admitted : node.index < lane.admitted node.owner := by simpa [same] using admitted
      have unfinished : ∀ round batch, lane.position caller = .draining round batch → batch = [] :=
        fun round batch found => by simp [found] at starts
      rcases sound.tracked_move .entering unfinished node admitted with done | listed | taken
      · exact .inl done
      · exact .inr (.inl (List.mem_append_right _ listed))
      · exact .inr (.inr taken)

theorem Sound.take (drains : lane.position caller = .draining round []) :
    Sound { lane.move caller (.draining round lane.syncList.reverse) with syncList := [] } where
  held := sound.held_move (by simp [drains, CallerPosition.Holds])
  tended := fun nonempty => absurd rfl nonempty
  fresh := by simp
  tracked := by
    intro node admitted
    have unfinished : ∀ round batch, lane.position caller = .draining round batch → batch = [] := by
      simp [drains]
    rcases sound.tracked_move (.draining round lane.syncList.reverse) unfinished node admitted with
      done | listed | taken
    · exact .inl done
    · refine .inr (.inr ⟨caller, round, lane.syncList.reverse, ?_, List.mem_reverse.mpr listed⟩)
      rw [move_position, if_pos rfl]
    · exact .inr (.inr taken)

theorem Sound.complete {batch : List (SyncNode Caller)}
    (drains : lane.position caller = .draining round (node :: batch)) :
    Sound { lane.move caller (.draining round batch) with done := node :: lane.done } where
  held := sound.held_move (by simp [drains, CallerPosition.Holds])
  tended := fun _ => ⟨caller, by simp [CallerPosition.Tends]⟩
  fresh := by
    intro holder round found other listed
    rw [move_position] at found ⊢
    split at found
    · cases found
    · have entering := sound.fresh holder round found other listed
      have differs : other.owner ≠ caller := by
        intro same
        simp [← same, entering] at drains
      rw [if_neg differs, entering]
  tracked := by
    intro other admitted
    simp only [move_position]
    rcases sound.tracked other admitted with done | listed | ⟨holder, round, taken, found, member⟩
    · exact .inl (List.mem_cons_of_mem _ done)
    · exact .inr (.inl listed)
    · by_cases same : holder = caller
      · subst same
        rw [drains] at found
        injection found with _ equal
        subst equal
        rcases List.mem_cons.mp member with rfl | later
        · exact .inl List.mem_cons_self
        · exact .inr (.inr ⟨holder, _, batch, if_pos rfl, later⟩)
      · exact .inr (.inr ⟨holder, round, taken, by rw [if_neg same, found], member⟩)

theorem Sound.leave (waits : lane.position caller = .left) :
    Sound
      { lane.move caller .outside with
        done := lane.done.filter fun node => node.owner ≠ caller
        admitted := Function.update lane.admitted caller 0 } := by
  have unfinished : ∀ round batch, lane.position caller = .draining round batch → batch = [] :=
    fun round batch found => by simp [found] at waits
  have moved : (lane.move caller .outside).Sound := sound.move
    (by simp [waits, CallerPosition.Holds]) (by simp [waits, CallerPosition.Tends]) nofun
    (by simp [waits]) unfinished
  refine { moved with tracked := fun node admitted => ?_ }
  have differs : node.owner ≠ caller := by
    intro same
    simp [same] at admitted
  replace admitted : node.index < lane.admitted node.owner := by simpa [differs] using admitted
  rcases moved.tracked node admitted with done | elsewhere
  · exact .inl (List.mem_filter.mpr ⟨done, by simpa using differs⟩)
  · exact .inr elsewhere

end Sound

end Steps

omit [DecidableEq Caller] in
theorem initial_sound : (initial : CombiningLane Caller).Sound where
  held := ⟨fun _ _ => nofun, nofun, nofun⟩
  tended := fun nonempty => absurd rfl nonempty
  fresh := nofun
  tracked := nofun

variable {lane : CombiningLane Caller}

theorem step_sound {input : Caller × CallerAction} (sound : lane.Sound)
    (seen : lane.NotOverlooked input) : (lane.step input).Sound := by
  obtain ⟨caller, action⟩ := input
  have elsewhere {position : CallerPosition Caller} (found : lane.position caller = position)
      (differs : position ≠ .entering) : lane.NotOverlooked (caller, .proceed) :=
    fun entering => absurd (found.symm.trans entering) differs
  unfold step
  split
  case h_1 count found _ => exact sound.push found (count + 1)
  case h_2 found act =>
    exact sound.tryAcquire (by simp [found, CallerPosition.Holds])
      (fun entering _ => seen entering act) .first
  case h_3 round found _ | h_4 round found _ =>
    exact sound.move (by simp [found, CallerPosition.Holds])
      (by simp [CallerPosition.Tends]) nofun (by simp [found]) (by simp [found])
  case h_5 round found _ =>
    split
    · exact sound.move (by simp [found, CallerPosition.Holds])
        (by simp [CallerPosition.Tends]) nofun (by simp [found]) (by simp [found])
    · exact sound.take found
  case h_6 round node batch found _ => exact sound.complete found
  case h_7 round found _ =>
    exact sound.move (by simp [found, CallerPosition.Holds])
      (by simp +contextual [CallerPosition.Tends]) (by simp) (by simp [found]) (by simp [found])
  case h_8 pending found _ =>
    exact sound.release found nofun (by rintro rfl; trivial)
  case h_9 pending found _ =>
    exact sound.release found (by cases pending <;> exact nofun) (by rintro rfl; trivial)
  case h_10 found _ | h_12 found _ =>
    exact sound.tryAcquire (by simp [found, CallerPosition.Holds]) (elsewhere found nofun) _
  case h_11 found _ =>
    exact sound.move (by simp [found, CallerPosition.Holds])
      (by simp [found, CallerPosition.Tends]) nofun (by simp [found]) (by simp [found])
  case h_13 found _ =>
    split
    · exact sound.leave found
    · exact sound
  case h_14 => exact sound

omit [DecidableEq Caller] in
theorem Sound.not_stranded (sound : lane.Sound) :
    ¬ lane.Stranded := by
  rintro ⟨nonempty, -, everyone⟩
  obtain ⟨caller, tends⟩ := sound.tended nonempty
  rcases everyone caller with found | found <;> simp [found, CallerPosition.Tends] at tends

omit [DecidableEq Caller] in
theorem Sound.exists_tends (sound : lane.Sound) (admitted : node.index < lane.admitted node.owner)
    (undone : node ∉ lane.done) : ∃ caller, (lane.position caller).Tends := by
  rcases sound.tracked node admitted with done | listed | ⟨holder, round, batch, found, -⟩
  · exact absurd done undone
  · exact sound.tended (List.ne_nil_of_mem listed)
  · exact ⟨holder, by simp [found, CallerPosition.Tends]⟩

/-- In an interleaving of any callers in which no caller is refused the token by a
holder that overlooks its node, no state is stranded and every node that is not
done has a caller that still looks at the list. -/
theorem combining_never_stranded {inputs : List (Caller × CallerAction)}
    (guarded : Runs.Guarded step NotOverlooked initial inputs) :
    ¬ (Runs.run step initial inputs).Stranded ∧
      ∀ node : SyncNode Caller,
        node.index < (Runs.run step initial inputs).admitted node.owner →
        node ∉ (Runs.run step initial inputs).done →
        ∃ caller, ((Runs.run step initial inputs).position caller).Tends := by
  have sound : (Runs.run step initial inputs).Sound :=
    guarded.invariant (fun _ _ sound seen => step_sound sound seen) initial_sound
  exact ⟨sound.not_stranded, fun node admitted undone => sound.exists_tends admitted undone⟩

/-- The second caller is refused while the first one has not drained the list yet. -/
def sharedTurn : List (Bool × CallerAction) :=
  [(true, .push 1), (true, .proceed), (false, .push 1), (false, .proceed), (true, .proceed),
    (true, .proceed)]

theorem combining_never_stranded_shared :
    Runs.Guarded step NotOverlooked initial sharedTurn ∧
      ¬ (Runs.run step initial sharedTurn).Stranded := by
  have guarded : Runs.Guarded step NotOverlooked initial sharedTurn := by
    refine ⟨nofun, ?_, nofun, ?_, nofun, nofun, trivial⟩
    -- Nobody has checked the list when the callers try the token.
    all_goals
      rintro - - (_ | _) round found
      all_goals cases found
  exact ⟨guarded, (combining_never_stranded guarded).1⟩

/-- The second caller pushes after the first one has found the list empty, and is
refused before the token is released. -/
def lateTurn : List (Bool × CallerAction) :=
  (true, .push 1) :: List.replicate 6 (true, .proceed) ++
    [(false, .push 1), (false, .proceed), (true, .proceed), (true, .proceed)]

theorem lateTurn_strands : (Runs.run step initial lateTurn).Stranded := by
  refine ⟨by decide, by decide, ?_⟩
  rintro (_ | _)
  · exact .inr rfl
  · exact .inr rfl

end CombiningLane

end GlifiStore
