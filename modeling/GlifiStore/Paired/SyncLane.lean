import GlifiStore.Lib.Runs
import GlifiStore.Paired.DeltaState

/-!
# The order of the synchronous lane

Callers push their nodes on a list, newest first. The thread with the execution
token takes the list, reverses it and answers its nodes: the dedicated Writer in
turns of at most 32 records, with a continuation of its own, a combining caller
the whole list. What a thread finds on the way is an input, so a run is any
interleaving of admissions with the passes of a drain, under any findings.
-/

namespace GlifiStore

def kMaximumSyncTurnRecords : Nat := 32

/-- How a drain enters the Store: by chunks, by single nodes, or with a Writer batch. -/
inductive LaneStore where
  | volatile
  | durableSync
  | durableGroup
  deriving DecidableEq, Repr

structure LaneConfig where
  asyncEnabled : Bool
  store : LaneStore
  deriving DecidableEq, Repr

def LaneConfig.dedicatedWriterRequired (config : LaneConfig) : Bool :=
  config.asyncEnabled || config.store = .durableGroup

/-- How a node is answered. -/
inductive NodeAnswer where
  /-- After an entry into the Store. -/
  | executed
  /-- Without an entry, with an error. -/
  | refused
  /-- Without an entry, with the default status, which is a success. -/
  | untouched
  deriving DecidableEq, Repr

/-- What a drain finds on a pass over the nodes in hand. -/
inductive DrainFinding where
  /-- The lane is fail-closed or has no generation for the turn. -/
  | turnRefused
  /-- No generation or slot for the chunk, or an exception in front of the Store. -/
  | chunkRefused
  /-- The Store is entered with that many nodes of the chunk, until the lane is
  fail-closed or an exception is raised. -/
  | entered (count : Nat)
  /-- The vector of a Writer batch does not grow beyond that many nodes. Without a batch
  this is a refused chunk. -/
  | collectionFailed (count : Nat)
  deriving DecidableEq, Repr

variable {Node : Type}

/-- The records of one pass, at most. -/
def LaneStore.chunkRecords (store : LaneStore) (turn : List Node) : Nat :=
  match store with
  | .volatile => kMaximumPublicationBatch
  | .durableSync => 1
  | .durableGroup => turn.length

def LaneStore.refuseChunk (store : LaneStore) (turn : List Node) :
    List (Node × NodeAnswer) × List Node :=
  ((turn.take (store.chunkRecords turn)).map (·, .refused), turn.drop (store.chunkRecords turn))

/-- One pass of the loop over the nodes in hand: those it answers, in the order of
their `done` flags, and those it leaves. -/
def LaneStore.pass (store : LaneStore) (turn : List Node) :
    DrainFinding → List (Node × NodeAnswer) × List Node
  | .turnRefused => (turn.map (·, .refused), [])
  | .chunkRefused => store.refuseChunk turn
  | .entered count =>
    let chunk := turn.take (store.chunkRecords turn)
    ((chunk.take count).map (·, .executed) ++ (chunk.drop count).map (·, .refused),
      turn.drop (store.chunkRecords turn))
  | .collectionFailed count =>
    if store = .durableGroup then
      -- The handler stamps the nodes of the vector, the loop behind it answers the turn.
      ((turn.take count).map (·, .refused) ++ (turn.drop count).map (·, .untouched), [])
    else store.refuseChunk turn

structure SyncLane (Node : Type) where
  /-- Under the sync mutex, newest first. -/
  syncHead : List Node
  /-- The continuation of the Writer, oldest first. -/
  carriedSync : List Node
  /-- The nodes in hand of the thread with the execution token. -/
  turn : List Node
  answered : List (Node × NodeAnswer)
  deriving DecidableEq, Repr

inductive LaneEvent (Node : Type) where
  /-- The push of `mutate`, or of `mutate_batch` with several nodes. -/
  | enqueue (first : Node) (rest : List Node)
  /-- The next action of a drain: a pass over the nodes in hand or, without any, a take. -/
  | proceed (finding : DrainFinding)
  deriving DecidableEq, Repr

def LaneEvent.admitted : LaneEvent Node → List Node
  | .enqueue first rest => first :: rest
  | .proceed _ => []

namespace SyncLane

def empty : SyncLane Node := ⟨[], [], [], []⟩

variable (lane : SyncLane Node)

/-- The Writer goes on with its continuation before it takes the list. -/
def beginWriterTurn : SyncLane Node :=
  match lane.carriedSync with
  | [] =>
    { lane with
      syncHead := []
      turn := lane.syncHead.reverse.take kMaximumSyncTurnRecords
      carriedSync := lane.syncHead.reverse.drop kMaximumSyncTurnRecords }
  | node :: carried =>
    { lane with
      turn := (node :: carried).take kMaximumSyncTurnRecords
      carriedSync := (node :: carried).drop kMaximumSyncTurnRecords }

def beginCombinerTurn : SyncLane Node :=
  { lane with syncHead := [], turn := lane.syncHead.reverse }

def step (config : LaneConfig) (lane : SyncLane Node) : LaneEvent Node → SyncLane Node
  | .enqueue first rest =>
    { lane with syncHead := (first :: rest).foldl (fun head node => node :: head) lane.syncHead }
  | .proceed finding =>
    match lane.turn with
    | [] =>
      if config.dedicatedWriterRequired then lane.beginWriterTurn else lane.beginCombinerTurn
    | node :: turn =>
      { lane with
        turn := (config.store.pass (node :: turn) finding).2
        answered := lane.answered ++ (config.store.pass (node :: turn) finding).1 }

def run (config : LaneConfig) : SyncLane Node → List (LaneEvent Node) → SyncLane Node :=
  Runs.run (step config)

/-- The vector of a Writer batch grows. -/
def Collects (config : LaneConfig) (_ : SyncLane Node) (event : LaneEvent Node) : Prop :=
  config.store = .durableGroup → ∀ count, event ≠ .proceed (.collectionFailed count)

/-- The nodes that were admitted, oldest first: answered, in hand, carried over, listed. -/
def nodes : List Node :=
  lane.answered.map Prod.fst ++ lane.turn ++ lane.carriedSync ++ lane.syncHead.reverse

def pending : Nat :=
  lane.turn.length + lane.carriedSync.length + lane.syncHead.length

/-- Every node that is answered was executed or refused. -/
def Touched : Prop :=
  ∀ answer ∈ lane.answered, answer.2 ≠ .untouched

/-- What is left for a drain: every node is taken and answered. -/
def work : Nat :=
  2 * lane.pending + if lane.turn = [] then 1 else 0

/-- Only a lane with a Writer carries nodes over, and its turns are short. -/
structure Bounded (config : LaneConfig) (lane : SyncLane Node) : Prop where
  carried : config.dedicatedWriterRequired = false → lane.carriedSync = []
  turn : config.dedicatedWriterRequired = true → lane.turn.length ≤ kMaximumSyncTurnRecords

/-! ## One pass -/

section Pass

variable (store : LaneStore) (turn : List Node) (finding : DrainFinding)

theorem map_fst_pass :
    (store.pass turn finding).1.map Prod.fst ++ (store.pass turn finding).2 = turn := by
  have answers (chunk : List Node) (answer : NodeAnswer) :
      (chunk.map (·, answer)).map Prod.fst = chunk := by simp [Function.comp_def]
  fun_cases LaneStore.pass store turn finding with
  | case3 count chunk =>
    simp only [List.map_append, answers, List.take_append_drop, chunk]
  | _ =>
    simp only [LaneStore.refuseChunk, List.map_append, answers, List.take_append_drop,
      List.append_nil]

theorem length_pass_lt (some : turn ≠ []) : (store.pass turn finding).2.length < turn.length := by
  have positive : 0 < turn.length := List.length_pos_iff.mpr some
  have chunk : 0 < store.chunkRecords turn := by
    cases store with
    | durableGroup => exact positive
    | volatile | durableSync => exact Nat.zero_lt_succ _
  fun_cases LaneStore.pass store turn finding with
  | case1 | case4 => exact positive
  | case2 | case3 | case5 =>
    simp only [LaneStore.refuseChunk, List.length_drop]
    omega

theorem touched_of_pass
    (collects : store = .durableGroup → ∀ count, finding ≠ .collectionFailed count) :
    ∀ answer ∈ (store.pass turn finding).1, answer.2 ≠ .untouched := by
  fun_cases LaneStore.pass store turn finding with
  | case4 count group => exact (collects group count rfl).elim
  | case1 | case2 | case3 | case5 =>
    simp only [LaneStore.refuseChunk, List.mem_append, List.mem_map]
    grind

end Pass

/-! ## Runs -/

variable {config : LaneConfig} {lane : SyncLane Node}

theorem step_idle (idle : lane.turn = []) (finding : DrainFinding) :
    lane.step config (.proceed finding) =
      if config.dedicatedWriterRequired then lane.beginWriterTurn else lane.beginCombinerTurn := by
  simp only [step, idle]

theorem step_busy (busy : lane.turn ≠ []) (finding : DrainFinding) :
    lane.step config (.proceed finding) =
      { lane with
        turn := (config.store.pass lane.turn finding).2
        answered := lane.answered ++ (config.store.pass lane.turn finding).1 } := by
  cases inHand : lane.turn with
  | nil => exact (busy inHand).elim
  | cons node turn => simp only [step, inHand]

theorem beginWriterTurn_spec : ∃ rev syncHead,
    lane.beginWriterTurn = ⟨syncHead, rev.drop kMaximumSyncTurnRecords,
      rev.take kMaximumSyncTurnRecords, lane.answered⟩ ∧
      rev ++ syncHead.reverse = lane.carriedSync ++ lane.syncHead.reverse ∧
      (rev = [] → syncHead = []) := by
  cases carried : lane.carriedSync with
  | nil =>
    exact ⟨lane.syncHead.reverse, [], by simp [beginWriterTurn, carried], by simp, fun _ => rfl⟩
  | cons node rest =>
    exact ⟨node :: rest, lane.syncHead, by simp only [beginWriterTurn, carried], rfl, nofun⟩

theorem Bounded.step (bounded : lane.Bounded config) (event : LaneEvent Node) :
    (lane.step config event).Bounded config := by
  cases event with
  | enqueue first rest => exact ⟨bounded.carried, bounded.turn⟩
  | proceed finding =>
    by_cases idle : lane.turn = []
    · rw [step_idle idle]
      split
      · next writer =>
        obtain ⟨rev, syncHead, taken, -, -⟩ := lane.beginWriterTurn_spec
        rw [taken]
        exact ⟨fun combiner => absurd writer (by simp [combiner]), fun _ => List.length_take_le _ _⟩
      · next combiner => exact ⟨bounded.carried, fun writer => (combiner writer).elim⟩
    · rw [step_busy idle]
      exact ⟨bounded.carried, fun writer =>
        (length_pass_lt config.store lane.turn finding idle).le.trans (bounded.turn writer)⟩

theorem Bounded.nodes_step (bounded : lane.Bounded config) (event : LaneEvent Node) :
    (lane.step config event).nodes = lane.nodes ++ event.admitted := by
  cases event with
  | enqueue first rest => simp [SyncLane.step, nodes, LaneEvent.admitted]
  | proceed finding =>
    rw [LaneEvent.admitted, List.append_nil]
    by_cases idle : lane.turn = []
    · rw [step_idle idle]
      split
      · obtain ⟨rev, syncHead, taken, kept, -⟩ := lane.beginWriterTurn_spec
        simp only [taken, nodes, idle, List.append_nil, List.append_assoc, ← kept,
          List.take_append_drop]
      · next combiner =>
        simp [beginCombinerTurn, nodes, idle, bounded.carried (Bool.eq_false_iff.mpr combiner)]
    · rw [step_busy idle]
      simp only [nodes, List.map_append, List.append_assoc, map_fst_pass]

theorem Bounded.run (bounded : lane.Bounded config) (events : List (LaneEvent Node)) :
    (SyncLane.run config lane events).Bounded config ∧
      (SyncLane.run config lane events).nodes =
        lane.nodes ++ events.flatMap LaneEvent.admitted := by
  induction events generalizing lane with
  | nil => exact ⟨bounded, (List.append_nil _).symm⟩
  | cons event events ih =>
    rw [List.flatMap_cons, ← List.append_assoc, ← bounded.nodes_step]
    exact ih (bounded.step event)

/-- Every step of a drain comes closer to a lane without pending nodes. -/
theorem Bounded.work_step (bounded : lane.Bounded config) (finding : DrainFinding) :
    (lane.step config (.proceed finding)).work < lane.work ∨
      (lane.step config (.proceed finding)).work ≤ 1 := by
  by_cases idle : lane.turn = []
  · rw [step_idle idle]
    split
    · obtain ⟨rev, syncHead, taken, kept, whole⟩ := lane.beginWriterTurn_spec
      have length := congrArg List.length kept
      simp only [taken, work, pending, idle, List.length_append, List.length_reverse,
        List.length_take, List.length_drop, List.length_nil, if_true] at length ⊢
      cases rev with
      | nil => simp [whole rfl]
      | cons node rest =>
        refine .inl ?_
        simp only [kMaximumSyncTurnRecords, List.take_succ_cons, List.length_cons, reduceCtorEq,
          if_false] at length ⊢
        omega
    · next combiner =>
      have carried := bounded.carried (Bool.eq_false_iff.mpr combiner)
      simp only [beginCombinerTurn, work, pending, idle, carried, List.length_reverse,
        List.length_nil, List.reverse_eq_nil_iff]
      split <;> simp_all
  · have less := length_pass_lt config.store lane.turn finding idle
    rw [step_busy idle]
    simp only [work, pending, if_neg idle]
    split <;> omega

theorem Bounded.drained (bounded : lane.Bounded config) (findings : List DrainFinding)
    (enough : lane.work ≤ findings.length + 1) :
    (SyncLane.run config lane (findings.map .proceed)).pending = 0 := by
  induction findings generalizing lane with
  | nil =>
    simp only [work, List.length_nil] at enough
    change lane.pending = 0
    omega
  | cons finding findings ih =>
    refine ih (bounded.step _) ?_
    have := bounded.work_step finding
    simp only [List.length_cons] at enough
    omega

theorem Touched.step (touched : lane.Touched) {event : LaneEvent Node}
    (collects : Collects config lane event) : (lane.step config event).Touched := by
  cases event with
  | enqueue first rest => exact touched
  | proceed finding =>
    by_cases idle : lane.turn = []
    · rw [step_idle idle]
      obtain ⟨rev, syncHead, taken, -, -⟩ := lane.beginWriterTurn_spec
      split
      · rwa [taken]
      · exact touched
    · rw [step_busy idle]
      refine fun answer member => (List.mem_append.mp member).elim (touched answer) ?_
      exact touched_of_pass _ _ _ (fun group count failed => collects group count (failed ▸ rfl))
        answer

/-- In every interleaving of admissions with the actions of the drains, the nodes that are
answered, in hand, carried over and listed are together the admitted ones, each once
and in the order of admission; each answer is an execution or a refusal, a turn of
the Writer has at most 32 records, and a drain that goes on answers every node. -/
theorem sync_lane_answers_in_order (config : LaneConfig) (events : List (LaneEvent Node))
    (collects : Runs.Guarded (step config) (Collects config) empty events) :
    let lane := run config empty events
    lane.answered.map Prod.fst ++ lane.turn ++ lane.carriedSync ++ lane.syncHead.reverse =
        events.flatMap LaneEvent.admitted ∧
      (∀ answer ∈ lane.answered, answer.2 = .executed ∨ answer.2 = .refused) ∧
      (config.dedicatedWriterRequired = true → lane.turn.length ≤ kMaximumSyncTurnRecords) ∧
      ∀ findings : List DrainFinding, 2 * lane.pending ≤ findings.length →
        (run config lane (findings.map .proceed)).answered.map Prod.fst =
          events.flatMap LaneEvent.admitted := by
  intro lane
  have start : (empty : SyncLane Node).Bounded config := ⟨fun _ => rfl, fun _ => Nat.zero_le _⟩
  obtain ⟨bounded, whole⟩ :
      lane.Bounded config ∧ lane.nodes = events.flatMap LaneEvent.admitted := start.run events
  have touched : lane.Touched := collects.invariant (fun _ _ kept met => kept.step met) nofun
  refine ⟨whole, fun answer member => ?_, bounded.turn, fun findings enough => ?_⟩
  · cases answered : answer.2 with
    | executed => exact .inl rfl
    | refused => exact .inr rfl
    | untouched => exact (touched answer member answered).elim
  · have drained := bounded.drained findings (by unfold work; split <;> omega)
    have kept := (bounded.run (findings.map .proceed)).2
    simp only [pending, Nat.add_eq_zero_iff, List.length_eq_zero_iff] at drained
    obtain ⟨⟨turn, carried⟩, head⟩ := drained
    have none : (findings.map .proceed).flatMap (@LaneEvent.admitted Node) = [] := by
      simp [List.flatMap_eq_nil_iff, LaneEvent.admitted]
    rw [whole, none, nodes, turn, carried, head] at kept
    simpa using kept

theorem sync_lane_answers_batch :
    (run ⟨true, .volatile⟩ empty [.enqueue 1 [2], .proceed .turnRefused, .enqueue 3 [],
        .proceed (.entered 1)]).answered.map Prod.fst ++ [3] = [1, 2, 3] :=
  (sync_lane_answers_in_order ⟨true, .volatile⟩ [.enqueue 1 [2], .proceed .turnRefused, .enqueue 3 [],
    .proceed (.entered 1)] (by simp [Runs.Guarded, Collects])).1

/-- A Writer batch of two nodes whose vector does not grow: the second node is
acknowledged although the Store was not entered with it. -/
theorem uncollected_node_acknowledged :
    (run ⟨false, .durableGroup⟩ empty
      [.enqueue 1 [2], .proceed .turnRefused, .proceed (.collectionFailed 1)]).answered =
      [(1, .refused), (2, .untouched)] := by
  decide

end SyncLane

end GlifiStore
