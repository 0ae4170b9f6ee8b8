import GlifiStore.Lib.Runs
import GlifiStore.Segment.File

/-!
# Strict group commit

A strict Worker takes mutations into its pending batch before its Index shows
them. `mutate` decides from the Index and the batch together;
`flush_worker_batch` publishes the batch once its commit slot is written. Reads
leave expired records behind, which later calls take out of the Index. The Index
stands for the finite map its table refines.
-/

namespace GlifiStore

abbrev WorkerIndex := AList fun _ : Key => RecordRef

def WorkerIndex.size (index : WorkerIndex) : Nat :=
  index.keys.length

structure PendingGroupMutation where
  key : Key
  opcode : Opcode
  reference : RecordRef

structure DeferredTtlReclaim where
  key : Key
  reference : RecordRef

structure RuntimeWorker where
  index : WorkerIndex := ∅
  nextSequence : Nat := 1
  durableThrough : Nat := 0
  activeSegment : Nat := 1
  generation : Nat := 1
  pendingGroupMutations : List PendingGroupMutation := []
  pendingGroupInsertions : Nat := 0
  healthy : Bool := true
  deferredTtlReclaims : List DeferredTtlReclaim := []

/-- What a flush meets: the commit of its slot, and the error that ends the publication
after some of the mutations, if one does. -/
structure BatchFlushIo where
  slot : SegmentCommitResult := .committed
  publication : Option (Nat × Error) := none

/-- The flush and the rotation of a mutation that finds its Segment full. -/
structure RotationIo where
  flushed : BatchFlushIo := {}
  rotated : SegmentCommitResult := .committed
  activeSegment : Nat
  generation : Nat

/-- What a mutation meets: the error that ends the drain after some of the reclaims, if one
does, whether the Index, the record and the hot record are prepared, whether the Segment is
full, and what its append does. -/
structure MutationIo where
  drained : Option (Nat × Error) := none
  compactionCommitActive : Bool := false
  prepared : Status := .ok ()
  full : Option RotationIo := none
  appended : SegmentCommitResult := .committed
  directoryHealthy : Bool := true
  offset : Nat := 0
  size : Nat := 0

def applyMutation (index : WorkerIndex) (mutation : PendingGroupMutation) : WorkerIndex :=
  match mutation.opcode with
  | .put => index.insert mutation.key mutation.reference
  | .erase => index.erase mutation.key

namespace RuntimeWorker

variable (worker : RuntimeWorker)

def keyPresent (key : Key) : Bool :=
  match worker.pendingGroupMutations.reverse.find? fun mutation => mutation.key = key with
  | some pending => pending.opcode = .put
  | none => (worker.index.lookup key).isSome

/-- The decisions of `mutate` on the presence of the key and on the live keys. -/
def admission (limit : Nat) (worker : RuntimeWorker) (key : Key) (opcode : Opcode) : Status :=
  if opcode = .erase ∧ ¬ worker.keyPresent key then fail .notFound "key is not present"
  else if opcode = .put ∧ ¬ worker.keyPresent key ∧ (worker.index.size ≥ limit ∨
      worker.pendingGroupInsertions ≥ limit - worker.index.size) then
    fail .resourceExhausted "durable Worker live-key budget is exhausted"
  else .ok ()

def abandonPendingBatch : RuntimeWorker :=
  { worker with healthy := false, pendingGroupMutations := [], pendingGroupInsertions := 0 }

def publish (mutations : List PendingGroupMutation) : RuntimeWorker :=
  { worker with
    index := mutations.foldl applyMutation worker.index
    durableThrough :=
      mutations.foldl (fun _ mutation => mutation.reference.sequence) worker.durableThrough }

def flushWorkerBatch (io : BatchFlushIo) : Status × RuntimeWorker :=
  if worker.pendingGroupMutations.isEmpty then (.ok (), worker)
  else
    match io.slot, io.publication with
    | .notCommitted error, _ | .indeterminate error, _ =>
      (.error error, worker.abandonPendingBatch)
    | .committed, some (applied, error) =>
      -- What has reached the Index stays there.
      (.error error, (worker.publish (worker.pendingGroupMutations.take applied)).abandonPendingBatch)
    | .committed, none =>
      (.ok (), { worker.publish worker.pendingGroupMutations with
        pendingGroupMutations := []
        pendingGroupInsertions := 0 })

/-- Whether the Index still holds the expired record. -/
def Holds (pending : DeferredTtlReclaim) : Prop :=
  worker.index.lookup pending.key = some pending.reference

instance : DecidablePred worker.Holds :=
  fun _ => inferInstanceAs (Decidable (_ = _))

def reclaim (pending : DeferredTtlReclaim) : RuntimeWorker :=
  if worker.Holds pending then { worker with index := worker.index.erase pending.key } else worker

def reclaimNow (pending : DeferredTtlReclaim) (counted : Status) : Status × RuntimeWorker :=
  (if worker.Holds pending then counted else .ok (), worker.reclaim pending)

def drainDeferredTtl (limit : Nat) (failed : Option (Nat × Error)) : Status × RuntimeWorker :=
  let (processed, status) :=
    match failed with
    | none => (limit, .ok ())
    | some (processed, error) => (min processed limit, .error error)
  (status, { (worker.deferredTtlReclaims.take processed).foldl reclaim worker with
    deferredTtlReclaims := worker.deferredTtlReclaims.drop processed })

/-- What a read does with an expired record: the drain of a full backlog may fail, and the
accounting of a reclaim on the spot. -/
def deferOrReclaimExpired (pending : DeferredTtlReclaim) (backlogLimit : Nat)
    (failed : Option (Nat × Error)) (counted : Status) : Status × RuntimeWorker :=
  if backlogLimit = 0 then worker.reclaimNow pending counted
  else
    match if worker.deferredTtlReclaims.length ≥ backlogLimit then
        worker.drainDeferredTtl (max 1 (backlogLimit / 8)) failed
      else (.ok (), worker) with
    | (.error error, drained) => (.error error, drained)
    | (.ok (), drained) =>
      if drained.deferredTtlReclaims.length ≥ backlogLimit then drained.reclaimNow pending counted
      else (.ok (), { drained with deferredTtlReclaims := drained.deferredTtlReclaims ++ [pending] })

def append (key : Key) (opcode : Opcode) (present : Bool) (io : MutationIo) :
    SegmentCommitResult × RuntimeWorker :=
  match io.appended with
  | .committed =>
    let reference :=
      { segmentId := worker.activeSegment
        offset := io.offset
        size := io.size
        sequence := worker.nextSequence
        generation := worker.generation }
    (.committed, { worker with
      nextSequence := worker.nextSequence + 1
      pendingGroupMutations := worker.pendingGroupMutations ++ [⟨key, opcode, reference⟩]
      pendingGroupInsertions := worker.pendingGroupInsertions +
        if opcode = .put ∧ ¬ present then 1 else 0 })
  | .indeterminate error => (.indeterminate error, worker.abandonPendingBatch)
  | .notCommitted error =>
    (.notCommitted error, if io.directoryHealthy then worker else worker.abandonPendingBatch)

/-- The strict path of `mutate` behind its drain. The flush that a threshold asks for
after the append is an event of its own. -/
def mutateDrained (limit : Nat) (worker : RuntimeWorker) (key : Key) (opcode : Opcode)
    (io : MutationIo) : SegmentCommitResult × RuntimeWorker :=
  if io.compactionCommitActive then
    (.notCommitted ⟨.sequenceConflict,
      "durable mutation conflicts with compaction manifest publication"⟩, worker)
  else if worker.nextSequence = 0 ∨ worker.nextSequence = kUInt64Max then
    (.notCommitted ⟨.arithmeticOverflow, "Worker sequence space is exhausted"⟩, worker)
  else
    match worker.admission limit key opcode, io.prepared with
    | .error error, _ | .ok (), .error error => (.notCommitted error, worker)
    | .ok (), .ok () =>
      let present := worker.keyPresent key
      match io.full with
      | none => worker.append key opcode present io
      | some rotation =>
        match worker.flushWorkerBatch rotation.flushed with
        | (.error error, flushed) => (.indeterminate error, flushed)
        | (.ok (), flushed) =>
          match rotation.rotated with
          | .notCommitted error => (.notCommitted error, flushed)
          | .indeterminate error => (.indeterminate error, { flushed with healthy := false })
          | .committed =>
            { flushed with
              activeSegment := rotation.activeSegment
              generation := rotation.generation }.append key opcode present io

def mutate (limit : Nat) (worker : RuntimeWorker) (key : Key) (opcode : Opcode) (io : MutationIo) :
    SegmentCommitResult × RuntimeWorker :=
  if ¬ worker.healthy then
    (.notCommitted ⟨.unavailable, "durable runtime is fail-closed"⟩, worker)
  else
    match worker.drainDeferredTtl worker.deferredTtlReclaims.length io.drained with
    | (.error error, drained) => (.indeterminate error, drained.abandonPendingBatch)
    | (.ok (), drained) => drained.mutateDrained limit key opcode io

/-- A read whose reclaims fail closes the runtime. -/
def afterRead (result : Status × RuntimeWorker) : RuntimeWorker :=
  match result.1 with
  | .ok () => result.2
  | .error _ => result.2.abandonPendingBatch

end RuntimeWorker

inductive GroupEvent where
  | mutate (key : Key) (opcode : Opcode) (io : MutationIo)
  | flush (io : BatchFlushIo)
  | abandon
  /-- A read drains some reclaims. -/
  | drain (limit : Nat) (failed : Option (Nat × Error))
  /-- A read finds an expired record. -/
  | expire (pending : DeferredTtlReclaim) (backlogLimit : Nat) (failed : Option (Nat × Error))
    (counted : Status)

/-- A Worker with the mutations it has admitted so far. -/
structure GroupRun where
  worker : RuntimeWorker
  admitted : List PendingGroupMutation := []

def GroupRun.taking (state : GroupRun) (result : SegmentCommitResult × RuntimeWorker) : GroupRun :=
  ⟨result.2, state.admitted ++
    if result.1 = .committed then result.2.pendingGroupMutations.getLast?.toList else []⟩

open RuntimeWorker in
def GroupRun.step (limit : Nat) (state : GroupRun) : GroupEvent → GroupRun
  | .mutate key opcode io => state.taking (state.worker.mutate limit key opcode io)
  | .flush io => { state with worker := (state.worker.flushWorkerBatch io).2 }
  | .abandon => { state with worker := state.worker.abandonPendingBatch }
  | .drain limit failed =>
    { state with worker := afterRead (state.worker.drainDeferredTtl limit failed) }
  | .expire pending backlogLimit failed counted => { state with
      worker := afterRead (state.worker.deferOrReclaimExpired pending backlogLimit failed counted) }

/-- The event takes no record out of the Index: reads defer their reclaims, and the reclaims
that are drained find their keys written since. -/
def GroupRun.Undisturbed (state : GroupRun) : GroupEvent → Prop
  | .mutate .. | .drain .. =>
    ∀ pending ∈ state.worker.deferredTtlReclaims, ¬ state.worker.Holds pending
  | .expire _ backlogLimit _ _ => state.worker.deferredTtlReclaims.length < backlogLimit
  | _ => True

instance (state : GroupRun) : DecidablePred state.Undisturbed := fun event => by
  cases event <;> unfold GroupRun.Undisturbed <;> infer_instance

/-- Nothing but a decision refuses the mutation. -/
structure MutationIo.Succeeds (io : MutationIo) : Prop where
  drained : io.drained = none
  idle : io.compactionCommitActive = false
  prepared : io.prepared = .ok ()
  appended : io.appended = .committed
  rotated : ∀ rotation ∈ io.full,
    (rotation.flushed.slot = .committed ∧ rotation.flushed.publication = none) ∧
      rotation.rotated = .committed

/-- What `mutate` returns for a decision. -/
def decided : Status → SegmentCommitResult
  | .ok () => .committed
  | .error error => .notCommitted error

namespace RuntimeWorker

variable (worker : RuntimeWorker)

def applied : WorkerIndex :=
  worker.pendingGroupMutations.foldl applyMutation worker.index

def pendingErases : Nat :=
  worker.pendingGroupMutations.countP fun mutation => mutation.opcode = .erase

variable {worker : RuntimeWorker} {key : Key} {opcode : Opcode}

theorem keyPresent_iff : worker.keyPresent key ↔ key ∈ worker.applied := by
  obtain ⟨index, _, _, _, _, pending, _, _, _⟩ := worker
  simp only [keyPresent, applied]
  induction pending using List.reverseRecOn with
  | nil => exact AList.lookup_isSome
  | append_singleton earlier last ih =>
    rw [List.reverse_append, List.foldl_append, List.reverse_singleton, List.singleton_append,
      List.find?_cons, List.foldl_cons, List.foldl_nil, applyMutation]
    by_cases same : last.key = key
    · cases chosen : last.opcode <;> simp [same, chosen]
    · cases last.opcode <;> simp [same, Ne.symm same, ih]

theorem keyPresent_of_admission {limit : Nat} (passed : worker.admission limit key opcode = .ok ())
    (erase : opcode = .erase) : worker.keyPresent key := by
  by_contra absent
  simp [admission, erase, absent, fail] at passed

theorem size_applyMutation {index : WorkerIndex} (mutation : PendingGroupMutation) {present : Bool}
    (same : present ↔ mutation.key ∈ index) (erasable : mutation.opcode = .erase → present) :
    (applyMutation index mutation).size + (if mutation.opcode = .erase then 1 else 0) =
      index.size + if mutation.opcode = .put ∧ ¬ present then 1 else 0 := by
  have counted : (index.keys.erase mutation.key).length = _ := List.length_erase
  have filled : mutation.key ∈ index.keys → 0 < index.keys.length := List.length_pos_of_mem
  cases chosen : mutation.opcode <;>
    simp only [applyMutation, chosen, WorkerIndex.size, AList.keys_insert, AList.keys_erase,
      List.length_cons, counted, AList.mem_keys] at * <;>
    grind

/-- Applied to the Index, the batch leaves the published keys, those it inserts and not
those it erases. -/
def Counted (worker : RuntimeWorker) : Prop :=
  worker.applied.size + worker.pendingErases = worker.index.size + worker.pendingGroupInsertions

theorem flushWorkerBatch_ok {io : BatchFlushIo} (done : (worker.flushWorkerBatch io).1 = .ok ()) :
    (worker.flushWorkerBatch io).2.index = worker.applied ∧
      (worker.flushWorkerBatch io).2.applied = worker.applied ∧
      (worker.flushWorkerBatch io).2.nextSequence = worker.nextSequence := by
  revert done
  fun_cases flushWorkerBatch worker io with
  | case1 empty =>
    rw [applied, List.isEmpty_iff.mp empty]
    exact fun _ => ⟨rfl, rfl, rfl⟩
  | case2 | case3 | case4 => nofun
  | case5 => exact fun _ => ⟨rfl, rfl, rfl⟩

theorem foldl_reclaim {pending : List DeferredTtlReclaim}
    (stale : ∀ expired ∈ pending, ¬ worker.Holds expired) :
    pending.foldl reclaim worker = worker := by
  induction pending with
  | nil => rfl
  | cons expired rest ih =>
    obtain ⟨here, stale⟩ := List.forall_mem_cons.mp stale
    rw [List.foldl_cons, reclaim, if_neg here, ih stale]

theorem drainDeferredTtl_stale
    (stale : ∀ pending ∈ worker.deferredTtlReclaims, ¬ worker.Holds pending) (limit : Nat)
    (failed : Option (Nat × Error)) :
    ∃ rest, (worker.drainDeferredTtl limit failed).2 = { worker with deferredTtlReclaims := rest } := by
  have kept (processed : Nat) :
      (worker.deferredTtlReclaims.take processed).foldl reclaim worker = worker :=
    foldl_reclaim fun pending member => stale pending (List.mem_of_mem_take member)
  simp only [drainDeferredTtl, kept]
  exact ⟨_, rfl⟩

end RuntimeWorker

/-! ## Runs -/

namespace GroupRun

open RuntimeWorker

variable {limit : Nat} {initial : RuntimeWorker} {state : GroupRun}

variable (initial) in
/-- A healthy Worker's batch completes its Index to the map of every admitted mutation. -/
structure Sequential (state : GroupRun) : Prop where
  counted : state.worker.Counted
  applied : state.worker.healthy →
    state.worker.applied = state.admitted.foldl applyMutation initial.index
  sequence : state.worker.healthy →
    state.worker.nextSequence = initial.nextSequence + state.admitted.length

theorem abandon_sequential (worker : RuntimeWorker) (admitted : List PendingGroupMutation) :
    Sequential initial ⟨worker.abandonPendingBatch, admitted⟩ :=
  ⟨rfl, nofun, nofun⟩

theorem Sequential.afterRead {result : Status × RuntimeWorker}
    (read : Sequential initial { state with worker := result.2 }) :
    Sequential initial { state with worker := RuntimeWorker.afterRead result } := by
  fun_cases RuntimeWorker.afterRead result with
  | case1 => exact read
  | case2 => exact abandon_sequential ..

section Sequential

variable (sequential : Sequential initial state)
include sequential

theorem Sequential.flush (io : BatchFlushIo) :
    Sequential initial { state with worker := (state.worker.flushWorkerBatch io).2 } := by
  fun_cases flushWorkerBatch state.worker io with
  | case1 => exact sequential
  | case2 | case3 | case4 => exact abandon_sequential ..
  | case5 => exact ⟨rfl, sequential.applied, sequential.sequence⟩

theorem Sequential.append {key : Key} {opcode : Opcode} {present : Bool} (io : MutationIo)
    (same : present ↔ key ∈ state.worker.applied) (erasable : opcode = .erase → present) :
    Sequential initial (state.taking (state.worker.append key opcode present io)) := by
  fun_cases RuntimeWorker.append state.worker key opcode present io with
  | case1 _ reference =>
    have size := size_applyMutation ⟨key, opcode, reference⟩ same erasable
    have counted := sequential.counted
    refine ⟨?_, fun healthy => ?_, fun healthy => ?_⟩
    · simp only [Counted, RuntimeWorker.applied, pendingErases, taking,
        List.foldl_append, List.countP_append, List.foldl_cons, List.foldl_nil,
        List.countP_singleton, decide_eq_true_eq] at size counted ⊢
      omega
    · simp [taking, RuntimeWorker.applied, ← sequential.applied healthy]
    · simp [taking, sequential.sequence healthy, Nat.add_assoc]
  | case2 => exact abandon_sequential ..
  | case3 =>
    split
    · simpa [taking] using sequential
    · exact abandon_sequential ..

theorem Sequential.mutateDrained (key : Key) (opcode : Opcode) (io : MutationIo) :
    Sequential initial (state.taking (state.worker.mutateDrained limit key opcode io)) := by
  fun_cases RuntimeWorker.mutateDrained limit state.worker key opcode io with
  | case5 _ _ _ passed =>
    exact sequential.append io keyPresent_iff (keyPresent_of_admission passed)
  | case6 _ _ _ _ rotation _ _ _ outcome | case7 _ _ _ _ rotation _ _ outcome =>
    have after := sequential.flush rotation.flushed
    simpa [taking, outcome] using after
  | case8 _ _ _ _ rotation _ flushed outcome =>
    have after := sequential.flush rotation.flushed
    rw [outcome] at after
    rw [taking, if_neg nofun, List.append_nil]
    exact ⟨after.counted, nofun, nofun⟩
  | case9 _ _ _ passed _ rotation _ flushed outcome =>
    have after := sequential.flush rotation.flushed
    have same := (flushWorkerBatch_ok (congrArg Prod.fst outcome)).2.1
    rw [outcome] at after same
    have next : Sequential initial ⟨{ flushed with
        activeSegment := rotation.activeSegment
        generation := rotation.generation }, state.admitted⟩ := { after with }
    refine next.append io ?_ (keyPresent_of_admission passed)
    rw [keyPresent_iff, ← same]
    rfl
  | _ => simpa [taking] using sequential

theorem Sequential.drain
    (stale : ∀ pending ∈ state.worker.deferredTtlReclaims, ¬ state.worker.Holds pending)
    (drainLimit : Nat) (failed : Option (Nat × Error)) :
    Sequential initial { state with
      worker := (state.worker.drainDeferredTtl drainLimit failed).2 } := by
  obtain ⟨rest, same⟩ := drainDeferredTtl_stale stale drainLimit failed
  rw [same]
  exact { sequential with }

theorem Sequential.step (event : GroupEvent) (undisturbed : state.Undisturbed event) :
    Sequential initial (state.step limit event) := by
  cases event with
  | mutate key opcode io =>
    have drained := sequential.drain undisturbed state.worker.deferredTtlReclaims.length io.drained
    change Sequential initial (state.taking (state.worker.mutate limit key opcode io))
    fun_cases RuntimeWorker.mutate limit state.worker key opcode io with
    | case1 => simpa [taking] using sequential
    | case2 => simpa [taking] using abandon_sequential _ _
    | case3 _ _ outcome =>
      rw [outcome] at drained
      exact drained.mutateDrained key opcode io
  | flush io => exact sequential.flush io
  | abandon => exact abandon_sequential ..
  | drain drainLimit failed => exact .afterRead (sequential.drain undisturbed drainLimit failed)
  | expire pending backlogLimit failed counted =>
    refine .afterRead ?_
    have room : state.worker.deferredTtlReclaims.length < backlogLimit := undisturbed
    rw [deferOrReclaimExpired, if_neg (by omega), if_neg (by omega)]
    dsimp only
    rw [if_neg (by omega)]
    exact { sequential with }

end Sequential

end GroupRun

end GlifiStore
