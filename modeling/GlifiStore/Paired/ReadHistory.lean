import GlifiStore.Paired.ReadMerge
import GlifiStore.Paired.ReadPublication

/-!
# Read generations and the published history

The history of a lane is, for every generation, the snapshot it goes back to and
the mutations published since. `ReadLane.Tracked` says that every generation of a
lane answers as its part of the history does, and that an active merge holds what
it needs to take the newest generation's place. Publications, starts and ends of
merges keep it.
-/

namespace GlifiStore

open ByteLayout OpenAddressing ReadTable CopyOnWrite

variable {hash : Key → UInt64}

/-! ## Histories -/

/-- What has been published up to a generation. -/
structure PublicationLog where
  snapshot : List PublishedReadRecord
  mutations : List ReadMutation := []

open PublicationLog

/-- What a published mutation is to a reader of its key. -/
def ReadMutation.answer (hash : Key → UInt64) (mutation : ReadMutation) : Option ReadRecordView :=
  if mutation.opcode = .erase then none else some (mutation.view hash).retained

/-- The last mutation of the key decides, or the snapshot if there is none. -/
def PublicationLog.lookup (hash : Key → UInt64) (log : PublicationLog) (key : Key) :
    Option ReadRecordView :=
  match log.mutations.reverse.find? (·.key = key) with
  | some mutation => mutation.answer hash
  | none => (log.snapshot.find? (·.key = key)).map PublishedReadRecord.view

/-- The logs of all generations, oldest first with the newest apart. -/
structure ReadHistory where
  earlier : List PublicationLog
  newest : PublicationLog

namespace ReadHistory

def logs (history : ReadHistory) : List PublicationLog :=
  history.earlier ++ [history.newest]

def install (history : ReadHistory) (next : PublicationLog) : ReadHistory where
  earlier := history.earlier ++ [history.newest]
  newest := next

def after (history : ReadHistory) : LaneAction → Status → ReadHistory
  | _, .error _ => history
  | .publish [] _, .ok () => history
  | .publish mutations _, .ok () =>
    history.install { history.newest with mutations := history.newest.mutations ++ mutations }
  | .finishMerge, .ok () => history.install history.newest
  | .replaceSnapshot records _, .ok () => history.install { snapshot := records }
  | .startMerge _ _, .ok () | .advanceMerge _, .ok () | .dropMerge, .ok () => history

end ReadHistory

def ReadLane.generations (lane : ReadLane) : List PairReadGeneration :=
  lane.earlier ++ [lane.newest]

def ReadLane.run (hash : Key → UInt64) : ReadLane → List LaneAction → ReadLane × List Status
  | lane, [] => (lane, [])
  | lane, action :: rest =>
    let (next, status) := lane.step hash action
    let (final, statuses) := next.run hash rest
    (final, status :: statuses)

def ReadHistory.replay : ReadHistory → List LaneAction → List Status → ReadHistory
  | history, action :: actions, status :: statuses =>
    (history.after action status).replay actions statuses
  | history, _, _ => history

/-- Snapshots come from the Index of a catalog, with every key once. -/
def LaneAction.Valid (hash : Key → UInt64) : LaneAction → Prop
  | .replaceSnapshot records _ => ImmutableReadIndex.SnapshotValid hash records
  | _ => True

/-! ## Lookups through the maps of the parts -/

/-- What a base with a delta over it answers. -/
def layered (hash : Key → UInt64) (base : ImmutableReadIndex)
    (overrides : Key → Option DeltaRecord) (key : Key) : Option ReadRecordView :=
  match overrides key with
  | some record => record.answer (hash key)
  | none => base.lookup hash key

theorem lookup_eq_layered (generation : PairReadGeneration) (heap : DeltaHeap) (key : Key) :
    generation.lookup hash heap key =
      layered hash generation.base (generation.delta.overrides hash heap) key :=
  generation.lookup_eq heap key

theorem ReadMutation.stored_answer (mutation : ReadMutation) :
    (mutation.stored hash).answer (hash mutation.key) = mutation.answer hash := rfl

theorem layered_update (base : ImmutableReadIndex) (overrides : Key → Option DeltaRecord)
    (mutation : ReadMutation) :
    layered hash base
        (Function.update overrides mutation.key (some (mutation.stored hash))) =
      Function.update (layered hash base overrides) mutation.key (mutation.answer hash) := by
  funext key
  by_cases same : key = mutation.key
  · subst same
    simp only [layered, Function.update_self]
    exact mutation.stored_answer
  · simp only [layered, Function.update_of_ne same]

theorem PublicationLog.lookup_append (log : PublicationLog) (mutation : ReadMutation) :
    lookup hash { log with mutations := log.mutations ++ [mutation] } =
      Function.update (log.lookup hash) mutation.key (mutation.answer hash) := by
  funext key
  by_cases same : key = mutation.key
  · subst same
    simp [lookup]
  · simp [lookup, Function.update_of_ne same, Ne.symm same]

variable {base : ImmutableReadIndex} {log : PublicationLog}

theorem layered_applyAll (mutations : List ReadMutation) {overrides : Key → Option DeltaRecord}
    (agree : layered hash base overrides = log.lookup hash) :
    layered hash base (ReadMutation.applyAll hash mutations overrides) =
      lookup hash { log with mutations := log.mutations ++ mutations } := by
  induction mutations generalizing overrides log with
  | nil =>
    rw [List.append_nil]
    exact agree
  | cons mutation rest ih =>
    have next : layered hash base
        (Function.update overrides mutation.key (some (mutation.stored hash))) =
        lookup hash { log with mutations := log.mutations ++ [mutation] } := by
      rw [layered_update, agree, log.lookup_append]
    have whole := ih next
    rw [List.append_assoc] at whole
    exact whole

def overlay (upper lower : Key → Option DeltaRecord) (key : Key) : Option DeltaRecord :=
  (upper key).or (lower key)

theorem applyAll_overlay (mutations : List ReadMutation) (upper lower : Key → Option DeltaRecord) :
    ReadMutation.applyAll hash mutations (overlay upper lower) =
      overlay (ReadMutation.applyAll hash mutations upper) lower := by
  induction mutations generalizing upper with
  | nil => rfl
  | cons mutation rest ih =>
    have here : Function.update (overlay upper lower) mutation.key (some (mutation.stored hash)) =
        overlay (Function.update upper mutation.key (some (mutation.stored hash))) lower := by
      funext key
      by_cases same : key = mutation.key
      · subst same
        simp [overlay]
      · simp [overlay, Function.update_of_ne same]
    exact (congrArg (ReadMutation.applyAll hash rest) here).trans (ih _)

theorem layered_overlay {merged : ImmutableReadIndex} {upper lower : Key → Option DeltaRecord}
    (same : ∀ key, merged.lookup hash key = layered hash base lower key) :
    layered hash merged upper = layered hash base (overlay upper lower) := by
  funext key
  simp only [layered, overlay, same]
  cases upper key <;> rfl

/-! ## Heaps that later actions leave -/

variable {merge : PairReadMerge}

section Kept

variable {heap next : DeltaHeap}

theorem PairReadGeneration.Valid.kept {generation : PairReadGeneration}
    (valid : generation.Valid hash heap) (sound : heap.Valid hash) (kept : heap.Kept hash next) :
    generation.Valid hash next :=
  ⟨valid.base, kept.grown.valid valid.delta sound⟩

theorem Filling.kept {cut : PairReadGeneration} {baseSlots deltaSlots : Nat}
    {index : ImmutableReadIndex} (filling : Filling hash heap cut baseSlots deltaSlots index)
    (valid : cut.Valid hash heap) (sound : heap.Valid hash) (kept : heap.Kept hash next) :
    Filling hash next cut baseSlots deltaSlots index := by
  have found : ∀ key, cut.delta.find next (hash key) key = cut.delta.find heap (hash key) key :=
    congrFun (kept.grown.overrides_eq valid.delta sound kept.sound)
  have cells := kept.grown.cells_eq valid.delta sound
  refine ⟨filling.valid, fun key record => ?_, ?_, filling.baseInside, filling.deltaInside,
    filling.sized⟩
  · rw [filling.binds]
    simp only [Merged, Contributes, found, cells]
  · simp only [visited, cells]
    exact filling.counted

theorem PairReadMerge.Sound.kept (merging : merge.Sound hash heap) (sound : heap.Valid hash)
    (kept : heap.Kept hash next) : merge.Sound hash next := by
  refine ⟨merging.cut.kept sound kept, fun builder stands => ?_⟩
  rcases merging.progress builder stands with clearing | ⟨cursors, filling⟩
  · exact .inl clearing
  · exact .inr ⟨cursors, filling.kept merging.cut sound kept⟩

end Kept

/-! ## The lane and its history -/

/-- A generation answers as its log says. -/
structure Tracks (hash : Key → UInt64) (heap : DeltaHeap) (generation : PairReadGeneration)
    (log : PublicationLog) : Prop where
  valid : generation.Valid hash heap
  answers : layered hash generation.base (generation.delta.overrides hash heap) = log.lookup hash

/-- A merge of a lane. While its generation is the newest one, the delta after
the cut lies over the delta of the cut. -/
structure Merging (hash : Key → UInt64) (heap : DeltaHeap) (newest : PairReadGeneration)
    (number : Nat) (merge : PairReadMerge) : Prop where
  sound : merge.Sound hash heap
  post : merge.postDelta.Valid hash heap
  started : merge.current ≤ number
  layers : merge.current = number → newest.base = merge.cut.base ∧
    newest.delta.overrides hash heap =
      overlay (merge.postDelta.overrides hash heap) (merge.cut.delta.overrides hash heap)

structure ReadLane.Tracked (hash : Key → UInt64) (lane : ReadLane) (history : ReadHistory) : Prop where
  heap : lane.heap.Valid hash
  newest : Tracks hash lane.heap lane.newest history.newest
  earlier : List.Forall₂ (Tracks hash lane.heap) lane.earlier history.earlier
  merge : ∀ merge ∈ lane.merge, Merging hash lane.heap lane.newest lane.number merge

variable {mutations : List ReadMutation}

section Kept

variable {heap next : DeltaHeap} {generation : PairReadGeneration}
variable {number : Nat}

theorem Tracks.kept (tracks : Tracks hash heap generation log) (sound : heap.Valid hash)
    (kept : heap.Kept hash next) : Tracks hash next generation log := by
  refine ⟨tracks.valid.kept sound kept, ?_⟩
  rw [kept.grown.overrides_eq tracks.valid.delta sound kept.sound]
  exact tracks.answers

theorem Merging.kept (merging : Merging hash heap generation number merge)
    (valid : generation.Valid hash heap) (sound : heap.Valid hash) (kept : heap.Kept hash next) :
    Merging hash next generation number merge := by
  refine ⟨merging.sound.kept sound kept, kept.grown.valid merging.post sound, merging.started,
    fun same => ?_⟩
  obtain ⟨base, layers⟩ := merging.layers same
  refine ⟨base, ?_⟩
  rw [kept.grown.overrides_eq valid.delta sound kept.sound,
    kept.grown.overrides_eq merging.post sound kept.sound,
    kept.grown.overrides_eq merging.sound.cut.delta sound kept.sound]
  exact layers

theorem Merging.left {newest : PairReadGeneration}
    (merging : Merging hash heap generation number merge) :
    Merging hash heap newest (number + 1) merge :=
  ⟨merging.sound, merging.post, Nat.le_succ_of_le merging.started,
    fun same => absurd merging.started (by omega)⟩

theorem PairReadMerge.Sound.republish (sound : merge.Sound hash heap) (postDelta : DeltaState)
    (current : Nat) :
    ({ merge with postDelta := postDelta, current := current } : PairReadMerge).Sound hash heap := by
  refine ⟨sound.cut, fun builder stands => ?_⟩
  rcases sound.progress builder stands with ⟨phase, clearing⟩ | filling
  · exact .inl ⟨phase, clearing.whole, clearing.control, clearing.cleared, clearing.inside,
      clearing.indices, clearing.records, clearing.empty, clearing.room, clearing.bounded,
      clearing.sized, clearing.unvisited⟩
  · exact .inr filling

theorem Merging.publish {published : PairReadGeneration} {post : DeltaState}
    (merging : Merging hash heap generation number merge) (sound : heap.Valid hash)
    (kept : heap.Kept hash next) (same : merge.current = number)
    (publication : generation.Publishes hash heap next mutations (some merge) published (some post))
    :
    Merging hash next published (number + 1)
      { merge with postDelta := post, current := number + 1 } := by
  obtain ⟨base, layers⟩ := merging.layers same
  refine ⟨(merging.sound.kept sound kept).republish post (number + 1),
    publication.postDelta post rfl, Nat.le_refl _, fun _ => ⟨publication.base.trans base, ?_⟩⟩
  have postOverrides : post.overrides hash next =
      ReadMutation.applyAll hash mutations (merge.postDelta.overrides hash heap) :=
    Option.some.inj publication.postOverrides
  rw [publication.overrides, layers, applyAll_overlay, postOverrides,
    kept.grown.overrides_eq merging.sound.cut.delta sound kept.sound]

end Kept

namespace ReadLane.Tracked

variable {lane : ReadLane} {history : ReadHistory}

theorem kept {heap : DeltaHeap} (tracked : lane.Tracked hash history)
    (kept : lane.heap.Kept hash heap) :
    ({ lane with heap := heap } : ReadLane).Tracked hash history where
  heap := kept.sound
  newest := tracked.newest.kept tracked.heap kept
  earlier := tracked.earlier.imp fun _ _ tracks => tracks.kept tracked.heap kept
  merge := fun merge stands =>
    (tracked.merge merge stands).kept tracked.newest.valid tracked.heap kept

variable {next : PairReadGeneration}

theorem install (tracked : lane.Tracked hash history) (tracks : Tracks hash lane.heap next log) :
    (lane.install next).Tracked hash (history.install log) where
  heap := tracked.heap
  newest := tracks
  earlier := List.rel_append tracked.earlier (.cons tracked.newest .nil)
  merge := by
    intro merge stands
    have left : Merging hash lane.heap next (lane.number + 1) merge :=
      (tracked.merge merge stands).left
    rw [ReadLane.number] at left ⊢
    simpa [ReadLane.install] using left

theorem withMerge (tracked : lane.Tracked hash history)
    (merging : Merging hash lane.heap lane.newest lane.number merge) :
    ({ lane with merge := some merge } : ReadLane).Tracked hash history := by
  refine ⟨tracked.heap, tracked.newest, tracked.earlier, ?_⟩
  rintro _ ⟨⟩
  exact merging

theorem after_publish (nonempty : mutations ≠ []) (withMerge : Bool) :
    history.after (.publish mutations withMerge) (.ok ()) =
      history.install
        { history.newest with mutations := history.newest.mutations ++ mutations } := by
  cases mutations with
  | nil => exact absurd rfl nonempty
  | cons _ _ => rfl

theorem number_install (lane : ReadLane) (next : PairReadGeneration) :
    (lane.install next).number = lane.number + 1 := by
  simp [ReadLane.number, ReadLane.install]

theorem publish {next : ReadLane} {status : Status} {withMerge : Bool}
    (tracked : lane.Tracked hash history)
    (done : lane.publish hash mutations withMerge = (next, status)) :
    lane.heap.Kept hash next.heap ∧
      next.Tracked hash (history.after (.publish mutations withMerge) status) := by
  obtain ⟨merge, chosen⟩ : ∃ merge, (if withMerge then lane.merge else none) = merge := ⟨_, rfl⟩
  have active : ∀ active ∈ merge, active ∈ lane.merge := by
    rw [← chosen]
    cases withMerge
    · exact nofun
    · exact fun _ stands => stands
  obtain ⟨heap, outcome, finished⟩ : ∃ heap outcome, publishIncremental hash lane.heap lane.newest
      lane.number mutations merge = (heap, outcome) := ⟨_, _, rfl⟩
  obtain ⟨kept, quiet, publishes⟩ := publishIncremental_sound tracked.heap
    tracked.newest.valid.delta (fun merge stands => (tracked.merge merge (active merge stands)).post)
    finished
  have tracked' := tracked.kept kept
  unfold ReadLane.publish at done
  simp only [chosen, finished] at done
  cases outcome with
  | error error =>
    obtain ⟨rfl, rfl⟩ := Prod.mk.inj done
    exact ⟨kept, tracked'⟩
  | ok published =>
    cases published with
    | none =>
      obtain ⟨rfl, rfl⟩ := Prod.mk.inj done
      obtain rfl := quiet rfl
      exact ⟨kept, tracked'⟩
    | some published =>
      obtain ⟨published, post⟩ := published
      obtain ⟨nonempty, same, publication⟩ := publishes published post rfl
      have tracks : Tracks hash heap published
          { history.newest with mutations := history.newest.mutations ++ mutations } := by
        refine ⟨⟨?_, publication.delta⟩, ?_⟩
        · rw [publication.base]
          exact tracked.newest.valid.base
        · rw [publication.base, publication.overrides]
          exact layered_applyAll mutations tracked.newest.answers
      have installed := tracked'.install tracks
      cases merge with
      | none =>
        obtain ⟨rfl, rfl⟩ := Prod.mk.inj done
        rw [after_publish nonempty]
        exact ⟨kept, installed⟩
      | some merge =>
        cases post with
        | none =>
          obtain ⟨rfl, rfl⟩ := Prod.mk.inj done
          rw [after_publish nonempty]
          exact ⟨kept, installed⟩
        | some post =>
          obtain ⟨rfl, rfl⟩ := Prod.mk.inj done
          rw [after_publish nonempty]
          refine ⟨kept, installed.withMerge ?_⟩
          rw [number_install]
          exact (tracked.merge merge (active merge rfl)).publish tracked.heap kept
            (same merge rfl) publication

theorem startMerge {next : DeltaHeap} {outcome : Result PairReadMerge} {maximumPostEntries : Nat}
    {raw : RawStorage} (tracked : lane.Tracked hash history)
    (done : startIncrementalMerge lane.heap lane.newest lane.number maximumPostEntries raw =
      (next, outcome)) :
    lane.heap.Kept hash next ∧
      ∀ merge, outcome = .ok merge → Merging hash next lane.newest lane.number merge := by
  have unchanged : lane.heap.Kept hash lane.heap := ⟨tracked.heap, .refl _⟩
  revert done
  fun_cases startIncrementalMerge lane.heap lane.newest lane.number maximumPostEntries raw with
  | case5 _ _ index first postDelta _ second =>
    rintro ⟨⟩
    obtain ⟨postValid, grown, sound, nothing⟩ := makeEmptyDelta_valid tracked.heap second
    have kept : lane.heap.Kept hash next := ⟨sound, grown⟩
    have valid := tracked.newest.valid.kept tracked.heap kept
    refine ⟨kept, ?_⟩
    rintro merge ⟨⟩
    refine ⟨⟨valid, ?_⟩, postValid, Nat.le_refl _, fun _ => ⟨rfl, ?_⟩⟩
    · rintro builder ⟨⟩
      obtain ⟨sized, small, whole, room, records, empty, indices, control, -⟩ :=
        ImmutableReadIndex.initializeTable_cases first
      exact .inl ⟨rfl, whole, control, fun slot below => absurd below (Nat.not_lt_zero slot),
        Nat.zero_le _, indices, records, empty, by rw [sized]; exact room,
        by rw [sized]; exact small, sized, rfl, rfl⟩
    · rw [nothing]
      rfl
  | _ =>
    rintro ⟨⟩
    exact ⟨unchanged, nofun⟩

theorem finishMerge (tracked : lane.Tracked hash history) (stands : lane.merge = some merge)
    (done : finishIncrementalMerge lane.newest lane.number merge = .ok next) :
    Tracks hash lane.heap next history.newest := by
  have merging := tracked.merge merge stands
  revert done
  fun_cases finishIncrementalMerge lane.newest lane.number merge with
  | case4 builder built ready =>
    rintro ⟨⟩
    rw [not_or, not_not, not_not] at ready
    obtain ⟨base, layers⟩ := merging.layers ready.1
    rcases merging.sound.progress builder built with ⟨clearing, -⟩ | ⟨cursors, filling⟩
    · rw [ready.2] at clearing
      cases clearing
    · rw [PairReadMerge.Cursors, ready.2] at cursors
      rw [cursors.1, cursors.2] at filling
      refine ⟨⟨filling.valid, merging.post⟩, ?_⟩
      rw [← tracked.newest.answers, layers, base]
      refine layered_overlay fun key => ?_
      rw [filling.lookup merging.sound.cut tracked.heap, lookup_eq_layered]
  | _ => rintro ⟨⟩

end ReadLane.Tracked

end GlifiStore
