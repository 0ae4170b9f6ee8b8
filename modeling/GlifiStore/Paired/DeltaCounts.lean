import GlifiStore.Paired.ReadPublication

/-!
# What a publication counts

A staged mutation takes one record of the arena it is stored in and at most one entry of
each delta. Capacities and arenas of the deltas stay as they are.
-/

namespace GlifiStore

open ByteLayout OpenAddressing ReadTable CopyOnWrite DeltaBuilder

variable {builder middle after : DeltaBuilder}

namespace DeltaBuilder

/-- Everything a step of a builder leaves alone, apart from its copies. -/
structure Keeps (builder after : DeltaBuilder) : Prop where
  previous : after.previous = builder.previous
  primary : after.primaryArena = builder.primaryArena
  secondary : after.secondaryArena = builder.secondaryArena

theorem Keeps.refl (builder : DeltaBuilder) : builder.Keeps builder := ⟨rfl, rfl, rfl⟩

theorem Keeps.trans (first : builder.Keeps middle) (second : middle.Keeps after) :
    builder.Keeps after :=
  ⟨second.previous.trans first.previous, second.primary.trans first.primary,
    second.secondary.trans first.secondary⟩

theorem Keeps.arena (keeps : builder.Keeps after) :
    after.allocationArena = builder.allocationArena := by
  unfold allocationArena
  rw [keeps.primary, keeps.secondary]

section

variable {heap next : DeltaHeap} {chunk : Nat}

theorem mutableChunk_keeps {chunkIndex : Nat}
    (done : builder.mutableChunk heap chunkIndex = (chunk, next, after)) :
    builder.Keeps after ∧ after.size = builder.size ∧ next.arenas = heap.arenas := by
  unfold mutableChunk at done
  split at done
  · cases done
    exact ⟨.refl _, rfl, rfl⟩
  · cases done
    exact ⟨⟨rfl, rfl, rfl⟩, rfl, rfl⟩

theorem mutableBlock_keeps {blockIndex block : Nat}
    (done : builder.mutableBlock heap chunk blockIndex = (block, next, after)) :
    builder.Keeps after ∧ after.size = builder.size ∧ next.arenas = heap.arenas := by
  unfold mutableBlock at done
  split at done
  · cases done
    exact ⟨.refl _, rfl, rfl⟩
  · cases done
    exact ⟨⟨rfl, rfl, rfl⟩, rfl, rfl⟩

theorem mutablePage_keeps {pageIndex page : Nat}
    (done : builder.mutablePage heap pageIndex = (page, next, after)) :
    builder.Keeps after ∧ after.size = builder.size ∧ next.arenas = heap.arenas := by
  unfold mutablePage at done
  split at done
  · cases done
    exact ⟨.refl _, rfl, rfl⟩
  dsimp only at done
  split at done
  · cases done
    exact ⟨⟨rfl, rfl, rfl⟩, rfl, rfl⟩
  · rcases chunked : mutableChunk _ _ _ with ⟨chunk, heap', middle⟩
    rw [chunked] at done
    rcases blocked : mutableBlock _ _ _ _ with ⟨block, heap'', last⟩
    rw [blocked] at done
    cases done
    obtain ⟨first, size, arenas⟩ := mutableChunk_keeps chunked
    obtain ⟨second, size', arenas'⟩ := mutableBlock_keeps blocked
    exact ⟨⟨(first.trans second).previous, (first.trans second).primary,
      (first.trans second).secondary⟩, size'.trans size, arenas'.trans arenas⟩

variable {prepared : PreparedSlot}

theorem prepare_keeps {hash : UInt64} {key : Key}
    (done : builder.prepare heap hash key = some (prepared, next, after)) :
    builder.Keeps after ∧ after.size = builder.size ∧ next.arenas = heap.arenas ∧
      (prepared.inserted = true → builder.size ≠ builder.previous.maximumEntries) := by
  unfold prepare at done
  split at done
  · exact nomatch done
  split at done
  · exact nomatch done
  next room =>
  rcases copied : builder.mutablePage heap _ with ⟨page, moved, copier⟩
  rw [copied] at done
  obtain ⟨rfl, rfl, rfl⟩ := by simpa only [Option.some.injEq, Prod.mk.injEq] using done
  obtain ⟨keeps, size, arenas⟩ := mutablePage_keeps copied
  exact ⟨keeps, size, arenas, fun inserted full => room ⟨inserted, full⟩⟩

theorem commit_keeps {record : Nat} (done : builder.commit heap prepared record = (next, after)) :
    builder.Keeps after ∧ after.size = builder.size + (if prepared.inserted then 1 else 0) ∧
      next.arenas = heap.arenas := by
  obtain ⟨rfl, rfl⟩ := by simpa only [commit, Prod.mk.injEq] using done
  refine ⟨⟨rfl, rfl, rfl⟩, ?_, rfl⟩
  dsimp only
  split <;> rfl

end

end DeltaBuilder

def DeltaHeap.charge (arenas : List DeltaArena) (arena : Nat) : List DeltaArena :=
  let owner := arenas.getD arena default
  arenas.set arena { owner with recordCount := owner.recordCount + 1 }

variable {heap next : DeltaHeap}

theorem DeltaHeap.store_arenas {arena address : Nat} {source : ReadRecordView}
    (done : heap.store arena source = some (address, next)) :
    next.arenas = DeltaHeap.charge heap.arenas arena := by
  unfold DeltaHeap.store at done
  dsimp only at done
  split at done
  · exact nomatch done
  · obtain ⟨-, rfl⟩ := by simpa only [Option.some.injEq, Prod.mk.injEq] using done
    rfl

variable {mutations : List ReadMutation}

namespace Publication

variable {hash : Key → UInt64}

/-- What a builder of a publication is after some mutations. -/
structure Grows (count : Nat) (builder after : DeltaBuilder) : Prop where
  keeps : builder.Keeps after
  atMost : after.size ≤ builder.size + count

variable {first second : Nat}

theorem Grows.trans (early : Grows first builder middle) (late : Grows second middle after) :
    Grows (first + second) builder after :=
  ⟨early.keeps.trans late.keeps, by have := early.atMost; have := late.atMost; omega⟩

def PostGrows (count : Nat) : Option DeltaBuilder → Option DeltaBuilder → Prop
  | none, none => True
  | some builder, some after => Grows count builder after
  | _, _ => False

theorem PostGrows.trans {builder middle after : Option DeltaBuilder}
    (early : PostGrows first builder middle) (late : PostGrows second middle after) :
    PostGrows (first + second) builder after := by
  cases builder <;> cases middle <;> cases after <;> first
    | exact trivial
    | exact early.elim
    | exact late.elim
    | exact Grows.trans early late

theorem PostGrows.refl (builder : Option DeltaBuilder) : PostGrows 0 builder builder := by
  cases builder with
  | none => trivial
  | some builder => exact ⟨.refl _, Nat.le_refl _⟩

variable {publication : Publication}

/-- A staged mutation takes a record of the arena and at most an entry of each delta. -/
theorem stage_counts {staged : Publication} {mutation : ReadMutation}
    (done : publication.stage hash mutation = (staged, .ok ())) :
    Grows 1 publication.current staged.current ∧ PostGrows 1 publication.post staged.post ∧
      staged.heap.arenas =
        DeltaHeap.charge publication.heap.arenas publication.current.allocationArena := by
  revert done
  fun_cases stage hash publication mutation with
  | case5 _ slot heap current first post heap' second address heap'' third committed' after fourth
      final further fifth =>
    rintro ⟨⟩
    obtain ⟨keeps, size, arenas, -⟩ := prepare_keeps first
    have charged := DeltaHeap.store_arenas third
    obtain ⟨keeps', size', arenas'⟩ := commit_keeps fourth
    have grows : Grows 1 publication.current after := by
      refine ⟨keeps.trans keeps', ?_⟩
      rw [size', size]
      split <;> omega
    dsimp only
    cases stands : publication.post with
    | none =>
      rw [stands] at second
      cases second
      cases fifth
      exact ⟨grows, trivial, by rw [arenas', charged, keeps.arena, arenas]⟩
    | some builder =>
      rw [stands] at second
      obtain ⟨⟨postSlot, moved, copier⟩, prepared, made⟩ := Option.map_eq_some_iff.mp second
      cases made
      obtain ⟨postKeeps, postSize, postArenas, -⟩ := prepare_keeps prepared
      rcases sixth : copier.commit committed' postSlot address with ⟨last, finished⟩
      simp only [commitPost, sixth, Prod.mk.injEq] at fifth
      obtain ⟨rfl, rfl⟩ := fifth
      obtain ⟨postKeeps', postSize', postArenas'⟩ := commit_keeps sixth
      refine ⟨grows, ⟨postKeeps.trans postKeeps', ?_⟩,
        by rw [postArenas', arenas', charged, keeps.arena, postArenas, arenas]⟩
      rw [postSize', postSize]
      split <;> omega
  | _ => rintro ⟨⟩

theorem stageAll_counts {final : Publication}
    (done : publication.stageAll hash mutations = (final, .ok ())) :
    Grows mutations.length publication.current final.current ∧
      PostGrows mutations.length publication.post final.post := by
  induction mutations generalizing publication with
  | nil =>
    obtain ⟨rfl, -⟩ := by simpa only [stageAll, Prod.mk.injEq] using done
    exact ⟨⟨.refl _, Nat.le_refl _⟩, .refl _⟩
  | cons mutation rest ih =>
    rcases here : publication.stage hash mutation with ⟨staged, outcome⟩
    cases outcome with
    | error error =>
      simp only [stageAll, here] at done
      cases (Prod.mk.inj done).2
    | ok _ =>
      simp only [stageAll, here] at done
      obtain ⟨current, post, -⟩ := stage_counts here
      obtain ⟨current', post'⟩ := ih done
      rw [List.length_cons, Nat.add_comm]
      exact ⟨current.trans current', post.trans post'⟩

end Publication

/-! ## Whole publications -/

structure DeltaState.Grows (count : Nat) (state after : DeltaState) : Prop where
  capacity : after.capacity = state.capacity
  maximum : after.maximumEntries = state.maximumEntries
  size : after.size ≤ state.size + count
  primary : after.primaryArena = state.primaryArena

variable {state : DeltaState} {arena : Option Nat}

theorem DeltaBuilder.start_keeps (done : start state arena = some builder) :
    builder.previous = state ∧ builder.size = state.size ∧
      builder.primaryArena = state.primaryArena := by
  revert done
  fun_cases start state arena with
  | case2 => rintro ⟨⟩
  | _ =>
    intro done
    obtain rfl := Option.some.inj done
    exact ⟨rfl, rfl, rfl⟩

theorem Publication.Grows.freeze {count : Nat}
    (begun : DeltaBuilder.start state arena = some builder)
    (grows : Publication.Grows count builder after) : state.Grows count after.freeze := by
  obtain ⟨previous, size, primary⟩ := start_keeps begun
  refine ⟨?_, ?_, size ▸ grows.atMost, grows.keeps.primary.trans primary⟩
  · show after.previous.capacity = _
    rw [grows.keeps.previous, previous]
  · show after.previous.maximumEntries = _
    rw [grows.keeps.previous, previous]

theorem publishIncremental_counts {hash : Key → UInt64} {previous published : PairReadGeneration}
    {number : Nat} {merge : Option PairReadMerge} {post : Option DeltaState}
    (done : publishIncremental hash heap previous number mutations merge =
      (next, .ok (some (published, post)))) :
    canPublishIncremental heap previous merge mutations.length = true ∧
      published.base = previous.base ∧ published.epoch = previous.epoch + 1 ∧
      previous.delta.Grows mutations.length published.delta ∧
      ∀ active ∈ merge, ∀ state ∈ post, active.postDelta.Grows mutations.length state := by
  revert done
  fun_cases publishIncremental hash heap previous number mutations merge with
  | case7 _ _ _ admitted publication begun final staged =>
    rintro ⟨⟩
    obtain ⟨current, further⟩ := Publication.stageAll_counts staged
    refine ⟨Bool.of_not_eq_false admitted, rfl, rfl, ?_⟩
    revert begun
    fun_cases Publication.start heap previous merge with
    | case1 =>
      intro begun
      obtain ⟨builder, started, rfl⟩ := Option.map_eq_some_iff.mp begun
      exact ⟨current.freeze started, by rintro _ ⟨⟩⟩
    | case2 => rintro ⟨⟩
    | case3 active postBuilder first =>
      intro begun
      obtain ⟨builder, started, rfl⟩ := Option.map_eq_some_iff.mp begun
      refine ⟨current.freeze started, ?_⟩
      rintro _ ⟨⟩ state stands
      obtain ⟨last, same, rfl⟩ := Option.map_eq_some_iff.mp stands
      rw [same] at further
      exact further.freeze first
  | _ => rintro ⟨⟩

end GlifiStore
