import GlifiStore.Lib.Runs
import GlifiStore.Store.Lifecycle

/-!
# The admission fence

The fence is counted: it is up while some backup or the `close` owns it. Its owners are
the threads that have raised the count and not lowered it, and whoever is behind the
fence finds every shard closed.
-/

namespace GlifiStore

open StoreLifecycle

/-! ## Owners -/

inductive FenceStage where
  | outside
  | entering
  | inside
  | leaving
  deriving DecidableEq, Repr

/-- What a thread does without the lock. -/
def FenceStage.Moves (before after : FenceStage) : Prop :=
  after = before ∨ before = .outside ∧ after = .entering ∨ before = .inside ∧ after = .leaving

instance (before after : FenceStage) : Decidable (before.Moves after) :=
  inferInstanceAs (Decidable (_ ∨ _))

def FencePosition.stage : FencePosition → FenceStage
  | .raise | .stamp _ => .entering
  | .lower | .clear _ | .unlock => .leaving

/-- The holder of the lock has counted itself, and not discounted. -/
def FencePosition.Owning : FencePosition → Prop
  | .stamp _ | .lower => True
  | _ => False

def BackupPosition.stage : BackupPosition → FenceStage
  | .outside | .entered => .outside
  | .closingAdmission => .entering
  | .resumingAdmission => .leaving
  | _ => .inside

def ClosePosition.stage : ClosePosition → FenceStage
  | .outside | .drainingWriters => .outside
  | .closingAdmission => .entering
  | _ => .inside

/-- The wait that follows the fence has seen the shard without a count. -/
def BackupPosition.Waited (shard : Nat) : BackupPosition → Prop
  | .outside | .entered | .closingAdmission => False
  | .firstWait next => shard < next
  | _ => True

/-- As long as `close` is in its wait: behind it nothing tells a drain from a deadline. -/
def ClosePosition.Waited (shard : Nat) : ClosePosition → Prop
  | .waiting next => shard < next
  | _ => False

namespace StoreLifecycle

variable {Caller : Type}

section Owners

variable (store : StoreLifecycle Caller)

def place : StoreThread Caller → BackupPosition ⊕ ClosePosition
  | .operation => .inl .outside
  | .backup caller => .inl (store.backup caller)
  | .closer => .inr store.closer

def stage (thread : StoreThread Caller) : FenceStage :=
  (store.place thread).elim BackupPosition.stage ClosePosition.stage

/-- The thread has raised the fence and not lowered it. -/
def Owns (thread : StoreThread Caller) : Prop :=
  match store.stage thread with
  | .outside => False
  | .entering => ∃ shard, store.fence = .held thread (.stamp shard)
  | .inside => True
  | .leaving => ∀ position, store.fence = .held thread position → position = .lower

/-- The wait of an owner has seen the shard without a count. -/
def Waited (thread : StoreThread Caller) (shard : Nat) : Prop :=
  store.Owns thread ∧
    (store.place thread).elim (BackupPosition.Waited shard) (ClosePosition.Waited shard)

def AllClosed : Prop :=
  ∀ shard ≤ store.workerCount, (store.activeOperations shard).closed = true

def AllOpen : Prop :=
  ∀ shard ≤ store.workerCount, (store.activeOperations shard).closed = false

/-- Shards are closed while the fence is up and open while it is down, as far as the
holder of the lock has come. -/
def Follows : FenceLock Caller → Prop
  | .held _ (.stamp next) => 0 < store.fenceCount ∧
    (next ≤ store.workerCount → store.fenceCount = 1) ∧
      ∀ shard < next, (store.activeOperations shard).closed = true
  | .held _ (.clear next) => store.fenceCount = 0 ∧
    ∀ shard < next, (store.activeOperations shard).closed = false
  | _ => (0 < store.fenceCount → store.AllClosed) ∧
    (store.fenceCount = 0 → store.lifecycle = .open → store.AllOpen)

/-- The count is the number of owners, and the shards follow it. -/
structure Fencing : Prop where
  counted : ∀ shard, (store.activeOperations shard).active ≤ (store.activeOperations shard).count
  held : ∀ owner position, store.fence = .held owner position → store.stage owner = position.stage
  owned : ∃ owners : Finset (StoreThread Caller),
    (∀ thread, thread ∈ owners ↔ store.Owns thread) ∧ owners.card = store.fenceCount
  follows : store.Follows store.fence

end Owners

variable {store next : StoreLifecycle Caller} {thread : StoreThread Caller} {shard : Nat}
  {position : FencePosition}

theorem opened_fencing (workerCount : Nat) (closeDrainDeadline durable : Bool) :
    (opened workerCount closeDrainDeadline durable : StoreLifecycle Caller).Fencing where
  counted _ := Nat.le_refl 0
  held := nofun
  owned := by
    refine ⟨∅, fun thread => iff_of_false (Finset.notMem_empty _) ?_, rfl⟩
    cases thread <;> exact id
  follows := ⟨nofun, fun _ _ _ _ => rfl⟩

theorem owns_held (held : store.fence = .held thread position)
    (stage : store.stage thread = position.stage) : store.Owns thread ↔ position.Owning := by
  rw [Owns, stage, held]
  cases position <;> simp [FencePosition.stage, FencePosition.Owning]

theorem not_owns_outside (outside : store.stage thread = .outside) : ¬ store.Owns thread := by
  rw [Owns, outside]
  exact id

theorem owns_inside (inside : store.stage thread = .inside) : store.Owns thread := by
  rw [Owns, inside]
  trivial

section Fencing

variable (fencing : store.Fencing)
include fencing

theorem Fencing.card_le (some : Finset (StoreThread Caller))
    (owns : ∀ thread ∈ some, store.Owns thread) : some.card ≤ store.fenceCount := by
  obtain ⟨owners, exactly, counted⟩ := fencing.owned
  exact counted ▸ Finset.card_le_card fun thread member => (exactly thread).mpr (owns thread member)

theorem Fencing.count_pos (owns : store.Owns thread) : 0 < store.fenceCount :=
  fencing.card_le {thread} (by simpa using owns)

/-- Without an owner the fence is down. -/
theorem Fencing.count_eq_zero (none : ∀ thread, ¬ store.Owns thread) : store.fenceCount = 0 := by
  obtain ⟨owners, exactly, counted⟩ := fencing.owned
  rw [← counted, Finset.card_eq_zero]
  exact Finset.eq_empty_of_forall_notMem fun thread member => none thread ((exactly thread).mp member)

/-- Whoever is behind the fence finds every shard closed: if somebody is stamping them, it
is the only owner. -/
theorem Fencing.allClosed (owns : store.Owns thread) (past : store.stage thread ≠ .entering) :
    store.AllClosed := by
  classical
  have follows := fencing.follows
  unfold Follows at follows
  have up := fencing.count_pos owns
  split at follows
  · next owner last held =>
    obtain ⟨-, single, closed⟩ := follows
    have entering := fencing.held _ _ held
    refine fun other among => closed other (Nat.lt_of_le_of_lt among (Nat.lt_of_not_le fun more => ?_))
    have both := fencing.card_le {thread, owner} (by
      simpa [owns] using (owns_held held entering).mpr trivial)
    rw [single more, Finset.card_pair (fun same : thread = owner => past (same ▸ entering))] at both
    omega
  · omega
  · exact follows.1 up

theorem Fencing.not_held (stage : store.stage thread = .outside ∨ store.stage thread = .inside) :
    store.fence ≠ .held thread position := by
  intro held
  have found := fencing.held _ _ held
  rcases stage with stage | stage <;> rw [stage] at found <;> cases position <;> exact nomatch found

end Fencing

theorem Waited.past (waited : store.Waited thread shard) : store.stage thread ≠ .entering := by
  obtain ⟨-, waited⟩ := waited
  intro entering
  unfold stage at entering
  generalize store.place thread = place at entering waited
  rcases place with position | position <;> cases position <;>
    first | exact waited | cases entering

/-! ## Steps -/

/-- A step of one thread, which leaves the others where they are. -/
structure Turned (store next : StoreLifecycle Caller) (thread : StoreThread Caller) : Prop where
  fencing : next.Fencing
  others : ∀ other, other ≠ thread → next.place other = store.place other
  owners : ∀ other, other ≠ thread → next.Owns other → store.Owns other

theorem Fencing.turned (fencing : store.Fencing) : Turned store store thread :=
  ⟨fencing, fun _ _ => rfl, fun _ _ => id⟩

variable {other : StoreThread Caller}

theorem Turned.waited (turned : Turned store next thread) (different : other ≠ thread)
    (waited : next.Waited other shard) : store.Waited other shard :=
  ⟨turned.owners other different waited.1, turned.others other different ▸ waited.2⟩

theorem Fencing.turn (fencing : store.Fencing) (thread : StoreThread Caller)
    (lock : ∀ other, other ≠ thread → ∀ position,
      next.fence = .held other position ↔ store.fence = .held other position)
    (others : ∀ other, other ≠ thread → next.place other = store.place other)
    (mine : ∀ position, next.fence = .held thread position → next.stage thread = position.stage)
    (counted : ∀ shard, (next.activeOperations shard).active ≤ (next.activeOperations shard).count)
    (count : (next.Owns thread ↔ store.Owns thread) ∧ next.fenceCount = store.fenceCount ∨
      (¬ store.Owns thread ∧ next.Owns thread) ∧ next.fenceCount = store.fenceCount + 1 ∨
      (store.Owns thread ∧ ¬ next.Owns thread) ∧ next.fenceCount = store.fenceCount - 1)
    (follows : next.Follows next.fence) : Turned store next thread := by
  classical
  have kept : ∀ other, other ≠ thread → (next.Owns other ↔ store.Owns other) := by
    intro other different
    unfold Owns stage
    simp only [others other different, lock other different]
  refine ⟨⟨counted, fun owner position held => ?_, ?_, follows⟩, others,
    fun other different => (kept other different).mp⟩
  · by_cases same : owner = thread
    · exact same ▸ mine position (same ▸ held)
    · rw [stage, others owner same]
      exact fencing.held owner position ((lock owner same position).mp held)
  · obtain ⟨owners, exactly, total⟩ := fencing.owned
    rcases count with ⟨own, count⟩ | ⟨⟨out, own⟩, count⟩ | ⟨⟨owned, gone⟩, count⟩
    · refine ⟨owners, fun other => (exactly other).trans ?_, total.trans count.symm⟩
      by_cases same : other = thread
      · exact same ▸ own.symm
      · exact (kept other same).symm
    · refine ⟨insert thread owners, fun other => Finset.mem_insert.trans ?_, ?_⟩
      · by_cases same : other = thread
        · exact iff_of_true (.inl same) (same ▸ own)
        · rw [or_iff_right same, exactly, kept other same]
      · rw [Finset.card_insert_of_notMem (fun member => out ((exactly thread).mp member)), total, count]
    · refine ⟨owners.erase thread, fun other => Finset.mem_erase.trans ?_, ?_⟩
      · by_cases same : other = thread
        · exact iff_of_false (fun found => found.1 same) (same ▸ gone)
        · rw [and_iff_right same, exactly, kept other same]
      · rw [Finset.card_erase_of_mem ((exactly thread).mpr owned), total, count]

/-- A thread moves without the lock. -/
theorem Fencing.move (fencing : store.Fencing) (thread : StoreThread Caller)
    (counted : ∀ shard, (next.activeOperations shard).active ≤ (next.activeOperations shard).count)
    (fence : next.fence = store.fence) (count : next.fenceCount = store.fenceCount)
    (others : ∀ other, other ≠ thread → next.place other = store.place other)
    (moves : (store.stage thread).Moves (next.stage thread))
    (follows : next.Follows store.fence) : Turned store next thread := by
  refine fencing.turn thread (fun _ _ _ => by rw [fence]) others (fun position held => ?_) counted
    (.inl ⟨?_, count⟩) (fence ▸ follows)
  · rw [fence] at held
    rcases moves with same | ⟨outside, -⟩ | ⟨inside, -⟩
    · rw [same, fencing.held _ _ held]
    · exact absurd held (fencing.not_held (.inl outside))
    · exact absurd held (fencing.not_held (.inr inside))
  · rcases moves with same | ⟨outside, entering⟩ | ⟨inside, leaving⟩
    · rw [Owns, Owns, same, fence]
    · refine iff_of_false ?_ (not_owns_outside outside)
      rw [Owns, entering, fence]
      exact fun ⟨_, held⟩ => fencing.not_held (.inl outside) held
    · refine iff_of_true ?_ (owns_inside inside)
      rw [Owns, leaving, fence]
      exact fun _ held => absurd held (fencing.not_held (.inr inside))

section Words

theorem activeOperations_setOperations (shard other : Nat) (word : ActiveOperationCounter) :
    (store.setOperations shard word).activeOperations other =
      if other = shard then word else store.activeOperations other :=
  Function.update_apply ..

theorem activeOperations_setClosed (shard other : Nat) (closed : Bool) :
    (store.setClosed shard closed).activeOperations other =
      { store.activeOperations other with
        closed := if other = shard then closed else (store.activeOperations other).closed } := by
  unfold setClosed
  rw [activeOperations_setOperations]
  split
  · next same => rw [same]
  · rfl

theorem closed_setClosed {closed : Bool}
    (earlier : ∀ other < shard, (store.activeOperations other).closed = closed) (other : Nat)
    (below : other < shard + 1) :
    ((store.setClosed shard closed).activeOperations other).closed = closed := by
  rw [activeOperations_setClosed]
  dsimp only
  split
  · rfl
  · exact earlier other (by omega)

theorem Fencing.setOperations (fencing : store.Fencing) {word : ActiveOperationCounter}
    (bit : word.closed = (store.activeOperations shard).closed)
    (counted : word.active ≤ word.count) : (store.setOperations shard word).Fencing := by
  have bits : ∀ other, ((store.setOperations shard word).activeOperations other).closed =
      (store.activeOperations other).closed := by
    intro other
    rw [activeOperations_setOperations]
    split
    · next same => rw [same, bit]
    · rfl
  refine ⟨fun other => ?_, fencing.held, fencing.owned, ?_⟩
  · rw [activeOperations_setOperations]
    split
    · exact counted
    · exact fencing.counted other
  · have follows := fencing.follows
    unfold Follows AllClosed AllOpen at follows ⊢
    simp only [bits]
    exact follows

end Words

/-- Nobody but the thread has the lock. -/
def Unshared (store : StoreLifecycle Caller) (thread : StoreThread Caller) : Prop :=
  ∀ owner position, store.fence = .held owner position → owner = thread

theorem unshared_of_held (held : store.fence = .held thread position) : store.Unshared thread := by
  intro owner other same
  rw [held] at same
  cases same
  rfl

theorem unshared_of_free (free : store.fence = .free) : store.Unshared thread :=
  fun _ _ held => nomatch free.symm.trans held

theorem Unshared.lock (before : store.Unshared thread) (after : next.Unshared thread)
    (other : StoreThread Caller) (different : other ≠ thread) (position : FencePosition) :
    next.fence = .held other position ↔ store.fence = .held other position :=
  ⟨fun held => absurd (after _ _ held) different, fun held => absurd (before _ _ held) different⟩

/-- The thread goes on with the lock. -/
theorem Fencing.hold (fencing : store.Fencing) {after : FencePosition}
    (before : store.Unshared thread) (fence : next.fence = .held thread after)
    (places : next.place = store.place) (stage : store.stage thread = after.stage)
    (counted : ∀ shard, (next.activeOperations shard).active ≤ (next.activeOperations shard).count)
    (count : (after.Owning ↔ store.Owns thread) ∧ next.fenceCount = store.fenceCount ∨
      (¬ store.Owns thread ∧ after.Owning) ∧ next.fenceCount = store.fenceCount + 1 ∨
      (store.Owns thread ∧ ¬ after.Owning) ∧ next.fenceCount = store.fenceCount - 1)
    (follows : next.Follows (.held thread after)) : Turned store next thread := by
  have same : next.stage thread = after.stage := by rw [StoreLifecycle.stage, places]; exact stage
  rw [← owns_held fence same] at count
  refine fencing.turn thread (before.lock (unshared_of_held fence)) (fun _ _ => by rw [places])
    (fun position held => ?_) counted count (fence ▸ follows)
  rw [fence] at held
  cases held
  exact same

theorem counted_setClosed (fencing : store.Fencing) (closed : Bool) (other : Nat) :
    ((store.setClosed shard closed).activeOperations other).active ≤
      ((store.setClosed shard closed).activeOperations other).count := by
  rw [activeOperations_setClosed]
  exact fencing.counted other

variable [DecidableEq Caller]

theorem Fencing.closeAdmission (fencing : store.Fencing) (entering : store.stage thread = .entering) :
    (store.closeAdmission thread).2 = false ∧ Turned store (store.closeAdmission thread).1 thread ∨
      store.closeAdmission thread = ({ store with fence := .free }, true) ∧
        store.Owns thread ∧ store.Follows .free ∧
          ∃ position, store.fence = .held thread position := by
  have follows := fencing.follows
  fun_cases StoreLifecycle.closeAdmission store thread with
  | case1 free =>
    rw [free] at follows
    have out : ¬ store.Owns thread := by simp [Owns, entering, free]
    exact .inl ⟨rfl, fencing.hold (unshared_of_free free) rfl rfl entering fencing.counted
      (.inl ⟨iff_of_false id out, rfl⟩) follows⟩
  | case2 held =>
    rw [held] at follows
    refine .inl ⟨rfl, fencing.hold (unshared_of_held held) rfl rfl entering fencing.counted
      (.inr (.inl ⟨⟨(owns_held held entering).mp, trivial⟩, rfl⟩)) ⟨Nat.succ_pos _, ?_⟩⟩
    dsimp only
    split
    · next down => exact ⟨fun _ => congrArg (· + 1) down, nofun⟩
    · next up =>
      exact ⟨fun inside => absurd inside (Nat.not_succ_le_self _),
        fun shard below => follows.1 (by omega) shard (by omega)⟩
  | case4 last inside held =>
    rw [held] at follows
    obtain ⟨up, single, closed⟩ := follows
    exact .inl ⟨rfl, fencing.hold (unshared_of_held held) rfl rfl entering
      (counted_setClosed fencing true) (.inl ⟨(owns_held held entering).symm, rfl⟩)
      ⟨up, fun _ => single inside, closed_setClosed closed⟩⟩
  | case5 last beyond held =>
    rw [held] at follows
    obtain ⟨up, -, closed⟩ := follows
    exact .inr ⟨rfl, (owns_held held entering).mpr trivial,
      ⟨fun _ shard among => closed shard (by omega), fun down => by omega⟩, _, held⟩
  | _ => exact .inl ⟨rfl, fencing.turned⟩

theorem Fencing.resumeAdmissionIfOpen (fencing : store.Fencing)
    (leaving : store.stage thread = .leaving) :
    (store.resumeAdmissionIfOpen thread).2 = false ∧
        Turned store (store.resumeAdmissionIfOpen thread).1 thread ∧
        ((store.resumeAdmissionIfOpen thread).1.Owns thread → store.Owns thread) ∨
      store.resumeAdmissionIfOpen thread = ({ store with fence := .free }, true) ∧
        ¬ store.Owns thread ∧ store.Follows .free ∧
          ∃ position, store.fence = .held thread position := by
  have follows := fencing.follows
  fun_cases StoreLifecycle.resumeAdmissionIfOpen store thread with
  | case1 free =>
    rw [free] at follows
    have owns : store.Owns thread := by
      rw [Owns, leaving, free]
      exact nofun
    exact .inl ⟨rfl, fencing.hold (unshared_of_free free) rfl rfl leaving fencing.counted
      (.inl ⟨iff_of_true trivial owns, rfl⟩) follows, fun _ => owns⟩
  | case2 down held =>
    have up := fencing.count_pos ((owns_held held leaving).mpr trivial)
    omega
  | case8 held =>
    rw [held] at follows
    exact .inr ⟨rfl, (owns_held held leaving).mp, follows, _, held⟩
  | case3 up held =>
    rw [held] at follows
    have owns := (owns_held held leaving).mpr trivial
    refine .inl ⟨rfl, fencing.hold (unshared_of_held held) rfl rfl ?_ fencing.counted
      (.inr (.inr ⟨⟨owns, ?_⟩, rfl⟩)) ?_, fun _ => owns⟩
    · split <;> exact leaving
    · split <;> exact id
    · dsimp only
      split
      · next last => exact ⟨last.1, nofun⟩
      · next more =>
        exact ⟨fun _ => follows.1 (by omega), fun down running => absurd ⟨down, running⟩ more⟩
  | case5 last inside held =>
    rw [held] at follows
    obtain ⟨down, opened⟩ := follows
    refine .inl ⟨rfl, fencing.hold (unshared_of_held held) rfl rfl leaving
      (counted_setClosed fencing false) (.inl ⟨(owns_held held leaving).symm, rfl⟩)
      ⟨down, closed_setClosed opened⟩,
      fun owns => ?_⟩
    rw [owns_held rfl leaving] at owns
    exact owns.elim
  | case6 last beyond held =>
    rw [held] at follows
    obtain ⟨down, opened⟩ := follows
    exact .inr ⟨rfl, (owns_held held leaving).mp,
      ⟨fun up => by omega, fun _ _ shard among => opened shard (by omega)⟩, _, held⟩
  | _ => exact .inl ⟨rfl, fencing.turned, id⟩

/-! ## Events -/

section Backup

variable {caller : Caller} {target : BackupPosition}

theorem place_setBackup_other (different : other ≠ .backup caller) :
    (store.setBackup caller target).place other = store.place other := by
  cases other with
  | backup second =>
    have apart : second ≠ caller := fun same => different (same ▸ rfl)
    simp [place, setBackup, apart]
  | operation | closer => rfl

theorem stage_setBackup : (store.setBackup caller target).stage (.backup caller) = target.stage := by
  simp [stage, place, setBackup]

theorem Fencing.setBackup (fencing : store.Fencing)
    (moves : (store.backup caller).stage.Moves target.stage) :
    Turned store (store.setBackup caller target) (.backup caller) := by
  refine fencing.move (.backup caller) fencing.counted rfl rfl (fun _ => place_setBackup_other) ?_
    fencing.follows
  rw [stage_setBackup]
  exact moves

omit [DecidableEq Caller] in
theorem stage_wait {waiting : Nat → BackupPosition} {done : BackupPosition}
    (inside : ∀ shard, (waiting shard).stage = .inside) (past : done.stage = .inside) :
    (store.waitForActiveOperations shard waiting done).stage = .inside := by
  unfold waitForActiveOperations
  split
  · split <;> exact inside _
  · exact past

theorem Fencing.backupTo (fencing : store.Fencing) (caller : Caller) (healthy : Bool) :
    Turned store (store.backupTo caller healthy) (.backup caller) := by
  unfold StoreLifecycle.backupTo
  cases position : store.backup caller with
  | closingAdmission =>
    have entering : store.stage (.backup caller) = .entering := congrArg BackupPosition.stage position
    rcases fencing.closeAdmission entering with ⟨waits, kept⟩ | ⟨returned, owns, follows, _, held⟩
    · simp only [waits]
      exact kept
    · rw [returned]
      exact fencing.turn (.backup caller) ((unshared_of_held held).lock nofun)
        (fun _ => place_setBackup_other) nofun fencing.counted
        (.inl ⟨iff_of_true (owns_inside stage_setBackup) owns, rfl⟩) follows
  | resumingAdmission =>
    have leaving : store.stage (.backup caller) = .leaving := congrArg BackupPosition.stage position
    rcases fencing.resumeAdmissionIfOpen leaving with
      ⟨waits, kept, -⟩ | ⟨returned, out, follows, _, held⟩
    · simp only [waits]
      exact kept
    · rw [returned]
      exact fencing.turn (.backup caller) ((unshared_of_held held).lock nofun)
        (fun _ => place_setBackup_other) nofun fencing.counted
        (.inl ⟨iff_of_false (not_owns_outside stage_setBackup) out, rfl⟩) follows
  | lockingCompaction =>
    dsimp only
    split
    · have moved : Turned store (store.setBackup caller (.secondWait 0)) _ :=
        fencing.setBackup (by rw [position]; decide)
      exact ⟨{ moved.fencing with }, moved.others, moved.owners⟩
    · exact fencing.turned
  | unlockingCompaction =>
    have moved : Turned store (store.setBackup caller .resumingAdmission) _ :=
      fencing.setBackup (by rw [position]; decide)
    exact ⟨{ moved.fencing with }, moved.others, moved.owners⟩
  | firstWait shard | secondWait shard =>
    exact fencing.setBackup (by rw [position, stage_wait (fun _ => rfl) rfl]; exact .inl rfl)
  | _ =>
    refine fencing.setBackup ?_
    rw [position]
    first | decide | (split <;> decide)

end Backup

variable {closer : ClosePosition} {lifecycle : LifecycleState}

omit [DecidableEq Caller] in
theorem place_closer (different : other ≠ .closer) :
    ({ store with closer, lifecycle } : StoreLifecycle Caller).place other = store.place other := by
  cases other with
  | closer => exact absurd rfl different
  | operation | backup caller => rfl

omit [DecidableEq Caller] in
theorem Fencing.setCloser (fencing : store.Fencing) (moves : store.closer.stage.Moves closer.stage)
    (running : lifecycle = .open → store.lifecycle = .open) :
    Turned store { store with closer, lifecycle } .closer := by
  refine fencing.move .closer fencing.counted rfl rfl (fun _ => place_closer) moves ?_
  have follows := fencing.follows
  cases fence : store.fence with
  | free =>
    rw [fence] at follows
    exact ⟨follows.1, fun down opened => follows.2 down (running opened)⟩
  | held owner position =>
    rw [fence] at follows
    cases position with
    | stamp last | clear last => exact follows
    | raise | lower | unlock =>
      exact ⟨follows.1, fun down opened => follows.2 down (running opened)⟩

theorem Fencing.close (fencing : store.Fencing) (deadlinePassed : Bool) :
    Turned store (store.close deadlinePassed) .closer := by
  unfold StoreLifecycle.close
  cases position : store.closer with
  | outside =>
    dsimp only
    split
    · exact fencing.setCloser (by rw [position]; decide) nofun
    · exact fencing.turned
  | closingAdmission =>
    have entering : store.stage .closer = .entering := congrArg ClosePosition.stage position
    rcases fencing.closeAdmission entering with ⟨waits, kept⟩ | ⟨returned, owns, follows, _, held⟩
    · simp only [waits]
      exact kept
    · rw [returned]
      exact fencing.turn .closer ((unshared_of_held held).lock nofun) (fun _ => place_closer) nofun
        fencing.counted (.inl ⟨iff_of_true (owns_inside rfl) owns, rfl⟩) follows
  | waiting shard =>
    dsimp only
    split
    · exact fencing.setCloser (by rw [position]; exact .inl rfl) id
    · refine fencing.setCloser ?_ id
      rw [position]
      unfold waitForActiveOperations
      split
      · split <;> exact .inl rfl
      · exact .inl rfl
  | destroying =>
    have moved : Turned store { store with closer := .finishing } _ :=
      fencing.setCloser (by rw [position]; decide) id
    exact ⟨{ moved.fencing with }, moved.others, moved.owners⟩
  | finishing => exact fencing.setCloser (by rw [position]; decide) nofun
  | returned => exact fencing.turned
  | _ => exact fencing.setCloser (by rw [position]; decide) id

/-- An operation leaves the closed bit of its shard alone. Only a begin raises counts, and only
an open shard admits it. -/
structure Enters (event : LifecycleEvent Caller) (shard : Nat) (old word : ActiveOperationCounter) :
    Prop where
  bit : word.closed = old.closed
  counted : old.active ≤ old.count → word.active ≤ word.count
  active : old.closed = true → word.active ≤ old.active
  count : word.count ≤ old.count ∨ event = .beginOperation shard ∧ word.count = old.count + 1

theorem step_cases (store : StoreLifecycle Caller) (event : LifecycleEvent Caller) :
    (∃ caller healthy, event = .backup caller healthy) ∨ (∃ passed, event = .close passed) ∨
      (∃ owner, store.step event = { store with compactionMutex := owner }) ∨
        ∃ shard word, store.step event = store.setOperations shard word ∧
          Enters event shard (store.activeOperations shard) word := by
  cases event with
  | backup caller healthy => exact .inl ⟨_, _, rfl⟩
  | close passed => exact .inr (.inl ⟨_, rfl⟩)
  | lockCompaction | unlockCompaction =>
    refine .inr (.inr (.inl ?_))
    unfold step
    dsimp only
    split <;> exact ⟨_, rfl⟩
  | beginOperation shard | finishOperation shard | finishRefused shard =>
    refine .inr (.inr ?_)
    simp only [step, beginOperation, finishOperation, finishRefused]
    split
    · exact .inl ⟨_, rfl⟩
    · refine .inr ⟨shard, _, rfl, rfl, fun bound => ?_, fun closed => ?_, ?_⟩ <;> grind

theorem Fencing.step (fencing : store.Fencing) (event : LifecycleEvent Caller) :
    (store.step event).Fencing := by
  rcases store.step_cases event with
    ⟨caller, healthy, rfl⟩ | ⟨passed, rfl⟩ | ⟨owner, same⟩ | ⟨shard, word, same, enters⟩
  · exact (fencing.backupTo caller healthy).fencing
  · exact (fencing.close passed).fencing
  · rw [same]
    exact { fencing with }
  · rw [same]
    exact fencing.setOperations enters.bit (enters.counted (fencing.counted shard))

/-! ## Exclusion -/

/-- The words differ at most in their closed bits. -/
def SameCounts (next store : StoreLifecycle Caller) : Prop :=
  next.workerCount = store.workerCount ∧
    ∀ shard, (next.activeOperations shard).active = (store.activeOperations shard).active ∧
      (next.activeOperations shard).count = (store.activeOperations shard).count

omit [DecidableEq Caller] in
theorem sameCounts_setClosed (store : StoreLifecycle Caller) (last : Nat) (closed : Bool) :
    (store.setClosed last closed).SameCounts store := by
  refine ⟨rfl, fun shard => ?_⟩
  rw [activeOperations_setClosed]
  exact ⟨rfl, rfl⟩

theorem sameCounts_closeAdmission : (store.closeAdmission thread).1.SameCounts store := by
  fun_cases closeAdmission store thread with
  | case4 last => exact sameCounts_setClosed store last true
  | _ => exact ⟨rfl, fun _ => ⟨rfl, rfl⟩⟩

theorem sameCounts_resumeAdmissionIfOpen :
    (store.resumeAdmissionIfOpen thread).1.SameCounts store := by
  fun_cases resumeAdmissionIfOpen store thread with
  | case5 last => exact sameCounts_setClosed store last false
  | _ => exact ⟨rfl, fun _ => ⟨rfl, rfl⟩⟩

theorem sameCounts_backupTo (store : StoreLifecycle Caller) (caller : Caller) (healthy : Bool) :
    (store.backupTo caller healthy).SameCounts store := by
  unfold backupTo
  cases store.backup caller with
  | closingAdmission =>
    dsimp only
    split <;> exact sameCounts_closeAdmission
  | resumingAdmission =>
    dsimp only
    split <;> exact sameCounts_resumeAdmissionIfOpen
  | lockingCompaction =>
    dsimp only
    split <;> exact ⟨rfl, fun _ => ⟨rfl, rfl⟩⟩
  | _ => exact ⟨rfl, fun _ => ⟨rfl, rfl⟩⟩

theorem sameCounts_close (store : StoreLifecycle Caller) (deadlinePassed : Bool) :
    (store.close deadlinePassed).SameCounts store := by
  unfold close
  cases store.closer with
  | closingAdmission =>
    dsimp only
    split <;> exact sameCounts_closeAdmission
  | outside | waiting =>
    dsimp only
    split <;> exact ⟨rfl, fun _ => ⟨rfl, rfl⟩⟩
  | _ => exact ⟨rfl, fun _ => ⟨rfl, rfl⟩⟩

/-- Only a begin raises a count, and it is admitted only by an open shard. -/
theorem counts_step (event : LifecycleEvent Caller) (shard : Nat) :
    ((store.activeOperations shard).closed = true →
        ((store.step event).activeOperations shard).active ≤
          (store.activeOperations shard).active) ∧
      (((store.step event).activeOperations shard).count ≤ (store.activeOperations shard).count ∨
        event = .beginOperation shard ∧
          ((store.step event).activeOperations shard).count =
            (store.activeOperations shard).count + 1) := by
  have unchanged {next : ActiveOperationCounter} {begins : Prop}
      (active : next.active = (store.activeOperations shard).active)
      (count : next.count = (store.activeOperations shard).count) :
      ((store.activeOperations shard).closed = true →
        next.active ≤ (store.activeOperations shard).active) ∧
      (next.count ≤ (store.activeOperations shard).count ∨ begins) :=
    ⟨fun _ => Nat.le_of_eq active, .inl (Nat.le_of_eq count)⟩
  rcases store.step_cases event with
    ⟨caller, healthy, rfl⟩ | ⟨passed, rfl⟩ | ⟨owner, same⟩ | ⟨other, word, same, enters⟩
  · obtain ⟨active, count⟩ := (sameCounts_backupTo store caller healthy).2 shard
    exact unchanged active count
  · obtain ⟨active, count⟩ := (sameCounts_close store passed).2 shard
    exact unchanged active count
  · rw [same]
    exact unchanged rfl rfl
  · rw [same, activeOperations_setOperations]
    split
    · next found => exact found ▸ ⟨enters.active, enters.count⟩
    · exact unchanged rfl rfl

theorem workerCount_step (event : LifecycleEvent Caller) :
    (store.step event).workerCount = store.workerCount := by
  rcases store.step_cases event with
    ⟨caller, healthy, rfl⟩ | ⟨passed, rfl⟩ | ⟨owner, same⟩ | ⟨shard, word, same, enters⟩
  · exact (sameCounts_backupTo store caller healthy).1
  · exact (sameCounts_close store passed).1
  · rw [same]
  · rw [same]
    rfl

theorem place_closeAdmission : (store.closeAdmission thread).1.place = store.place := by
  fun_cases closeAdmission store thread <;> rfl

omit [DecidableEq Caller] in
/-- One look of a wait adds the shard it looks at. -/
theorem seen_wait {Position : Type} {waiting : Nat → Position} {done : Position}
    (seen : Position → Prop) {last : Nat} (early : ∀ next, seen (waiting next) → shard < next)
    (among : shard ≤ store.workerCount)
    (now : seen (store.waitForActiveOperations last waiting done)) :
    shard < last ∨ (store.activeOperations shard).count = 0 := by
  unfold waitForActiveOperations at now
  split at now
  · split at now
    · next none =>
      rcases Nat.lt_succ_iff_lt_or_eq.mp (early _ now) with earlier | rfl
      · exact .inl earlier
      · exact .inr none
    · exact .inl (early _ now)
  · exact .inl (by omega)

variable {caller : Caller}

theorem waited_setBackup {target : BackupPosition}
    (waited : (store.setBackup caller target).Waited (.backup caller) shard) :
    target.Waited shard := by
  simpa [place, setBackup] using waited.2

/-- A backup sees a shard without a count in its first wait. -/
theorem Fencing.waited_backupTo (fencing : store.Fencing) (healthy : Bool)
    (among : shard ≤ store.workerCount)
    (waited : (store.backupTo caller healthy).Waited (.backup caller) shard) :
    store.Waited (.backup caller) shard ∨ (store.activeOperations shard).count = 0 := by
  have stage : store.stage (.backup caller) = (store.backup caller).stage := rfl
  have seen : ∀ position, store.backup caller = position → position.Waited shard →
      store.Owns (.backup caller) → store.Waited (.backup caller) shard :=
    fun _ found seen owns => ⟨owns, by rw [place, found]; exact seen⟩
  unfold StoreLifecycle.backupTo at waited
  cases position : store.backup caller with
  | outside | entered =>
    simp only [position] at waited
    have none := waited_setBackup waited
    first | exact none.elim | (split at none <;> exact none.elim)
  | closingAdmission =>
    simp only [position] at waited
    split at waited
    · exact absurd (waited_setBackup waited) (Nat.not_lt_zero _)
    · have none := waited.2
      rw [place_closeAdmission, place, position] at none
      exact none.elim
  | firstWait last =>
    simp only [position] at waited
    have now := waited_setBackup waited
    refine (seen_wait (BackupPosition.Waited shard) (fun _ => id) among now).imp_left fun earlier => ?_
    exact seen _ position earlier (owns_inside (by rw [stage, position]; rfl))
  | resumingAdmission =>
    simp only [position] at waited
    rcases fencing.resumeAdmissionIfOpen (by rw [stage, position]; rfl) with
      ⟨waits, -, owns⟩ | ⟨returned, -⟩
    · rw [if_neg (by simp [waits])] at waited
      exact .inl (seen _ position trivial (owns waited.1))
    · rw [returned] at waited
      exact (waited_setBackup waited).elim
  | _ => exact .inl (seen _ position trivial (owns_inside (by rw [stage, position]; rfl)))

theorem waited_close (deadlinePassed : Bool) (among : shard ≤ store.workerCount)
    (waited : (store.close deadlinePassed).Waited .closer shard) :
    store.Waited .closer shard ∨ (store.activeOperations shard).count = 0 := by
  unfold close at waited
  cases position : store.closer with
  | outside =>
    simp only [position] at waited
    split at waited
    · exact waited.2.elim
    · exact .inl waited
  | closingAdmission =>
    simp only [position] at waited
    split at waited
    · exact absurd waited.2 (Nat.not_lt_zero _)
    · have none := waited.2
      rw [place_closeAdmission, place, position] at none
      exact none.elim
  | waiting last =>
    simp only [position] at waited
    split at waited
    · exact waited.2.elim
    · refine (seen_wait (ClosePosition.Waited shard) (fun _ => id) among waited.2).imp_left
        fun earlier => ?_
      exact ⟨owns_inside (by rw [stage, place, position]; rfl), by rw [place, position]; exact earlier⟩
  | returned =>
    simp only [position] at waited
    exact .inl waited
  | _ =>
    simp only [position] at waited
    exact waited.2.elim

/-- Behind the fence a shard that was seen without a count stays unused. -/
structure Excluding (store : StoreLifecycle Caller) : Prop where
  fencing : store.Fencing
  idle : ∀ thread, ∀ shard ≤ store.workerCount, store.Waited thread shard →
    (store.activeOperations shard).active = 0

theorem Fencing.waited_step (fencing : store.Fencing) {event : LifecycleEvent Caller}
    (among : shard ≤ store.workerCount) (waited : (store.step event).Waited thread shard) :
    store.Waited thread shard ∨
      (store.activeOperations shard).count = 0 ∧ (store.step event).SameCounts store := by
  rcases store.step_cases event with
    ⟨caller, healthy, rfl⟩ | ⟨passed, rfl⟩ | ⟨owner, same⟩ | ⟨other, word, same, enters⟩
  · have counts := sameCounts_backupTo store caller healthy
    by_cases mine : thread = .backup caller
    · subst mine
      exact (fencing.waited_backupTo healthy among waited).imp_right fun none => ⟨none, counts⟩
    · exact .inl ((fencing.backupTo caller healthy).waited mine waited)
  · have counts := sameCounts_close store passed
    by_cases mine : thread = .closer
    · subst mine
      exact (waited_close passed among waited).imp_right fun none => ⟨none, counts⟩
    · exact .inl ((fencing.close passed).waited mine waited)
  · rw [same] at waited
    exact .inl waited
  · rw [same] at waited
    exact .inl waited

theorem Excluding.step (excluding : store.Excluding) (event : LifecycleEvent Caller) :
    (store.step event).Excluding := by
  obtain ⟨fencing, idle⟩ := excluding
  refine ⟨fencing.step event, fun thread shard among waited => ?_⟩
  rw [workerCount_step] at among
  rcases fencing.waited_step among waited with before | ⟨none, -, counts⟩
  · have closed := fencing.allClosed before.1 before.past shard among
    have fewer := (counts_step event shard).1 closed
    rw [idle thread shard among before] at fewer
    omega
  · have counted := fencing.counted shard
    rw [(counts shard).1]
    omega

omit [DecidableEq Caller] in
theorem opened_excluding (workerCount : Nat) (closeDrainDeadline durable : Bool) :
    (opened workerCount closeDrainDeadline durable : StoreLifecycle Caller).Excluding := by
  refine ⟨opened_fencing workerCount closeDrainDeadline durable, fun thread shard _ waited => ?_⟩
  cases thread <;> exact waited.2.elim

/-! ### The wait of `close` -/

/-- `close` has waited for every shard, and never lowers the fence. -/
structure Drained (store : StoreLifecycle Caller) : Prop where
  fencing : store.Fencing
  inside : store.stage .closer = .inside
  quiet : store.Quiet

omit [DecidableEq Caller] in
theorem Drained.allClosed (drained : store.Drained) : store.AllClosed :=
  drained.fencing.allClosed (owns_inside drained.inside) (by rw [drained.inside]; nofun)

theorem inside_close (inside : store.stage .closer = .inside) (deadlinePassed : Bool) :
    (store.close deadlinePassed).stage .closer = .inside := by
  unfold close
  unfold stage place at inside
  cases position : store.closer <;> rw [position] at inside
  case waiting last =>
    dsimp only [waitForActiveOperations]
    split
    · rfl
    · split
      · split <;> rfl
      · rfl
  case returned => rw [stage, place, position]; rfl
  all_goals first | rfl | exact nomatch inside

theorem Drained.step (drained : store.Drained) (event : LifecycleEvent Caller) :
    (store.step event).Drained := by
  have closed := drained.allClosed
  obtain ⟨fencing, inside, quiet⟩ := drained
  refine ⟨fencing.step event, ?_, fun shard among => ?_⟩
  · rcases store.step_cases event with
      ⟨caller, healthy, rfl⟩ | ⟨passed, rfl⟩ | ⟨owner, same⟩ | ⟨other, word, same, enters⟩
    · rw [← inside, stage]
      exact congrArg _ ((fencing.backupTo caller healthy).others .closer nofun)
    · exact inside_close inside passed
    · rw [same]
      exact inside
    · rw [same]
      exact inside
  · rw [workerCount_step] at among
    have fewer := (counts_step event shard).1 (closed shard among)
    rw [quiet shard among] at fewer
    omega

/-! ### Words -/

section Words

variable (word : ActiveOperationCounter)

omit [DecidableEq Caller] in
theorem state_read (below : word.count < kAdmissionClosed) :
    word.state &&& kAdmissionClosed = kAdmissionClosed * word.closed.toNat ∧
      word.state &&& kAdmissionCountMask = word.count := by
  unfold ActiveOperationCounter.state kAdmissionCountMask
  unfold kAdmissionClosed at *
  rw [Nat.and_two_pow_sub_one_eq_mod, Nat.mul_add_mod, Nat.mod_eq_of_lt below, Nat.and_two_pow,
    Nat.testBit_two_pow_mul_add _ below]
  cases word.closed <;> simp

omit [DecidableEq Caller] in
/-- What the source does to a word is what the model does to its fields. -/
theorem state_accesses (below : word.count + 1 < kAdmissionClosed) :
    (word.state + 1) % 2 ^ 64 = { word with count := word.count + 1 }.state ∧
      (0 < word.count → word.state - 1 = { word with count := word.count - 1 }.state) ∧
      word.state ||| kAdmissionClosed = { word with closed := true }.state ∧
      word.state &&& kAdmissionCountMask = { word with closed := false }.state := by
  have small : word.count < kAdmissionClosed := Nat.lt_of_succ_lt below
  rw [(state_read word small).2]
  unfold ActiveOperationCounter.state
  unfold kAdmissionClosed at *
  have bit := Bool.toNat_lt word.closed
  refine ⟨by dsimp only; omega, fun _ => by dsimp only; omega, ?_, by simp⟩
  rw [Nat.two_pow_add_eq_or_of_lt small, Nat.two_pow_add_eq_or_of_lt small, Nat.or_assoc,
    Nat.or_comm word.count, ← Nat.or_assoc]
  cases word.closed <;> simp

end Words

/-! ### Runs -/

/-- A begin finds fewer operations than the word can count. -/
def Countable (store : StoreLifecycle Caller) : LifecycleEvent Caller → Prop
  | .beginOperation shard => (store.activeOperations shard).count + 1 < kAdmissionClosed
  | _ => True

instance (store : StoreLifecycle Caller) : DecidablePred store.Countable
  | .beginOperation _ => Nat.decLt ..
  | .finishOperation _ | .finishRefused _ | .lockCompaction | .unlockCompaction | .backup ..
  | .close _ => .isTrue trivial

theorem count_lt_step {event : LifecycleEvent Caller}
    (below : ∀ shard, (store.activeOperations shard).count < kAdmissionClosed)
    (here : store.Countable event) (shard : Nat) :
    ((store.step event).activeOperations shard).count < kAdmissionClosed := by
  rcases (counts_step event shard).2 with fewer | ⟨rfl, more⟩
  · exact Nat.lt_of_le_of_lt fewer (below shard)
  · rw [more]
    exact here

/-- In a run with fewer operations in progress than a word can count: while an owner of the
fence has waited for every shard and has not lowered the fence, no operation is active and every
shard is closed; a begin at a closed shard is not admitted and takes its count back; the counts
stay below the closed bit, so the word tells them apart; and once the fence has no owner left,
the shards of an open store are open. -/
theorem fence_excludes_operations (workerCount : Nat) (closeDrainDeadline durable : Bool)
    (events : List (LifecycleEvent Caller))
    (countable : Runs.Guarded step Countable (opened workerCount closeDrainDeadline durable) events) :
    let after := Runs.run step (opened workerCount closeDrainDeadline durable)
    let store := after events
    (∀ thread, (∀ shard ≤ store.workerCount, store.Waited thread shard) →
      store.Quiet ∧ store.AllClosed) ∧
    (∀ before later seen, events = before ++ later → (after before).closer = .waiting seen →
      (after before).workerCount < seen → store.Quiet ∧ store.AllClosed) ∧
    (∀ shard ≤ store.workerCount,
      let word := store.activeOperations shard
      (word.closed = true → (store.step (.beginOperation shard)).activeOperations shard =
        { word with count := word.count + 1 }) ∧
      (word.active < word.count → (store.step (.finishRefused shard)).activeOperations shard =
        { word with count := word.count - 1 }) ∧
      word.count < kAdmissionClosed ∧
      word.state &&& kAdmissionClosed = kAdmissionClosed * word.closed.toNat ∧
      word.state &&& kAdmissionCountMask = word.count) ∧
    (store.fence = .free → (∀ thread, ¬ store.Owns thread) → store.lifecycle = .open →
      store.AllOpen) := by
  intro after store
  have preserved : ∀ (store : StoreLifecycle Caller) event, store.Excluding →
      (store.step event).Excluding := fun _ event excluding => excluding.step event
  have excluding : ∀ events, (after events).Excluding := fun events =>
    Runs.run_invariant preserved (opened_excluding workerCount closeDrainDeadline durable) events
  refine ⟨fun thread waited => ?_, fun before later seen split found past => ?_,
    fun shard among => ⟨fun closed => ?_, fun refused => ?_, ?_⟩, fun free none running => ?_⟩
  · have first := waited 0 (Nat.zero_le _)
    exact ⟨fun shard among => (excluding events).idle thread shard among (waited shard among),
      (excluding events).fencing.allClosed first.1 first.past⟩
  · have inside : (after before).stage .closer = .inside := by rw [stage, place, found]; rfl
    have drained : (after before).Drained := by
      refine ⟨(excluding before).fencing, inside, fun shard among => ?_⟩
      refine (excluding before).idle .closer shard among ⟨owns_inside inside, ?_⟩
      rw [place, found]
      exact Nat.lt_of_le_of_lt among past
    have stays : ∀ (store : StoreLifecycle Caller) event, store.Drained →
        (store.step event).Drained := fun _ event drained => drained.step event
    have ended : store.Drained := by
      rw [show store = _ from (congrArg after split).trans List.foldl_append]
      exact Runs.run_invariant stays drained later
    exact ⟨ended.quiet, ended.allClosed⟩
  · simp only [step, beginOperation]
    rw [if_neg (Nat.not_lt.mpr among), activeOperations_setOperations, if_pos rfl, if_pos closed]
  · simp only [step, finishRefused]
    rw [if_neg (Nat.ne_of_gt refused), activeOperations_setOperations, if_pos rfl]
  · have below := countable.invariant (fun _ _ => count_lt_step) (fun _ => Nat.two_pow_pos 63) shard
    exact ⟨below, state_read _ below⟩
  · have follows := (excluding events).fencing.follows
    rw [show (after events).fence = .free from free] at follows
    exact follows.2 ((excluding events).fencing.count_eq_zero none) running

/-- A backup fences an operation in progress and waits for it, while another is refused. -/
def waitingBackup : List (LifecycleEvent Unit) :=
  .beginOperation 0 :: List.replicate 8 (.backup () true) ++
    [.beginOperation 0, .finishOperation 0, .finishRefused 0] ++ List.replicate 3 (.backup () true)

theorem waitingBackup_excludes_operations :
    Runs.Guarded step Countable (opened 1 false true) waitingBackup ∧
      (Runs.run step (opened 1 false true) waitingBackup).Quiet ∧
      (Runs.run step (opened 1 false true) waitingBackup).AllClosed := by
  have countable : Runs.Guarded step Countable (opened 1 false true) waitingBackup := by
    decide +kernel
  have found : (Runs.run step (opened 1 false true) waitingBackup).backup () = .firstCheck := by
    decide +kernel
  refine ⟨countable, (fence_excludes_operations 1 false true waitingBackup countable).1 (.backup ())
    fun shard _ => ⟨owns_inside (by rw [stage, place, found]; rfl), ?_⟩⟩
  rw [place, found]
  trivial

end StoreLifecycle

end GlifiStore
