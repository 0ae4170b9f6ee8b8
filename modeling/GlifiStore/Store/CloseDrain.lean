import GlifiStore.Store.AdmissionFence

/-!
# The runtimes are destroyed unused

What the admission fence promises about the shards, and from it what the drain of
`close` has established when the runtimes are destroyed.
-/

namespace GlifiStore.StoreLifecycle

open StoreLifecycle

variable {Caller : Type}

/-! ## The invariant -/

/-- Once `close` has passed the fence, what its drain has seen stays unused. -/
structure Kept (store : StoreLifecycle Caller) : Prop where
  fencing : store.Fencing
  closing : store.closer ≠ .outside → store.lifecycle ≠ .open
  drained : ∀ shard ≤ store.workerCount, store.closer.Drained shard →
    (store.activeOperations shard).active = 0
  noWindow : store.lifecycle ≠ .open → ∀ caller, ¬ (store.backup caller).InWindow

section Invariant

variable {store : StoreLifecycle Caller}

theorem ClosePosition.inside_of_drained {shard : Nat} {position : ClosePosition}
    (drained : position.Drained shard) : position.stage = .inside := by
  cases position <;> first | rfl | exact drained.elim

theorem opened_kept (workerCount : Nat) (closeDrainDeadline durable : Bool) :
    (opened workerCount closeDrainDeadline durable : StoreLifecycle Caller).Kept where
  fencing := opened_fencing workerCount closeDrainDeadline durable
  closing moved := absurd rfl moved
  drained _ _ := nofun
  noWindow closing := absurd rfl closing

theorem Kept.unused (kept : store.Kept) (reached : store.closer = .destroying) : store.Unused where
  quiet shard among := kept.drained shard among (by rw [reached]; trivial)
  noWindow := kept.noWindow (kept.closing (by rw [reached]; nofun))

variable [DecidableEq Caller] {event : LifecycleEvent Caller}

/-- A step that leaves `close` where it is keeps what the drain has seen: its shards are
closed. -/
theorem Kept.others (kept : store.Kept) (closer : (store.step event).closer = store.closer)
    (lifecycle : (store.step event).lifecycle = store.lifecycle)
    (window : store.lifecycle ≠ .open → ∀ caller,
      ((store.step event).backup caller).InWindow → (store.backup caller).InWindow) :
    (store.step event).Kept := by
  refine ⟨kept.fencing.step event, ?_, fun shard among drained => ?_, ?_⟩
  · rw [closer, lifecycle]
    exact kept.closing
  · rw [closer] at drained
    rw [workerCount_step] at among
    have inside : store.stage .closer = .inside := ClosePosition.inside_of_drained drained
    have closed := kept.fencing.allClosed (owns_inside inside) (by rw [inside]; nofun) shard among
    have fewer := (counts_step event shard).1 closed
    rw [kept.drained shard among drained] at fewer
    omega
  · rw [lifecycle]
    exact fun closing caller inside => kept.noWindow closing caller (window closing caller inside)

/-! ### Backups -/

variable {thread : StoreThread Caller}

theorem kept_closeAdmission :
    (store.closeAdmission thread).1.lifecycle = store.lifecycle ∧
      (store.closeAdmission thread).1.backup = store.backup := by
  fun_cases closeAdmission store thread <;> exact ⟨rfl, rfl⟩

theorem kept_resumeAdmissionIfOpen :
    (store.resumeAdmissionIfOpen thread).1.lifecycle = store.lifecycle ∧
      (store.resumeAdmissionIfOpen thread).1.backup = store.backup := by
  fun_cases resumeAdmissionIfOpen store thread <;> exact ⟨rfl, rfl⟩

theorem lifecycle_backupTo (caller : Caller) (healthy : Bool) :
    (store.backupTo caller healthy).lifecycle = store.lifecycle := by
  unfold backupTo
  cases store.backup caller with
  | closingAdmission =>
    dsimp only
    split <;> exact kept_closeAdmission.1
  | resumingAdmission =>
    dsimp only
    split <;> exact kept_resumeAdmissionIfOpen.1
  | lockingCompaction =>
    dsimp only
    split <;> rfl
  | _ => rfl

theorem backup_setBackup (caller : Caller) (position : BackupPosition) :
    (store.setBackup caller position).backup caller = position :=
  Function.update_self ..

/-- Once `close` began, an orderly backup does not come into its window. -/
theorem window_backupTo {caller : Caller} {healthy : Bool}
    (orderly : store.Orderly (.backup caller healthy)) (closing : store.lifecycle ≠ .open)
    (inside : ((store.backupTo caller healthy).backup caller).InWindow) :
    (store.backup caller).InWindow := by
  unfold backupTo at inside
  cases position : store.backup caller <;> simp only [position] at inside
  case lastCheck | healthCheck | copying => trivial
  case closingAdmission =>
    split at inside
    · rw [backup_setBackup] at inside
      exact inside
    · rw [kept_closeAdmission.2, position] at inside
      exact inside
  case resumingAdmission =>
    split at inside
    · rw [backup_setBackup] at inside
      exact inside
    · rw [kept_resumeAdmissionIfOpen.2, position] at inside
      exact inside
  case secondWait shard =>
    simp only [Orderly, position] at orderly
    rw [backup_setBackup, waitForActiveOperations] at inside
    split at inside
    · split at inside <;> exact inside
    · exact absurd (orderly (by omega)) closing
  case firstWait shard =>
    rw [backup_setBackup, waitForActiveOperations] at inside
    split at inside
    · split at inside <;> exact inside
    · exact inside
  case lockingCompaction =>
    split at inside
    · rw [backup_setBackup] at inside
      exact inside
    · rw [position] at inside
      exact inside
  all_goals
    rw [backup_setBackup] at inside
    first | exact inside | (split at inside <;> exact inside)

/-! ### The close -/

theorem Kept.close (kept : store.Kept) (deadlinePassed : Bool)
    (orderly : store.Orderly (.close deadlinePassed)) : (store.close deadlinePassed).Kept := by
  have fencing := (kept.fencing.close deadlinePassed).fencing
  have everyDrained : (∀ shard, store.closer.Drained shard) → store.Quiet :=
    fun drained shard among => kept.drained shard among (drained shard)
  have closing := kept.closing
  revert fencing
  unfold StoreLifecycle.close
  cases position : store.closer with
  | outside =>
    simp only [Orderly, position] at orderly
    dsimp only
    split
    · exact fun fencing => ⟨fencing, by simp, fun _ _ => by simp [ClosePosition.Drained], fun _ => orderly⟩
    · exact fun _ => kept
  | drainingWriters =>
    rw [position] at closing
    exact fun fencing => ⟨fencing, fun _ => closing (by simp), fun _ _ => by simp [ClosePosition.Drained], kept.noWindow⟩
  | closingAdmission =>
    rw [position] at closing
    have same : (store.closeAdmission .closer).1.lifecycle = store.lifecycle ∧
      (store.closeAdmission .closer).1.backup = store.backup := kept_closeAdmission
    dsimp only
    split
    · exact fun fencing => ⟨fencing, fun _ => same.1 ▸ closing (by simp),
        fun _ _ below => absurd below (Nat.not_lt_zero _), same.2 ▸ same.1 ▸ kept.noWindow⟩
    · refine fun fencing => ⟨fencing, fun _ => same.1 ▸ closing (by simp), fun _ _ drained => ?_,
        same.2 ▸ same.1 ▸ kept.noWindow⟩
      have stays : (store.closeAdmission .closer).1.place .closer = _ :=
        congrFun place_closeAdmission _
      rw [Sum.inr.inj stays, position] at drained
      exact drained.elim
  | waiting next =>
    simp only [Orderly, position] at orderly
    rw [position] at closing
    have seen : ∀ shard < next, shard ≤ store.workerCount →
        (store.activeOperations shard).active = 0 := fun shard below among =>
      kept.drained shard among (by rw [position]; exact below)
    dsimp only
    split
    · next exceeded =>
      exact fun fencing => ⟨fencing, fun _ => closing (by simp),
        fun shard among _ => orderly exceeded shard among, kept.noWindow⟩
    · refine fun fencing => ⟨fencing, fun _ => closing (by simp), fun shard among drained => ?_,
        kept.noWindow⟩
      rcases seen_wait (ClosePosition.Drained shard) (fun _ => id) among drained with earlier | none
      · exact seen shard earlier among
      · exact Nat.le_zero.mp (Nat.le_trans (kept.fencing.counted shard) (Nat.le_of_eq none))
  | joiningMaintenance | closingRuntime | destroying =>
    have quiet := everyDrained fun _ => by rw [position]; trivial
    rw [position] at closing
    exact fun fencing => ⟨fencing, fun _ => closing (by simp), fun shard among _ => quiet shard among,
      kept.noWindow⟩
  | finishing =>
    have quiet := everyDrained fun _ => by rw [position]; trivial
    rw [position] at closing
    exact fun fencing => ⟨fencing, fun _ => by simp, fun shard among _ => quiet shard among,
      fun _ => kept.noWindow (closing (by simp))⟩
  | returned => exact fun _ => kept

/-! ## Runs -/

theorem Kept.step (kept : store.Kept) (orderly : store.Orderly event) :
    (store.step event).Kept := by
  cases event with
  | beginOperation | finishOperation | finishRefused | lockCompaction | unlockCompaction =>
    refine kept.others ((apply_ite closer ..).trans (ite_self _))
      ((apply_ite lifecycle ..).trans (ite_self _)) fun _ caller inside => ?_
    change (backup (if _ then _ else _) caller).InWindow at inside
    split at inside <;> exact inside
  | backup caller healthy =>
    have turned := kept.fencing.backupTo caller healthy
    refine kept.others (Sum.inr.inj (turned.others .closer nofun))
      (lifecycle_backupTo caller healthy) fun closing other inside => ?_
    by_cases mine : other = caller
    · subst mine
      exact window_backupTo orderly closing inside
    · have same := Sum.inl.inj (turned.others (.backup other) (by simpa using mine))
      exact same ▸ inside
  | close deadlinePassed => exact kept.close deadlinePassed orderly

end Invariant

/-- In every orderly run `close` comes to destroy the runtimes only while no admitted
operation is active and no backup is in its window. -/
theorem runtimes_destroyed_unused [DecidableEq Caller] (workerCount : Nat)
    (closeDrainDeadline durable : Bool) (events : List (LifecycleEvent Caller))
    (orderly : Runs.Guarded step Orderly (opened workerCount closeDrainDeadline durable) events)
    (reached : (Runs.run step (opened workerCount closeDrainDeadline durable) events).closer =
      .destroying) :
    (Runs.run step (opened workerCount closeDrainDeadline durable) events).Unused := by
  have kept := orderly.invariant (fun _ _ kept here => Kept.step kept here)
    (opened_kept workerCount closeDrainDeadline durable)
  exact kept.unused reached

/-- A backup runs to its end, then `close` waits for an operation. -/
def orderlyClose : List (LifecycleEvent Unit) :=
  List.replicate 24 (.backup () true) ++ .beginOperation 0 :: List.replicate 8 (.close false) ++
    .finishOperation 0 :: List.replicate 5 (.close false)

theorem orderlyClose_destroys_unused :
    Runs.Guarded step Orderly (opened 1 true true) orderlyClose ∧
      (Runs.run step (opened 1 true true) orderlyClose).closer = .destroying ∧
      (Runs.run step (opened 1 true true) orderlyClose).Unused := by
  have guarded : Runs.Guarded step Orderly (opened 1 true true) orderlyClose := by
    decide +kernel
  have reached : (Runs.run step (opened 1 true true) orderlyClose).closer = .destroying := by
    decide +kernel
  exact ⟨guarded, reached, runtimes_destroyed_unused 1 true true orderlyClose guarded reached⟩

/-- The deadline passes while an operation is active. -/
def expiredClose : List (LifecycleEvent Unit) :=
  .beginOperation 0 :: List.replicate 7 (.close false) ++ List.replicate 3 (.close true)

/-- `close` begins while a backup copies. -/
def overlappingClose : List (LifecycleEvent Unit) :=
  List.replicate 17 (.backup () true) ++ List.replicate 10 (.close false)

theorem destroys_used_runtimes :
    ((Runs.run step (opened 1 true true) expiredClose).closer = .destroying ∧
      ¬ (Runs.run step (opened 1 true true) expiredClose).Unused) ∧
    ((Runs.run step (opened 1 false true) overlappingClose).closer = .destroying ∧
      ¬ (Runs.run step (opened 1 false true) overlappingClose).Unused) := by
  refine ⟨⟨by decide +kernel, fun unused => ?_⟩, by decide +kernel, fun unused => ?_⟩
  · have active := unused.quiet 0 (Nat.zero_le _)
    revert active
    decide +kernel
  · have copying := unused.noWindow ()
    revert copying
    decide +kernel

end GlifiStore.StoreLifecycle
