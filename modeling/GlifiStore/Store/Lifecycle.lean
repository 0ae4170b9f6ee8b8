import Mathlib

/-!
# Closing a store

Operations are admitted shard by shard, a backup holds the counted admission fence
while it copies, and `close` drains the admitted operations before it destroys the
runtimes. One event is one atomic access of one thread, so a list of events is an
interleaving.
-/

namespace GlifiStore

inductive LifecycleState where
  | «open»
  | closing
  | closed
  deriving DecidableEq, Repr

/-- The two fields of the admission word of a shard, which `state` puts together. Some of
those that are counted were admitted, the others saw the bit and still have to leave. -/
structure ActiveOperationCounter where
  closed : Bool
  count : Nat
  active : Nat
  deriving DecidableEq, Repr

/-- The closed bit of a 64-bit admission word. -/
def kAdmissionClosed : Nat := 2 ^ 63

def kAdmissionCountMask : Nat := kAdmissionClosed - 1

/-- The word itself, as long as the count stays below the closed bit. -/
def ActiveOperationCounter.state (word : ActiveOperationCounter) : Nat :=
  kAdmissionClosed * word.closed.toNat + word.count

inductive FencePosition where
  | raise
  | stamp (shard : Nat)
  | lower
  | clear (shard : Nat)
  | unlock
  deriving DecidableEq, Repr

inductive StoreThread (Caller : Type) where
  | operation
  | backup (caller : Caller)
  | closer
  deriving DecidableEq, Repr

/-- `admission_fence_state_lock`, with its owner. -/
inductive FenceLock (Caller : Type) where
  | free
  | held (owner : StoreThread Caller) (position : FencePosition)
  deriving DecidableEq, Repr

/-- The next access of a `backup_to`. -/
inductive BackupPosition where
  | outside
  | entered
  | closingAdmission
  | firstWait (shard : Nat)
  | firstCheck
  | lockingCompaction
  | secondWait (shard : Nat)
  | lastCheck
  | healthCheck
  | copying
  | unlockingCompaction
  | resumingAdmission
  deriving DecidableEq, Repr

/-- The next access of the `close`. -/
inductive ClosePosition where
  | outside
  | drainingWriters
  | closingAdmission
  | waiting (shard : Nat)
  | joiningMaintenance
  | closingRuntime
  | destroying
  | finishing
  | returned
  deriving DecidableEq, Repr

/-- After the second wait and before the end of the copy. -/
def BackupPosition.InWindow : BackupPosition → Prop
  | .lastCheck | .healthCheck | .copying => True
  | _ => False

instance : DecidablePred BackupPosition.InWindow := fun position => by
  cases position <;> unfold BackupPosition.InWindow <;> infer_instance

/-- The drain of `close` has seen the shard without a count. -/
def ClosePosition.Drained (shard : Nat) : ClosePosition → Prop
  | .outside | .drainingWriters | .closingAdmission => False
  | .waiting next => shard < next
  | _ => True

structure StoreLifecycle (Caller : Type) where
  /-- Shard `workerCount` is the control shard. -/
  workerCount : Nat
  closeDrainDeadline : Bool
  activeOperations : Nat → ActiveOperationCounter
  fence : FenceLock Caller
  fenceCount : Nat
  lifecycle : LifecycleState
  compactionMutex : Option (StoreThread Caller)
  durableRuntime : Bool
  volatileRuntime : Bool
  backup : Caller → BackupPosition
  closer : ClosePosition

inductive LifecycleEvent (Caller : Type) where
  | beginOperation (shard : Nat)
  | finishOperation (shard : Nat)
  /-- A refused `begin_operation` takes its count back. -/
  | finishRefused (shard : Nat)
  | lockCompaction
  | unlockCompaction
  | backup (caller : Caller) (healthy : Bool)
  | close (deadlinePassed : Bool)
  deriving DecidableEq, Repr

namespace StoreLifecycle

section Steps

variable {Caller : Type} [DecidableEq Caller]

def opened (workerCount : Nat) (closeDrainDeadline durable : Bool) : StoreLifecycle Caller where
  workerCount
  closeDrainDeadline
  activeOperations := fun _ => ⟨false, 0, 0⟩
  fence := .free
  fenceCount := 0
  lifecycle := .open
  compactionMutex := none
  durableRuntime := durable
  volatileRuntime := !durable
  backup := fun _ => .outside
  closer := .outside

section Admission

variable (store : StoreLifecycle Caller)

def setOperations (shard : Nat) (word : ActiveOperationCounter) : StoreLifecycle Caller :=
  { store with activeOperations := Function.update store.activeOperations shard word }

def setClosed (shard : Nat) (closed : Bool) : StoreLifecycle Caller :=
  store.setOperations shard { store.activeOperations shard with closed }

def setBackup (caller : Caller) (position : BackupPosition) : StoreLifecycle Caller :=
  { store with backup := Function.update store.backup caller position }

def beginOperation (shard : Nat) : StoreLifecycle Caller :=
  let word := store.activeOperations shard
  if store.workerCount < shard then store
  else store.setOperations shard
    { word with
      count := word.count + 1
      active := if word.closed then word.active else word.active + 1 }

def finishOperation (shard : Nat) : StoreLifecycle Caller :=
  let word := store.activeOperations shard
  if word.active = 0 then store
  else store.setOperations shard { word with count := word.count - 1, active := word.active - 1 }

def finishRefused (shard : Nat) : StoreLifecycle Caller :=
  let word := store.activeOperations shard
  if word.count = word.active then store
  else store.setOperations shard { word with count := word.count - 1 }

/-- The next access of `close_admission`, and whether it has returned. -/
def closeAdmission (thread : StoreThread Caller) : StoreLifecycle Caller × Bool :=
  match store.fence with
  | .free => ({ store with fence := .held thread .raise }, false)
  | .held owner .raise =>
    if owner = thread then
      ({ store with
          fenceCount := store.fenceCount + 1
          -- Only the first owner stamps the shards.
          fence := .held thread (.stamp (if store.fenceCount = 0 then 0 else store.workerCount + 1)) },
        false)
    else (store, false)
  | .held owner (.stamp shard) =>
    if owner = thread then
      if shard ≤ store.workerCount then
        ({ store.setClosed shard true with fence := .held thread (.stamp (shard + 1)) }, false)
      else ({ store with fence := .free }, true)
    else (store, false)
  | .held _ .lower | .held _ (.clear _) | .held _ .unlock => (store, false)

/-- The next access of `resume_admission_if_open`, and whether it has returned. -/
def resumeAdmissionIfOpen (thread : StoreThread Caller) : StoreLifecycle Caller × Bool :=
  match store.fence with
  | .free => ({ store with fence := .held thread .lower }, false)
  | .held owner .lower =>
    if owner = thread then
      if store.fenceCount = 0 then ({ store with fence := .free }, true)
      else
        ({ store with
            fenceCount := store.fenceCount - 1
            fence := .held thread
              (if store.fenceCount - 1 = 0 ∧ store.lifecycle = .open then .clear 0 else .unlock) },
          false)
    else (store, false)
  | .held owner (.clear shard) =>
    if owner = thread then
      if shard ≤ store.workerCount then
        ({ store.setClosed shard false with fence := .held thread (.clear (shard + 1)) }, false)
      else ({ store with fence := .free }, true)
    else (store, false)
  | .held owner .unlock =>
    if owner = thread then ({ store with fence := .free }, true) else (store, false)
  | .held _ .raise | .held _ (.stamp _) => (store, false)

/-- One look of `wait_for_active_operations` at a shard, which ends the wait after the
last shard. -/
def waitForActiveOperations {Position : Type} (shard : Nat)
    (waiting : Nat → Position) (done : Position) : Position :=
  if shard ≤ store.workerCount then
    if (store.activeOperations shard).count = 0 then waiting (shard + 1) else waiting shard
  else done

/-- The wait of `close` observes an operation after its deadline. -/
def DeadlineExceeded {Caller : Type} (store : StoreLifecycle Caller) (shard : Nat)
    (deadlinePassed : Bool) : Prop :=
  shard ≤ store.workerCount ∧ (store.activeOperations shard).count ≠ 0 ∧
    store.closeDrainDeadline ∧ deadlinePassed

instance {Caller : Type} (store : StoreLifecycle Caller) (shard : Nat) (deadlinePassed : Bool) :
    Decidable (store.DeadlineExceeded shard deadlinePassed) :=
  inferInstanceAs (Decidable (_ ∧ _))

def backupTo (caller : Caller) (healthy : Bool) : StoreLifecycle Caller :=
  match store.backup caller with
  | .outside => store.setBackup caller .entered
  | .entered =>
    store.setBackup caller
      (if store.lifecycle = .open ∧ store.durableRuntime then .closingAdmission else .outside)
  | .closingAdmission =>
    let (fenced, returned) := store.closeAdmission (.backup caller)
    if returned then fenced.setBackup caller (.firstWait 0) else fenced
  | .firstWait shard =>
    store.setBackup caller (store.waitForActiveOperations shard .firstWait .firstCheck)
  | .firstCheck =>
    store.setBackup caller
      (if store.lifecycle = .open then .lockingCompaction else .resumingAdmission)
  | .lockingCompaction =>
    if store.compactionMutex = none then
      { store with compactionMutex := some (.backup caller) }.setBackup caller (.secondWait 0)
    else store
  | .secondWait shard =>
    store.setBackup caller (store.waitForActiveOperations shard .secondWait .lastCheck)
  | .lastCheck =>
    store.setBackup caller
      (if store.lifecycle = .open then .healthCheck else .unlockingCompaction)
  | .healthCheck =>
    store.setBackup caller
      (if store.durableRuntime ∧ healthy then .copying else .unlockingCompaction)
  | .copying => store.setBackup caller .unlockingCompaction
  | .unlockingCompaction =>
    { store with compactionMutex := none }.setBackup caller .resumingAdmission
  | .resumingAdmission =>
    let (resumed, returned) := store.resumeAdmissionIfOpen (.backup caller)
    if returned then resumed.setBackup caller .outside else resumed

def close (deadlinePassed : Bool) : StoreLifecycle Caller :=
  match store.closer with
  | .outside =>
    if store.lifecycle = .open then { store with lifecycle := .closing, closer := .drainingWriters }
    else store
  | .drainingWriters => { store with closer := .closingAdmission }
  | .closingAdmission =>
    let (fenced, returned) := store.closeAdmission .closer
    if returned then { fenced with closer := .waiting 0 } else fenced
  | .waiting shard =>
    if store.DeadlineExceeded shard deadlinePassed then
      -- The failed wait is only reported, `close` goes on.
      { store with closer := .joiningMaintenance }
    else
      { store with closer := store.waitForActiveOperations shard .waiting .joiningMaintenance }
  | .joiningMaintenance => { store with closer := .closingRuntime }
  | .closingRuntime => { store with closer := .destroying }
  | .destroying =>
    { store with durableRuntime := false, volatileRuntime := false, closer := .finishing }
  | .finishing => { store with lifecycle := .closed, closer := .returned }
  | .returned => store

def step : LifecycleEvent Caller → StoreLifecycle Caller
  | .beginOperation shard => store.beginOperation shard
  | .finishOperation shard => store.finishOperation shard
  | .finishRefused shard => store.finishRefused shard
  | .lockCompaction =>
    if store.compactionMutex = none then { store with compactionMutex := some .operation } else store
  | .unlockCompaction =>
    if store.compactionMutex = some .operation then { store with compactionMutex := none } else store
  | .backup caller healthy => store.backupTo caller healthy
  | .close deadlinePassed => store.close deadlinePassed

end Admission

end Steps

/-! ## What must hold of a step -/

variable {Caller : Type} (store : StoreLifecycle Caller)

def Quiet : Prop :=
  ∀ shard ≤ store.workerCount, (store.activeOperations shard).active = 0

instance : Decidable store.Quiet :=
  inferInstanceAs (Decidable (∀ shard ≤ store.workerCount, _))

/-- No operation and no backup uses the runtimes. -/
structure Unused : Prop where
  quiet : store.Quiet
  noWindow : ∀ caller, ¬ (store.backup caller).InWindow

/-- A deadline that ends the drain finds no admitted operation, `close` begins while no
backup is in its window, and no backup ends its second wait after `close` began. The window
lasts from the second wait to the end of the copy and has the last look at the lifecycle in
it: a backup that looks after `close` began copies nothing, but it was in its window while
`close` was at work. -/
def Orderly : LifecycleEvent Caller → Prop
  | .close deadlinePassed =>
    match store.closer with
    | .outside => ∀ caller, ¬ (store.backup caller).InWindow
    | .waiting shard => store.DeadlineExceeded shard deadlinePassed → store.Quiet
    | _ => True
  | .backup caller _ =>
    match store.backup caller with
    | .secondWait shard => store.workerCount < shard → store.lifecycle = .open
    | _ => True
  | _ => True

instance [Fintype Caller] : DecidablePred store.Orderly :=
  fun event => by
    unfold Orderly
    split
    · split <;> infer_instance
    · split <;> infer_instance
    · infer_instance

end StoreLifecycle

end GlifiStore
