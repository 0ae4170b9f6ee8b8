import GlifiStore.Core.KeyHash
import GlifiStore.Lib.KeyedRuns
import GlifiStore.Segment.Record

/-!
# Batches of a volatile store

`put_batch` and `erase_batch` group their items by shard with an unstable sort
and hand each group to the shard in one piece. The slots stand for what the Index
of a shard finds under a key. A durable store also counts the live keys of a shard.
-/

namespace GlifiStore

open ByteLayout KeyedRuns

structure StoredValue where
  value : Bytes
  expireAtNs : Nat
  deriving DecidableEq, Repr

structure PutItem where
  key : Key
  value : Bytes
  expireAtNs : Nat
  expireFits : expireAtNs < 256 ^ 8

structure EraseItem where
  key : Key

/-- How one item of a batch meets the slot of its key. -/
structure BatchKind (Item : Type) where
  key : Item → Key
  apply : Option StoredValue → Item → Option StoredValue × Status

/-- The check of a put before its record is appended. The size of the record does
not depend on its sequence or on the hash of its key. -/
def putAdmission (item : PutItem) : Status :=
  (encodedRecordSize
    { sequence := 0
      opcode := .put
      type := .bytes
      flags := 0
      keyHash := 0
      expireAtNs := item.expireAtNs
      key := item.key
      value := item.value
      sequenceFits := zero_fits8
      flagsFits := zero_fits4
      keyHashFits := zero_fits8
      expireFits := item.expireFits }).map fun _ => ()

def putKind : BatchKind PutItem where
  key := PutItem.key
  apply slot item :=
    match putAdmission item with
    | .ok () => (some ⟨item.value, item.expireAtNs⟩, .ok ())
    | .error error => (slot, .error error)

def eraseKind : BatchKind EraseItem where
  key := EraseItem.key
  apply slot _ :=
    match slot with
    | some _ => (none, .ok ())
    | none => (none, fail .notFound "key is not present")

/-- A volatile store as a batch meets it: its routing, whether it runs paired shards, the
maintenance emergency, and the shards whose operation guard refuses. -/
structure VolatileFront where
  workerCount : Nat
  routing : WorkerRoutingState
  paired : Bool
  emergency : Bool
  closed : Nat → Bool

def VolatileFront.shard (front : VolatileFront) (key : Key) : Nat :=
  routeWorker (hashKeyRouting key front.routing).toNat front.workerCount

def kMaintenanceEmergencyMutationMessage : String :=
  "maintenance emergency: insufficient capacity to create or rotate a Segment"

def closedStore : Status :=
  fail .unavailable ""

structure Prepared (Item : Type) where
  item : Item
  shard : Nat
  inputIndex : Nat

abbrev BatchOutcome := Outcome Key (Option StoredValue) Status

section Batch

variable {Item : Type} (kind : BatchKind Item) (front : VolatileFront) (items : List Item)

def prepare : List (Prepared Item) :=
  items.zipIdx.map fun entry => ⟨entry.1, front.shard (kind.key entry.1), entry.2⟩

def shardMachine : Machine Key (Option StoredValue) (Prepared Item) Status where
  key entry := kind.key entry.item
  position := Prepared.inputIndex
  apply slot entry := kind.apply slot entry.item

/-- `mutate_batch`: the nodes are pushed one before the other, and the executor
turns the list around. -/
def mutateBatch (outcome : BatchOutcome) (batch : List (Prepared Item)) : BatchOutcome :=
  let syncHead := batch.foldl (fun head node => node :: head) []
  run (shardMachine kind) outcome syncHead.reverse

def runShardBatch (outcome : BatchOutcome) (batch : List (Prepared Item)) : BatchOutcome :=
  match batch with
  | [] => outcome
  | first :: _ =>
    if front.closed first.shard then
      { outcome with
        replies := batch.foldl (fun replies entry => replies.set entry.inputIndex closedStore)
          outcome.replies }
    else
      mutateBatch kind outcome batch

/-- The runs of one shard in the sorted entries. -/
def shardGroups : List (Prepared Item) → List (List (Prepared Item))
  | [] => []
  | first :: rest =>
    (first :: rest.takeWhile fun entry => entry.shard = first.shard) ::
      shardGroups (rest.dropWhile fun entry => entry.shard = first.shard)
termination_by entries => entries.length
decreasing_by
  exact Nat.lt_succ_of_le (List.dropWhile_sublist _).length_le

/-- One item without paired shards, behind the guard of its own shard. -/
def mutateItem (outcome : BatchOutcome) (entry : Prepared Item) : BatchOutcome :=
  if front.closed entry.shard then
    { outcome with replies := outcome.replies.set entry.inputIndex closedStore }
  else
    step (shardMachine kind) outcome entry

def SingleShard : Prop :=
  ∀ first ∈ items.head?, ∀ item ∈ items, front.shard (kind.key item) = front.shard (kind.key first)

instance (items : List Item) : Decidable (SingleShard kind front items) :=
  inferInstanceAs (Decidable (∀ first ∈ items.head?, _))

/-- What `std::sort` by the shard may return. -/
structure SortedByShard (prepared sorted : List (Prepared Item)) : Prop where
  perm : sorted.Perm prepared
  ordered : sorted.Pairwise fun left right => left.shard ≤ right.shard

/-- The body of `put_batch` and `erase_batch`, with the result of the sort. -/
def storeBatch (sorted : List (Prepared Item)) (slots : Key → Option StoredValue) : BatchOutcome :=
  if front.emergency then
    ⟨slots, items.map fun _ => fail .storageExhausted kMaintenanceEmergencyMutationMessage⟩
  else if ¬ front.paired then
    (prepare kind front items).foldl (mutateItem kind front) ⟨slots, items.map fun _ => .ok ()⟩
  else if SingleShard kind front items then
    runShardBatch kind front ⟨slots, items.map fun _ => .ok ()⟩ (prepare kind front items)
  else
    (shardGroups sorted).foldl (runShardBatch kind front) ⟨slots, items.map fun _ => .ok ()⟩

/-- The items behind the same checks, one after the other as the caller listed
them. -/
def callerOrder (slots : Key → Option StoredValue) : BatchOutcome :=
  if front.emergency then
    ⟨slots, items.map fun _ => fail .storageExhausted kMaintenanceEmergencyMutationMessage⟩
  else
    (prepare kind front items).foldl (mutateItem kind front) ⟨slots, items.map fun _ => .ok ()⟩

end Batch

def putBatch (front : VolatileFront) (items : List PutItem) (sorted : List (Prepared PutItem))
    (slots : Key → Option StoredValue) : BatchOutcome :=
  storeBatch putKind front items sorted slots

def eraseBatch (front : VolatileFront) (items : List EraseItem) (sorted : List (Prepared EraseItem))
    (slots : Key → Option StoredValue) : BatchOutcome :=
  storeBatch eraseKind front items sorted slots

/-! ## Groups do not matter -/

variable {front : VolatileFront} {slots : Key → Option StoredValue}

section Order

variable {Item : Type} {kind : BatchKind Item} {items : List Item} {outcome : BatchOutcome}
  {entry : Prepared Item}

def guardedMachine (kind : BatchKind Item) (front : VolatileFront) :
    Machine Key (Option StoredValue) (Prepared Item) Status where
  key entry := kind.key entry.item
  position := Prepared.inputIndex
  apply slot entry :=
    if front.closed entry.shard then (slot, closedStore) else kind.apply slot entry.item

/-- The entries in their order, behind the guards of their shards. -/
def inOrder (kind : BatchKind Item) (front : VolatileFront) (items : List Item)
    (slots : Key → Option StoredValue) (entries : List (Prepared Item)) : BatchOutcome :=
  entries.foldl (mutateItem kind front) ⟨slots, items.map fun _ => .ok ()⟩

theorem step_guardedMachine (entry : Prepared Item) :
    step (guardedMachine kind front) outcome entry = mutateItem kind front outcome entry := by
  unfold step mutateItem
  by_cases closed : front.closed entry.shard <;> simp [guardedMachine, shardMachine, step, closed]

variable (entries : List (Prepared Item))

theorem inOrder_eq :
    inOrder kind front items slots entries =
      run (guardedMachine kind front) ⟨slots, items.map fun _ => .ok ()⟩ entries := by
  rw [run, inOrder]
  congr 1
  funext outcome entry
  exact (step_guardedMachine entry).symm

variable {batch : List (Prepared Item)} {shard : Nat}

theorem runShardBatch_eq (owned : ∀ entry ∈ batch, entry.shard = shard) :
    runShardBatch kind front outcome batch = batch.foldl (mutateItem kind front) outcome := by
  cases batch with
  | nil => rfl
  | cons first rest =>
    have first_shard : first.shard = shard := owned first List.mem_cons_self
    rw [runShardBatch, first_shard]
    generalize first :: rest = batch at owned
    by_cases closed : front.closed shard
    · rw [if_pos closed]
      induction batch generalizing outcome with
      | nil => rfl
      | cons entry later ih =>
        obtain ⟨here, others⟩ := List.forall_mem_cons.mp owned
        rw [List.foldl_cons, List.foldl_cons, ← ih others, mutateItem, here, if_pos closed]
    · rw [if_neg closed, mutateBatch, List.foldl_flip_cons_eq_append', List.append_nil,
        List.reverse_reverse, run]
      refine List.foldl_ext _ _ _ fun outcome entry member => ?_
      rw [mutateItem, owned entry member, if_neg closed]

theorem shardGroups_flatten : (shardGroups entries).flatten = entries := by
  fun_induction shardGroups entries with
  | case1 => rfl
  | case2 first rest ih => simp [ih, List.takeWhile_append_dropWhile]

variable {entries : List (Prepared Item)}

theorem mem_shardGroups (listed : batch ∈ shardGroups entries) :
    ∃ shard, ∀ entry ∈ batch, entry.shard = shard := by
  fun_induction shardGroups entries with
  | case1 => simp at listed
  | case2 first rest ih =>
    rcases List.mem_cons.mp listed with rfl | later
    · refine ⟨first.shard, List.forall_mem_cons.mpr ⟨rfl, fun entry member => ?_⟩⟩
      simpa using List.mem_takeWhile_imp member
    · exact ih later

theorem foldl_shardGroups :
    (shardGroups entries).foldl (runShardBatch kind front) outcome =
      entries.foldl (mutateItem kind front) outcome := by
  conv_rhs => rw [← shardGroups_flatten entries, List.foldl_flatten]
  refine List.foldl_ext _ _ _ fun outcome batch listed => ?_
  obtain ⟨shard, owned⟩ := mem_shardGroups listed
  exact runShardBatch_eq owned

theorem mem_prepare :
    entry ∈ prepare kind front items ↔ items[entry.inputIndex]? = some entry.item ∧
      entry.shard = front.shard (kind.key entry.item) := by
  simp only [prepare, List.mem_map, Prod.exists, List.mem_zipIdx_iff_getElem?]
  constructor
  · rintro ⟨item, index, found, rfl⟩
    exact ⟨found, rfl⟩
  · rintro ⟨found, owned⟩
    exact ⟨entry.item, entry.inputIndex, found, by rw [← owned]⟩

theorem nodup_prepare : ((prepare kind front items).map Prepared.inputIndex).Nodup := by
  simp only [prepare, List.map_map, Function.comp_def, List.zipIdx_map_snd]
  exact List.nodup_range'

/-- Without an emergency a batch runs its entries in the sorted order if it has to
group them, and as they came otherwise. -/
theorem storeBatch_eq {sorted : List (Prepared Item)} (calm : front.emergency = false) :
    storeBatch kind front items sorted slots =
      inOrder kind front items slots
        (if front.paired ∧ ¬ SingleShard kind front items then sorted
          else prepare kind front items) := by
  unfold storeBatch
  rw [if_neg (by simp [calm])]
  by_cases paired : front.paired = true
  · by_cases single : SingleShard kind front items
    · rw [if_neg (by simp [paired]), if_pos single, if_neg (by simp [single])]
      cases items with
      | nil => rfl
      | cons first rest =>
        have owned : ∀ entry ∈ prepare kind front (first :: rest),
            entry.shard = front.shard (kind.key first) := fun entry member => by
          obtain ⟨found, owned⟩ := mem_prepare.mp member
          exact owned.trans (single first rfl entry.item (List.mem_of_getElem? found))
        exact runShardBatch_eq owned
    · rw [if_neg (by simp [paired]), if_neg single, if_pos ⟨paired, single⟩, foldl_shardGroups]
      rfl
  · rw [if_pos paired, if_neg (by simp [paired])]
    rfl

theorem callerOrder_eq (calm : front.emergency = false) :
    callerOrder kind front items slots =
      inOrder kind front items slots (prepare kind front items) := by
  rw [callerOrder, if_neg (by simp [calm])]
  rfl

/-! ## Order within a key -/

/-- The batch acts as if the caller had made the calls one by one, whatever the
sort returns. -/
def FifoPerOwner (kind : BatchKind Item) (front : VolatileFront) (items : List Item)
    (slots : Key → Option StoredValue) : Prop :=
  ∀ sorted, SortedByShard (prepare kind front items) sorted →
    storeBatch kind front items sorted slots = callerOrder kind front items slots

/-- The sort decides nothing for such a batch. -/
def Ungrouped (kind : BatchKind Item) (front : VolatileFront) (items : List Item) : Prop :=
  front.emergency = true ∨ front.paired = false ∨ SingleShard kind front items

theorem fifoPerOwner_of_ungrouped (ungrouped : Ungrouped kind front items) :
    FifoPerOwner kind front items slots := by
  intro sorted _
  cases calm : front.emergency with
  | true => simp [storeBatch, callerOrder, calm]
  | false =>
    rw [storeBatch_eq calm, callerOrder_eq calm, if_neg]
    rintro ⟨paired, grouped⟩
    rcases ungrouped with emergency | unpaired | single
    · simp [calm] at emergency
    · simp [unpaired] at paired
    · exact grouped single

theorem fifoPerOwner_iff (grouped : ¬ Ungrouped kind front items) :
    FifoPerOwner kind front items slots ↔
      ∀ sorted, SortedByShard (prepare kind front items) sorted →
        inOrder kind front items slots sorted =
          inOrder kind front items slots (prepare kind front items) := by
  simp only [Ungrouped, not_or, Bool.not_eq_true, Bool.not_eq_false] at grouped
  simp only [FifoPerOwner, storeBatch_eq grouped.1, callerOrder_eq grouped.1,
    if_pos (show front.paired = true ∧ ¬ SingleShard kind front items from grouped.2)]

theorem shard_eq_of_key {first second : Prepared Item}
    (firstListed : first ∈ prepare kind front items)
    (secondListed : second ∈ prepare kind front items)
    (same : kind.key first.item = kind.key second.item) : first.shard = second.shard := by
  rw [(mem_prepare.mp firstListed).2, (mem_prepare.mp secondListed).2, same]

/-- The sort may place an entry before or behind the entries of its shard. -/
theorem exists_sorted_around (listed : entry ∈ prepare kind front items) (behind : Bool) :
    ∃ before after, SortedByShard (prepare kind front items) (before ++ entry :: after) ∧
      ∀ other ∈ if behind then after else before, kind.key other.item ≠ kind.key entry.item := by
  -- The entry is last or first among equal shards.
  let weight (other : Prepared Item) : Nat :=
    2 * other.shard + if decide (other.inputIndex = entry.inputIndex) = behind then 1 else 0
  let sorted := (prepare kind front items).mergeSort fun left right => weight left ≤ weight right
  have perm : sorted.Perm (prepare kind front items) := List.mergeSort_perm _ _
  have ordered : sorted.Pairwise fun left right => weight left ≤ weight right :=
    (List.pairwise_mergeSort (by simp only [decide_eq_true_eq]; omega)
      (by simp only [Bool.or_eq_true, decide_eq_true_eq]; omega) _).imp of_decide_eq_true
  obtain ⟨before, after, split⟩ := List.append_of_mem (perm.mem_iff.mpr listed)
  have nodup := (perm.map Prepared.inputIndex).nodup_iff.mpr nodup_prepare
  have byShard : sorted.Pairwise fun left right => left.shard ≤ right.shard :=
    ordered.imp fun weights => by grind
  have weights := ordered
  rw [split] at perm byShard nodup weights
  refine ⟨before, after, ⟨perm, byShard⟩, fun other member same => ?_⟩
  have shard : other ∈ before ++ entry :: after → other.shard = entry.shard :=
    fun inside => shard_eq_of_key (perm.mem_iff.mp inside) listed same
  simp only [List.pairwise_append, List.pairwise_cons, List.map_append, List.map_cons,
    List.nodup_append, List.nodup_cons] at weights nodup
  cases behind with
  | false =>
    have lighter := weights.2.2 other member entry List.mem_cons_self
    have distinct := nodup.2.2 _ (List.mem_map_of_mem member) _ List.mem_cons_self
    simp [weight, distinct, shard (List.mem_append_left _ member)] at lighter
  | true =>
    have heavier := weights.2.1.1 other member
    have distinct : other.inputIndex ≠ entry.inputIndex := fun equal =>
      nodup.2.1.1 (equal ▸ List.mem_map_of_mem member)
    simp [weight, distinct, shard (by simp at member; simp [member])] at heavier

variable (slots) in
theorem reply_eq {before after : List (Prepared Item)}
    (perm : (before ++ entry :: after).Perm (prepare kind front items)) :
    (inOrder kind front items slots (before ++ entry :: after)).replies[entry.inputIndex]? =
      some ((guardedMachine kind front).apply
        (slotAfter (guardedMachine kind front) (kind.key entry.item) (slots (kind.key entry.item))
          before) entry).2 := by
  have listed : entry ∈ prepare kind front items := perm.mem_iff.mp (by simp)
  have nodup : ((before ++ entry :: after).map Prepared.inputIndex).Nodup :=
    (perm.map Prepared.inputIndex).nodup_iff.mpr nodup_prepare
  simp only [List.map_append, List.map_cons, List.nodup_append, List.nodup_cons, List.mem_map,
    not_exists, not_and] at nodup
  rw [inOrder_eq]
  refine replies_run ?_ fun other later => nodup.2.1.1 other later
  have found := (mem_prepare.mp listed).1
  simpa [guardedMachine] using (List.getElem?_eq_some_iff.mp found).1

variable (slots) in
theorem exists_reply (perm : entries.Perm (prepare kind front items)) (listed : entry ∈ entries) :
    ∃ before after, entries = before ++ entry :: after ∧
      (inOrder kind front items slots entries).replies[entry.inputIndex]? =
        some ((guardedMachine kind front).apply
          (slotAfter (guardedMachine kind front) (kind.key entry.item)
            (slots (kind.key entry.item)) before) entry).2 := by
  obtain ⟨before, after, rfl⟩ := List.append_of_mem listed
  exact ⟨before, after, rfl, reply_eq slots perm⟩

end Order

/-! ## Puts -/

/-- The items of an open shard that a put accepts agree wherever they share a key. -/
def PutsAgree (front : VolatileFront) (items : List PutItem) : Prop :=
  ∀ first ∈ items, ∀ second ∈ items, first.key = second.key →
    front.closed (front.shard first.key) = false → putAdmission first = .ok () →
      putAdmission second = .ok () →
        first.value = second.value ∧ first.expireAtNs = second.expireAtNs

variable {slot : Option StoredValue}

section Puts

variable {items : List PutItem}

def PutTakes (front : VolatileFront) (entry : Prepared PutItem) : Prop :=
  front.closed entry.shard = false ∧ putAdmission entry.item = .ok ()

def PutItem.stored (item : PutItem) : StoredValue := ⟨item.value, item.expireAtNs⟩

variable {entry : Prepared PutItem}

theorem apply_put_of_takes (takes : PutTakes front entry) :
    (guardedMachine putKind front).apply slot entry = (some entry.item.stored, .ok ()) := by
  simp [guardedMachine, putKind, takes.1, takes.2, PutItem.stored]

theorem apply_put_of_not_takes (refused : ¬ PutTakes front entry) :
    ((guardedMachine putKind front).apply slot entry).1 = slot := by
  simp only [guardedMachine, putKind]
  split
  · rfl
  · next isOpen =>
    split
    · next accepted => exact absurd ⟨by simpa using isOpen, accepted⟩ refused
    · rfl

theorem reply_put (slot other : Option StoredValue) (entry : Prepared PutItem) :
    ((guardedMachine putKind front).apply slot entry).2 =
      ((guardedMachine putKind front).apply other entry).2 := by
  simp only [guardedMachine, putKind]
  split
  · rfl
  · split <;> rfl

/-- What an accepted put stores is the value of its key after the run that places
it last. -/
theorem fifoPerOwner_put_iff (grouped : ¬ Ungrouped putKind front items) :
    FifoPerOwner putKind front items slots ↔ PutsAgree front items := by
  rw [fifoPerOwner_iff grouped]
  constructor
  · intro fifo
    have final : ∀ entry ∈ prepare putKind front items, PutTakes front entry →
        (inOrder putKind front items slots (prepare putKind front items)).slots entry.item.key =
          some entry.item.stored := by
      intro entry listed takes
      obtain ⟨before, after, sorted, last⟩ := exists_sorted_around listed true
      rw [← fifo _ sorted, inOrder_eq, slots_run, slotAfter_append, slotAfter_cons]
      rw [if_pos (show (guardedMachine putKind front).key entry = entry.item.key from rfl),
        apply_put_of_takes takes]
      exact slotAfter_of_keeps fun other later same => absurd same (last other later)
    intro first firstListed second secondListed same isOpen firstOk secondOk
    obtain ⟨firstIndex, firstFound⟩ := List.mem_iff_getElem?.mp firstListed
    obtain ⟨secondIndex, secondFound⟩ := List.mem_iff_getElem?.mp secondListed
    have firstFinal := final ⟨first, front.shard first.key, firstIndex⟩
      (mem_prepare.mpr ⟨firstFound, rfl⟩) ⟨isOpen, firstOk⟩
    have secondFinal := final ⟨second, front.shard second.key, secondIndex⟩
      (mem_prepare.mpr ⟨secondFound, rfl⟩) ⟨same ▸ isOpen, secondOk⟩
    simp only [same] at firstFinal
    simpa [PutItem.stored] using Option.some.inj (firstFinal.symm.trans secondFinal)
  · intro agree sorted sortedBy
    rw [inOrder_eq, inOrder_eq]
    refine run_eq_run sortedBy.perm (fun key => ?_) fun entry listed => ?_
    · by_cases found : ∃ entry ∈ prepare putKind front items,
          entry.item.key = key ∧ PutTakes front entry
      · obtain ⟨chosen, chosenListed, chosenKey, chosenTakes⟩ := found
        have agreed : Agree (guardedMachine putKind front) key (PutTakes front)
            (some chosen.item.stored) (prepare putKind front items) := by
          refine ⟨fun entry listed same takes slot => ?_, fun entry _ _ refused slot =>
            apply_put_of_not_takes refused⟩
          rw [apply_put_of_takes takes]
          obtain ⟨entryFound, entryShard⟩ := mem_prepare.mp listed
          obtain ⟨chosenFound, -⟩ := mem_prepare.mp chosenListed
          have equal := agree entry.item (List.mem_of_getElem? entryFound) chosen.item
            (List.mem_of_getElem? chosenFound) (same.trans chosenKey.symm)
            (entryShard ▸ takes.1) takes.2 chosenTakes.2
          simp [PutItem.stored, equal.1, equal.2]
        exact agreed.slotAfter_perm sortedBy.perm
      · have none : ∀ entry ∈ prepare putKind front items, entry.item.key = key →
            ((guardedMachine putKind front).apply (slots key) entry).1 = slots key :=
          fun entry listed same =>
            apply_put_of_not_takes fun takes => found ⟨entry, listed, same, takes⟩
        exact (slotAfter_of_keeps fun entry listed same =>
          none entry (sortedBy.perm.mem_iff.mp listed) same).trans (slotAfter_of_keeps none).symm
    · obtain ⟨_, _, -, inSorted⟩ :=
        exists_reply slots sortedBy.perm (sortedBy.perm.mem_iff.mpr listed)
      obtain ⟨_, _, -, listedOrder⟩ := exists_reply slots (List.Perm.refl _) listed
      rw [inOrder_eq] at inSorted listedOrder
      exact inSorted.trans ((congrArg some (reply_put _ _ entry)).trans listedOrder.symm)

end Puts

/-! ## Erases -/

/-- No key of an open shard that holds a value is erased twice. -/
def ErasesDiffer (front : VolatileFront) (items : List EraseItem)
    (slots : Key → Option StoredValue) : Prop :=
  items.Pairwise fun first second => first.key = second.key →
    front.closed (front.shard first.key) = true ∨ slots first.key = none

section Erases

variable {items : List EraseItem} {entry : Prepared EraseItem}

theorem apply_erase (isOpen : front.closed entry.shard = false) :
    (guardedMachine eraseKind front).apply slot entry =
      (none, if slot.isSome then .ok () else fail .notFound "key is not present") := by
  cases slot <;> simp [guardedMachine, eraseKind, isOpen]

theorem apply_erase_closed (isClosed : ¬ front.closed entry.shard = false) :
    (guardedMachine eraseKind front).apply slot entry = (slot, closedStore) := by
  simp [guardedMachine, Bool.eq_true_of_not_eq_false isClosed]

theorem agree_erase (key : Key) (entries : List (Prepared EraseItem)) :
    Agree (guardedMachine eraseKind front) key (fun entry => front.closed entry.shard = false)
      none entries :=
  ⟨fun entry _ _ isOpen slot => by rw [apply_erase isOpen],
    fun entry _ _ isClosed slot => by rw [apply_erase_closed isClosed]⟩

theorem slotAfter_erase_none {key : Key} {entries : List (Prepared EraseItem)} :
    slotAfter (guardedMachine eraseKind front) key none entries = none :=
  slotAfter_of_keeps fun entry _ _ => by
    by_cases isOpen : front.closed entry.shard = false
    · rw [apply_erase isOpen]
    · rw [apply_erase_closed isOpen]

section SameKey

variable {first second : Prepared EraseItem} (firstListed : first ∈ prepare eraseKind front items)
  (secondListed : second ∈ prepare eraseKind front items)
  (sameKey : eraseKind.key first.item = eraseKind.key second.item)
  (isOpen : front.closed first.shard = false)
  (present : (slots (eraseKind.key first.item)).isSome)
include firstListed secondListed sameKey isOpen present

/-- The replies to two erases of a key that holds a value depend on their order. -/
theorem not_fifo_of_erased_twice (differ : first ≠ second) :
    ∃ sorted, SortedByShard (prepare eraseKind front items) sorted ∧
      inOrder eraseKind front items slots sorted ≠
        inOrder eraseKind front items slots (prepare eraseKind front items) := by
  -- Placed first among its key the entry succeeds, placed last it finds nothing.
  obtain ⟨early, _, earlySorted, alone⟩ := exists_sorted_around firstListed false
  obtain ⟨late, _, lateSorted, last⟩ := exists_sorted_around firstListed true
  have earlyReply := reply_eq slots earlySorted.perm
  have lateReply := reply_eq slots lateSorted.perm
  rw [slotAfter_of_keeps fun other (member : other ∈ early) same => absurd same (alone other member),
    apply_erase isOpen, if_pos present] at earlyReply
  have secondEarlier : second ∈ late := by
    have inside := lateSorted.perm.mem_iff.mpr secondListed
    simp only [List.mem_append, List.mem_cons] at inside
    rcases inside with found | same | found
    · exact found
    · exact absurd same.symm differ
    · exact absurd sameKey.symm (last second found)
  have secondOpen : front.closed second.shard = false := by
    rwa [← shard_eq_of_key firstListed secondListed sameKey]
  rw [(agree_erase _ late).slotAfter_of_exists ⟨second, secondEarlier, sameKey.symm, secondOpen⟩,
    apply_erase isOpen, if_neg (by simp)] at lateReply
  by_contra fifo
  simp only [not_exists, not_and, ne_eq, not_not] at fifo
  rw [fifo _ earlySorted] at earlyReply
  rw [fifo _ lateSorted, earlyReply] at lateReply
  simp [fail] at lateReply

theorem ErasesDiffer.eq_of_key (differ : ErasesDiffer front items slots) : first = second := by
  obtain ⟨firstFound, firstShard⟩ := mem_prepare.mp firstListed
  obtain ⟨secondFound, secondShard⟩ := mem_prepare.mp secondListed
  obtain ⟨firstBound, firstItem⟩ := List.getElem?_eq_some_iff.mp firstFound
  obtain ⟨secondBound, secondItem⟩ := List.getElem?_eq_some_iff.mp secondFound
  have held : ∀ item, eraseKind.key item = eraseKind.key first.item →
      ¬ (front.closed (front.shard item.key) = true ∨ slots item.key = none) := by
    intro item same
    change item.key = first.item.key at same
    change (slots first.item.key).isSome at present
    rw [firstShard] at isOpen
    simp [same, Option.isSome_iff_ne_none.mp present, show front.closed (front.shard
      first.item.key) = false from isOpen]
  rw [ErasesDiffer, List.pairwise_iff_getElem] at differ
  rcases Nat.lt_trichotomy first.inputIndex second.inputIndex with less | same | greater
  · refine absurd (differ _ _ firstBound secondBound less ?_) (firstItem ▸ held _ rfl)
    rw [firstItem, secondItem]
    exact sameKey
  · cases first
    cases second
    simp_all
  · refine absurd (differ _ _ secondBound firstBound greater ?_)
      (secondItem ▸ held _ sameKey.symm)
    rw [firstItem, secondItem]
    exact sameKey.symm

end SameKey

theorem ErasesDiffer.slotAfter_eq (differ : ErasesDiffer front items slots)
    {before after : List (Prepared EraseItem)}
    (perm : (before ++ entry :: after).Perm (prepare eraseKind front items))
    (isOpen : front.closed entry.shard = false)
    (present : (slots (eraseKind.key entry.item)).isSome) :
    slotAfter (guardedMachine eraseKind front) (eraseKind.key entry.item)
      (slots (eraseKind.key entry.item)) before = slots (eraseKind.key entry.item) := by
  have nodup : (before ++ entry :: after).Nodup :=
    perm.nodup_iff.mpr (List.Nodup.of_map _ nodup_prepare)
  refine slotAfter_of_keeps fun other member same => ?_
  have equal : entry = other := ErasesDiffer.eq_of_key (perm.mem_iff.mp (by simp))
    (perm.mem_iff.mp (by simp [member])) (Eq.symm same) isOpen present differ
  subst equal
  exact absurd (List.mem_append_left _ member) (List.nodup_middle.mp nodup).notMem

theorem fifoPerOwner_erase_iff (grouped : ¬ Ungrouped eraseKind front items) :
    FifoPerOwner eraseKind front items slots ↔ ErasesDiffer front items slots := by
  rw [fifoPerOwner_iff grouped]
  constructor
  · intro fifo
    rw [ErasesDiffer, List.pairwise_iff_getElem]
    intro firstIndex secondIndex firstBound secondBound before sameKey
    by_contra held
    simp only [not_or, Bool.not_eq_true] at held
    have listed (index : Nat) (bound : index < items.length) :
        ⟨items[index], front.shard items[index].key, index⟩ ∈ prepare eraseKind front items :=
      mem_prepare.mpr ⟨List.getElem?_eq_getElem bound, rfl⟩
    obtain ⟨sorted, sortedBy, differs⟩ := not_fifo_of_erased_twice (listed firstIndex firstBound)
      (listed secondIndex secondBound) sameKey held.1 (Option.isSome_iff_ne_none.mpr held.2)
      fun same => Nat.ne_of_lt before (congrArg Prepared.inputIndex same)
    exact differs (fifo sorted sortedBy)
  · intro differ sorted sortedBy
    rw [inOrder_eq, inOrder_eq]
    refine run_eq_run sortedBy.perm (fun key => (agree_erase key _).slotAfter_perm sortedBy.perm)
      fun entry listed => ?_
    obtain ⟨sortedBefore, sortedAfter, sortedSplit, inSorted⟩ :=
      exists_reply slots sortedBy.perm (sortedBy.perm.mem_iff.mpr listed)
    obtain ⟨before, after, split, listedOrder⟩ := exists_reply slots (List.Perm.refl _) listed
    rw [inOrder_eq] at inSorted listedOrder
    refine inSorted.trans (Eq.trans ?_ listedOrder.symm)
    by_cases isOpen : front.closed entry.shard = false
    · by_cases present : (slots (eraseKind.key entry.item)).isSome
      · have orderPerm : (before ++ entry :: after).Perm (prepare eraseKind front items) := by
          rw [← split]
        have sortedPerm : (sortedBefore ++ entry :: sortedAfter).Perm
            (prepare eraseKind front items) := by
          rw [← sortedSplit]
          exact sortedBy.perm
        rw [differ.slotAfter_eq orderPerm isOpen present,
          differ.slotAfter_eq sortedPerm isOpen present]
      · rw [Option.not_isSome_iff_eq_none.mp present, slotAfter_erase_none, slotAfter_erase_none]
    · rw [apply_erase_closed isOpen, apply_erase_closed isOpen]

end Erases

/-- Whatever the sort returns, a batch acts like its items in caller order exactly
when the sort decides nothing, or the puts of a key agree and no present key is
erased twice. -/
theorem batch_fifo_per_owner (front : VolatileFront) (slots : Key → Option StoredValue) :
    (∀ items : List PutItem,
      (∀ sorted, SortedByShard (prepare putKind front items) sorted →
        putBatch front items sorted slots = callerOrder putKind front items slots) ↔
      Ungrouped putKind front items ∨ PutsAgree front items) ∧
    ∀ items : List EraseItem,
      (∀ sorted, SortedByShard (prepare eraseKind front items) sorted →
        eraseBatch front items sorted slots = callerOrder eraseKind front items slots) ↔
      Ungrouped eraseKind front items ∨ ErasesDiffer front items slots := by
  constructor
  · intro items
    by_cases ungrouped : Ungrouped putKind front items
    · exact iff_of_true (fifoPerOwner_of_ungrouped ungrouped) (.inl ungrouped)
    · rw [or_iff_right ungrouped]
      exact fifoPerOwner_put_iff ungrouped
  · intro items
    by_cases ungrouped : Ungrouped eraseKind front items
    · exact iff_of_true (fifoPerOwner_of_ungrouped ungrouped) (.inl ungrouped)
    · rw [or_iff_right ungrouped]
      exact fifoPerOwner_erase_iff ungrouped

/-! ## Two puts of one key -/

def pairedFront : VolatileFront :=
  ⟨2, ⟨.fnv1a64V1, 0⟩, true, false, fun _ => false⟩

def rewrittenItems : List PutItem :=
  [⟨[1], [10], 0, zero_fits8⟩, ⟨[1], [20], 0, zero_fits8⟩, ⟨[2], [30], 0, zero_fits8⟩]

/-- The two entries of the same shard swapped. -/
def swappedItems : List (Prepared PutItem) :=
  [⟨⟨[1], [20], 0, zero_fits8⟩, 0, 1⟩, ⟨⟨[1], [10], 0, zero_fits8⟩, 0, 0⟩,
    ⟨⟨[2], [30], 0, zero_fits8⟩, 1, 2⟩]

theorem swapped_batch_keeps_first_value :
    SortedByShard (prepare putKind pairedFront rewrittenItems) swappedItems ∧
      (putBatch pairedFront rewrittenItems swappedItems fun _ => none).slots [1] =
        some ⟨[10], 0⟩ ∧
      (callerOrder putKind pairedFront rewrittenItems fun _ => none).slots [1] =
        some ⟨[20], 0⟩ := by
  refine ⟨⟨?_, ?_⟩, ?_, ?_⟩
  · exact List.Perm.swap _ _ _
  · simp [swappedItems]
  · rw [putBatch, storeBatch_eq rfl, inOrder_eq, slots_run]
    rfl
  · rfl

end GlifiStore
