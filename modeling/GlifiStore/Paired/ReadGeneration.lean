import GlifiStore.Paired.DeltaPublication

/-!
# Read generations

A generation is an immutable base with a delta over it. The writer of a lane
publishes a new generation with every batch of mutations, merges the delta into
a new base in quanta while it goes on publishing, and replaces everything by a
durable snapshot. `ReadLane` holds what these operations work on; the hash is
the routing hash of the lane's keys.
-/

namespace GlifiStore

open ByteLayout OpenAddressing ReadTable CopyOnWrite

def kMaximumIncrementalDeltaEntries : Nat := 40960

def kMaximumEpoch : Nat := kUInt64Max / 2 ^ 16

structure PairReadGeneration where
  base : ImmutableReadIndex
  delta : DeltaState
  epoch : Nat
  visibleThrough : Nat

/-- A mutation that the Store has already taken. -/
structure ReadMutation where
  key : Key
  record : RecordRef
  segment : Option GenerationPin := none
  durable : Option PublishedReadRecord := none
  opcode : Opcode := .put
  deriving DecidableEq, Repr

section

variable (hash : Key → UInt64)

def ReadMutation.view (mutation : ReadMutation) : ReadRecordView where
  hash := hash mutation.key
  key := mutation.key
  record := mutation.record
  segment := mutation.segment
  durable := mutation.durable.map PublishedReadRecord.pin
  opcode := mutation.opcode

/-! ## Lookups -/

/-- The record a reader of a generation finds for a key, which `get` and
`prepare_durable` start from. -/
def PairReadGeneration.lookup (generation : PairReadGeneration) (heap : DeltaHeap) (key : Key) :
    Option ReadRecordView :=
  match generation.delta.find heap (hash key) key with
  | some record =>
    if record.opcode = .erase then none else some (record.view (hash key))
  | none =>
    match generation.base.find (hash key) key with
    | none => none
    | some record => if record.opcode = .erase then none else some record.view

def ImmutableReadIndex.prepareDurable (index : ImmutableReadIndex) (key : Key) :
    Result ReadRecordView :=
  match index.find (hash key) key with
  | none => fail .notFound "key not found"
  | some record =>
    if record.opcode = .erase then
      fail .notFound "key not found"
    else if record.durable = false ∨ ¬ record.pin.any (·.matches record.record) then
      fail .invalidReference "durable read generation has no exact file-generation pin"
    else
      .ok record.view

def PairReadGeneration.prepareDurable (generation : PairReadGeneration) (heap : DeltaHeap)
    (key : Key) : Result ReadRecordView :=
  match generation.delta.find heap (hash key) key with
  | none => generation.base.prepareDurable hash key
  | some deltaRecord =>
    let record := deltaRecord.view (hash key)
    if record.opcode = .erase then
      fail .notFound "key not found"
    else if record.hash ≠ hash key ∨ record.key ≠ key ∨
        ¬ record.durable.any (·.matches record.record) then
      fail .invalidReference "durable read generation has no exact file-generation pin"
    else
      .ok record

end

/-! ## Merges -/

structure IncrementalBaseBuilder where
  index : ImmutableReadIndex
  initializedSlots : Nat := 0

/-- `initialize_next`, with the slots it has processed. -/
def IncrementalBaseBuilder.initializeNext (builder : IncrementalBaseBuilder)
    (maximumSlots : Nat) : Nat × IncrementalBaseBuilder :=
  let count := min maximumSlots (builder.index.capacity - builder.initializedSlots)
  (count,
    { index := builder.index.initializeControlSlots builder.initializedSlots count
      initializedSlots := builder.initializedSlots + count })

inductive MergePhase where
  | initializing
  | base
  | delta
  | ready
  deriving DecidableEq, Repr

/-- `PairReadMerge::State`. `current` is the number of the generation published
last with this merge; the new base is gone once the merge has finished. -/
structure PairReadMerge where
  cut : PairReadGeneration
  current : Nat
  builder : Option IncrementalBaseBuilder
  postDelta : DeltaState
  maximumPostEntries : Nat
  baseCursor : Nat := 0
  deltaCursor : Nat := 0
  phase : MergePhase := .initializing

/-- One turn of the loop in `advance_incremental_merge`: the loop ends, or it goes
on with a changed merge, or an append has thrown. -/
inductive MergeTurn where
  | done
  | next (merge : PairReadMerge) (processed : Nat)
  | thrown (merge : PairReadMerge)

namespace PairReadMerge

variable (merge : PairReadMerge) (heap : DeltaHeap)

/-- `insert` on the new base, after the cursor has moved. -/
def insert (builder : IncrementalBaseBuilder) (processed : Nat)
    (record : ReadRecordView) : MergeTurn :=
  match builder.index.append record with
  | some index => .next { merge with builder := some { builder with index := index } } processed
  | none => .thrown merge

def baseTurn (builder : IncrementalBaseBuilder) (maximumSlots processed : Nat) : MergeTurn :=
  if merge.baseCursor = merge.cut.base.capacity then
    .next { merge with phase := .delta } processed
  else if processed = maximumSlots then
    .done
  else
    let advanced := { merge with baseCursor := merge.baseCursor + 1 }
    match merge.cut.base.recordAt merge.baseCursor with
    | none => .next advanced (processed + 1)
    | some record =>
      match merge.cut.delta.find heap record.hash record.key with
      | none => advanced.insert builder (processed + 1) record
      | some override =>
        if override.opcode = .put then
          advanced.insert builder (processed + 1) (override.view record.hash)
        else
          .next advanced (processed + 1)

def deltaTurn (builder : IncrementalBaseBuilder) (maximumSlots processed : Nat) : MergeTurn :=
  if merge.deltaCursor = merge.cut.delta.capacity then
    .next { merge with phase := .ready } processed
  else if processed = maximumSlots then
    .done
  else
    let advanced := { merge with deltaCursor := merge.deltaCursor + 1 }
    match merge.cut.delta.recordAt heap merge.deltaCursor with
    | none => .next advanced (processed + 1)
    | some record =>
      if record.opcode = .erase then
        .next advanced (processed + 1)
      else if (builder.index.find record.hash record.key).isSome then
        .next advanced (processed + 1)
      else
        advanced.insert builder (processed + 1) record

/-- The body of the loop. A merge without a builder is ready. -/
def turn (maximumSlots processed : Nat) : MergeTurn :=
  match merge.builder with
  | none => .done
  | some builder =>
    match merge.phase with
    | .ready => .done
    | .initializing =>
      if builder.initializedSlots = builder.index.capacity then
        .next { merge with phase := .base } processed
      else if processed = maximumSlots then
        .done
      else
        let (count, initialized) := builder.initializeNext (maximumSlots - processed)
        .next { merge with builder := some initialized } (processed + count)
    | .base => merge.baseTurn heap builder maximumSlots processed
    | .delta => merge.deltaTurn heap builder maximumSlots processed

/-- The loop. Every turn changes the phase or processes a slot, so
`maximumSlots + 4` turns are enough. -/
def turns (maximumSlots : Nat) : Nat → PairReadMerge → Nat → PairReadMerge × Result Nat
  | 0, merge, processed => (merge, .ok processed)
  | fuel + 1, merge, processed =>
    match merge.turn heap maximumSlots processed with
    | .done => (merge, .ok processed)
    | .next merge processed => turns maximumSlots fuel merge processed
    | .thrown merge =>
      (merge, fail .resourceExhausted "incremental read merge quantum allocation failed")

def advance (maximumSlots : Nat) : PairReadMerge × Result Nat :=
  if maximumSlots = 0 then
    (merge, fail .invalidArgument "invalid incremental read merge quantum")
  else
    turns heap maximumSlots (maximumSlots + 4) merge 0

end PairReadMerge

/-- `start_incremental_merge` on the generation with this number. -/
def startIncrementalMerge (heap : DeltaHeap) (cut : PairReadGeneration) (number : Nat)
    (maximumPostEntries : Nat) (raw : RawStorage) : DeltaHeap × Result PairReadMerge :=
  if maximumPostEntries = 0 ∨ cut.delta.size = 0 ∨ cut.delta.size > cut.delta.maximumEntries then
    (heap, fail .invalidArgument "invalid incremental read merge boundary")
  else if cut.base.size > kSizeMax - cut.delta.size then
    (heap, fail .arithmeticOverflow "incremental read merge size overflows size_t")
  else
    match ImmutableReadIndex.initializeTable (cut.base.size + cut.delta.size) false raw with
    | none => (heap, fail .resourceExhausted "incremental read merge allocation failed")
    | some index =>
      match makeEmptyDelta heap cut.delta.maximumEntries with
      | none => (heap, fail .resourceExhausted "incremental read merge allocation failed")
      | some (postDelta, heap) =>
        (heap, .ok
          { cut := cut
            current := number
            builder := some { index := index }
            postDelta := postDelta
            maximumPostEntries :=
              min maximumPostEntries (cut.delta.maximumEntries - cut.delta.size) })

/-- `finish_incremental_merge` on the generation with this number. -/
def finishIncrementalMerge (current : PairReadGeneration) (number : Nat) (merge : PairReadMerge) :
    Result PairReadGeneration :=
  match merge.builder with
  | none => fail .invalidArgument "incremental read merge is not ready"
  | some builder =>
    if merge.current ≠ number ∨ merge.phase ≠ .ready then
      fail .invalidArgument "incremental read merge is not ready"
    else if current.epoch = kUInt64Max then
      fail .arithmeticOverflow "read generation epoch exhausted"
    else
      .ok
        { base := builder.index
          delta := merge.postDelta
          epoch := current.epoch + 1
          visibleThrough := current.visibleThrough }

/-! ## Publications -/

def canPublishIncremental (heap : DeltaHeap) (current : PairReadGeneration)
    (merge : Option PairReadMerge) (maximumNewEntries : Nat) : Bool :=
  let delta := current.delta
  if delta.size > delta.maximumEntries ∨
      maximumNewEntries > delta.maximumEntries - delta.size ∨
      maximumNewEntries > delta.availableRecordVersions heap then
    false
  else
    match merge with
    | none => true
    | some merge =>
      merge.postDelta.size ≤ merge.maximumPostEntries &&
        maximumNewEntries ≤ merge.maximumPostEntries - merge.postDelta.size &&
        maximumNewEntries ≤ merge.postDelta.availableRecordVersions heap

structure Publication where
  heap : DeltaHeap
  current : DeltaBuilder
  post : Option DeltaBuilder
  visibleThrough : Nat

namespace Publication

variable (hash : Key → UInt64)

def badAlloc {α : Type} : Result α :=
  fail .resourceExhausted "incremental read publication allocation failed"

def checkMutation (mutation : ReadMutation) : Status :=
  let durablePut := mutation.opcode = .put ∧ mutation.durable.isSome
  if mutation.opcode = .put ∧ ¬ durablePut ∧ ¬ sameSegment mutation.segment mutation.record then
    fail .invalidReference "publication rejected a RecordRef without its exact Segment pin"
  else if durablePut ∧ mutation.durable.any fun durable =>
      durable.keyHash ≠ hash mutation.key ∨ durable.key ≠ mutation.key ∨
        durable.reference ≠ mutation.record then
    fail .invalidReference "durable publication record disagrees with its exact generation pin"
  else
    .ok ()

def preparePost (post : Option DeltaBuilder) (heap : DeltaHeap) (key : Key) :
    Option (Option (PreparedSlot × DeltaBuilder) × DeltaHeap) :=
  match post with
  | none => some (none, heap)
  | some builder =>
    (builder.prepare heap (hash key) key).map fun (prepared, heap, builder) =>
      (some (prepared, builder), heap)

def commitPost (post : Option (PreparedSlot × DeltaBuilder)) (heap : DeltaHeap) (record : Nat) :
    DeltaHeap × Option DeltaBuilder :=
  match post with
  | none => (heap, none)
  | some (prepared, builder) =>
    let (heap, builder) := builder.commit heap prepared record
    (heap, some builder)

/-- One mutation. What a failed mutation leaves in the heap stays there. -/
def stage (publication : Publication) (mutation : ReadMutation) : Publication × Status :=
  match checkMutation hash mutation with
  | .error error => (publication, .error error)
  | .ok () =>
    match publication.current.prepare publication.heap (hash mutation.key) mutation.key with
    | none => (publication, badAlloc)
    | some (currentSlot, heap, current) =>
      match preparePost hash publication.post heap mutation.key with
      | none => ({ publication with heap := heap, current := current }, badAlloc)
      | some (post, heap) =>
        match heap.store current.allocationArena (mutation.view hash) with
        | none =>
          ({ publication with heap := heap, current := current, post := post.map (·.2) }, badAlloc)
        | some (stored, heap) =>
          let (heap, current) := current.commit heap currentSlot stored
          let (heap, post) := commitPost post heap stored
          ({ heap := heap
             current := current
             post := post
             visibleThrough := max publication.visibleThrough mutation.record.sequence },
            .ok ())

def stageAll : Publication → List ReadMutation → Publication × Status
  | publication, [] => (publication, .ok ())
  | publication, mutation :: rest =>
    match publication.stage hash mutation with
    | (next, .ok ()) => stageAll next rest
    | (next, .error error) => (next, .error error)

/-- The builders at the start of a publication; `none` is the exception of a third
arena. -/
def start (heap : DeltaHeap) (previous : PairReadGeneration) (merge : Option PairReadMerge) :
    Option Publication :=
  match merge with
  | none =>
    (DeltaBuilder.start previous.delta none).map fun current =>
      { heap := heap
        current := current
        post := none
        visibleThrough := previous.visibleThrough }
  | some merge =>
    match DeltaBuilder.start merge.postDelta none with
    | none => none
    | some post =>
      (DeltaBuilder.start previous.delta (some post.allocationArena)).map fun current =>
        { heap := heap
          current := current
          post := some post
          visibleThrough := previous.visibleThrough }

end Publication

/-- The result of a publication: nothing new for an empty batch, else the next
generation and the delta its merge goes on with. -/
abbrev Published := Option (PairReadGeneration × Option DeltaState)

/-- `publish_incremental` after the generation with this number. -/
def publishIncremental (hash : Key → UInt64) (heap : DeltaHeap) (previous : PairReadGeneration)
    (number : Nat) (mutations : List ReadMutation) (merge : Option PairReadMerge) :
    DeltaHeap × Result Published :=
  if mutations.length > kMaximumPublicationBatch ∨ merge.any (·.current ≠ number) then
    (heap, fail .invalidArgument "invalid incremental read publication")
  else if mutations = [] then
    (heap, .ok none)
  else if previous.epoch ≥ kMaximumEpoch then
    (heap, fail .arithmeticOverflow "read generation epoch exhausted")
  else if canPublishIncremental heap previous merge mutations.length = false then
    (heap, fail .resourceExhausted "incremental read delta capacity exhausted")
  else
    match Publication.start heap previous merge with
    | none => (heap, fail .internalError "incremental read publication failed")
    | some publication =>
      match publication.stageAll hash mutations with
      | (final, .error error) => (final.heap, .error error)
      | (final, .ok ()) =>
        (final.heap, .ok (some
          ({ base := previous.base
             delta := final.current.freeze
             epoch := previous.epoch + 1
             visibleThrough := final.visibleThrough },
            final.post.map DeltaBuilder.freeze)))

/-! ## Snapshots -/

def buildDurableSnapshot (heap : DeltaHeap) (records : List PublishedReadRecord) (raw : RawStorage)
    (epoch visibleFloor : Nat) : DeltaHeap × Result PairReadGeneration :=
  let visibleThrough :=
    records.foldl (fun visible record => max visible record.reference.sequence) visibleFloor
  match ImmutableReadIndex.ofSnapshot records raw with
  | none => (heap, fail .resourceExhausted "durable read generation allocation failed")
  | some base =>
    match makeEmptyDelta heap kMaximumIncrementalDeltaEntries with
    | none => (heap, fail .resourceExhausted "durable read generation allocation failed")
    | some (delta, heap) =>
      (heap, .ok { base := base, delta := delta, epoch := epoch, visibleThrough := visibleThrough })

def replaceDurableSnapshot (heap : DeltaHeap) (previous : PairReadGeneration)
    (records : List PublishedReadRecord) (raw : RawStorage) :
    DeltaHeap × Result PairReadGeneration :=
  if previous.epoch = kUInt64Max then
    (heap, fail .arithmeticOverflow "read generation epoch exhausted")
  else
    buildDurableSnapshot heap records raw (previous.epoch + 1) previous.visibleThrough

/-! ## The lane -/

/-- The generations of a lane, oldest first with the newest apart, and its merge.
A generation's number is the number of generations before it. -/
structure ReadLane where
  heap : DeltaHeap
  earlier : List PairReadGeneration
  newest : PairReadGeneration
  merge : Option PairReadMerge

inductive LaneAction where
  /-- `publish_incremental`, with the merge of the lane or without. -/
  | publish (mutations : List ReadMutation) (withMerge : Bool)
  | startMerge (maximumPostEntries : Nat) (raw : RawStorage)
  | advanceMerge (maximumSlots : Nat)
  | finishMerge
  | replaceSnapshot (records : List PublishedReadRecord) (raw : RawStorage)
  /-- The writer gives its merge up, after an error or a new snapshot. -/
  | dropMerge

namespace ReadLane

variable (hash : Key → UInt64)

def number (lane : ReadLane) : Nat :=
  lane.earlier.length

def install (lane : ReadLane) (next : PairReadGeneration) : ReadLane :=
  { lane with earlier := lane.earlier ++ [lane.newest], newest := next }

def publish (lane : ReadLane) (mutations : List ReadMutation) (withMerge : Bool) :
    ReadLane × Status :=
  let merge := if withMerge then lane.merge else none
  match publishIncremental hash lane.heap lane.newest lane.number mutations merge with
  | (heap, .error error) => ({ lane with heap := heap }, .error error)
  | (heap, .ok none) => ({ lane with heap := heap }, .ok ())
  | (heap, .ok (some (next, post))) =>
    let published := { lane with heap := heap }.install next
    match merge, post with
    | some merge, some post =>
      ({ published with
          merge := some { merge with postDelta := post, current := published.number } },
        .ok ())
    | _, _ => (published, .ok ())

def step (lane : ReadLane) : LaneAction → ReadLane × Status
  | .publish mutations withMerge => lane.publish hash mutations withMerge
  | .startMerge maximumPostEntries raw =>
    match startIncrementalMerge lane.heap lane.newest lane.number maximumPostEntries raw with
    | (heap, .error error) => ({ lane with heap := heap }, .error error)
    | (heap, .ok merge) => ({ lane with heap := heap, merge := some merge }, .ok ())
  | .advanceMerge maximumSlots =>
    match lane.merge with
    | none => (lane, fail .invalidArgument "invalid incremental read merge quantum")
    | some merge =>
      match merge.advance lane.heap maximumSlots with
      | (merge, .error error) => ({ lane with merge := some merge }, .error error)
      | (merge, .ok _) => ({ lane with merge := some merge }, .ok ())
  | .finishMerge =>
    match lane.merge with
    | none => (lane, fail .invalidArgument "incremental read merge is not ready")
    | some merge =>
      match finishIncrementalMerge lane.newest lane.number merge with
      | .error error => (lane, .error error)
      | .ok next =>
        ({ lane.install next with merge := some { merge with builder := none } }, .ok ())
  | .replaceSnapshot records raw =>
    match replaceDurableSnapshot lane.heap lane.newest records raw with
    | (heap, .error error) => ({ lane with heap := heap }, .error error)
    | (heap, .ok next) => ({ lane with heap := heap }.install next, .ok ())
  | .dropMerge => ({ lane with merge := none }, .ok ())

end ReadLane

/-- `from_durable_snapshot`, and `empty` for no records, as the first generation
of a lane. -/
def openReadLane (records : List PublishedReadRecord) (raw : RawStorage) : Result ReadLane :=
  match buildDurableSnapshot {} records raw 0 0 with
  | (_, .error error) => .error error
  | (heap, .ok generation) =>
    .ok { heap := heap, earlier := [], newest := generation, merge := none }

end GlifiStore
