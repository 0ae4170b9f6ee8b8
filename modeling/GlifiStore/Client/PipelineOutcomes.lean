import GlifiStore.Client.Outcomes

/-!
# Outcomes of whole calls

The positions of a pipeline are honest one by one: where a response was received it is
kept, and a mutation is failed only when it was not sent or was rejected. Together with the
mutations this says of each call when its report is honest.
-/

namespace GlifiStore.Client

open Server StepProgram

variable {config : ClientConfig} {implementation : Option ClientConfig} {opcode : RequestOpcode}
  {frame : EncodedRequest} {response : ResponseView} {trace events : List ClientEvent}
  {requests : List PipelineRequest} {worker sent : Nat}

/-! ## Positions -/

variable {bytesSent index : Nat} {position : Position} {positions : List Position}
  {responses : List PipelineResponse} {reported : PipelineResponse}

theorem Refused.mono {more : List ClientEvent} (refused : Refused opcode frame events)
    (inside : ∀ response, .decoded response ∈ events → .decoded response ∈ more) :
    Refused opcode frame more := by
  obtain ⟨response, member, id, listed⟩ := refused
  exact ⟨response, inside response member, id, listed⟩

variable {event : ClientEvent}

theorem Refused.cons (refused : Refused opcode frame events) :
    Refused opcode frame (event :: events) :=
  refused.mono fun _ member => List.mem_cons_of_mem _ member

theorem Untrusted.unsettled (untrusted : Untrusted config worker positions events)
    (found : positions[index]? = some position) (came : (received events)[index]? = some response) :
    settles config worker position response = none := by
  cases untrusted with
  | missing positions => exact absurd came (by simp [received])
  | @refused first answer unsettled rest =>
    cases index with
    | zero =>
      obtain rfl := Option.some.inj found
      obtain rfl := Option.some.inj came
      exact unsettled
    | succ index => exact absurd came (by simp [received])
  | guarded breaks positions => cases breaks <;> exact absurd came (by simp [received])

theorem escapes_cons_iff (other : ∀ place, event ≠ .allocationFailed place) :
    Escapes (event :: events) ↔ Escapes events := by
  simp [Escapes, fun place => (other place).symm]

theorem Untrusted.quiet (untrusted : Untrusted config worker positions events) :
    Unsent events ∧ ¬ Escapes events := by
  cases untrusted with
  | missing positions | refused unsettled rest => simp [Unsent, Escapes]
  | guarded breaks positions => cases breaks <;> simp [Unsent, Escapes]

theorem Resolves.quiet (resolves : Resolves config worker bytesSent positions responses events) :
    Unsent events ∧ ¬ Escapes events := by
  induction resolves with
  | finished => simp [Unsent, Escapes]
  | settled outcome value resolves ih => simpa [Unsent, escapes_cons_iff] using ih
  | unresolved untrusted outcomes => exact untrusted.quiet

theorem Interrupts.escapes (interrupts : Interrupts config worker positions events) :
    Unsent events ∧ Escapes events := by
  induction interrupts with
  | settled settled interrupts ih => simpa [Unsent, escapes_cons_iff] using ih
  | unresolved untrusted failed =>
    obtain ⟨unguarded⟩ := failed
    refine ⟨by simpa [Unsent] using untrusted.quiet.1, _, ?_, unguarded⟩
    exact List.mem_append_right _ (List.mem_singleton_self _)

theorem refused_of_settles_failed (mutation : isMutation position.1.opcode)
    (settled : settles config worker position response = some .failed)
    (member : .decoded response ∈ events) :
    Refused (wireOpcode position.1.opcode) position.2 events ∨
      position.1.opcode = .put ∧ Valid config response position.2.requestId worker ∧
        response.status = .notFound := by
  revert settled
  fun_cases settles config worker position response with
  | case5 valid notAccepted known =>
    intro _
    rw [not_not] at valid
    have notInternal : response.status ≠ .internalError := fun internal => known ⟨mutation, internal⟩
    have wire : wireOpcode position.1.opcode = .put ∨ wireOpcode position.1.opcode = .erase := by
      revert mutation
      cases position.1.opcode <;> simp [isMutation, wireOpcode]
    rcases rejects_of_definite wire notAccepted notInternal with listed | ⟨put, notFound⟩
    · exact .inl ⟨response, member, valid.requestId, listed⟩
    · refine .inr ⟨?_, valid, notFound⟩
      revert put
      cases position.1.opcode <;> simp [wireOpcode]
  | _ => nofun

theorem Resolves.failed (resolves : Resolves config worker bytesSent positions responses events)
    (found : positions[index]? = some position) (reports : responses[index]? = some reported)
    (mutation : isMutation position.1.opcode) (outcome : reported.outcome = .failed) :
    bytesSent ≤ position.2.start ∨ Refused (wireOpcode position.1.opcode) position.2 events ∨
      position.1.opcode = .put ∧ ∃ response, (received events)[index]? = some response ∧
        Valid config response position.2.requestId worker ∧ response.status = .notFound := by
  induction resolves generalizing index with
  | finished => exact absurd found (by simp)
  | @settled first answer reply rest later events settled value resolves ih =>
    cases index with
    | zero =>
      obtain rfl := Option.some.inj found
      obtain rfl := Option.some.inj reports
      rw [outcome] at settled
      refine .inr ((refused_of_settles_failed mutation settled List.mem_cons_self).imp id ?_)
      exact fun ⟨put, valid, notFound⟩ => ⟨put, answer, rfl, valid, notFound⟩
    | succ index =>
      refine (ih found reports).imp id (Or.imp (fun refused => refused.cons.cons) ?_)
      exact fun ⟨put, response, came, rest⟩ => ⟨put, response, came, rest⟩
  | @unresolved positions responses events untrusted outcomes =>
    have same := congrArg (fun outcomes => outcomes[index]?) outcomes
    simp only [List.getElem?_map, found, reports, Option.map_some, Option.some.injEq] at same
    rw [outcome, unresolvedOutcome] at same
    refine .inl ?_
    by_contra short
    have arrived : mayHaveArrived bytesSent position := by
      simp only [mayHaveArrived, mutation, Bool.true_and, decide_eq_true_eq]
      omega
    rw [if_pos arrived] at same
    exact absurd same nofun

theorem Resolves.keeps (resolves : Resolves config worker bytesSent positions responses events)
    {outcome : PipelineOutcome} (found : positions[index]? = some position)
    (came : (received events)[index]? = some response)
    (settled : settles config worker position response = some outcome) :
    Keeps (.ok responses) index outcome response := by
  induction resolves generalizing index with
  | finished => exact absurd found (by simp)
  | @settled first answer reply rest later events judged value resolves ih =>
    cases index with
    | zero =>
      obtain rfl := Option.some.inj found
      obtain rfl := Option.some.inj came
      obtain rfl := Option.some.inj (judged.symm.trans settled)
      exact ⟨_, reply, rfl, rfl, rfl, value⟩
    | succ index =>
      obtain ⟨all, reported, same, reports, kept⟩ := ih found came
      obtain rfl := Except.ok.inj same
      exact ⟨_, reported, rfl, reports, kept⟩
  | unresolved untrusted outcomes =>
    exact absurd ((untrusted.unsettled found came).symm.trans settled) nofun

/-! ## Whole pipelines -/

variable {frames : List EncodedRequest} {attempt count : Nat}

section Whole

variable {later : List ClientEvent} {result : Result (List PipelineResponse)}

structure HonestPosition (config : ClientConfig) (worker sent index : Nat) (position : Position)
    (result : Result (List PipelineResponse)) (trace : List ClientEvent) : Prop where
  failed : isMutation position.1.opcode → reportedOutcome result index = some .failed →
    sent ≤ position.2.start ∨ Refused (wireOpcode position.1.opcode) position.2 trace
  kept : ∀ response outcome, (received trace)[index]? = some response →
    settles config worker position response = some outcome → Keeps result index outcome response

theorem getElem?_positions_iff (requested : positions.map Prod.fst = requests) :
    positions[index]? = some position ↔
      requests[index]? = some position.1 ∧ (positions.map Prod.snd)[index]? = some position.2 := by
  subst requested
  rw [List.getElem?_map, List.getElem?_map]
  cases positions[index]? <;> simp [Prod.ext_iff]

theorem sent_of_mem_cons (others : Unsent later) {sentFrames : List EncodedRequest}
    (member : .sent attempt sentFrames count ∈ ClientEvent.sent 0 frames sent :: later) :
    sentFrames = frames ∧ count = sent := by
  rcases List.mem_cons.mp member with same | member
  · exact (ClientEvent.sent.inj same).2
  · exact absurd member (others attempt sentFrames count)

theorem honestPipeline_iff (requested : positions.map Prod.fst = requests) (others : Unsent later) :
    HonestPipeline (some config) requests result
        (.sent 0 (positions.map Prod.snd) sent :: later) ↔
      ∀ index position, positions[index]? = some position →
        HonestPosition config (pipelineWorker config requests) sent index position result
          (.sent 0 (positions.map Prod.snd) sent :: later) := by
  constructor
  · intro honest index position found
    obtain ⟨asked, framed⟩ := (getElem?_positions_iff requested).mp found
    refine ⟨?_, ?_⟩
    · exact honest.failed 0 _ sent List.mem_cons_self index _ _ asked framed
    · exact honest.kept config rfl 0 _ sent List.mem_cons_self index _ _ asked framed
  · intro honest
    refine ⟨?_, ?_⟩
    · intro attempt frames count member index request frame asked framed
      obtain ⟨rfl, rfl⟩ := sent_of_mem_cons others member
      exact (honest index (request, frame)
        ((getElem?_positions_iff requested).mpr ⟨asked, framed⟩)).failed
    · rintro _ same attempt frames count member index request frame asked framed
      obtain rfl := Option.some.inj same
      obtain ⟨rfl, rfl⟩ := sent_of_mem_cons others member
      exact (honest index (request, frame)
        ((getElem?_positions_iff requested).mpr ⟨asked, framed⟩)).kept

theorem losesPipeline_iff (requested : positions.map Prod.fst = requests) (others : Unsent later) :
    LosesPipeline (some config) requests (.sent 0 (positions.map Prod.snd) sent :: later) ↔
      ∃ (index : Nat) (position : Position), positions[index]? = some position ∧
        LosesPosition config (pipelineWorker config requests) position.1 position.2 sent
          (received later)[index]? (.sent 0 (positions.map Prod.snd) sent :: later) := by
  constructor
  · rintro ⟨_, attempt, frames, count, same, member, index, request, frame, asked, framed, loses⟩
    obtain rfl := Option.some.inj same
    obtain ⟨rfl, rfl⟩ := sent_of_mem_cons others member
    exact ⟨index, (request, frame), (getElem?_positions_iff requested).mpr ⟨asked, framed⟩, loses⟩
  · rintro ⟨index, position, found, loses⟩
    obtain ⟨asked, framed⟩ := (getElem?_positions_iff requested).mp found
    exact ⟨config, 0, _, sent, rfl, List.mem_cons_self, index, _, _, asked, framed, loses⟩

theorem honest_of_unsent (none : Unsent trace) :
    HonestPipeline implementation requests result trace ↔
      ¬ LosesPipeline implementation requests trace := by
  refine iff_of_true ⟨?_, ?_⟩ ?_
  · exact fun attempt frames count member => absurd member (none attempt frames count)
  · exact fun _ _ attempt frames count member => absurd member (none attempt frames count)
  · rintro ⟨_, attempt, frames, count, -, member, -⟩
    exact none attempt frames count member

theorem honest_iff_of_positions (requested : positions.map Prod.fst = requests)
    (others : Unsent later)
    (each : ∀ index position, positions[index]? = some position →
      (HonestPosition config (pipelineWorker config requests) sent index position result
          (.sent 0 (positions.map Prod.snd) sent :: later) ↔
        ¬ LosesPosition config (pipelineWorker config requests) position.1 position.2 sent
          (received later)[index]? (.sent 0 (positions.map Prod.snd) sent :: later))) :
    HonestPipeline (some config) requests result
        (sendEvents 0 (positions.map Prod.snd) sent ++ later) ↔
      ¬ LosesPipeline (some config) requests
        (sendEvents 0 (positions.map Prod.snd) sent ++ later) := by
  by_cases none : sent = 0
  · rw [sendEvents, if_pos none]
    exact honest_of_unsent others
  rw [sendEvents, if_neg none, List.singleton_append, honestPipeline_iff requested others, losesPipeline_iff requested others]
  constructor
  · rintro honest ⟨index, position, found, loses⟩
    exact (each index position found).mp (honest index position found) loses
  · intro kept index position found
    exact (each index position found).mpr fun loses => kept ⟨index, position, found, loses⟩

theorem Executes.honest_iff (executes : Executes config requests result trace) :
    HonestPipeline (some config) requests result trace ↔
      ¬ LosesPipeline (some config) requests trace := by
  cases executes with
  | refused error => exact honest_of_unsent (by simp [Unsent])
  | @exchanged positions responses later sent requested resolves =>
    refine honest_iff_of_positions requested resolves.quiet.1 fun index position found => ?_
    have stays : ¬ Escapes (.sent 0 (positions.map Prod.snd) sent :: later) := by
      simpa [escapes_cons_iff] using resolves.quiet.2
    constructor
    · rintro honest (⟨escapes, -⟩ | ⟨put, arrived, unanswered, response, came, valid, notFound⟩)
      · exact stays escapes
      · have settled : settles config (pipelineWorker config requests) position response =
            some .failed := by
          simp [settles, valid, notFound]
        obtain ⟨_, reported, same, reports, outcome, -⟩ := honest.kept response _ came settled
        obtain rfl := Except.ok.inj same
        have failed : reportedOutcome (.ok responses) index = some .failed := by
          rw [reportedOutcome, reports, Option.map_some, outcome]
        rcases honest.failed (by rw [put]; rfl) failed with short | refused
        · omega
        · rw [put] at refused
          exact unanswered refused
    · intro kept
      refine ⟨fun mutation failed => ?_, fun response outcome came settled => ?_⟩
      · obtain ⟨reported, reports, outcome⟩ := Option.map_eq_some_iff.mp failed
        rcases resolves.failed found reports mutation outcome with
          short | refused | ⟨put, response, came, valid, notFound⟩
        · exact .inl short
        · exact .inr refused.cons
        · -- A `NOT_FOUND` for a `PUT`: it is lost unless another response rejects the request.
          by_contra dishonest
          rw [not_or, Nat.not_le] at dishonest
          refine kept (.inr ⟨put, dishonest.1, ?_, response, came, valid, notFound⟩)
          rw [put] at dishonest
          exact dishonest.2
      · exact resolves.keeps found came settled

theorem Aborts.honest_iff {error : Error} (aborts : Aborts config requests trace) :
    HonestPipeline (some config) requests (.error error) trace ↔
      ¬ LosesPipeline (some config) requests trace := by
  cases aborts with
  | unsent failed => exact honest_of_unsent failed.unsent
  | @exchanged positions later sent requested interrupts =>
    refine honest_iff_of_positions requested interrupts.escapes.1 fun index position found => ?_
    have escapes : Escapes (.sent 0 (positions.map Prod.snd) sent :: later) := by
      simpa [escapes_cons_iff] using interrupts.escapes.2
    have discarded {response : ResponseView} {outcome : PipelineOutcome} :
        ¬ Keeps (.error error) index outcome response := by
      rintro ⟨_, _, same, -⟩
      cases same
    constructor
    · rintro honest (⟨-, ⟨mutation, arrived, unanswered⟩ | ⟨response, outcome, came, settled⟩⟩ |
        ⟨put, arrived, unanswered, response, came, valid, notFound⟩)
      · exact (honest.failed mutation rfl).elim (by omega) unanswered
      · exact discarded (honest.kept response outcome came settled)
      · have settled : settles config (pipelineWorker config requests) position response =
            some .failed := by
          simp [settles, valid, notFound]
        exact discarded (honest.kept response _ came settled)
    · intro kept
      refine ⟨fun mutation _ => ?_, fun response outcome came settled => ?_⟩
      · by_contra dishonest
        rw [not_or, Nat.not_le] at dishonest
        exact kept (.inl ⟨escapes, .inl ⟨mutation, dishonest⟩⟩)
      · exact absurd (.inl ⟨escapes, .inr ⟨response, outcome, came, settled⟩⟩) kept

theorem ExecutesCall.honest_iff (executes : ExecutesCall implementation requests result trace) :
    HonestPipeline implementation requests result trace ↔
      ¬ LosesPipeline implementation requests trace := by
  cases executes with
  | whole found executes =>
    subst found
    exact executes.honest_iff
  | unsent error nothing =>
    refine honest_of_unsent ?_
    rcases nothing with rfl | thrown
    · simp [Unsent]
    · exact thrown.unsent
  | aborted error found aborts =>
    subst found
    exact aborts.honest_iff

end Whole

/-! ## Calls -/

theorem sentOnce_cons (others : Unsent events) :
    SentOnce (.sent attempt frames count :: events) := by
  have only {a : Nat} {fs : List EncodedRequest} {c : Nat}
      (member : .sent a fs c ∈ ClientEvent.sent attempt frames count :: events) : a = attempt := by
    rcases List.mem_cons.mp member with same | member
    · exact (ClientEvent.sent.inj same).1
    · exact absurd member (others a fs c)
  intro first _ _ second _ _ one other
  rw [only one, only other]

theorem sentOnce_of_none (none : Unsent events) : SentOnce events :=
  fun first _ _ _ _ _ member => absurd member (none first _ _)

variable {outcome : MutationOutcome}

theorem Reports.sentOnce (reports : Reports config worker outcome events) :
    SentOnce events := by
  cases reports with
  | unsent => exact sentOnce_of_none (by simp [Unsent])
  | unanswered attempt starts some | answered attempt starts some response =>
    exact sentOnce_cons (by simp [Unsent])

theorem Breaks.sentOnce (breaks : Breaks events) {later : List ClientEvent}
    (others : Unsent later) : SentOnce (events ++ later) := by
  cases breaks with
  | unsent failed =>
    cases failed
    exact sentOnce_of_none (by simpa [Unsent] using others)
  | unanswered attempt starts some failed | answered attempt starts some response failed =>
    cases failed
    exact sentOnce_cons (by simpa [Unsent] using others)
  | copying attempt starts some response failed =>
    cases failed
    exact sentOnce_cons (by simpa [Unsent] using others)

theorem Mutates.sentOnce {key : Key} (mutates : Mutates implementation key outcome events) :
    SentOnce events := by
  cases mutates with
  | whole found reports => exact reports.sentOnce
  | movedFrom => exact sentOnce_of_none (by simp [Unsent])
  | broken breaks =>
    have once : SentOnce (events ++ []) := breaks.sentOnce (by simp [Unsent])
    rwa [List.append_nil] at once

theorem guardedMutate_decides {key value : Bytes} {expireAtNs : UInt64} {options : RequestOptions}
    {world : ClientWorld} (mutation : opcode = .put ∨ opcode = .erase) (fresh : world.trace = []) :
    let run := guardedMutate implementation opcode key value expireAtNs options world
    SentOnce run.left.trace ∧ ∀ result, run.result = .ok result →
      (HonestMutation opcode result.outcome run.left.trace ↔
        ¬ LosesMutation implementation opcode key run.left.trace) := by
  intro run
  have emits := @emits_guardedMutate opcode key value expireAtNs options implementation
  refine ⟨?_, fun result ended => (emits.left fresh ended).honest_iff mutation⟩
  cases ended : run.result with
  | ok result => exact (emits.left fresh ended).sentOnce
  | error error =>
    obtain ⟨_, grew, before, breaks, rfl⟩ := (emits world).failed error ended
    rw [grew, fresh, List.nil_append]
    exact breaks.sentOnce (by simp [Unsent])

def ClientWorld.fresh (world : ClientWorld) : ClientWorld := { world with trace := [] }

def oneWorker : ClientConfig where
  maximumFrameBytes := kMaxFrameBytes
  maximumPipelineRequests := 16
  maximumPipelineBytes := 1024 * 1024
  requestTimeoutMs := 5000
  workerCount := 1
  routingEpoch := 1
  routing := ⟨.fnv1a64V1, 0⟩

def okResponse : ResponseView :=
  { requestId := 1, ownerWorker := 0, workerCount := 1, routingEpoch := 1 }

/-- The transport takes everything and delivers the answer to the first request. -/
def answering (allocations : List Bool) : ClientWorld :=
  { allocations, sends := [.accepted 1000], receives := [.data (encodeResponse okResponse)] }

def twoPuts : List PipelineRequest :=
  [{ opcode := .put, key := [7], value := [9] }, { opcode := .put, key := [8], value := [9] }]

/-- The reports of `put`, `erase` and `execute_pipeline` are honest exactly when no outcome
is lost, and mutations send bytes in one attempt at most. -/
theorem reports_honest_iff (implementation : Option ClientConfig) (world : ClientWorld) :
    (∀ key value expireAtNs options,
      let run := put implementation key value expireAtNs options world.fresh
      SentOnce run.left.trace ∧ ∀ result, run.result = .ok result →
        (HonestMutation .put result.outcome run.left.trace ↔
          ¬ LosesMutation implementation .put key run.left.trace)) ∧
    (∀ key options,
      let run := erase implementation key options world.fresh
      SentOnce run.left.trace ∧ ∀ result, run.result = .ok result →
        (HonestMutation .erase result.outcome run.left.trace ↔
          ¬ LosesMutation implementation .erase key run.left.trace)) ∧
    ∀ requests options,
      let run := executePipeline implementation requests options world.fresh
      ∀ result, run.result = .ok result →
        (HonestPipeline implementation requests result run.left.trace ↔
          ¬ LosesPipeline implementation requests run.left.trace) := by
  refine ⟨?_, ?_, ?_⟩
  · intro key value expireAtNs options
    exact guardedMutate_decides (.inl rfl) rfl
  · intro key options
    exact guardedMutate_decides (.inr rfl) rfl
  · intro requests options run result ended
    exact (emits_executePipeline.left rfl ended).honest_iff

/-- The input of a pipeline cannot grow after both `PUT`s were sent. -/
theorem reports_honest_iff_guarded :
    let run := executePipeline (some oneWorker) twoPuts {} (answering [true, true, false]).fresh
    run.left.trace =
        [.sent 0 [⟨1, 0, 42⟩, ⟨2, 42, 42⟩] 84, .allocationFailed .pipelineResponse] ∧
      ∃ responses, run.result = .ok (.ok responses) ∧
        responses.map PipelineResponse.outcome = [.indeterminate, .indeterminate] ∧
          HonestPipeline (some oneWorker) twoPuts (.ok responses) run.left.trace := by
  intro run
  have traced : run.left.trace =
      [.sent 0 [⟨1, 0, 42⟩, ⟨2, 42, 42⟩] 84, .allocationFailed .pipelineResponse] := by
    decide +kernel
  have outcomes : run.result.map (Except.map (List.map PipelineResponse.outcome)) =
      .ok (.ok [.indeterminate, .indeterminate]) := by
    decide +kernel
  refine ⟨traced, ?_⟩
  rcases ended : run.result with _ | _ | responses <;> rw [ended] at outcomes
  · cases outcomes
  · cases outcomes
  · refine ⟨responses, rfl, Except.ok.inj (Except.ok.inj outcomes), ?_⟩
    refine ((reports_honest_iff (some oneWorker) (answering [true, true, false])).2.2 twoPuts {}
      _ ended).mpr ?_
    change ¬ LosesPipeline _ _ run.left.trace
    simp [traced, LosesPipeline, LosesPosition, Escapes, received]

/-- The frame of the response cannot be allocated after the whole `PUT` was sent, and the
error of the second position after the first `PUT` of a pipeline was answered. -/
theorem outcomes_lost_after_send :
    (let run := put (some oneWorker) [7] [9] 0 {} (answering [true, false]).fresh
      ∃ result, run.result = .ok result ∧ ¬ HonestMutation .put result.outcome run.left.trace) ∧
    let run := executePipeline (some oneWorker) twoPuts {}
      (answering [true, true, true, true, false]).fresh
    ∃ result, run.result = .ok result ∧
      ¬ HonestPipeline (some oneWorker) twoPuts result run.left.trace := by
  constructor
  · intro run
    have ended : run.result =
        .ok ⟨.rejected, some
          { code := .resourceExhausted
            message := "client allocation failed"
            mutationOutcome := some .rejected }⟩ := by
      decide +kernel
    have traced : run.left.trace = [.sent 0 [⟨1, 0, 42⟩] 42, .allocationFailed .response] := by
      decide +kernel
    refine ⟨_, ended, ?_⟩
    rw [traced, honest_rejected_iff (by simp [Unsent]) rfl (by decide)]
    simp [Refused]
  · intro run
    have ended : run.result =
        .ok (.error ⟨.resourceExhausted, "pipeline allocation failed before completion"⟩) := by
      decide +kernel
    have traced : run.left.trace =
        [.sent 0 [⟨1, 0, 42⟩, ⟨2, 42, 42⟩] 84, .decoded okResponse, .received okResponse,
          .allocationFailed .report] := by
      decide +kernel
    refine ⟨_, ended, fun honest => ?_⟩
    have kept := honest.kept oneWorker rfl 0 [⟨1, 0, 42⟩, ⟨2, 42, 42⟩] 84
      (by rw [traced]; exact List.mem_cons_self) 0 _ _ rfl rfl okResponse .succeeded
      (by rw [traced]; rfl) (by decide +kernel)
    obtain ⟨_, _, same, -⟩ := kept
    cases same

end GlifiStore.Client
