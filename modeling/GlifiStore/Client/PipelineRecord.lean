import GlifiStore.Client.MutateRecord
import GlifiStore.Client.Pipeline

/-!
# What a pipeline records

Each position of a pipeline takes one response, until one is missing or not trusted; the
positions from there on are unresolved. An allocation that fails outside of the guarded
receive ends the call with the record as it is.
-/

namespace GlifiStore.Client

open Server StepProgram

variable {config : ClientConfig} {worker bytesSent : Nat} {position : Position}
  {positions rest : List Position} {response : ResponseView} {events : List ClientEvent}

/-- The outcome that a response gives its position; none when it is not trusted. -/
def settles (config : ClientConfig) (worker : Nat) (position : Position)
    (response : ResponseView) : Option PipelineOutcome :=
  if ¬ Valid config response position.2.requestId worker then none
  else if response.status = .ok then
    if isMutation position.1.opcode ∧ response.value ≠ [] then none else some .succeeded
  else if isMutation position.1.opcode ∧ response.status = .internalError then
    some .indeterminate
  else some .failed

def unresolvedOutcome (bytesSent : Nat) (position : Position) : PipelineOutcome :=
  if mayHaveArrived bytesSent position then .indeterminate else .failed

/-- Why the first position has no trusted response. -/
inductive Untrusted (config : ClientConfig) (worker : Nat) :
    List Position → List ClientEvent → Prop where
  | missing (positions : List Position) : Untrusted config worker positions []
  | refused {position : Position} {response : ResponseView}
      (unsettled : settles config worker position response = none) (rest : List Position) :
      Untrusted config worker (position :: rest) [.decoded response, .received response]
  | guarded {events : List ClientEvent} (breaks : BreaksOff .pipelineResponse events)
      (positions : List Position) : Untrusted config worker positions events

/-- The record of a receiving loop that ends, with the responses that it reports. -/
inductive Resolves (config : ClientConfig) (worker bytesSent : Nat) :
    List Position → List PipelineResponse → List ClientEvent → Prop where
  | finished : Resolves config worker bytesSent [] [] []
  | settled {position : Position} {response : ResponseView} {reported : PipelineResponse}
      {rest : List Position} {later : List PipelineResponse} {events : List ClientEvent}
      (outcome : settles config worker position response = some reported.outcome)
      (value : reported.outcome = .succeeded → reported.value = response.value)
      (resolves : Resolves config worker bytesSent rest later events) :
      Resolves config worker bytesSent (position :: rest) (reported :: later)
        (.decoded response :: .received response :: events)
  | unresolved {positions : List Position} {responses : List PipelineResponse}
      {events : List ClientEvent} (untrusted : Untrusted config worker positions events)
      (outcomes : responses.map PipelineResponse.outcome =
        positions.map (unresolvedOutcome bytesSent)) :
      Resolves config worker bytesSent positions responses events

/-- The record of a receiving loop in which an allocation fails. -/
inductive Interrupts (config : ClientConfig) (worker : Nat) :
    List Position → List ClientEvent → Prop where
  | settled {position : Position} {response : ResponseView} {outcome : PipelineOutcome}
      {rest : List Position} {events : List ClientEvent}
      (settled : settles config worker position response = some outcome)
      (interrupts : Interrupts config worker rest events) :
      Interrupts config worker (position :: rest)
        (.decoded response :: .received response :: events)
  | unresolved {positions : List Position} {events thrown : List ClientEvent}
      (untrusted : Untrusted config worker positions events) (failed : Thrown thrown) :
      Interrupts config worker positions (events ++ thrown)

theorem Interrupts.after_response (position : Position) (rest : List Position)
    (response : ResponseView) {thrown : List ClientEvent} (failed : Thrown thrown) :
    Interrupts config worker (position :: rest)
      (.decoded response :: .received response :: thrown) := by
  cases settled : settles config worker position response with
  | none => exact .unresolved (.refused settled rest) failed
  | some outcome => exact .settled settled (.unresolved (.missing rest) failed)

/-! ## The receiving loop -/

theorem emits_markUnresolved (error : Error) (positions : List Position) :
    Records (markUnresolved config worker error bytesSent positions)
      (fun responses events => events = [] ∧
        responses.map PipelineResponse.outcome = positions.map (unresolvedOutcome bytesSent))
      Thrown := by
  induction positions with
  | nil => exact emits_pure ⟨rfl, rfl⟩
  | cons position rest ih =>
    refine Records.after_allocate .reporting ?_
    refine ih.bind (fun _ thrown => thrown) fun later events marked => ?_
    obtain ⟨rfl, outcomes⟩ := marked
    refine emits_pure ⟨rfl, ?_⟩
    rw [List.map_cons, List.map_cons, outcomes]
    rfl

/-- The program reports the positions whose record has begun with the events. -/
abbrev Continues (events : List ClientEvent) (config : ClientConfig) (worker bytesSent : Nat)
    (positions : List Position) (program : ClientProgram (List PipelineResponse)) : Prop :=
  Records program
    (fun responses later => Resolves config worker bytesSent positions responses (events ++ later))
    fun later => Interrupts config worker positions (events ++ later)

section GiveUp

variable (untrusted : Untrusted config worker positions events) (error : Error)

include untrusted

theorem emits_unresolved :
    Continues events config worker bytesSent positions
      (markUnresolved config worker error bytesSent positions) := by
  refine (emits_markUnresolved error positions).mono ?_ ?_
  · rintro responses later ⟨rfl, outcomes⟩
    rw [List.append_nil]
    exact .unresolved untrusted outcomes
  · exact fun later thrown => .unresolved untrusted thrown

theorem emits_giveUp :
    Continues events config worker bytesSent positions
      (giveUp config worker error bytesSent positions) :=
  silent_resetConnection.bind fun _ => emits_unresolved untrusted error

theorem emits_giveUpReporting :
    Continues events config worker bytesSent positions
      (giveUpReporting config worker error bytesSent positions) := by
  refine silent_resetConnection.bind fun _ => ?_
  exact Records.after_allocate (.unresolved untrusted .reporting) (emits_unresolved untrusted error)

end GiveUp

theorem emits_receiveGuarded : Records (receiveGuarded config bytesSent)
      (fun result events => (∃ answer, result = some answer ∧ Answers bytesSent answer events) ∨
        result = none ∧ BreaksOff .pipelineResponse events)
      fun _ => False := by
  refine Emits.recover (?_ : Records _ _ (BreaksOff .pipelineResponse)) fun _ broken breaks => ?_
  · refine emits_receiveBufferedResponse.bind (fun _ => id) fun answer events answers => ?_
    exact emits_pure (.inl ⟨answer, rfl, by rw [List.append_nil]; exact answers⟩)
  · exact emits_pure (.inr ⟨rfl, by rw [List.append_nil]; exact breaks⟩)

theorem emits_failedResponse
    (valid : Valid config response position.2.requestId worker) (refused : response.status ≠ .ok) :
    Records (failedResponse config worker bytesSent position response)
      (fun reported events => events = [] ∧ reported.outcome ≠ .succeeded ∧
        settles config worker position response = some reported.outcome)
      Thrown := by
  have outcome (reported : PipelineResponse)
      (same : reported.outcome =
        if isMutation position.1.opcode && decide (response.status = .internalError) then
          .indeterminate
        else .failed) :
      reported.outcome ≠ .succeeded ∧
        settles config worker position response = some reported.outcome := by
    rw [settles, if_neg (not_not.mpr valid), if_neg refused, same]
    by_cases unknown : isMutation position.1.opcode ∧ response.status = .internalError
    · simp [unknown]
    · rw [if_neg unknown, if_neg (by simpa using unknown)]
      exact ⟨nofun, rfl⟩
  refine Records.after_allocate .reporting ?_
  exact (silent_noteUnusable _).bind fun _ => emits_pure ⟨rfl, outcome _ rfl⟩

theorem emits_receivePipeline (positions : List Position) :
    Records (receivePipeline config worker bytesSent positions)
      (Resolves config worker bytesSent positions) (Interrupts config worker positions) := by
  induction positions with
  | nil => exact emits_pure .finished
  | cons position rest ih =>
    refine emits_receiveGuarded.bind (fun _ => False.elim) ?_
    rintro result events (⟨answer, rfl, error | response⟩ | ⟨rfl, breaks⟩)
    · exact emits_giveUp (.missing _) error
    · -- A response came: the loop goes on only when it settles the position.
      refine emits_validateResponse.bind ?_ fun status events checked => ?_
      · exact fun events thrown => .after_response position rest response thrown
      obtain ⟨rfl, valid⟩ := checked
      cases status with
      | error error =>
        have invalid : ¬ Valid config response position.2.requestId worker := fun holds =>
          absurd (valid.mpr holds) nofun
        exact emits_giveUp (.refused (if_pos invalid) rest) error
      | ok done =>
        have trusted := valid.mp rfl
        have judged : settles config worker position response = _ := if_neg (not_not.mpr trusted)
        dsimp only
        split
        · next accepted =>
          rw [if_pos accepted] at judged
          split
          · next value =>
            rw [if_pos value] at judged
            exact emits_giveUpReporting (.refused judged rest) _
          · next empty =>
            rw [if_neg empty] at judged
            refine ih.bind (fun _ interrupts => .settled judged interrupts)
              fun later events resolves => ?_
            refine emits_pure ?_
            rw [List.append_nil]
            exact .settled judged (fun _ => rfl) resolves
        · next refused =>
          refine (emits_failedResponse trusted refused).bind ?_ fun reported events settled => ?_
          · exact fun events thrown => .after_response position rest response thrown
          obtain ⟨rfl, notSucceeded, outcome⟩ := settled
          refine ih.bind (fun _ interrupts => .settled outcome interrupts) fun later events resolves => ?_
          refine emits_pure ?_
          rw [List.append_nil]
          exact .settled outcome (fun succeeded => absurd succeeded notSucceeded) resolves
    · exact emits_giveUpReporting (.guarded breaks _) _

/-! ## Whole pipelines -/

variable {outputSize : Nat}

theorem emits_exchangePipeline :
    Records (exchangePipeline config worker positions outputSize)
      (fun responses events => ∃ sent later,
        Resolves config worker sent positions responses later ∧
          events = sendEvents 0 (positions.map Prod.snd) sent ++ later)
      fun events => ∃ sent later, Interrupts config worker positions later ∧
        events = sendEvents 0 (positions.map Prod.snd) sent ++ later := by
  refine emits_sendFrame.bind (fun _ => False.elim) ?_
  rintro ⟨sent, failure⟩ events ⟨-, rfl⟩
  cases failure with
  | some error =>
    refine Records.after_allocate ⟨sent, _, .unresolved (.missing positions) .requesting, rfl⟩ ?_
    refine (emits_giveUp (.missing positions) error).mono ?_ ?_
    · exact fun responses later resolves => ⟨sent, later, resolves, rfl⟩
    · exact fun later interrupts => ⟨sent, later, interrupts, rfl⟩
  | none =>
    refine (emits_receivePipeline positions).mono ?_ ?_
    · exact fun responses later resolves => ⟨sent, later, resolves, rfl⟩
    · exact fun later interrupts => ⟨sent, later, interrupts, rfl⟩

variable {requests : List PipelineRequest}

theorem length_planPipeline {plan : List (Nat × Nat)}
    (planned : planPipeline config worker outputSize requests = .ok plan) :
    plan.length = requests.length := by
  fun_induction planPipeline config worker outputSize requests generalizing plan with
  | case1 =>
    obtain rfl := Except.ok.inj planned
    rfl
  | case7 _ request rest _ _ _ _ _ later further ih =>
    rw [← Except.ok.inj planned, List.length_cons, List.length_cons, ih further]
  | _ => exact absurd planned nofun

theorem emits_encodePipeline (items : List (PipelineRequest × Nat × Nat)) :
    Records (encodePipeline items) (fun result events => events = [] ∧
        ∀ positions, result = .ok positions → positions.map Prod.fst = items.map Prod.fst)
      Thrown := by
  induction items with
  | nil =>
    refine emits_pure ⟨rfl, fun positions same => ?_⟩
    obtain rfl := Except.ok.inj same
    rfl
  | cons item rest ih =>
    refine silent_nextRequestId.bind fun requestId => ?_
    cases encodeRequest (item.1.view requestId) with
    | error error =>
      refine (emits_failing error).mono ?_ fun _ => id
      rintro result events ⟨rfl, rfl⟩
      exact ⟨rfl, nofun⟩
    | ok encoded =>
      refine ih.bind (fun _ thrown => thrown) fun result events encodes => ?_
      obtain ⟨rfl, same⟩ := encodes
      cases result with
      | error error => exact emits_pure ⟨rfl, nofun⟩
      | ok later =>
        refine emits_pure ⟨rfl, fun positions found => ?_⟩
        obtain rfl := Except.ok.inj found
        rw [List.map_cons, List.map_cons, same later rfl]

def pipelineWorker (config : ClientConfig) (requests : List PipelineRequest) : Nat :=
  config.workerFor (requests.headD {}).key

inductive Executes (config : ClientConfig) (requests : List PipelineRequest) :
    Result (List PipelineResponse) → List ClientEvent → Prop where
  | refused (error : Error) : Executes config requests (.error error) []
  | exchanged {positions : List Position} {responses : List PipelineResponse}
      {later : List ClientEvent} (sent : Nat) (requested : positions.map Prod.fst = requests)
      (resolves :
        Resolves config (pipelineWorker config requests) sent positions responses later) :
      Executes config requests (.ok responses)
        (sendEvents 0 (positions.map Prod.snd) sent ++ later)

inductive Aborts (config : ClientConfig) (requests : List PipelineRequest) :
    List ClientEvent → Prop where
  | unsent {thrown : List ClientEvent} (failed : Thrown thrown) : Aborts config requests thrown
  | exchanged {positions : List Position} {later : List ClientEvent} (sent : Nat)
      (requested : positions.map Prod.fst = requests)
      (interrupts : Interrupts config (pipelineWorker config requests) positions later) :
      Aborts config requests (sendEvents 0 (positions.map Prod.snd) sent ++ later)

variable {options : RequestOptions}

theorem emits_executePipelineImpl :
    Records (executePipelineImpl config requests options)
      (Executes config requests) (Aborts config requests) := by
  have refuses (error : Error) : Records (failing error) (Executes config requests)
        (Aborts config requests) := by
    refine (emits_failing error).mono ?_ fun _ thrown => .unsent thrown
    rintro result events ⟨rfl, rfl⟩
    exact .refused error
  unfold executePipelineImpl
  cases resolveDeadline config options with
  | error error => exact refuses error
  | ok timeout =>
    cases requests with
    | nil => exact emits_pure (.exchanged 0 rfl .finished)
    | cons first rest =>
      refine silent_loadHealthy.bind fun healthy => ?_
      split
      · exact refuses _
      split
      · exact refuses _
      refine Records.after_allocate (.unsent .requesting) ?_
      cases planned : planPipeline config (config.workerFor first.key) 0 (first :: rest) with
      | error error => exact refuses error
      | ok plan =>
        refine Records.after_allocate (.unsent .requesting) ?_
        refine (emits_encodePipeline _).bind (fun _ thrown => .unsent thrown) ?_
        rintro result events ⟨rfl, encodes⟩
        cases result with
        | error error => exact emits_pure (.refused error)
        | ok positions =>
          have requested : positions.map Prod.fst = first :: rest := by
            rw [encodes positions rfl, List.map_fst_zip (length_planPipeline planned).ge]
          refine silent_loadHealthy.bind fun stillHealthy => ?_
          split
          · exact refuses _
          refine emits_ensureConnected.quiet_bind (fun _ thrown => .unsent thrown) ?_
          intro connected
          cases connected with
          | error error => exact refuses error
          | ok done =>
            refine emits_exchangePipeline.bind ?_ ?_
            · rintro events ⟨sent, later, interrupts, rfl⟩
              exact .exchanged sent requested interrupts
            · rintro responses events ⟨sent, later, resolves, rfl⟩
              refine emits_pure ?_
              rw [List.append_nil]
              exact .exchanged sent requested resolves

/-- The record of a call: of the whole pipeline, or of one that a failed allocation has
ended with an error. A moved-from client records nothing. -/
inductive ExecutesCall (implementation : Option ClientConfig) (requests : List PipelineRequest) :
    Result (List PipelineResponse) → List ClientEvent → Prop where
  | whole {config : ClientConfig} {result : Result (List PipelineResponse)}
      {events : List ClientEvent} (found : implementation = some config)
      (executes : Executes config requests result events) :
      ExecutesCall implementation requests result events
  | unsent (error : Error) {events : List ClientEvent}
      (nothing : events = [] ∨ Thrown events) :
      ExecutesCall implementation requests (.error error) events
  | aborted {config : ClientConfig} {events : List ClientEvent} (error : Error)
      (found : implementation = some config) (aborts : Aborts config requests events) :
      ExecutesCall implementation requests (.error error) events

theorem emits_executePipeline {implementation : Option ClientConfig} :
    Records (executePipeline implementation requests options)
      (ExecutesCall implementation requests) fun _ => True := by
  cases implementation with
  | none =>
    have body := (emits_failing ⟨.unavailable, "client was moved from"⟩ :
      Records (failing _ : ClientProgram (Result (List PipelineResponse))) _ _)
    refine (body.mono ?_ fun _ => id).recover fun _ before thrown => ?_
    · rintro result events ⟨rfl, rfl⟩
      exact .unsent _ (.inl rfl)
    · refine Records.after_allocate trivial (emits_pure ?_)
      exact .unsent _ (.inr (by rw [List.append_nil]; exact thrown))
  | some config =>
    have body : Records (executePipelineImpl config requests options)
        (ExecutesCall (some config) requests) (Aborts config requests) :=
      emits_executePipelineImpl.mono (fun _ _ executes => .whole rfl executes) fun _ => id
    refine body.recover fun _ before aborts => ?_
    refine Records.after_allocate trivial (emits_pure ?_)
    rw [List.append_nil]
    exact .aborted _ rfl aborts

end GlifiStore.Client
