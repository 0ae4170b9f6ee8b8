import GlifiStore.Client.Transport

/-!
# What the transport records

One lemma for each function of the transport says which events it adds to the record,
when it ends and when an allocation fails.
-/

namespace GlifiStore.Client

open ByteLayout Server StepProgram

variable {config : ClientConfig} {response : ResponseView} {frames : List EncodedRequest}
  {attempt size sent requestId worker : Nat}

abbrev Records {α : Type} (program : ClientProgram α) (done : α → List ClientEvent → Prop)
    (failed : List ClientEvent → Prop) : Prop :=
  Emits ClientWorld.trace program done failed

/-- The record of a part that has added nothing, and of one in which an allocation failed
that is not the receive of a pipeline. -/
def Nothing {α : Type} (_ : α) (events : List ClientEvent) : Prop := events = []

inductive Thrown : List ClientEvent → Prop where
  | outside {place : AllocationPlace} (unguarded : place ≠ .pipelineResponse) :
      Thrown [.allocationFailed place]

theorem Thrown.reporting : Thrown [.allocationFailed .report] := .outside (by decide)

theorem Thrown.requesting : Thrown [.allocationFailed .request] := .outside (by decide)

theorem Thrown.connecting : Thrown [.allocationFailed .connection] := .outside (by decide)

theorem Thrown.receiving : Thrown [.allocationFailed .response] := .outside (by decide)

variable {place : AllocationPlace}

theorem emits_allocate :
    Records (allocate place) Nothing fun events => events = [.allocationFailed place] := by
  refine emits_interact ?_ ?_
  · intro world value answered
    dsimp only at answered ⊢
    split at answered
    · next succeeds =>
      rw [if_pos succeeds]
      exact ⟨[], (List.append_nil _).symm, rfl⟩
    · exact absurd answered nofun
  · intro world error answered
    dsimp only at answered ⊢
    split at answered
    · exact absurd answered nofun
    · next fails =>
      rw [if_neg fails]
      exact ⟨[.allocationFailed place], rfl, rfl⟩

variable {α : Type} {failed : List ClientEvent → Prop}

theorem Records.after_allocate {rest : Unit → ClientProgram α} {done : α → List ClientEvent → Prop}
    (thrown : failed [.allocationFailed place]) (back : Records (rest ()) done failed) :
    Records (allocate place >>= rest) done failed :=
  emits_allocate.quiet_bind (fun _ same => same ▸ thrown) fun _ => back

def Silent {α : Type} (program : ClientProgram α) : Prop :=
  Records program Nothing fun _ => False

theorem Silent.bind {β : Type} {first : ClientProgram α} {rest : α → ClientProgram β}
    {done : β → List ClientEvent → Prop} (silent : Silent first)
    (back : ∀ value, Records (rest value) done failed) : Records (first >>= rest) done failed :=
  silent.quiet_bind (fun _ impossible => impossible.elim) back

theorem silent_interact {turn : ClientWorld → Except BadAlloc α × ClientWorld}
    (answers : ∀ world, ∃ value, (turn world).1 = .ok value)
    (keeps : ∀ world, (turn world).2.trace = world.trace) : Silent (interact turn) := by
  refine emits_interact ?_ ?_
  · intro world value _
    exact ⟨[], by rw [List.append_nil]; exact keeps world, rfl⟩
  · intro world error failed
    obtain ⟨value, answered⟩ := answers world
    exact absurd (answered.symm.trans failed) nofun

theorem silent_query (read : ClientWorld → α) :
    Silent (query fun world => .ok (read world)) :=
  emits_query fun _ => rfl

theorem silent_perform {change : ClientWorld → ClientWorld}
    (keeps : ∀ world, (change world).trace = world.trace) : Silent (perform change) :=
  emits_perform (fun world => by rw [List.append_nil]; exact keeps world) rfl

theorem silent_loadHealthy : Silent loadHealthy := silent_interact (fun _ => ⟨_, rfl⟩) fun _ => rfl

theorem silent_markUnhealthy : Silent markUnhealthy := silent_perform fun _ => rfl

theorem silent_resetConnection : Silent resetConnection := silent_perform fun _ => rfl

theorem silent_nextRequestId : Silent nextRequestId := by
  have fetch : Silent fetchAddRequestId := silent_interact (fun _ => ⟨_, rfl⟩) fun _ => rfl
  refine fetch.bind fun id => ?_
  split
  · exact fetch
  · exact emits_pure rfl

theorem emits_failing (error : Error) :
    Records (failing error : ClientProgram (Result α))
      (fun result events => result = .error error ∧ events = []) Thrown :=
  Records.after_allocate .reporting (emits_pure ⟨rfl, rfl⟩)

theorem emits_ensureConnected : Records ensureConnected Nothing Thrown := by
  refine (silent_query _).bind fun connected => ?_
  split
  · exact emits_pure rfl
  · refine Records.after_allocate .connecting ?_
    have answers : Silent (interact fun world : ClientWorld =>
        let answer := world.connects.headD (.error timedOut)
        (.ok answer,
          { world with connects := world.connects.tail, connected := answer.isOk, input := [] })) :=
      silent_interact (fun _ => ⟨_, rfl⟩) fun _ => rfl
    exact answers.bind fun answer => Records.after_allocate .connecting (emits_pure rfl)

/-! ## Sending -/

/-- How far a send has come: whole without a failure, and not beyond the frames. -/
structure SendEnds (size : Nat) (ended : Nat × Option Error) : Prop where
  inside : ended.1 ≤ size
  whole : ended.2 = none → ended.1 = size

theorem sendLoop_ends {answers : List SendAnswer} (inside : sent ≤ size) :
    SendEnds size ((sendLoop size sent answers).1, (sendLoop size sent answers).2.1) := by
  fun_induction sendLoop size sent answers with
  | case1 sent =>
    refine ⟨inside, ?_⟩
    show (if sent < size then some timedOut else none) = none → sent = size
    split
    · exact nofun
    · exact fun _ => by omega
  | case2 sent rest short count ih => exact ih (by omega)
  | case3 sent rest short ih => exact ih inside
  | case4 sent rest short error => exact ⟨inside, nofun⟩
  | case5 sent answer rest full => exact ⟨inside, fun _ => by show sent = size; omega⟩

def sendEvents (attempt : Nat) (frames : List EncodedRequest) (sent : Nat) : List ClientEvent :=
  if sent = 0 then [] else [.sent attempt frames sent]

theorem emits_sendFrame : Records (sendFrame attempt frames size)
      (fun ended events => SendEnds size ended ∧ events = sendEvents attempt frames ended.1)
      fun _ => False := by
  refine emits_interact ?_ nofun
  intro world ended answered
  obtain rfl := Except.ok.inj answered
  refine ⟨sendEvents attempt frames (sendLoop size 0 world.sends).1, ?_,
    sendLoop_ends (Nat.zero_le size), rfl⟩
  unfold sendEvents
  dsimp only
  split
  · exact (List.append_nil _).symm
  · rfl

/-! ## Receiving -/

/-- A receive that ends has a whole response, or a failure and nothing. -/
inductive Answers (sent : Nat) : ExchangeResult → List ClientEvent → Prop where
  | failure (error : Error) : Answers sent (.failure error sent) []
  | response (response : ResponseView) :
      Answers sent (.response response) [.decoded response, .received response]

inductive BreaksOff (place : AllocationPlace) : List ClientEvent → Prop where
  | waiting : BreaksOff place [.allocationFailed place]
  | copying (response : ResponseView) :
      BreaksOff place [.decoded response, .allocationFailed place]

theorem emits_exchangeFailure (error : Error) :
    Records (exchangeFailure place error sent) (Answers sent) (BreaksOff place) :=
  Records.after_allocate .waiting (emits_pure (.failure error))

theorem emits_record (event : ClientEvent) :
    Records (perform fun world => world.record event : ClientProgram Unit)
      (fun _ events => events = [event]) fun _ => False :=
  emits_perform (fun _ => rfl) rfl

theorem emits_ownResponse :
    Records (ownResponse place response) (Answers sent) (BreaksOff place) := by
  refine (emits_record (.decoded response)).bind (fun _ => False.elim) fun _ events same => ?_
  subst same
  have copied : Records ((perform fun world => world.record (.received response)) >>= fun _ =>
        pure (.response response) : ClientProgram ExchangeResult)
      (fun result later => Answers sent result ([.decoded response] ++ later))
      fun later => BreaksOff place ([.decoded response] ++ later) := by
    refine (emits_record (.received response)).bind (fun _ => False.elim) fun _ events same => ?_
    subst same
    exact emits_pure (.response response)
  split
  · exact Records.after_allocate (.copying response) copied
  · exact copied

theorem emits_ownFrame (frame : Bytes) :
    Records (ownFrame config place sent frame) (Answers sent) (BreaksOff place) := by
  unfold ownFrame
  split
  · split
    · exact emits_ownResponse
    · exact emits_exchangeFailure _
  · exact emits_exchangeFailure _

theorem silent_receiveExact (count : Nat) : Silent (receiveExact count) :=
  silent_interact (fun _ => ⟨_, rfl⟩) fun _ => rfl

theorem emits_receiveResponse :
    Records (receiveResponse config sent) (Answers sent) (BreaksOff .response) := by
  refine (silent_receiveExact 4).bind fun size => ?_
  cases size with
  | error error => exact emits_exchangeFailure error
  | ok sizeBytes =>
    dsimp only
    split
    · exact emits_exchangeFailure _
    · refine Records.after_allocate .waiting ?_
      refine (silent_receiveExact _).bind fun rest => ?_
      cases rest with
      | error error => exact emits_exchangeFailure error
      | ok rest => exact emits_ownFrame _

theorem emits_receiveBuffered (turns : Nat) :
    Records (receiveBuffered config sent turns) (Answers sent) (BreaksOff .pipelineResponse) := by
  induction turns with
  | zero => exact emits_exchangeFailure _
  | succ turns ih =>
    refine (silent_query _).bind fun input => ?_
    dsimp only
    split
    · exact emits_exchangeFailure _
    · split
      · refine (emits_ownFrame _).bind (fun _ broken => broken) fun result events answered => ?_
        cases result with
        | response response =>
          refine Silent.bind (silent_perform fun _ => rfl) fun _ => ?_
          exact emits_pure (by rw [List.append_nil]; exact answered)
        | failure error sent => exact emits_pure (by rw [List.append_nil]; exact answered)
      · have chunk : Silent receiveChunk := silent_interact (fun _ => ⟨_, rfl⟩) fun _ => rfl
        refine chunk.bind fun answer => ?_
        cases answer with
        | data bytes =>
          refine Records.after_allocate .waiting ?_
          exact Silent.bind (silent_perform fun _ => rfl) fun _ => ih
        | again => exact ih
        | failed error => exact emits_exchangeFailure error

theorem emits_receiveBufferedResponse :
    Records (receiveBufferedResponse config sent) (Answers sent) (BreaksOff .pipelineResponse) :=
  (silent_query _).bind fun answers => emits_receiveBuffered (answers + 1)

/-! ## Checks of a response -/

theorem emits_validateResponse : Records (validateResponse config response requestId worker)
      (fun status events =>
        events = [] ∧ (status = .ok () ↔ Valid config response requestId worker))
      Thrown := by
  have refuses (error : Error) (invalid : ¬ Valid config response requestId worker) :
      Records (failing error : ClientProgram Status) (fun status events =>
          events = [] ∧ (status = .ok () ↔ Valid config response requestId worker)) Thrown := by
    refine (emits_failing error).mono ?_ fun _ thrown => thrown
    rintro status events ⟨rfl, rfl⟩
    exact ⟨rfl, nofun, fun valid => absurd valid invalid⟩
  unfold validateResponse
  split
  · next otherId => exact refuses _ fun valid => otherId valid.requestId
  · next sameId =>
    split
    · next changed =>
      refine silent_markUnhealthy.bind fun _ => refuses _ fun valid => ?_
      exact changed.elim (· valid.workerCount) (· valid.routingEpoch)
    · next unchanged =>
      split
      · next other =>
        refine silent_markUnhealthy.bind fun _ => refuses _ fun valid => ?_
        exact valid.owner.elim other.1 other.2
      · next owner =>
        refine emits_pure ⟨rfl, fun _ => ?_, fun _ => rfl⟩
        simp only [not_or, not_and_or, Decidable.not_not] at sameId unchanged owner
        exact ⟨sameId, unchanged.1, unchanged.2, owner⟩

end GlifiStore.Client
