import GlifiStore.Client.Mutate
import GlifiStore.Client.TransportRecord

/-!
# What a mutation records

The record of `mutate` has one of few shapes: nothing was sent, bytes were sent and no
response came, or a response came; and an allocation may have failed in each of them.
-/

namespace GlifiStore.Client

open Server StepProgram

variable {config : ClientConfig} {opcode : RequestOpcode} {response : ResponseView}
  {frame : EncodedRequest} {attempt worker : Nat}

instance {requestId : Nat} : Decidable (Valid config response requestId worker) :=
  decidable_of_iff
    (response.requestId = requestId ∧ response.workerCount = config.workerCount ∧
      response.routingEpoch = config.routingEpoch ∧
      (response.ownerWorker = worker ∨ response.status = .wrongOwner))
    ⟨fun ⟨id, count, epoch, owner⟩ => ⟨id, count, epoch, owner⟩,
      fun valid => ⟨valid.requestId, valid.workerCount, valid.routingEpoch, valid.owner⟩⟩

/-- What a response says of the mutation. -/
def conclusion (config : ClientConfig) (worker requestId : Nat) (response : ResponseView) :
    MutationOutcome :=
  if ¬ Valid config response requestId worker then .indeterminate
  else if response.status = .ok then
    if response.value ≠ [] then .indeterminate else .committed
  else if response.status = .internalError then .indeterminate
  else .rejected

/-- The record of a mutation that ends. -/
inductive Reports (config : ClientConfig) (worker : Nat) :
    MutationOutcome → List ClientEvent → Prop where
  | unsent : Reports config worker .rejected []
  | unanswered (attempt : Nat) {frame : EncodedRequest} {sent : Nat} (starts : frame.start = 0)
      (some : 0 < sent) : Reports config worker .indeterminate [.sent attempt [frame] sent]
  | answered (attempt : Nat) {frame : EncodedRequest} {sent : Nat} (starts : frame.start = 0)
      (some : 0 < sent) (response : ResponseView) :
      Reports config worker (conclusion config worker frame.requestId response)
        [.sent attempt [frame] sent, .decoded response, .received response]

/-- The record of a mutation in which an allocation fails. -/
inductive Breaks : List ClientEvent → Prop where
  | unsent {thrown : List ClientEvent} (failed : Thrown thrown) : Breaks thrown
  | unanswered (attempt : Nat) {frame : EncodedRequest} {sent : Nat} {thrown : List ClientEvent}
      (starts : frame.start = 0) (some : 0 < sent) (failed : Thrown thrown) :
      Breaks (.sent attempt [frame] sent :: thrown)
  | copying (attempt : Nat) {frame : EncodedRequest} {sent : Nat} {thrown : List ClientEvent}
      (starts : frame.start = 0) (some : 0 < sent) (response : ResponseView)
      (failed : Thrown thrown) :
      Breaks (.sent attempt [frame] sent :: .decoded response :: thrown)
  | answered (attempt : Nat) {frame : EncodedRequest} {sent : Nat} {thrown : List ClientEvent}
      (starts : frame.start = 0) (some : 0 < sent) (response : ResponseView)
      (failed : Thrown thrown) :
      Breaks (.sent attempt [frame] sent :: .decoded response :: .received response :: thrown)

/-! ## The parts of a mutation -/

theorem emits_rejected (error : ClientError) (report : RequestReport) :
    Records (rejected error report)
      (fun result events => result.outcome = .rejected ∧ events = []) Thrown :=
  Records.after_allocate .reporting (emits_pure ⟨rfl, rfl⟩)

theorem emits_indeterminate (error : ClientError) (report : RequestReport) :
    Records (indeterminate error report)
      (fun result events => result.outcome = .indeterminate ∧ events = []) Thrown :=
  Records.after_allocate .reporting (emits_pure ⟨rfl, rfl⟩)

theorem silent_noteUnusable (status : ResponseStatus) : Silent (noteUnusable status) := by
  unfold noteUnusable
  split
  · exact silent_markUnhealthy
  · exact emits_pure rfl

theorem emits_concludeMutation : Records (concludeMutation config opcode worker frame response)
      (fun result events =>
        result.outcome = conclusion config worker frame.requestId response ∧ events = [])
      Thrown := by
  have unknown (same : conclusion config worker frame.requestId response = .indeterminate)
      (error : ClientError) (report : RequestReport) : Records (indeterminate error report)
        (fun result events =>
          result.outcome = conclusion config worker frame.requestId response ∧ events = [])
        Thrown :=
    same ▸ emits_indeterminate error report
  refine emits_validateResponse.bind (fun _ thrown => thrown) fun status events checked => ?_
  obtain ⟨rfl, valid⟩ := checked
  cases status with
  | error error =>
    have invalid : ¬ Valid config response frame.requestId worker := fun holds =>
      absurd (valid.mpr holds) nofun
    refine silent_resetConnection.bind fun _ => unknown ?_ _ _
    rw [conclusion, if_pos invalid]
  | ok done =>
    have trusted : ¬ ¬ Valid config response frame.requestId worker := not_not.mpr (valid.mp rfl)
    unfold conclusion at unknown ⊢
    rw [if_neg trusted] at unknown ⊢
    dsimp only
    split
    · next accepted =>
      rw [if_pos accepted] at unknown
      split
      · next value =>
        rw [if_pos value] at unknown
        exact silent_resetConnection.bind fun _ => unknown rfl _ _
      · next empty => exact emits_pure ⟨rfl, rfl⟩
    · next refused =>
      rw [if_neg refused] at unknown
      split
      · next internal =>
        rw [if_pos internal] at unknown
        exact unknown rfl _ _
      · next definite =>
        refine (emits_rejected _ _).bind (fun _ thrown => thrown) fun result events rejects => ?_
        obtain ⟨outcome, rfl⟩ := rejects
        exact (silent_noteUnusable _).bind fun _ => emits_pure ⟨outcome, rfl⟩

inductive Exchanges (attempt : Nat) (frame : EncodedRequest) :
    ExchangeResult → List ClientEvent → Prop where
  | unsent (error : Error) : Exchanges attempt frame (.failure error 0) []
  | unanswered (error : Error) {sent : Nat} (some : 0 < sent) :
      Exchanges attempt frame (.failure error sent) [.sent attempt [frame] sent]
  | answered {sent : Nat} (some : 0 < sent) (response : ResponseView) :
      Exchanges attempt frame (.response response)
        [.sent attempt [frame] sent, .decoded response, .received response]

theorem emits_exchange (starts : frame.start = 0) (nonempty : 0 < frame.size) :
    Records (exchange config attempt frame) (Exchanges attempt frame) Breaks := by
  refine emits_sendFrame.bind (fun _ => False.elim) ?_
  rintro ⟨sent, failure⟩ events ⟨ends, rfl⟩
  cases failure with
  | some error =>
    refine Records.after_allocate ?_ (emits_pure ?_) <;> unfold sendEvents <;> dsimp only <;> split
    · exact .unsent .requesting
    · next some => exact .unanswered attempt starts (by omega) .requesting
    · next none =>
      subst none
      exact .unsent error
    · next some => exact .unanswered error (by omega)
  | none =>
    have whole : sent = frame.size := ends.whole rfl
    have some : 0 < sent := by omega
    have event : sendEvents attempt [frame] sent = [.sent attempt [frame] sent] :=
      if_neg (by omega)
    rw [event]
    refine emits_receiveResponse.mono ?_ ?_
    · rintro result events (error | response)
      · exact .unanswered error some
      · exact .answered some response
    · rintro events (_ | response)
      · exact .unanswered attempt starts some .receiving
      · exact .copying attempt starts some response .receiving

/-! ## Whole mutations -/

theorem emits_unsent (error : ClientError) (report : RequestReport) :
    Records (rejected error report)
      (fun result events => Reports config worker result.outcome events) Breaks := by
  refine (emits_rejected error report).mono ?_ fun _ thrown => .unsent thrown
  rintro result events ⟨outcome, rfl⟩
  rw [outcome]
  exact .unsent

variable {key value : Bytes} {expireAtNs : UInt64}

theorem emits_mutateAttempts (left : Nat) :
    Records (mutateAttempts config opcode key value expireAtNs worker left)
      (fun result events => Reports config worker result.outcome events) Breaks := by
  induction left with
  | zero => exact emits_unsent _ _
  | succ left ih =>
    refine emits_ensureConnected.quiet_bind (fun _ thrown => .unsent thrown) fun connected => ?_
    cases connected with
    | error error => exact emits_unsent _ _
    | ok done =>
      refine silent_nextRequestId.bind fun requestId => ?_
      refine Records.after_allocate (.unsent .requesting) ?_
      cases encodes : encodeRequest (requestView opcode requestId key value expireAtNs) with
      | error error => exact emits_unsent _ _
      | ok encoded =>
        dsimp only
        split
        · exact emits_unsent _ _
        · have nonempty : 0 < encoded.length := by
            rw [(encodeRequest_ok.mp encodes).length]
            omega
          refine (emits_exchange rfl nonempty).bind (fun _ broken => broken) ?_
          rintro result events (error | @⟨error, sent, some⟩ | @⟨sent, some, response⟩)
          · refine silent_resetConnection.bind fun _ => ?_
            rw [if_pos rfl]
            split
            · exact ih
            · exact emits_unsent _ _
          · refine silent_resetConnection.bind fun _ => ?_
            rw [if_neg (by omega)]
            refine (emits_indeterminate _ _).mono ?_ ?_
            · rintro result events ⟨outcome, rfl⟩
              rw [outcome]
              exact .unanswered _ rfl some
            · exact fun events thrown => .unanswered _ rfl some thrown
          · refine emits_concludeMutation.mono ?_ ?_
            · rintro result events ⟨outcome, rfl⟩
              rw [outcome]
              exact .answered _ rfl some response
            · exact fun events thrown => .answered _ rfl some response thrown

variable {options : RequestOptions}

theorem emits_mutate :
    Records (mutate config opcode key value expireAtNs options)
      (fun result events => Reports config (config.workerFor key) result.outcome events)
      Breaks := by
  refine silent_loadHealthy.bind fun healthy => ?_
  split
  · exact emits_unsent _ _
  · cases resolveDeadline config options with
    | error error => exact emits_unsent _ _
    | ok timeout =>
      refine silent_loadHealthy.bind fun stillHealthy => ?_
      split
      · exact emits_unsent _ _
      · exact emits_mutateAttempts 2

/-- The record of a call: of the whole mutation, or of one that was broken off and is
reported as rejected. A moved-from client records nothing. -/
inductive Mutates (implementation : Option ClientConfig) (key : Key) :
    MutationOutcome → List ClientEvent → Prop where
  | whole {config : ClientConfig} {outcome : MutationOutcome} {events : List ClientEvent}
      (found : implementation = some config)
      (reports : Reports config (config.workerFor key) outcome events) :
      Mutates implementation key outcome events
  | movedFrom : Mutates implementation key .rejected []
  | broken {events : List ClientEvent} (breaks : Breaks events) :
      Mutates implementation key .rejected events

theorem emits_guardedMutate {implementation : Option ClientConfig} :
    Records (guardedMutate implementation opcode key value expireAtNs options)
      (fun result events => Mutates implementation key result.outcome events)
      fun events => ∃ before, Breaks before ∧ events = before ++ [.allocationFailed .report] := by
  refine Emits.recover (?_ : Records _ _ Breaks) fun _ before breaks => ?_
  · cases implementation with
    | none => exact Records.after_allocate (.unsent .reporting) (emits_pure .movedFrom)
    | some config => exact emits_mutate.mono (fun _ _ reports => .whole rfl reports) fun _ => id
  refine Records.after_allocate ⟨before, breaks, rfl⟩ (emits_pure ?_)
  rw [List.append_nil]
  exact .broken breaks

end GlifiStore.Client
