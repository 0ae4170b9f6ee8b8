import GlifiStore.Client.PipelineRecord

/-!
# Honest outcomes

What a call of the client may report, given what was sent and what came back. A call is
honest except when an allocation fails outside of the guarded receive after a byte was
sent, and when a `PUT` is answered `NOT_FOUND`.
-/

namespace GlifiStore.Client

open Server StepProgram

variable {key : Key} {tail : List ClientEvent}

/-! ## What a report may say -/

/-- The statuses that the client specification lists as rejected. -/
def rejects (opcode : RequestOpcode) : ResponseStatus → Bool
  | .invalidRequest | .unsupported | .overloaded | .wrongOwner | .notBound | .permissionDenied =>
    true
  | .notFound => decide (opcode = .erase)
  | .ok | .internalError => false

variable {config : ClientConfig} {implementation : Option ClientConfig} {opcode : RequestOpcode}
  {frame : EncodedRequest} {response : ResponseView} {trace events : List ClientEvent}
  {requests : List PipelineRequest} {worker sent : Nat}

def Sent (trace : List ClientEvent) (frame : EncodedRequest) : Prop :=
  ∃ attempt frames count,
    .sent attempt frames count ∈ trace ∧ frame ∈ frames ∧ frame.start < count

def Unsent (trace : List ClientEvent) : Prop :=
  ∀ attempt frames count, .sent attempt frames count ∉ trace

/-- A well-formed response with the ID of the request has rejected it. -/
def Refused (opcode : RequestOpcode) (frame : EncodedRequest) (trace : List ClientEvent) : Prop :=
  ∃ response, .decoded response ∈ trace ∧ response.requestId = frame.requestId ∧
    rejects opcode response.status

/-- What `put` and `erase` may report. -/
structure HonestMutation (opcode : RequestOpcode) (outcome : MutationOutcome)
    (trace : List ClientEvent) : Prop where
  rejected : outcome = .rejected →
    (∀ frame, ¬ Sent trace frame) ∨ ∃ frame, Sent trace frame ∧ Refused opcode frame trace
  committed : outcome = .committed →
    ∃ frame response, Sent trace frame ∧ .decoded response ∈ trace ∧
      response.requestId = frame.requestId ∧ response.status = .ok ∧ response.value = []

def SentOnce (trace : List ClientEvent) : Prop :=
  ∀ first firstFrames firstCount second secondFrames secondCount,
    .sent first firstFrames firstCount ∈ trace → .sent second secondFrames secondCount ∈ trace →
      first = second

def received (trace : List ClientEvent) : List ResponseView :=
  trace.filterMap fun
    | .received response => some response
    | _ => none

/-- The outcome of a position in the answer of a call; a call that fails as a whole reports
every position as failed. -/
def reportedOutcome (result : Result (List PipelineResponse)) (index : Nat) :
    Option PipelineOutcome :=
  match result with
  | .ok responses => responses[index]?.map PipelineResponse.outcome
  | .error _ => some .failed

/-- The answer still has the outcome that a response has given to a position. -/
def Keeps (result : Result (List PipelineResponse)) (index : Nat) (outcome : PipelineOutcome)
    (response : ResponseView) : Prop :=
  ∃ responses reported, result = .ok responses ∧ responses[index]? = some reported ∧
    reported.outcome = outcome ∧ (outcome = .succeeded → reported.value = response.value)

/-- What `execute_pipeline` may report once it has sent a byte. -/
structure HonestPipeline (implementation : Option ClientConfig) (requests : List PipelineRequest)
    (result : Result (List PipelineResponse)) (trace : List ClientEvent) : Prop where
  failed : ∀ attempt frames count, .sent attempt frames count ∈ trace →
    ∀ index request frame, requests[index]? = some request → frames[index]? = some frame →
      isMutation request.opcode → reportedOutcome result index = some .failed →
        count ≤ frame.start ∨ Refused (wireOpcode request.opcode) frame trace
  kept : ∀ config, implementation = some config →
    ∀ attempt frames count, .sent attempt frames count ∈ trace →
      ∀ index request frame, requests[index]? = some request → frames[index]? = some frame →
        ∀ response outcome, (received trace)[index]? = some response →
          settles config (pipelineWorker config requests) (request, frame) response =
            some outcome →
          Keeps result index outcome response

/-! ## What loses an outcome -/

/-- An allocation has failed, and not in the receive of a pipeline. -/
def Escapes (trace : List ClientEvent) : Prop :=
  ∃ place, .allocationFailed place ∈ trace ∧ place ≠ .pipelineResponse

/-- An allocation fails after a byte was sent that no rejection has answered, or a `PUT`
is answered `NOT_FOUND`. -/
def LosesMutation (implementation : Option ClientConfig) (opcode : RequestOpcode) (key : Key)
    (trace : List ClientEvent) : Prop :=
  (Escapes trace ∧ ∃ frame, Sent trace frame ∧ ¬ Refused opcode frame trace) ∨
    opcode = .put ∧ ∃ config frame response, implementation = some config ∧ Sent trace frame ∧
      .received response ∈ trace ∧
        Valid config response frame.requestId (config.workerFor key) ∧
          response.status = .notFound

/-- At a position of a pipeline, an allocation fails after a byte of a mutation was sent
that no rejection has answered or after its response was received, or a `PUT` is answered
`NOT_FOUND`. -/
def LosesPosition (config : ClientConfig) (worker : Nat) (request : PipelineRequest)
    (frame : EncodedRequest) (count : Nat) (answer : Option ResponseView)
    (trace : List ClientEvent) : Prop :=
  (Escapes trace ∧
    ((isMutation request.opcode ∧ frame.start < count ∧
        ¬ Refused (wireOpcode request.opcode) frame trace) ∨
      ∃ response outcome, answer = some response ∧
        settles config worker (request, frame) response = some outcome)) ∨
    request.opcode = .put ∧ frame.start < count ∧ ¬ Refused .put frame trace ∧
      ∃ response, answer = some response ∧ Valid config response frame.requestId worker ∧
        response.status = .notFound

def LosesPipeline (implementation : Option ClientConfig) (requests : List PipelineRequest)
    (trace : List ClientEvent) : Prop :=
  ∃ config attempt frames count, implementation = some config ∧
    .sent attempt frames count ∈ trace ∧ ∃ (index : Nat) (request : PipelineRequest)
      (frame : EncodedRequest), requests[index]? = some request ∧ frames[index]? = some frame ∧
        LosesPosition config (pipelineWorker config requests) request frame count
          (received trace)[index]? trace

/-! ## Mutations -/

theorem rejects_of_definite {status : ResponseStatus} (mutation : opcode = .put ∨ opcode = .erase)
    (notAccepted : status ≠ .ok) (notInternal : status ≠ .internalError) :
    rejects opcode status ∨ opcode = .put ∧ status = .notFound := by
  rcases mutation with rfl | rfl <;> cases status <;> simp_all [rejects]

theorem Thrown.unsent (thrown : Thrown events) : Unsent events := by
  cases thrown
  simp [Unsent]

theorem sent_cons_iff (attempt : Nat) (others : Unsent tail) (starts : frame.start = 0)
    (some : 0 < sent) (other : EncodedRequest) :
    Sent (.sent attempt [frame] sent :: tail) other ↔ other = frame := by
  constructor
  · rintro ⟨a, frames, count, member, inside, -⟩
    rcases List.mem_cons.mp member with same | member
    · obtain ⟨-, rfl, -⟩ := ClientEvent.sent.inj same
      exact List.mem_singleton.mp inside
    · exact absurd member (others a frames count)
  · rintro rfl
    exact ⟨attempt, [other], sent, List.mem_cons_self, List.mem_singleton_self _, by omega⟩

theorem honest_iff_of_unsent (unsent : Unsent trace) :
    HonestMutation opcode .rejected trace ↔ ¬ LosesMutation implementation opcode key trace := by
  have none (frame : EncodedRequest) : ¬ Sent trace frame :=
    fun ⟨attempt, frames, count, member, _⟩ => unsent attempt frames count member
  refine iff_of_true ⟨fun _ => .inl none, nofun⟩ ?_
  rintro (⟨-, frame, was, -⟩ | ⟨-, _, frame, _, -, was, -⟩) <;> exact none frame was

theorem honest_rejected_iff {attempt : Nat} (others : Unsent tail) (starts : frame.start = 0)
    (some : 0 < sent) :
    HonestMutation opcode .rejected (.sent attempt [frame] sent :: tail) ↔
      Refused opcode frame (.sent attempt [frame] sent :: tail) := by
  have only := sent_cons_iff attempt others starts some
  constructor
  · intro honest
    rcases honest.rejected rfl with none | ⟨other, was, refused⟩
    · exact absurd ((only frame).mpr rfl) (none frame)
    · exact (only other).mp was ▸ refused
  · exact fun refused => ⟨fun _ => .inr ⟨frame, (only frame).mpr rfl, refused⟩, nofun⟩

theorem conclusion_eq_rejected_iff {requestId : Nat} :
    conclusion config worker requestId response = .rejected ↔
      Valid config response requestId worker ∧ response.status ≠ .ok ∧
        response.status ≠ .internalError := by
  fun_cases conclusion config worker requestId response with
  | case1 invalid => exact ⟨nofun, fun holds => absurd holds.1 invalid⟩
  | case2 _ accepted | case3 _ accepted => exact ⟨nofun, fun holds => absurd accepted holds.2.1⟩
  | case4 _ _ internal => exact ⟨nofun, fun holds => absurd internal holds.2.2⟩
  | case5 valid refused definite =>
    exact ⟨fun _ => ⟨not_not.mp valid, refused, definite⟩, fun _ => rfl⟩

theorem conclusion_eq_committed {requestId : Nat}
    (committed : conclusion config worker requestId response = .committed) :
    response.requestId = requestId ∧ response.status = .ok ∧ response.value = [] := by
  revert committed
  fun_cases conclusion config worker requestId response with
  | case3 valid accepted empty =>
    exact fun _ => ⟨(not_not.mp valid).requestId, accepted, not_not.mp empty⟩
  | _ => nofun

/-- A mutation that ends is honest unless a `PUT` was answered `NOT_FOUND`. -/
theorem Reports.honest_iff {outcome : MutationOutcome} (mutation : opcode = .put ∨ opcode = .erase)
    (reports : Reports config (config.workerFor key) outcome events) :
    HonestMutation opcode outcome events ↔ ¬ LosesMutation (some config) opcode key events := by
  cases reports with
  | unsent => exact honest_iff_of_unsent (by simp [Unsent])
  | unanswered attempt starts some =>
    refine iff_of_true ⟨nofun, nofun⟩ ?_
    rintro (⟨escapes, -⟩ | ⟨-, _, _, response, -, -, member, -⟩)
    · exact absurd escapes (by simp [Escapes])
    · simp at member
  | @answered attempt frame sent starts some response =>
    have others : Unsent [.decoded response, .received response] := by simp [Unsent]
    have only := sent_cons_iff attempt others starts some
    have lost : LosesMutation (Option.some config) opcode key
        [.sent attempt [frame] sent, .decoded response, .received response] ↔
        opcode = .put ∧ Valid config response frame.requestId (config.workerFor key) ∧
          response.status = .notFound := by
      simp [LosesMutation, Escapes, only]
    have refused : Refused opcode frame
        [.sent attempt [frame] sent, .decoded response, .received response] ↔
        response.requestId = frame.requestId ∧ rejects opcode response.status := by
      simp [Refused]
    rw [lost]
    cases concludes : conclusion config (config.workerFor key) frame.requestId response with
    | rejected =>
      obtain ⟨valid, notAccepted, notInternal⟩ := conclusion_eq_rejected_iff.mp concludes
      rw [honest_rejected_iff others starts some, refused]
      constructor
      · rintro ⟨-, listed⟩ ⟨rfl, -, notFound⟩
        rw [notFound] at listed
        exact absurd listed (by decide)
      · intro kept
        refine ⟨valid.requestId, ?_⟩
        rcases rejects_of_definite mutation notAccepted notInternal with listed | ⟨put, notFound⟩
        · exact listed
        · exact absurd ⟨put, valid, notFound⟩ kept
    | committed =>
      obtain ⟨id, accepted, empty⟩ := conclusion_eq_committed concludes
      refine iff_of_true ⟨nofun, fun _ => ?_⟩ fun ⟨_, _, notFound⟩ => ?_
      · exact ⟨frame, response, (only frame).mpr rfl, by simp, id, accepted, empty⟩
      · exact absurd (accepted.symm.trans notFound) nofun
    | indeterminate =>
      refine iff_of_true ⟨nofun, nofun⟩ fun ⟨_, valid, notFound⟩ => ?_
      have rejected := conclusion_eq_rejected_iff.mpr
        ⟨valid, by rw [notFound]; exact nofun, by rw [notFound]; exact nofun⟩
      exact absurd (concludes.symm.trans rejected) nofun

theorem lost_iff_of_escapes {attempt : Nat} (others : Unsent tail) (starts : frame.start = 0)
    (some : 0 < sent) (escapes : Escapes (.sent attempt [frame] sent :: tail))
    (single : ∀ response other, .received response ∈ tail → .decoded other ∈ tail →
      other = response) :
    HonestMutation opcode .rejected (.sent attempt [frame] sent :: tail) ↔
      ¬ LosesMutation implementation opcode key (.sent attempt [frame] sent :: tail) := by
  have only := sent_cons_iff attempt others starts some
  rw [honest_rejected_iff others starts some, ← not_iff_not, not_not]
  constructor
  · exact fun unanswered => .inl ⟨escapes, frame, (only frame).mpr rfl, unanswered⟩
  · rintro (⟨-, other, was, unanswered⟩ | ⟨rfl, _, other, response, -, was, member, -, notFound⟩)
    · exact (only other).mp was ▸ unanswered
    · rintro ⟨decoded, inside, -, listed⟩
      have same := single response decoded (by simpa using member) (by simpa using inside)
      rw [same, notFound] at listed
      exact absurd listed (by decide)

theorem Breaks.honest_iff (breaks : Breaks events) :
    HonestMutation opcode .rejected events ↔
      ¬ LosesMutation implementation opcode key events := by
  cases breaks with
  | unsent failed => exact honest_iff_of_unsent failed.unsent
  | unanswered attempt starts some failed | answered attempt starts some response failed =>
    obtain ⟨unguarded⟩ := failed
    exact lost_iff_of_escapes (by simp [Unsent]) starts some ⟨_, by simp, unguarded⟩ (by simp)
  | copying attempt starts some response failed =>
    obtain ⟨unguarded⟩ := failed
    exact lost_iff_of_escapes (by simp [Unsent]) starts some ⟨_, by simp, unguarded⟩ (by simp)

theorem Mutates.honest_iff {outcome : MutationOutcome} (mutation : opcode = .put ∨ opcode = .erase)
    (mutates : Mutates implementation key outcome events) :
    HonestMutation opcode outcome events ↔
      ¬ LosesMutation implementation opcode key events := by
  cases mutates with
  | whole found reports =>
    subst found
    exact reports.honest_iff mutation
  | movedFrom => exact honest_iff_of_unsent (by simp [Unsent])
  | broken breaks => exact breaks.honest_iff

end GlifiStore.Client
