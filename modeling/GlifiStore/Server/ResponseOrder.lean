import GlifiStore.Server.Connection

/-!
# The order of responses

The stream of a connection should hold the responses of its frames in the order
the frames came in, each once and none dropped. The order that the events keep
says more: which frames are still in flight, in which order, and what the flags
of the connection say about them.
-/

namespace GlifiStore.Server

open ByteLayout

/-! ## The order -/

/-- What the peer has been sent or will be. -/
def Session.stream (session : Session) : Bytes :=
  session.sent ++ session.connection.output ++ session.connection.outputLease.getD []

/-- The stream holds the responses of the first frames, in their order and with
their ids. Only frames in flight are left, unless the connection drains after a
failure. -/
structure Session.InOrder (session : Session) : Prop where
  numbered : session.answers.map Prod.fst = List.range session.answers.length
  answered : ∀ answer ∈ session.answers,
    (session.consumed[answer.1]?).map RequestView.requestId = some answer.2.requestId
  complete : session.connection.closeAfterFlush = false →
    session.consumed.length = session.answers.length + session.inFlight.length
  whole : session.stream = (session.answers.map fun answer => encodeResponse answer.2).flatten

instance (session : Session) : Decidable session.InOrder :=
  decidable_of_iff
    (session.answers.map Prod.fst = List.range session.answers.length ∧
      (∀ answer ∈ session.answers,
        (session.consumed[answer.1]?).map RequestView.requestId = some answer.2.requestId) ∧
      (session.connection.closeAfterFlush = false →
        session.consumed.length = session.answers.length + session.inFlight.length) ∧
      session.stream = (session.answers.map fun answer => encodeResponse answer.2).flatten)
    ⟨fun all => ⟨all.1, all.2.1, all.2.2.1, all.2.2.2⟩,
      fun order => ⟨order.numbered, order.answered, order.complete, order.whole⟩⟩

structure Session.Ordered (session : Session) : Prop extends session.InOrder where
  pending : session.inFlight.map PendingRequest.frame =
    List.range' session.answers.length session.inFlight.length
  own : ∀ request ∈ session.inFlight,
    (session.consumed[request.frame]?).map RequestView.requestId = some request.requestId
  busy : session.connection.requestInFlight = true ↔ session.inFlight ≠ []
  window : session.connection.coldReadInFlight = false →
    session.connection.mutationsInFlight = session.inFlight.length
  cold : session.connection.coldReadInFlight = true →
    session.connection.mutationsInFlight = 0 ∧ session.inFlight.length = 1
  bound : session.inFlight ≠ [] →
    session.connection.boundWorker = some session.connection.executorId

def SessionState.Ordered : SessionState → Prop
  | .open session => session.Ordered
  | .handedOff session =>
    session.Ordered ∧ session.inFlight = [] ∧ session.connection.outputLease = none ∧
      session.connection.closeAfterFlush = false
  | .closed => True

/-! ## Queued responses -/

/-- A response that has been queued, in the buffer or as a lease. -/
structure Queued (session : Session) (frame : Nat) (response : ResponseView) (after : Session) :
    Prop where
  answers : after.answers = session.answers ++ [(frame, response)]
  stream : after.stream = session.stream ++ encodeResponse response
  consumed : after.consumed = session.consumed
  inFlight : after.inFlight = session.inFlight
  closeAfterFlush : after.connection.closeAfterFlush = session.connection.closeAfterFlush
  requestInFlight : after.connection.requestInFlight = session.connection.requestInFlight
  mutationsInFlight : after.connection.mutationsInFlight = session.connection.mutationsInFlight
  coldReadInFlight : after.connection.coldReadInFlight = session.connection.coldReadInFlight
  boundWorker : after.connection.boundWorker = session.connection.boundWorker
  executorId : after.connection.executorId = session.connection.executorId

variable {config : ServerConfig} {session after : Session} {badAlloc : Bool} {frame : Nat}
  {response : ResponseView}

theorem queueResponse_cases
    (done : queueResponse config session badAlloc frame response = .ok after) :
    session.connection.outputLease = none ∧
      after = { session with
        connection.output := session.connection.output ++ encodeResponse response
        answers := session.answers ++ [(frame, response)] } := by
  revert done
  fun_cases queueResponse config session badAlloc frame response with
  | case5 _ _ _ unleased => exact fun done => ⟨by simpa using unleased, (Except.ok.inj done).symm⟩
  | _ => nofun

theorem queueResponse_queued
    (done : queueResponse config session badAlloc frame response = .ok after) :
    Queued session frame response after := by
  obtain ⟨unleased, rfl⟩ := queueResponse_cases done
  refine ⟨rfl, ?_, rfl, rfl, rfl, rfl, rfl, rfl, rfl, rfl⟩
  simp [Session.stream, unleased]

theorem queueOwnedResponse_queued {allow : Bool}
    (done : queueOwnedResponse config session badAlloc frame response allow = .ok after) :
    Queued session frame response after := by
  revert done
  fun_cases queueOwnedResponse config session badAlloc frame response allow with
  | case1 => exact queueResponse_queued
  | case6 _ _ unleased =>
    rintro ⟨⟩
    refine ⟨rfl, ?_, rfl, rfl, rfl, rfl, rfl, rfl, rfl, rfl⟩
    have none : session.connection.outputLease = none := by simpa using unleased
    simp [Session.stream, none]
  | _ => nofun

/-! ## Answers and submissions -/

theorem requestId_append {consumed : List RequestView} {index id : Nat} (more : List RequestView)
    (found : (consumed[index]?).map RequestView.requestId = some id) :
    ((consumed ++ more)[index]?).map RequestView.requestId = some id := by
  obtain ⟨request, stored, same⟩ := Option.map_eq_some_iff.mp found
  rw [List.getElem?_append_left (List.getElem?_eq_some_iff.mp stored).1, stored]
  exact congrArg some same

theorem numbered_append {answers : List (Nat × ResponseView)} (response : ResponseView)
    (numbered : answers.map Prod.fst = List.range answers.length) :
    (answers ++ [(answers.length, response)]).map Prod.fst =
      List.range (answers ++ [(answers.length, response)]).length := by
  rw [List.map_append, numbered, List.length_append, List.length_singleton, List.range_succ]
  rfl

structure Answered (session : Session) (request : RequestView) (response : ResponseView)
    (after : Session) : Prop where
  answers : after.answers = session.answers ++ [(session.consumed.length, response)]
  stream : after.stream = session.stream ++ encodeResponse response
  consumed : after.consumed = session.consumed ++ [request]
  inFlight : after.inFlight = session.inFlight
  requestInFlight : after.connection.requestInFlight = session.connection.requestInFlight
  mutationsInFlight : after.connection.mutationsInFlight = session.connection.mutationsInFlight
  coldReadInFlight : after.connection.coldReadInFlight = session.connection.coldReadInFlight

theorem Queued.answered (queued : Queued session session.consumed.length response after)
    (request : RequestView) (size : Nat) :
    Answered session request response (after.consume request size) where
  answers := queued.answers
  stream := queued.stream
  consumed := by
    show after.consumed ++ [request] = _
    rw [queued.consumed]
  inFlight := queued.inFlight
  requestInFlight := queued.requestInFlight
  mutationsInFlight := queued.mutationsInFlight
  coldReadInFlight := queued.coldReadInFlight

section Ordered

variable (ordered : session.Ordered)
include ordered

theorem Session.Ordered.answer (idle : session.inFlight = [])
    (running : session.connection.closeAfterFlush = false) {request : RequestView}
    (answered : Answered session request response after)
    (own : response.requestId = request.requestId) : after.Ordered := by
  have count : session.consumed.length = session.answers.length := by
    rw [ordered.complete running, idle, List.length_nil, Nat.add_zero]
  constructor
  case toInOrder =>
    refine ⟨?_, ?_, ?_, ?_⟩
    · rw [answered.answers, count]
      exact numbered_append response ordered.numbered
    · rw [answered.answers, answered.consumed]
      intro answer member
      rcases List.mem_append.mp member with old | new
      · exact requestId_append _ (ordered.answered answer old)
      · rw [List.mem_singleton.mp new, List.getElem?_concat_length]
        exact congrArg some own.symm
    · intro _
      rw [answered.answers, answered.consumed, answered.inFlight, idle, List.length_append,
        List.length_append, count]
      rfl
    · rw [answered.stream, answered.answers, ordered.whole]
      simp
  case pending =>
    rw [answered.inFlight, idle]
    rfl
  case own =>
    rw [answered.inFlight, idle]
    exact nofun
  case busy =>
    rw [answered.requestInFlight, answered.inFlight]
    exact ordered.busy
  case window =>
    rw [answered.coldReadInFlight, answered.mutationsInFlight, answered.inFlight]
    exact ordered.window
  case cold =>
    rw [answered.coldReadInFlight, answered.mutationsInFlight, answered.inFlight]
    exact ordered.cold
  case bound =>
    rw [answered.inFlight, idle]
    exact fun flying => absurd rfl flying

theorem Session.Ordered.submit
    (running : session.connection.closeAfterFlush = false) (connection : Connection)
    (output : connection.output = session.connection.output)
    (lease : connection.outputLease = session.connection.outputLease)
    (busy : connection.requestInFlight = true)
    (window : connection.coldReadInFlight = false →
      connection.mutationsInFlight = session.inFlight.length + 1)
    (cold : connection.coldReadInFlight = true →
      connection.mutationsInFlight = 0 ∧ session.inFlight = [])
    (bound : connection.boundWorker = some connection.executorId)
    (request : RequestView) (size : Nat) :
    (Session.consume
      { session with
        connection := connection
        inFlight := session.inFlight ++ [⟨session.consumed.length, request.requestId⟩] }
      request size).Ordered := by
  have count := ordered.complete running
  have stream : (Session.consume
      { session with
        connection := connection
        inFlight := session.inFlight ++ [⟨session.consumed.length, request.requestId⟩] }
      request size).stream = session.stream := by
    simp only [Session.stream, Session.consume, output, lease]
  constructor
  case toInOrder =>
    refine ⟨ordered.numbered, fun answer member => requestId_append _ (ordered.answered answer member),
      fun _ => ?_, stream.trans ordered.whole⟩
    simp only [Session.consume, List.length_append, List.length_singleton]
    omega
  case pending =>
    simp only [Session.consume, List.map_append, List.length_append, List.length_singleton,
      ordered.pending, List.range'_concat, Nat.one_mul, List.map_cons, List.map_nil]
    rw [count]
  case own =>
    intro pending member
    rcases List.mem_append.mp member with old | new
    · exact requestId_append _ (ordered.own pending old)
    · rw [List.mem_singleton.mp new]
      simp [Session.consume]
  case busy =>
    simp only [Session.consume, busy, ne_eq, List.append_eq_nil_iff, reduceCtorEq, and_false,
      not_false_eq_true]
  case window =>
    intro warm
    simp only [Session.consume, List.length_append, List.length_singleton]
    exact window warm
  case cold =>
    intro reading
    obtain ⟨none, idle⟩ := cold reading
    simp only [Session.consume, idle, List.nil_append, List.length_singleton]
    exact ⟨none, trivial⟩
  case bound => exact fun _ => bound

theorem Session.Ordered.complete_head {request : PendingRequest} {rest : List PendingRequest}
    (flying : session.inFlight = request :: rest)
    {waiting : Session} (queued : Queued waiting request.frame response after)
    (own : response.requestId = request.requestId)
    (consumed : waiting.consumed = session.consumed)
    (answers : waiting.answers = session.answers) (stream : waiting.stream = session.stream)
    (left : waiting.inFlight = rest)
    (closing : waiting.connection.closeAfterFlush = session.connection.closeAfterFlush)
    (busy : waiting.connection.requestInFlight = true ↔ rest ≠ [])
    (window : waiting.connection.mutationsInFlight = rest.length)
    (warm : waiting.connection.coldReadInFlight = false)
    (bound : waiting.connection.boundWorker = some waiting.connection.executorId) :
    after.Ordered := by
  have pending := ordered.pending
  rw [flying, List.length_cons, List.range'_succ, List.map_cons, List.cons.injEq] at pending
  obtain ⟨first, later⟩ := pending
  rw [first] at queued
  have head := ordered.own request (by rw [flying]; exact List.mem_cons_self)
  constructor
  case toInOrder =>
    refine ⟨?_, ?_, ?_, ?_⟩
    · rw [queued.answers, answers]
      exact numbered_append response ordered.numbered
    · rw [queued.answers, queued.consumed, answers, consumed]
      intro answer member
      rcases List.mem_append.mp member with old | new
      · exact ordered.answered answer old
      · rw [List.mem_singleton.mp new, own, ← first]
        exact head
    · rw [queued.closeAfterFlush, closing, queued.consumed, consumed, queued.answers, answers,
        queued.inFlight, left]
      intro running
      have count := ordered.complete running
      rw [flying, List.length_cons] at count
      rw [List.length_append, List.length_singleton]
      omega
    · rw [queued.stream, queued.answers, answers, stream, ordered.whole]
      simp
  case pending =>
    rw [queued.inFlight, left, queued.answers, answers, List.length_append]
    exact later
  case own =>
    rw [queued.inFlight, left, queued.consumed, consumed]
    intro other member
    exact ordered.own other (by rw [flying]; exact List.mem_cons_of_mem _ member)
  case busy =>
    rw [queued.requestInFlight, queued.inFlight, left]
    exact busy
  case window =>
    rw [queued.mutationsInFlight, queued.inFlight, left]
    exact fun _ => window
  case cold =>
    rw [queued.coldReadInFlight, warm]
    exact nofun
  case bound =>
    intro _
    rw [queued.boundWorker, queued.executorId]
    exact bound

theorem Session.Ordered.withConnection (connection : Connection)
    (output : connection.output = session.connection.output)
    (lease : connection.outputLease = session.connection.outputLease)
    (closing : connection.closeAfterFlush = session.connection.closeAfterFlush)
    (busy : connection.requestInFlight = session.connection.requestInFlight)
    (mutations : connection.mutationsInFlight = session.connection.mutationsInFlight)
    (cold : connection.coldReadInFlight = session.connection.coldReadInFlight)
    (bound : session.inFlight ≠ [] → connection.boundWorker = some connection.executorId) :
    ({ session with connection := connection } : Session).Ordered where
  numbered := ordered.numbered
  answered := ordered.answered
  complete := by
    rw [closing]
    exact ordered.complete
  whole := by
    rw [← ordered.whole]
    simp only [Session.stream, output, lease]
  pending := ordered.pending
  own := ordered.own
  busy := by
    rw [busy]
    exact ordered.busy
  window := by
    rw [cold, mutations]
    exact ordered.window
  cold := by
    rw [cold, mutations]
    exact ordered.cold
  bound := bound

/-! ## Draining -/

theorem Session.Ordered.draining (consumed : List RequestView) :
    ({ session with
        connection := { session.connection with closeAfterFlush := true, input := [] }
        consumed := session.consumed ++ consumed } : Session).Ordered :=
  { ordered with
    answered := fun answer member => requestId_append _ (ordered.answered answer member)
    complete := nofun
    own := fun request member => requestId_append _ (ordered.own request member) }

theorem drainOrClose_ordered : (drainOrClose session).Ordered := by
  unfold drainOrClose
  split
  · have drained := ordered.draining []
    rw [List.append_nil] at drained
    exact drained
  · trivial

theorem drainOrClose_consume (request : RequestView) (size : Nat) :
    (drainOrClose (session.consume request size)).Ordered := by
  unfold drainOrClose
  split
  · exact ordered.draining [request]
  · trivial

end Ordered

end GlifiStore.Server
