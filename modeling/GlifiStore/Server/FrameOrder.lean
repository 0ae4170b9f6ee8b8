import GlifiStore.Server.ResponseOrder

/-!
# Frames and the order of responses

Each turn over a frame keeps the order, if it meets a condition on the state of
the connection and on what the server decides about the frame.
-/

namespace GlifiStore.Server

open ByteLayout

variable {config : ServerConfig} {session after : Session} {response : ResponseView}
variable {size : Nat} {decisions : Decisions} {request : RequestView}

/-! ## The condition -/

section Condition

variable (config session decisions request)

/-- What `transfer_connection` refuses and cleans up after. -/
def HandoffRefused : Prop :=
  decisions.pollerRemoves = false ∨ (decisions.handoffTaken = false ∧ decisions.pollerAdds = true)

instance : Decidable (HandoffRefused decisions) :=
  inferInstanceAs (Decidable (_ ∨ _))

/-- A BIND that leads to another Worker. -/
def BindsElsewhere : Prop :=
  session.connection.initialized = true ∧ session.connection.boundWorker = none ∧
    request.targetWorker < config.workerCount ∧
    request.targetWorker ≠ session.connection.executorId

instance : Decidable (BindsElsewhere config session request) :=
  inferInstanceAs (Decidable (_ ∧ _))

/-- The checks of `process_frames` before a frame is bound or dispatched. -/
def Passes : Prop :=
  decisions.shuttingDown = false ∧ decisions.authorized = true ∧ decisions.admitsRequest = true ∧
    decisions.admitsPrincipal = true

instance : Decidable (Passes decisions) :=
  inferInstanceAs (Decidable (_ ∧ _))

def Admitted : Prop :=
  Passes decisions ∧ config.owner request.key = session.connection.executorId ∧
    decisions.submits = true

instance : Decidable (Admitted config session decisions request) :=
  inferInstanceAs (Decidable (_ ∧ _))

/-- Behind a mutation in flight only mutations that are taken are parsed, and a
handoff is refused only to a connection with nothing else to send. -/
structure OrderlyFrame : Prop where
  taken : session.connection.mutationsInFlight ≠ 0 → request.opcode.isMutation = true →
    Admitted config session decisions request
  drained : request.opcode = .bindWorker → Passes decisions → BindsElsewhere config session request →
    HandoffRefused decisions → session.connection.hasPendingOutput = false

def Orderly : SessionState → Event → Prop
  | .open session, .frame decisions =>
    ∀ request size, decodeRequest session.connection.input = .ok (some (request, size)) →
      OrderlyFrame config session decisions request
  | .open _, .mutationCompleted index expiryArmed _ _ => index = 0 ∨ expiryArmed = false
  | _, _ => True

instance : Decidable (OrderlyFrame config session decisions request) :=
  decidable_of_iff
    ((session.connection.mutationsInFlight ≠ 0 → request.opcode.isMutation = true →
        Admitted config session decisions request) ∧
      (request.opcode = .bindWorker → Passes decisions → BindsElsewhere config session request →
        HandoffRefused decisions → session.connection.hasPendingOutput = false))
    ⟨fun both => ⟨both.1, both.2⟩, fun orderly => ⟨orderly.taken, orderly.drained⟩⟩

instance : Decidable (Orderly config (.open session) (.frame decisions)) :=
  match decoded : decodeRequest session.connection.input with
  | .ok (some (request, size)) =>
    decidable_of_iff (OrderlyFrame config session decisions request)
      ⟨fun orderly other otherSize found => by
        obtain ⟨rfl, -⟩ : request = other ∧ size = otherSize := by
          simpa only [decoded, Except.ok.injEq, Option.some.injEq, Prod.mk.injEq] using found
        exact orderly,
      fun orderly => orderly request size decoded⟩
  | .ok none | .error _ => .isTrue fun _ _ found => by simp [decoded] at found

instance : (state : SessionState) → (event : Event) → Decidable (Orderly config state event)
  | .open _, .frame _ => inferInstance
  | .open _, .mutationCompleted index expiryArmed _ _ =>
    inferInstanceAs (Decidable (index = 0 ∨ expiryArmed = false))
  | .open _, .receive .. | .open _, .receiveWhileWriting .. | .open _, .endOfFile
  | .open _, .written _ | .open _, .flushed | .open _, .coldReadCompleted .. | .open _, .adopt _
  | .open _, .requestTimeout | .open _, .close | .handedOff _, _ | .closed, _ => .isTrue trivial

end Condition

/-! ## Frames -/

theorem answerFrame_ordered (ordered : session.Ordered) (idle : session.inFlight = [])
    (running : session.connection.closeAfterFlush = false) (decisions : Decisions) (size : Nat)
    (own : response.requestId = request.requestId) :
    (answerFrame config session decisions request size response).state.Ordered := by
  unfold answerFrame
  cases queued : queueResponse config session decisions.queueBadAlloc session.consumed.length
      response with
  | error error => exact drainOrClose_ordered ordered
  | ok after => exact ordered.answer idle running ((queueResponse_queued queued).answered request size) own

theorem executeLocal_ordered (ordered : session.Ordered)
    (running : session.connection.closeAfterFlush = false)
    (warm : session.connection.coldReadInFlight = false)
    (bound : session.connection.boundWorker = some session.connection.executorId) (size : Nat)
    (orderly : session.inFlight = [] ∨ request.opcode.isMutation ∧ decisions.submits) :
    (executeLocal config session decisions request size).state.Ordered := by
  have answers : session.inFlight = [] → ∀ response : ResponseView,
      response.requestId = request.requestId →
      (answerFrame config session decisions request size response).state.Ordered :=
    fun idle response own => answerFrame_ordered ordered idle running decisions size own
  have mutated : (Session.consume
      { session with
        connection :=
          { session.connection with
            requestInFlight := true
            mutationsInFlight := session.connection.mutationsInFlight + 1 }
        inFlight := session.inFlight ++ [⟨session.consumed.length, request.requestId⟩] }
      request size).Ordered := by
    refine ordered.submit running
      { session.connection with
        requestInFlight := true
        mutationsInFlight := session.connection.mutationsInFlight + 1 }
      rfl rfl rfl (fun _ => ?_) (fun reading => ?_) bound request size
    · exact congrArg (· + 1) (ordered.window warm)
    · exact nomatch warm.symm.trans reading
  unfold executeLocal
  cases opcode : request.opcode with
  | get =>
    have idle : session.inFlight = [] := orderly.resolve_right (by simp [opcode, RequestOpcode.isMutation])
    cases decisions.read with
    | refused status => exact answers idle _ rfl
    | value bytes =>
      simp only
      split
      · cases queued : queueOwnedResponse config session decisions.queueBadAlloc
            session.consumed.length { respondTo config session request .ok with value := bytes }
            true with
        | error error => exact drainOrClose_ordered ordered
        | ok after =>
          exact ordered.answer idle running ((queueOwnedResponse_queued queued).answered request size)
            rfl
      · exact answers idle _ rfl
    | cold =>
      refine ordered.submit running
        { session.connection with requestInFlight := true, coldReadInFlight := true }
        rfl rfl rfl nofun (fun _ => ⟨?_, idle⟩) bound request size
      exact (ordered.window warm).trans (by rw [idle]; rfl)
  | put | erase =>
    simp only
    split
    · exact mutated
    · next refused => exact answers (orderly.resolve_right fun both => refused both.2) _ rfl
  | init | ping | health | ready | stats | backup | bindWorker =>
    exact answers (orderly.resolve_right (by simp [opcode, RequestOpcode.isMutation])) _ rfl

/-! ## Binding -/

theorem Queued.answered_consumed {bound : Option Nat}
    (queued : Queued { session.consume request size with connection.boundWorker := bound }
      session.consumed.length response after) :
    Answered session request response after :=
  { queued with }

theorem refuseHandoff_ordered {bound : Session} {target : Nat} (ordered : session.Ordered)
    (idle : session.inFlight = []) (running : session.connection.closeAfterFlush = false)
    (empty : session.connection.hasPendingOutput = false)
    (answered : Answered session request response bound) (sent : bound.sent = session.sent) :
    (refuseHandoff config bound decisions session.consumed.length target
      request.requestId).state.Ordered := by
  have whole : session.stream = session.sent := by
    simp only [Connection.hasPendingOutput, Bool.or_eq_false_iff, decide_eq_false_iff_not,
      Decidable.not_not, Option.isSome_eq_false_iff, Option.isNone_iff_eq_none] at empty
    simp [Session.stream, empty]
  unfold refuseHandoff
  simp only
  split
  · trivial
  · next after queued =>
    have queued := queueResponse_queued queued
    have again : Answered session request (handoffOverloaded config target request.requestId)
        { after with connection := { after.connection with closeAfterFlush := true, input := [] } } := by
      refine ⟨queued.answers.trans ?_, queued.stream.trans ?_,
        queued.consumed.trans answered.consumed, queued.inFlight.trans answered.inFlight,
        queued.requestInFlight.trans answered.requestInFlight,
        queued.mutationsInFlight.trans answered.mutationsInFlight,
        queued.coldReadInFlight.trans answered.coldReadInFlight⟩
      · show bound.answers.dropLast ++ _ = _
        rw [answered.answers, List.dropLast_concat]
      · rw [whole, ← sent]
        simp [Session.stream]
    exact ordered.answer idle running again rfl

theorem Session.Ordered.idle_flags (ordered : session.Ordered) (idle : session.inFlight = []) :
    session.connection.requestInFlight = false ∧ session.connection.coldReadInFlight = false := by
  constructor
  · refine Bool.eq_false_iff.mpr fun busy => ordered.busy.mp busy idle
  · refine Bool.eq_false_iff.mpr fun reading => ?_
    have one := (ordered.cold reading).2
    rw [idle] at one
    exact nomatch one

theorem transferConnection_ordered {bound : Session} {target : Nat} (ordered : session.Ordered)
    (idle : session.inFlight = []) (running : session.connection.closeAfterFlush = false)
    (orderly : HandoffRefused decisions → session.connection.hasPendingOutput = false)
    (answered : Answered session request response bound)
    (own : response.requestId = request.requestId) (sent : bound.sent = session.sent)
    (staying : bound.connection.closeAfterFlush = false) :
    (transferConnection config bound decisions session.consumed.length target
      request.requestId).state.Ordered := by
  have boundOrdered := ordered.answer idle running answered own
  fun_cases transferConnection config bound decisions session.consumed.length target
      request.requestId with
  | case1 => exact drainOrClose_ordered boundOrdered
  | case2 _ _ kept =>
    exact refuseHandoff_ordered ordered idle running (orderly (.inl (by simpa using kept)))
      answered sent
  | case3 _ unleased =>
    exact ⟨boundOrdered.withConnection { bound.connection with boundWorker := some target }
        rfl rfl rfl rfl rfl rfl (fun flying => absurd (answered.inFlight.trans idle) flying),
      answered.inFlight.trans idle, by simpa using unleased, staying⟩
  | case4 => trivial
  | case5 _ _ _ refused added =>
    have reset : Answered session request response
        { bound with
          connection :=
            { bound.connection with
              pipelinedStoreInputObserved := false
              requestInFlight := false
              coldReadInFlight := false } } :=
      ⟨answered.answers, answered.stream, answered.consumed, answered.inFlight,
        (ordered.idle_flags idle).1.symm, answered.mutationsInFlight,
        (ordered.idle_flags idle).2.symm⟩
    exact refuseHandoff_ordered ordered idle running
      (orderly (.inr ⟨by simpa using refused, by simpa using added⟩)) reset sent

theorem bindConnection_ordered (ordered : session.Ordered) (idle : session.inFlight = [])
    (running : session.connection.closeAfterFlush = false)
    (orderly : BindsElsewhere config session request → HandoffRefused decisions →
      session.connection.hasPendingOutput = false) :
    ((bindConnection config (session.consume request size) decisions session.consumed.length
      request).outcome config decisions).state.Ordered := by
  unfold bindConnection
  simp only
  split
  · cases queued : queueResponse config (session.consume request size) decisions.queueBadAlloc
        session.consumed.length _ with
    | error error => exact drainOrClose_consume ordered request size
    | ok after =>
      exact ordered.answer idle running (queueResponse_queued queued).answered_consumed rfl
  · next valid =>
    simp only [not_or, Bool.not_eq_true, Bool.not_eq_false, Option.isSome_eq_false_iff,
      Option.isNone_iff_eq_none, Nat.not_le] at valid
    cases queued : queueResponse config
        { session.consume request size with connection.boundWorker := some request.targetWorker }
        decisions.queueBadAlloc session.consumed.length _ with
    | error error => exact drainOrClose_consume ordered request size
    | ok after =>
      have answered := (queueResponse_queued queued).answered_consumed
      obtain ⟨-, sameSession⟩ := queueResponse_cases queued
      simp only
      split
      · exact ordered.answer idle running answered rfl
      · next elsewhere =>
        refine transferConnection_ordered ordered idle running
          (orderly ⟨valid.1, valid.2.1, valid.2.2, elsewhere⟩) answered rfl ?_ ?_
        · rw [sameSession]
          rfl
        · rw [sameSession]
          exact running

theorem dispatchRequest_ordered (ordered : session.Ordered)
    (running : session.connection.closeAfterFlush = false)
    (warm : session.connection.coldReadInFlight = false)
    (orderly : session.inFlight = [] ∨ request.opcode.isMutation = true ∧
      Admitted config session decisions request) :
    ((dispatchRequest config session decisions request size).outcome config
      decisions).state.Ordered := by
  fun_cases dispatchRequest config session decisions request size with
  | case1 _ _ _ unbound =>
    have idle : session.inFlight = [] := by
      refine Classical.byContradiction fun flying => ?_
      exact nomatch (ordered.bound flying).symm.trans unbound
    exact answerFrame_ordered ordered idle running decisions size rfl
  | case2 => exact drainOrClose_ordered ordered
  | case3 _ _ _ _ _ foreign =>
    exact answerFrame_ordered ordered (orderly.resolve_right fun both => foreign both.2.2.1) running
      decisions size rfl
  | case4 _ _ _ bound =>
    exact executeLocal_ordered ordered running warm (not_not.mp bound) size
      (orderly.imp_right fun both => ⟨both.1, both.2.2.2⟩)

theorem immediateResponse_cases (config : ServerConfig) (decisions : Decisions) (session : Session)
    (request : RequestView) :
    (immediateResponse config decisions session request).2.requestId = request.requestId ∧
      ∃ initialized, (immediateResponse config decisions session request).1 =
        { session with connection.initialized := initialized } := by
  fun_cases immediateResponse config decisions session request <;> exact ⟨rfl, _, rfl⟩

theorem handleFrame_ordered (ordered : session.Ordered)
    (running : session.connection.closeAfterFlush = false)
    (warm : session.connection.coldReadInFlight = false)
    (barrier : session.inFlight = [] ∨ request.opcode.isMutation = true)
    (orderly : OrderlyFrame config session decisions request) :
    ((handleFrame config session decisions request size).outcome config
      decisions).state.Ordered := by
  have flying : session.inFlight = [] ∨ request.opcode.isMutation = true ∧
      Admitted config session decisions request := by
    by_cases idle : session.inFlight = []
    · exact .inl idle
    · have mutation := barrier.resolve_left idle
      refine .inr ⟨mutation, orderly.taken ?_ mutation⟩
      rw [ordered.window warm]
      exact fun none => idle (List.eq_nil_of_length_eq_zero none)
  have refused : ¬ (Passes decisions) → ∀ status,
      (answerFrame config session decisions request size
        (respondTo config session request status)).state.Ordered := fun stopped status =>
    answerFrame_ordered ordered (flying.resolve_right fun both => stopped both.2.1) running
      decisions size rfl
  have quiet : request.opcode.isMutation = false → session.inFlight = [] := fun other =>
    flying.resolve_right fun both => by rw [other] at both; exact nomatch both.1
  fun_cases handleFrame config session decisions request size with
  | case1 _ stopping => exact refused (fun passes => by simp [passes.1] at stopping) _
  | case2 _ _ denied => exact refused (fun passes => denied passes.2.1) _
  | case3 _ _ _ quota => exact refused (fun passes => quota.2 passes.2.2.1) _
  | case4 _ _ _ _ quota => exact refused (fun passes => quota.2 passes.2.2.2) _
  | case5 served denied limited metered opcode =>
    simp only [opcode, RequestOpcode.isLifecycleProbe, Bool.false_eq_true, not_false_eq_true, and_true,
      true_and, Bool.not_eq_true, Bool.not_eq_false] at served denied limited metered
    exact bindConnection_ordered ordered (quiet (by rw [opcode]; rfl)) running
      (orderly.drained opcode ⟨served, denied, limited, metered⟩)
  | case6 | case7 | case8 =>
    exact dispatchRequest_ordered (ordered.withConnection _ rfl rfl rfl rfl rfl rfl ordered.bound)
      running warm flying
  | _ =>
    next opcode left response immediate =>
    obtain ⟨own, initialized, same⟩ := immediateResponse_cases config decisions session request
    rw [immediate] at own same
    obtain rfl : left = _ := same
    exact answerFrame_ordered
      (ordered.withConnection { session.connection with initialized := initialized }
        rfl rfl rfl rfl rfl rfl ordered.bound)
      (quiet (by rw [opcode]; rfl)) running decisions size own

theorem processFrame_ordered (ordered : session.Ordered) (orderly : ∀ request size,
      decodeRequest session.connection.input = .ok (some (request, size)) →
        OrderlyFrame config session decisions request) :
    (processFrame config session decisions).state.Ordered := by
  unfold processFrame
  fun_cases frameTurn config session decisions with
  | case1 =>
    exact ordered.withConnection { session.connection with input := [] }
      rfl rfl rfl rfl rfl rfl ordered.bound
  | case6 => exact drainOrClose_ordered ordered
  | case9 _ running _ warm _ _ request size decoded barrier =>
    have warm : session.connection.coldReadInFlight = false := by simpa using warm
    refine handleFrame_ordered ordered (by simpa using running) warm ?_ (orderly request size decoded)
    rw [not_and_or, ordered.window warm, Nat.not_lt, Nat.le_zero, List.length_eq_zero_iff,
      not_not] at barrier
    exact barrier
  | _ => exact ordered

end GlifiStore.Server
