import GlifiStore.Server.Connection
import GlifiStore.Server.ResponseOrder

/-!
# The binding of a session

The Reactor of a connection, the Worker it is bound to and whether it is initialized.
No event takes a binding back once a turn has left it on the connection.
-/

namespace GlifiStore.Server

structure SessionBinding where
  executorId : Nat
  boundWorker : Option Nat
  initialized : Bool
  deriving DecidableEq, Repr

def Session.binding (session : Session) : SessionBinding where
  executorId := session.connection.executorId
  boundWorker := session.connection.boundWorker
  initialized := session.connection.initialized

/-- A bound connection keeps its binding, and one that becomes bound is initialized. -/
structure SessionBinding.Follows (after before : SessionBinding) : Prop where
  executorId : after.executorId = before.executorId
  boundWorker : before.boundWorker.isSome → after.boundWorker = before.boundWorker
  initialized : before.initialized → after.initialized
  whenBound : (before.boundWorker.isSome → before.initialized) →
    after.boundWorker.isSome → after.initialized

/-- The session stays with its Reactor and follows the binding, or is closed. -/
def SessionState.Follows (before : SessionBinding) : SessionState → Prop
  | .open session => session.binding.Follows before
  | .handedOff _ => False
  | .closed => True

variable {config : ServerConfig} {session after : Session} {decisions : Decisions}
  {before : SessionBinding}

theorem SessionBinding.Follows.refl (binding : SessionBinding) : binding.Follows binding :=
  ⟨rfl, fun _ => rfl, id, id⟩

theorem SessionBinding.Follows.started (binding : SessionBinding) :
    { binding with initialized := true }.Follows binding :=
  ⟨rfl, fun _ => rfl, fun _ => rfl, fun _ _ => rfl⟩

theorem SessionBinding.Follows.bind (unbound : before.boundWorker = none)
    (initialized : before.initialized) (boundWorker : Option Nat) :
    { before with boundWorker }.Follows before :=
  ⟨rfl, fun bound => by simp [unbound] at bound, id, fun _ _ => initialized⟩

/-! ## Responses -/

variable {badAlloc : Bool} {frame : Nat} {response : ResponseView}

theorem queueResponse_binding
    (queued : queueResponse config session badAlloc frame response = .ok after) :
    after.binding = session.binding := by
  obtain ⟨_, rfl⟩ := queueResponse_cases queued
  rfl

theorem queueOwnedResponse_binding {allow : Bool}
    (queued : queueOwnedResponse config session badAlloc frame response allow = .ok after) :
    after.binding = session.binding := by
  revert queued
  fun_cases queueOwnedResponse config session badAlloc frame response allow with
  | case1 => exact queueResponse_binding
  | case6 =>
    rintro ⟨⟩
    rfl
  | _ => rintro ⟨⟩

theorem drainOrClose_follows (follows : session.binding.Follows before) :
    (drainOrClose session).Follows before := by
  unfold drainOrClose
  split
  · exact follows
  · trivial

theorem answerFrame_follows (follows : session.binding.Follows before) (request : RequestView)
    (size : Nat) (response : ResponseView) :
    (answerFrame config session decisions request size response).state.Follows before := by
  unfold answerFrame
  split
  · exact drainOrClose_follows follows
  · next after queued =>
    rw [← queueResponse_binding queued] at follows
    exact follows

theorem immediateResponse_binding (request : RequestView) :
    (immediateResponse config decisions session request).1.binding.Follows session.binding := by
  unfold immediateResponse
  dsimp only
  split
  · split
    · exact .started session.binding
    · exact .refl _
  all_goals repeat' split
  all_goals exact .refl _

theorem executeLocal_follows (request : RequestView) (size : Nat) :
    (executeLocal config session decisions request size).state.Follows session.binding := by
  fun_cases executeLocal config session decisions request size with
  | case2 => exact drainOrClose_follows (.refl _)
  | case3 _ _ _ _ _ _ after queued =>
    have same := queueOwnedResponse_binding queued
    exact same ▸ SessionBinding.Follows.refl _
  | case5 | case6 | case8 => exact .refl _
  | _ => exact answerFrame_follows (.refl _) ..

theorem refuseHandoff_follows (follows : { session.binding with boundWorker := none }.Follows before)
    (frame target requestId : Nat) :
    (refuseHandoff config session decisions frame target requestId).state.Follows before := by
  unfold refuseHandoff
  dsimp only
  split
  · trivial
  · next after queued =>
    have same := queueResponse_binding queued
    change after.binding.Follows before
    rw [same]
    exact follows

/-! ## Frames -/

/-- What a turn leaves to be done, and that it follows the binding. -/
def FrameTurn.Follows (config : ServerConfig) (decisions : Decisions) (before : Session) :
    FrameTurn → Prop
  | .settled outcome => outcome.state.Follows before.binding
  | .transfer session _ target _ =>
    before.binding.boundWorker = none ∧ before.binding.initialized ∧
      session.binding = { before.binding with boundWorker := some target }
  | .execute session request size =>
    decodeRequest before.connection.input = .ok (some (request, size)) ∧ decisions.authorized ∧
      session.binding = before.binding ∧
      before.binding.boundWorker = some before.binding.executorId ∧
      config.owner request.key = before.binding.executorId ∧
      (request.opcode = .get ∨ request.opcode = .put ∨ request.opcode = .erase)

theorem bindConnection_follows {consumed : Session} (same : consumed.binding = session.binding)
    (frame : Nat) (request : RequestView) :
    (bindConnection config consumed decisions frame request).Follows config decisions session := by
  have unchanged : consumed.binding.Follows session.binding := same ▸ .refl _
  unfold bindConnection
  dsimp only
  split
  · split
    · exact drainOrClose_follows unchanged
    · next after queued =>
      change after.binding.Follows _
      rw [queueResponse_binding queued]
      exact unchanged
  · next accepted =>
    simp only [not_or, Decidable.not_not, Option.not_isSome_iff_eq_none] at accepted
    obtain ⟨initialized, unbound, _⟩ := accepted
    replace initialized : session.binding.initialized := same ▸ initialized
    replace unbound : session.binding.boundWorker = none := same ▸ unbound
    split
    · exact drainOrClose_follows unchanged
    · next after queued =>
      have bound : after.binding =
          { session.binding with boundWorker := some request.targetWorker } := by
        rw [queueResponse_binding queued, ← same]
        rfl
      split
      · change after.binding.Follows _
        rw [bound]
        exact .bind unbound initialized _
      · exact ⟨unbound, initialized, bound⟩

variable {request : RequestView} {size : Nat}

theorem dispatchRequest_follows {observed : Session} (same : observed.binding = session.binding)
    (authorized : decisions.authorized)
    (decoded : decodeRequest session.connection.input = .ok (some (request, size)))
    (opcode : request.opcode = .get ∨ request.opcode = .put ∨ request.opcode = .erase) :
    (dispatchRequest config observed decisions request size).Follows config decisions session := by
  have unchanged : observed.binding.Follows session.binding := same ▸ .refl _
  fun_cases dispatchRequest config observed decisions request size with
  | case1 | case3 => exact answerFrame_follows unchanged ..
  | case2 => exact drainOrClose_follows unchanged
  | case4 _ _ _ own owner =>
    rw [not_not] at own owner
    exact ⟨decoded, authorized, same, same ▸ own, same ▸ owner, opcode⟩

theorem handleFrame_follows
    (decoded : decodeRequest session.connection.input = .ok (some (request, size))) :
    (handleFrame config session decisions request size).Follows config decisions session := by
  fun_cases handleFrame config session decisions request size with
  | case1 | case2 | case3 | case4 => exact answerFrame_follows (.refl _) ..
  | case5 =>
    have consumed : (session.consume request size).binding = session.binding := rfl
    exact bindConnection_follows consumed ..
  | case6 _ allowed _ _ opcode | case7 _ allowed _ _ opcode | case8 _ allowed _ _ opcode =>
    exact dispatchRequest_follows rfl (not_not.mp allowed) decoded (by simp [opcode])
  | _ =>
    next left response immediate =>
    obtain rfl : _ = left := congrArg Prod.fst immediate
    exact answerFrame_follows (immediateResponse_binding request) ..

theorem frameTurn_follows :
    (frameTurn config session decisions).Follows config decisions session := by
  unfold frameTurn
  dsimp only
  iterate 5
    split
    · exact .refl _
  cases decoded : decodeRequest session.connection.input with
  | error error => exact drainOrClose_follows (.refl _)
  | ok frame =>
    cases frame with
    | none => exact SessionBinding.Follows.refl _
    | some frame =>
      dsimp only
      split
      · exact SessionBinding.Follows.refl _
      · exact handleFrame_follows decoded

/-! ## The other events -/

theorem closeIfDone_follows (follows : session.binding.Follows before) :
    (closeIfDone session).Follows before := by
  unfold closeIfDone
  split
  · trivial
  · exact follows

theorem mutationCompleted_follows (index : Nat) (expiryArmed : Bool) (status : ResponseStatus)
    (badAlloc : Bool) :
    (mutationCompleted config session index expiryArmed status badAlloc).Follows
      session.binding := by
  fun_cases mutationCompleted config session index expiryArmed status badAlloc with
  | case1 => exact .refl _
  | case2 | case3 | case4 => trivial
  | case5 _ _ _ _ _ _ _ _ after queued =>
    change after.binding.Follows _
    rw [queueResponse_binding queued]
    exact .refl _

theorem coldReadCompleted_follows (outcome : Except ResponseStatus Bytes) (badAlloc : Bool) :
    (coldReadCompleted config session outcome badAlloc).Follows session.binding := by
  fun_cases coldReadCompleted config session outcome badAlloc with
  | case1 | case2 => trivial
  | case3 _ _ _ _ _ _ _ _ _ after queued =>
    have same : after.binding = session.binding := by
      cases outcome with
      | error status =>
        have same := queueResponse_binding queued
        exact same
      | ok value =>
        have same := queueOwnedResponse_binding queued
        exact same
    change after.binding.Follows _
    rw [same]
    exact .refl _
  | case4 => exact .refl _

theorem step_follows {event : Event} (notFrame : ∀ decisions, event ≠ .frame decisions) :
    (step config (.open session) event).Follows session.binding := by
  have kept : session.binding.Follows session.binding := .refl _
  cases event with
  | receive bytes badAlloc =>
    change (receive config session bytes badAlloc).Follows _
    unfold receive
    split
    · exact drainOrClose_follows kept
    · exact kept
  | receiveWhileWriting bytes badAlloc =>
    change (receiveWhileWriting config session bytes badAlloc).Follows _
    unfold receiveWhileWriting
    split
    · split <;> exact kept
    · exact kept
  | endOfFile =>
    have ended : Session.binding { session with connection.peerReadClosed := true } =
        session.binding := rfl
    exact closeIfDone_follows (ended ▸ kept)
  | frame decisions => exact absurd rfl (notFrame decisions)
  | written count =>
    change (written session count).Follows _
    unfold written
    dsimp only
    split
    · trivial
    · exact kept
  | flushed => exact closeIfDone_follows kept
  | mutationCompleted index expiryArmed status badAlloc => exact mutationCompleted_follows ..
  | coldReadCompleted outcome badAlloc => exact coldReadCompleted_follows ..
  | adopt adopted => exact kept
  | requestTimeout =>
    change (if session.connection.requestInFlight then SessionState.closed
      else drainOrClose session).Follows _
    split
    · trivial
    · exact drainOrClose_follows kept
  | close => trivial

end GlifiStore.Server
