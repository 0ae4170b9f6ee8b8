import GlifiStore.Server.FrameOrder

/-!
# Responses follow requests

In every run in which nothing that is answered at once meets a mutation in flight,
completions do not overtake each other, and a refused handoff finds nothing else
in the output, the stream holds the responses in the order of the frames.
-/

namespace GlifiStore.Server

open ByteLayout

variable {config : ServerConfig} {session after : Session} {badAlloc : Bool}

/-! ## Completions and the socket -/

section Ordered

variable (ordered : session.Ordered)
include ordered

theorem receive_ordered (bytes : Bytes) : (receive config session bytes badAlloc).Ordered := by
  unfold receive
  split
  · exact drainOrClose_ordered ordered
  · exact ordered.withConnection
      { session.connection with input := session.connection.input ++ bytes }
      rfl rfl rfl rfl rfl rfl ordered.bound

theorem receiveWhileWriting_ordered (bytes : Bytes) :
    (receiveWhileWriting config session bytes badAlloc).Ordered := by
  unfold receiveWhileWriting
  split
  · split
    · have drained := ordered.draining []
      rw [List.append_nil] at drained
      exact drained
    · exact ordered.withConnection
        { session.connection with input := session.connection.input ++ bytes }
        rfl rfl rfl rfl rfl rfl ordered.bound
  · exact ordered

theorem closeIfDone_ordered : (closeIfDone session).Ordered := by
  unfold closeIfDone
  split
  · trivial
  · exact ordered

theorem written_ordered (count : Nat) : (written session count).Ordered := by
  unfold written
  simp only
  split
  · trivial
  · have left : ∀ lease : Bytes, (if lease = [] then none else some lease).getD [] = lease := by
      intro lease
      split
      · next empty => rw [empty]; rfl
      · rfl
    refine ⟨⟨ordered.numbered, ordered.answered, ordered.complete, ?_⟩, ordered.pending, ordered.own,
      ordered.busy, ordered.window, ordered.cold, ordered.bound⟩
    rw [← ordered.whole]
    simp only [Session.stream, left, List.append_assoc]
    rw [← List.drop_append, List.take_append_drop]

theorem mutationCompleted_ordered {index : Nat} {expiryArmed : Bool}
    (orderly : index = 0 ∨ expiryArmed = false) (status : ResponseStatus) :
    (mutationCompleted config session index expiryArmed status badAlloc).Ordered := by
  unfold mutationCompleted
  cases found : session.inFlight[index]? with
  | none => exact ordered
  | some request =>
    simp only
    split
    · trivial
    next inOrder =>
    split
    · trivial
    next expected =>
    simp only [not_or, Bool.not_eq_true, Bool.not_eq_false] at expected
    obtain ⟨busy, warm, some⟩ := expected
    obtain rfl : index = 0 := by
      rcases orderly with first | unarmed
      · exact first
      · simpa [unarmed] using inOrder
    obtain ⟨rest, flying⟩ : ∃ rest, session.inFlight = request :: rest := by
      cases flying : session.inFlight with
      | nil => simp [flying] at found
      | cons first rest =>
        rw [flying, List.getElem?_cons_zero, Option.some.injEq] at found
        exact ⟨rest, by rw [found]⟩
    have window : session.connection.mutationsInFlight - 1 = rest.length := by
      rw [ordered.window warm, flying]
      rfl
    split
    · trivial
    · next after queued =>
      refine ordered.complete_head flying (queueResponse_queued queued) rfl rfl rfl rfl
        (by rw [flying]; rfl) rfl ?_ window warm
        (ordered.bound (by rw [flying]; exact List.cons_ne_nil _ _))
      simp only [window, busy]
      cases rest with
      | nil => simp
      | cons next later => simp

theorem coldReadCompleted_ordered (outcome : Except ResponseStatus Bytes) :
    (coldReadCompleted config session outcome badAlloc).Ordered := by
  simp only [coldReadCompleted]
  cases reading : session.connection.coldReadInFlight with
  | false => exact ordered
  | true =>
    obtain ⟨none, one⟩ := ordered.cold reading
    cases flying : session.inFlight with
    | nil =>
      rw [flying] at one
      exact nomatch one
    | cons request rest =>
      obtain rfl : rest = [] := by
        rw [flying] at one
        exact List.eq_nil_of_length_eq_zero (Nat.succ.inj one)
      simp only
      split
      · trivial
      · have queuedHead : ∀ {response : ResponseView} {after : Session},
            response.requestId = request.requestId →
            Queued
              { session with
                connection :=
                  { session.connection with requestInFlight := false, coldReadInFlight := false }
                inFlight := [] }
              request.frame response after → after.Ordered := fun own queued =>
          ordered.complete_head flying queued own rfl rfl rfl rfl rfl (by simp) none rfl
            (ordered.bound (by rw [flying]; exact List.cons_ne_nil _ _))
        cases outcome with
        | error status =>
          simp only
          split
          · trivial
          · next after queued => exact queuedHead rfl (queueResponse_queued queued)
        | ok value =>
          simp only
          split
          · trivial
          · next after queued => exact queuedHead rfl (queueOwnedResponse_queued queued)

theorem adoptConnection_ordered (idle : session.inFlight = [])
    (unleased : session.connection.outputLease = none)
    (staying : session.connection.closeAfterFlush = false) (adopted : Bool) :
    (adoptConnection session adopted).Ordered := by
  have flags := ordered.idle_flags idle
  have window := ordered.window flags.2
  unfold adoptConnection
  simp only
  split
  · trivial
  split
  · trivial
  refine ordered.withConnection _ rfl unleased.symm staying.symm flags.1.symm ?_ flags.2.symm
    (fun flying => absurd idle flying)
  rw [window, idle]
  rfl

end Ordered

/-! ## Runs -/

theorem step_ordered {state : SessionState} {event : Event} (ordered : state.Ordered)
    (orderly : Orderly config state event) : (step config state event).Ordered := by
  cases state with
  | closed => trivial
  | handedOff session =>
    obtain ⟨inner, idle, unleased, staying⟩ := ordered
    cases event with
    | adopt adopted => exact adoptConnection_ordered inner idle unleased staying adopted
    | close => trivial
    | receive | receiveWhileWriting | endOfFile | frame | written | flushed | mutationCompleted
    | coldReadCompleted | requestTimeout => exact ⟨inner, idle, unleased, staying⟩
  | «open» session =>
    cases event with
    | receive bytes badAlloc => exact receive_ordered ordered bytes
    | receiveWhileWriting bytes badAlloc => exact receiveWhileWriting_ordered ordered bytes
    | endOfFile =>
      exact closeIfDone_ordered (ordered.withConnection
        { session.connection with peerReadClosed := true } rfl rfl rfl rfl rfl rfl ordered.bound)
    | frame decisions => exact processFrame_ordered ordered orderly
    | written count => exact written_ordered ordered count
    | flushed => exact closeIfDone_ordered ordered
    | mutationCompleted index expiryArmed status badAlloc =>
      exact mutationCompleted_ordered ordered orderly status
    | coldReadCompleted outcome badAlloc => exact coldReadCompleted_ordered ordered outcome
    | adopt adopted => exact ordered
    | requestTimeout =>
      show (if session.connection.requestInFlight then _ else drainOrClose session).Ordered
      split
      · trivial
      · exact drainOrClose_ordered ordered
    | close => trivial

def OrderlyRun (config : ServerConfig) : SessionState → List Event → Prop
  | _, [] => True
  | state, event :: rest => Orderly config state event ∧ OrderlyRun config (step config state event) rest

instance (config : ServerConfig) : (state : SessionState) → (events : List Event) →
    Decidable (OrderlyRun config state events)
  | _, [] => .isTrue trivial
  | state, event :: rest =>
    haveI := instDecidableOrderlyRun config (step config state event) rest
    inferInstanceAs (Decidable (_ ∧ _))

theorem run_ordered {state : SessionState} {events : List Event} (ordered : state.Ordered)
    (orderly : OrderlyRun config state events) : (run config state events).Ordered := by
  induction events generalizing state with
  | nil => exact ordered
  | cons event rest ih => exact ih (step_ordered ordered orderly.1) orderly.2

theorem accepted_ordered (executorId : Nat) (tls : Bool) : (accepted executorId tls).Ordered :=
  ⟨⟨rfl, nofun, fun _ => rfl, rfl⟩, rfl, nofun, by simp, fun _ => rfl, nofun, by simp⟩

/-- As long as a connection has its Reactor, its stream is in order. -/
def SessionState.InOrder : SessionState → Prop
  | .open session | .handedOff session => session.InOrder
  | .closed => True

instance : (state : SessionState) → Decidable state.InOrder
  | .open session | .handedOff session => inferInstanceAs (Decidable session.InOrder)
  | .closed => .isTrue trivial

/-- In every state that a run of orderly events reaches, the responses in the stream
are those of the frames consumed so far, in their order. -/
theorem responses_follow_requests (config : ServerConfig) (executorId : Nat) (tls : Bool)
    (events : List Event) (orderly : OrderlyRun config (accepted executorId tls) events) :
    (run config (accepted executorId tls) events).InOrder := by
  have ordered := run_ordered (accepted_ordered executorId tls) orderly
  cases reached : run config (accepted executorId tls) events with
  | closed => trivial
  | «open» session =>
    rw [reached] at ordered
    exact ordered.toInOrder
  | handedOff session =>
    rw [reached] at ordered
    exact ordered.1.toInOrder

/-- Two Workers; every key belongs to the first. -/
def twoWorkers : ServerConfig where
  workerCount := 2
  maximumInputBytes := 4096
  maximumOutputBytes := 4096
  owner _ := 0

def received (requests : List RequestView) : Event :=
  .receive (requests.flatMap fun request => (encodeRequest request).toOption.getD []) false

theorem kNoWorker_fits : kNoWorker < 256 ^ 4 := by decide

def plainRequest (opcode : RequestOpcode) (requestId : UInt64) (key value : Bytes := []) :
    RequestView where
  opcode
  requestId := requestId.toNat
  key
  value
  requestIdFits := requestId.toNat_lt
  expireAtNsFits := zero_fits8
  targetWorkerFits := kNoWorker_fits

/-- A client that binds itself to a Worker after its INIT. -/
def binding (worker : Fin 2) : List RequestView :=
  [plainRequest .init 1,
    { plainRequest .bindWorker 2 with targetWorker := worker, targetWorkerFits := by omega }]

def mutations : List RequestView :=
  [plainRequest .put 3 [107] [118], plainRequest .erase 4 [107]]

def firstMutation : List Event :=
  [received (binding 0 ++ mutations), .frame {}, .frame {}, .frame {}]

/-- Both mutations are in flight before the first one completes. -/
@[irreducible]
def pipelinedMutations : List Event :=
  firstMutation ++
    [.frame {}, .mutationCompleted 0 false .ok false, .written 100,
      .mutationCompleted 0 false .notFound false]

theorem responses_follow_pipelinedMutations :
    OrderlyRun twoWorkers (accepted 0 false) pipelinedMutations ∧
      (run twoWorkers (accepted 0 false) pipelinedMutations).InOrder := by
  have orderly : OrderlyRun twoWorkers (accepted 0 false) pipelinedMutations := by
    decide +kernel
  exact ⟨orderly, responses_follow_requests twoWorkers 0 false pipelinedMutations orderly⟩

/-- An ERASE over the request quota is answered before the PUT in flight; so is an ERASE
whose completion overtakes the PUT's while the server drains; and the refused handoff of
a connection drops the response of its INIT. -/
theorem responses_break_order :
    ¬ (run twoWorkers (accepted 0 false)
        (firstMutation ++ [.frame { admitsRequest := false }])).InOrder ∧
      ¬ (run twoWorkers (accepted 0 false)
        (firstMutation ++ [.frame {}, .mutationCompleted 1 true .ok false])).InOrder ∧
      ¬ (run twoWorkers (accepted 0 false)
        [received (binding 1), .frame {}, .frame { pollerRemoves := false }]).InOrder := by
  decide +kernel

end GlifiStore.Server
