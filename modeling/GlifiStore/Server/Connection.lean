import GlifiStore.Server.Protocol

/-!
# A connection of the server

One connection as its Reactor keeps it, from the first byte to the close, and
every operation of the Reactor on it. The loops over frames and over socket
writes are cut into their turns: an event is one turn of `process_frames`, one
accepted socket write, one completion and so on, in any order, which covers
every order in which `read_ready`, `write_ready` and the completion queues run
them. What the rest of the server decides about a frame comes with the event.

A session also remembers what the peer may observe: the bytes the socket has
accepted, the frames taken from the input, and every response in the stream with
the number of the frame it answers.
-/

namespace GlifiStore.Server

open ByteLayout

def kMaximumMutationWindow : Nat := 32
def kRoutingEpoch : Nat := 1
def kMinimumScatterValueBytes : Nat := 4 * 1024
def kMinimumPipelinedScatterValueBytes : Nat := 16 * 1024

/-- What connections read of the configuration; `owner` is the routing of keys
to Workers. -/
structure ServerConfig where
  workerCount : Nat
  maximumInputBytes : Nat
  maximumOutputBytes : Nat
  owner : Bytes → Nat

/-- `Reactor::Connection`. The buffers are what is left of them from their
offsets on, and `executorId` is the Reactor that owns the connection. -/
structure Connection where
  executorId : Nat
  tls : Bool := false
  input : Bytes := []
  output : Bytes := []
  outputLease : Option Bytes := none
  boundWorker : Option Nat := none
  initialized : Bool := false
  peerReadClosed : Bool := false
  pipelinedStoreInputObserved : Bool := false
  requestInFlight : Bool := false
  mutationsInFlight : Nat := 0
  coldReadInFlight : Bool := false
  closeAfterFlush : Bool := false
  deriving DecidableEq, Repr

variable (connection : Connection)

def Connection.hasPendingOutput : Bool :=
  connection.output ≠ [] || connection.outputLease.isSome

def Connection.pendingOutputBytes : Nat :=
  connection.output.length + (connection.outputLease.getD []).length

/-- `decide_connection_action` is `close_now`. -/
def Connection.closesNow : Bool :=
  if connection.closeAfterFlush then
    !connection.hasPendingOutput && !connection.requestInFlight
  else
    connection.peerReadClosed && !connection.hasPendingOutput && !connection.requestInFlight &&
      connection.input = []

/-- A request in flight: the frame it came in and its id. -/
structure PendingRequest where
  frame : Nat
  requestId : Nat
  deriving DecidableEq, Repr

/-- A connection with what its peer may observe. -/
structure Session where
  connection : Connection
  sent : Bytes := []
  consumed : List RequestView := []
  answers : List (Nat × ResponseView) := []
  inFlight : List PendingRequest := []
  deriving DecidableEq, Repr

inductive SessionState where
  | «open» (session : Session)
  /-- In the handoff queue of the Worker it is bound to. -/
  | handedOff (session : Session)
  | closed
  deriving DecidableEq, Repr

/-! ## Responses -/

variable (config : ServerConfig) (session : Session)

/-- `queue_response`, as the answer to a frame. -/
def queueResponse (badAlloc : Bool) (frame : Nat) (response : ResponseView) : Result Session :=
  let connection := session.connection
  match encodedResponseSize response with
  | .error error => .error error
  | .ok size =>
    if connection.outputLease.isSome then
      fail .corruptedData "contiguous response cannot overtake an active scatter output lease"
    else if size > config.maximumOutputBytes ∨
        connection.pendingOutputBytes > config.maximumOutputBytes - size then
      fail .recordTooLarge "connection output high watermark exceeded"
    else if badAlloc then
      fail .resourceExhausted "response queue allocation failed"
    else
      .ok { session with
        connection.output := connection.output ++ encodeResponse response
        answers := session.answers ++ [(frame, response)] }

def queueOwnedResponse (badAlloc : Bool) (frame : Nat)
    (response : ResponseView) (allowPipelinedScatter : Bool) : Result Session :=
  let connection := session.connection
  if connection.tls ∨ response.value.length < kMinimumScatterValueBytes ∨
      (¬ allowPipelinedScatter ∧
        (connection.input ≠ [] ∨ connection.pipelinedStoreInputObserved)) then
    queueResponse config session badAlloc frame response
  else if connection.outputLease.isSome then
    fail .corruptedData "connection already owns a scatter output lease"
  else
    match encodedResponseSize response with
    | .error error => .error error
    | .ok size =>
      if size > config.maximumOutputBytes ∨
          connection.pendingOutputBytes > config.maximumOutputBytes - size then
        fail .recordTooLarge "connection output high watermark exceeded"
      else if badAlloc then
        fail .resourceExhausted "owned response queue allocation failed"
      else
        .ok { session with
          connection.outputLease := some (encodeResponse response)
          answers := session.answers ++ [(frame, response)] }

def respondTo (request : RequestView) (status : ResponseStatus) : ResponseView where
  status := status
  requestId := request.requestId
  ownerWorker := session.connection.executorId
  workerCount := config.workerCount
  routingEpoch := kRoutingEpoch

/-! ## What the rest of the server decides -/

inductive ProbeReport where
  | absent
  | failed (report : Bytes)
  | succeeded (report : Bytes)
  | badAlloc
  deriving DecidableEq, Repr

/-- A GET that has passed routing. -/
inductive ReadOutcome where
  | refused (status : ResponseStatus)
  | value (bytes : Bytes)
  /-- A cold read, submitted to the disk executor. -/
  | cold
  deriving DecidableEq, Repr

structure Decisions where
  shuttingDown : Bool := false
  authorized : Bool := true
  admitsRequest : Bool := true
  admitsPrincipal : Bool := true
  queueBadAlloc : Bool := false
  identity : Option Bytes := some []
  live : Bool := true
  ready : Bool := true
  stats : ProbeReport := .absent
  backup : ProbeReport := .absent
  read : ReadOutcome := .refused .notFound
  /-- No refusal of `execute_local` applies and the Writer lane takes the mutation. -/
  submits : Bool := true
  pollerRemoves : Bool := true
  handoffTaken : Bool := true
  pollerAdds : Bool := true
  refusalBadAlloc : Bool := false
  deriving DecidableEq, Repr

/-! ## Immediate requests -/

def textBytes (text : String) : Bytes :=
  text.toUTF8.toList

def backupOkReportMaxBytes (destinationBytes : Nat) : Nat :=
  10 + 13 + (13 + 20 + 1) + (13 + 20 + 1) + (19 + 20 + 1) + (16 + 20 + 1) + (22 + 20 + 1) +
    (21 + 20 + 1) + 21 + 26 + (16 + 20 + 1) + (21 + 20 + 1) + destinationBytes

def reportFits (size : Nat) : Bool :=
  size ≤ config.maximumOutputBytes - kResponseHeaderBytes &&
    size + kResponseHeaderBytes ≤ kMaxFrameBytes

variable (decisions : Decisions)

/-- The requests `process_frames` answers by itself; it marks the connection
initialized with an INIT identity. -/
def immediateResponse (session : Session) (request : RequestView) : Session × ResponseView :=
  let response := respondTo config session request .ok
  let status (status : ResponseStatus) := (session, { response with status := status })
  match request.opcode with
  | .init =>
    match decisions.identity with
    | some identity =>
      ({ session with connection.initialized := true }, { response with value := identity })
    | none => status .overloaded
  | .ping => (session, { response with value := request.value })
  | .health =>
    if decisions.live then (session, { response with value := textBytes "GlifiStore/live" })
    else status .internalError
  | .ready =>
    if decisions.ready then (session, { response with value := textBytes "GlifiStore/ready" })
    else status .internalError
  | .stats =>
    match decisions.stats with
    | .absent | .failed _ => status .internalError
    | .succeeded report =>
      if reportFits config report.length then (session, { response with value := report })
      else status .overloaded
    | .badAlloc => status .overloaded
  | .backup =>
    if ¬ session.connection.initialized ∨ session.connection.boundWorker = none then
      status .notBound
    else if decisions.backup = .absent then
      status .unsupported
    else if ¬ reportFits config (backupOkReportMaxBytes request.key.length) then
      status .overloaded
    else
      match decisions.backup with
      | .failed report => (session, { response with status := .internalError, value := report })
      | .succeeded report =>
        if reportFits config report.length then (session, { response with value := report })
        else if reportFits config (textBytes "status=ok\n").length then
          (session, { response with value := textBytes "status=ok\n" })
        else status .internalError
      | .absent | .badAlloc => status .internalError
  -- Requests that are dispatched or bound.
  | .get | .put | .erase | .bindWorker => (session, response)

/-! ## Frames -/

/-- What a turn over one frame ends in. `failed` is an error that the caller
handles by draining or closing. -/
inductive FrameOutcome where
  | «open» (session : Session)
  | handedOff (session : Session)
  | closed
  | failed (session : Session) (error : Error)

def Session.consume (request : RequestView) (size : Nat) : Session :=
  { session with
    connection.input := session.connection.input.drop size
    consumed := session.consumed ++ [request] }

/-- A response that is queued before the frame leaves the input. -/
def answerFrame (request : RequestView) (size : Nat) (response : ResponseView) : FrameOutcome :=
  match queueResponse config session decisions.queueBadAlloc session.consumed.length response with
  | .error error => .failed session error
  | .ok session => .open (session.consume request size)

def handoffOverloaded (target requestId : Nat) : ResponseView where
  status := .overloaded
  requestId := requestId
  ownerWorker := target
  workerCount := config.workerCount
  routingEpoch := kRoutingEpoch

/-- A refused handoff: the output is dropped, with the response of the BIND that was
queued last, and the connection closes after OVERLOADED. -/
def refuseHandoff (frame target requestId : Nat) : FrameOutcome :=
  let dropped : Session :=
    { session with
      connection :=
        { session.connection with boundWorker := none, output := [], outputLease := none }
      answers := session.answers.dropLast }
  match queueResponse config dropped decisions.refusalBadAlloc frame
      (handoffOverloaded config target requestId) with
  | .error _ => .closed
  | .ok session =>
    .open { session with
      connection := { session.connection with closeAfterFlush := true, input := [] } }

/-- `transfer_connection`. A connection that neither the mesh nor the poller takes
back is torn down. -/
def transferConnection (frame target requestId : Nat) : FrameOutcome :=
  let connection := session.connection
  if connection.outputLease.isSome then
    .failed session
      ⟨.corruptedData, "connection handoff cannot transfer a scatter output lease"⟩
  else if ¬ decisions.pollerRemoves then
    refuseHandoff config session decisions frame target requestId
  else if decisions.handoffTaken then
    .handedOff { session with connection.boundWorker := some target }
  else if ¬ decisions.pollerAdds then
    .closed
  else
    refuseHandoff config
      { session with
        connection :=
          { connection with
            pipelinedStoreInputObserved := false
            requestInFlight := false
            coldReadInFlight := false } }
      decisions frame target requestId

/-- Where a turn leads. A frame is settled on the connection, or the connection is to be
handed to another Worker, or `execute_local` is entered, the only way to the Store. -/
inductive FrameTurn where
  | settled (outcome : FrameOutcome)
  | transfer (session : Session) (frame target requestId : Nat)
  | execute (session : Session) (request : RequestView) (size : Nat)

/-- `bind_connection`, on a frame that has left the input. The flush that follows a
local bind is an event of its own. -/
def bindConnection (frame : Nat) (request : RequestView) : FrameTurn :=
  let connection := session.connection
  let response := { respondTo config session request .ok with ownerWorker := request.targetWorker }
  let queue (session : Session) (response : ResponseView) :=
    queueResponse config session decisions.queueBadAlloc frame response
  if ¬ connection.initialized ∨ connection.boundWorker.isSome ∨
      request.targetWorker ≥ config.workerCount then
    match queue session
        { response with
          status := .invalidRequest
          ownerWorker := connection.boundWorker.getD kNoWorker } with
    | .error error => .settled (.failed session error)
    | .ok session => .settled (.open session)
  else
    match queue { session with connection.boundWorker := some request.targetWorker } response with
    | .error error => .settled (.failed session error)
    | .ok session =>
      if request.targetWorker = connection.executorId then
        .settled (.open session)
      else
        .transfer session frame request.targetWorker request.requestId

def executeLocal (request : RequestView) (size : Nat) : FrameOutcome :=
  let frame := session.consumed.length
  let response := respondTo config session request .ok
  let submitted (connection : Connection) : FrameOutcome :=
    .open (Session.consume
      { session with
        connection := connection
        inFlight := session.inFlight ++ [⟨frame, request.requestId⟩] }
      request size)
  match request.opcode with
  | .get =>
    match decisions.read with
    | .refused status =>
      answerFrame config session decisions request size { response with status := status }
    | .value bytes =>
      if bytes.length ≥ kMinimumPipelinedScatterValueBytes then
        match queueOwnedResponse config session decisions.queueBadAlloc frame
            { response with value := bytes } true with
        | .error error => .failed session error
        | .ok session => .open (session.consume request size)
      else
        answerFrame config session decisions request size { response with value := bytes }
    | .cold =>
      submitted { session.connection with requestInFlight := true, coldReadInFlight := true }
  | .put | .erase =>
    if decisions.submits then
      submitted
        { session.connection with
          requestInFlight := true
          mutationsInFlight := session.connection.mutationsInFlight + 1 }
    else
      answerFrame config session decisions request size { response with status := .overloaded }
  | .init | .ping | .health | .ready | .stats | .backup | .bindWorker =>
    answerFrame config session decisions request size { response with status := .invalidRequest }

def dispatchRequest (request : RequestView) (size : Nat) : FrameTurn :=
  let connection := session.connection
  let owner := config.owner request.key
  let refused (status : ResponseStatus) : FrameTurn :=
    .settled (answerFrame config session decisions request size
      { respondTo config session request status with ownerWorker := owner })
  if connection.boundWorker = none then
    refused .notBound
  else if connection.boundWorker ≠ some connection.executorId then
    .settled
      (.failed session ⟨.corruptedData, "bound connection is owned by the wrong Reactor"⟩)
  else if owner ≠ connection.executorId then
    refused .wrongOwner
  else
    .execute session request size

def RequestOpcode.isMutation : RequestOpcode → Bool
  | .put | .erase => true
  | _ => false

def RequestOpcode.isLifecycleProbe : RequestOpcode → Bool
  | .health | .ready | .stats => true
  | _ => false

/-- A complete frame that the mutation window lets through. -/
def handleFrame (request : RequestView) (size : Nat) : FrameTurn :=
  let refused (status : ResponseStatus) : FrameTurn :=
    .settled (answerFrame config session decisions request size
      (respondTo config session request status))
  if decisions.shuttingDown ∧ ¬ request.opcode.isLifecycleProbe then
    refused .overloaded
  else if ¬ decisions.authorized then
    refused .permissionDenied
  else if ¬ request.opcode.isLifecycleProbe ∧ ¬ decisions.admitsRequest then
    refused .overloaded
  else if ¬ request.opcode.isLifecycleProbe ∧ ¬ decisions.admitsPrincipal then
    refused .overloaded
  else
    match request.opcode with
    | .bindWorker =>
      bindConnection config (session.consume request size) decisions session.consumed.length request
    | .get | .put | .erase =>
      let observed :=
        session.connection.pipelinedStoreInputObserved || session.connection.input.length > size
      dispatchRequest config { session with connection.pipelinedStoreInputObserved := observed }
        decisions request size
    | .init | .ping | .health | .ready | .stats | .backup =>
      let (session, response) := immediateResponse config decisions session request
      .settled (answerFrame config session decisions request size response)

/-- One turn of the loop of `process_frames`. A turn that leaves the loop changes
nothing; a connection that only drains throws its input away. -/
def frameTurn : FrameTurn :=
  let connection := session.connection
  if connection.closeAfterFlush then
    .settled (.open { session with connection.input := [] })
  else if connection.outputLease.isSome ∨ connection.input = [] then
    .settled (.open session)
  else if connection.coldReadInFlight then
    .settled (.open session)
  else if connection.requestInFlight ∧ connection.mutationsInFlight = 0 then
    .settled (.open session)
  else if connection.mutationsInFlight ≥ kMaximumMutationWindow then
    .settled (.open session)
  else
    match decodeRequest connection.input with
    | .error error => .settled (.failed session error)
    | .ok none => .settled (.open session)
    | .ok (some (request, size)) =>
      if connection.mutationsInFlight > 0 ∧ ¬ request.opcode.isMutation then
        .settled (.open session)
      else
        handleFrame config session decisions request size

def FrameTurn.outcome : FrameTurn → FrameOutcome
  | .settled outcome => outcome
  | .transfer session frame target requestId =>
    transferConnection config session decisions frame target requestId
  | .execute session request size => executeLocal config session decisions request size

def processFrame : FrameOutcome :=
  (frameTurn config session decisions).outcome config decisions

/-- What the callers of `process_frames` make of an error: decided output drains
before the close. -/
def drainOrClose : SessionState :=
  if session.connection.hasPendingOutput then
    .open { session with
      connection := { session.connection with closeAfterFlush := true, input := [] } }
  else
    .closed

def FrameOutcome.state : FrameOutcome → SessionState
  | .open session => .open session
  | .handedOff session => .handedOff session
  | .closed => .closed
  | .failed session _ => drainOrClose session

/-! ## The socket -/

def receive (bytes : Bytes) (badAlloc : Bool) : SessionState :=
  if bytes.length > config.maximumInputBytes ∨
      session.connection.input.length > config.maximumInputBytes - bytes.length ∨ badAlloc then
    drainOrClose session
  else
    .open { session with connection.input := session.connection.input ++ bytes }

/-- The bytes that `SSL_read` yields while `write_ready` waits for it. What does not
fit is lost. -/
def receiveWhileWriting (bytes : Bytes) (badAlloc : Bool) : SessionState :=
  if bytes.length ≤ config.maximumInputBytes ∧
      session.connection.input.length ≤ config.maximumInputBytes - bytes.length then
    if badAlloc then
      .open { session with
        connection := { session.connection with closeAfterFlush := true, input := [] } }
    else
      .open { session with connection.input := session.connection.input ++ bytes }
  else
    .open session

/-- The socket accepts up to `count` bytes, of the buffer first and then of the
lease. -/
def written (count : Nat) : SessionState :=
  let connection := session.connection
  let lease := connection.outputLease.getD []
  if connection.tls ∧ connection.outputLease.isSome then
    .closed
  else
    let accepted := (connection.output ++ lease).take count
    let leaseLeft := lease.drop (count - connection.output.length)
    .open { session with
      connection :=
        { connection with
          output := connection.output.drop count
          outputLease := if leaseLeft = [] then none else some leaseLeft }
      sent := session.sent ++ accepted }

/-- The end of `write_ready` and of the paths on end of file. -/
def closeIfDone : SessionState :=
  if session.connection.closesNow then .closed else .open session

/-! ## Completions -/

/-- A completion of `process_mutation_completions`. Only while the expiry of the
queue is armed may it overtake an earlier one of its lane; otherwise that stops
the executor. -/
def mutationCompleted (index : Nat)
    (expiryArmed : Bool) (status : ResponseStatus) (badAlloc : Bool) : SessionState :=
  let connection := session.connection
  match session.inFlight[index]? with
  | none => .open session
  | some pending =>
    if index ≠ 0 ∧ ¬ expiryArmed then
      .closed
    else if ¬ connection.requestInFlight ∨ connection.coldReadInFlight ∨
        connection.mutationsInFlight = 0 then
      .closed
    else
      let left := connection.mutationsInFlight - 1
      let session : Session :=
        { session with
          connection :=
            { connection with
              mutationsInFlight := left
              requestInFlight := if left = 0 then false else connection.requestInFlight }
          inFlight := session.inFlight.eraseIdx index }
      let response : ResponseView :=
        { status := status
          requestId := pending.requestId
          ownerWorker := connection.executorId
          workerCount := config.workerCount
          routingEpoch := kRoutingEpoch }
      match queueResponse config session badAlloc pending.frame response with
      | .error _ => .closed
      | .ok session => .open session

def coldReadCompleted (outcome : Except ResponseStatus Bytes) (badAlloc : Bool) : SessionState :=
  let connection := session.connection
  match connection.coldReadInFlight, session.inFlight with
  | true, pending :: rest =>
    if ¬ connection.requestInFlight then
      .closed
    else
      let session : Session :=
        { session with
          connection := { connection with requestInFlight := false, coldReadInFlight := false }
          inFlight := rest }
      let response : ResponseView :=
        { requestId := pending.requestId
          ownerWorker := connection.executorId
          workerCount := config.workerCount
          routingEpoch := kRoutingEpoch }
      let queued :=
        match outcome with
        | .error status =>
          queueResponse config session badAlloc pending.frame { response with status := status }
        | .ok value =>
          queueOwnedResponse config session badAlloc pending.frame
            { response with value := value } false
      match queued with
      | .error _ => .closed
      | .ok session => .open session
  | _, _ => .open session

/-! ## Handoffs -/

/-- `adopt_connection` by the Worker the connection is bound to. Without a slot or a
poller registration the connection is torn down. -/
def adoptConnection (adopted : Bool) : SessionState :=
  let connection := session.connection
  if connection.peerReadClosed ∧ connection.input = [] ∧ connection.output = [] then
    .closed
  else if ¬ adopted then
    .closed
  else
    .open { session with
      connection :=
        { executorId := connection.boundWorker.getD connection.executorId
          tls := connection.tls
          input := connection.input
          output := connection.output
          boundWorker := connection.boundWorker
          initialized := connection.initialized
          peerReadClosed := connection.peerReadClosed } }

/-! ## Events -/

inductive Event where
  | receive (bytes : Bytes) (badAlloc : Bool)
  | receiveWhileWriting (bytes : Bytes) (badAlloc : Bool)
  | endOfFile
  | frame (decisions : Decisions)
  | written (count : Nat)
  | flushed
  | mutationCompleted (index : Nat) (expiryArmed : Bool) (status : ResponseStatus)
      (badAlloc : Bool)
  | coldReadCompleted (outcome : Except ResponseStatus Bytes) (badAlloc : Bool)
  | adopt (adopted : Bool)
  /-- A partial request has timed out. -/
  | requestTimeout
  /-- A socket error, a timeout or the end of the server. -/
  | close
  deriving DecidableEq

def step : SessionState → Event → SessionState
  | .open session, event =>
    match event with
    | .receive bytes badAlloc => receive config session bytes badAlloc
    | .receiveWhileWriting bytes badAlloc => receiveWhileWriting config session bytes badAlloc
    | .endOfFile =>
      closeIfDone { session with connection.peerReadClosed := true }
    | .frame decisions => (processFrame config session decisions).state
    | .written count => written session count
    | .flushed => closeIfDone session
    | .mutationCompleted index expiryArmed status badAlloc =>
      mutationCompleted config session index expiryArmed status badAlloc
    | .coldReadCompleted outcome badAlloc => coldReadCompleted config session outcome badAlloc
    | .adopt _ => .open session
    | .requestTimeout =>
      if session.connection.requestInFlight then .closed else drainOrClose session
    | .close => .closed
  | .handedOff session, event =>
    match event with
    | .adopt adopted => adoptConnection session adopted
    | .close => .closed
    | _ => .handedOff session
  | .closed, _ => .closed

def run : SessionState → List Event → SessionState
  | state, [] => state
  | state, event :: rest => run (step config state event) rest

def accepted (executorId : Nat) (tls : Bool) : SessionState :=
  .open { connection := { executorId := executorId, tls := tls } }

end GlifiStore.Server
