import GlifiStore.Server.Authz
import GlifiStore.Server.Connection

/-!
# The connections of all Reactors

Every Reactor keeps its connections in slots that are used again under the next
generation, and hands a connection with its grant to the Reactor that it is bound to.
A mesh also remembers what each socket was granted when it was accepted, the Workers it
was bound to, where it is, and every request that entered `execute_local`.
-/

namespace GlifiStore.Server

structure ReactorConfig extends ServerConfig where
  authz : AuthzPolicy
  maximumConnections : Nat
  tls : Bool
  mtls : Bool
  unixPeercred : Bool
  unixPeercredRequired : Bool

structure ConnectionToken where
  slot : Nat
  generation : Nat
  deriving DecidableEq, Repr

/-- `advance_connection_generation`, and whether the slot may be used again. -/
def advanceConnectionGeneration (generation : Nat) : Nat × Bool :=
  if generation = 0 ∨ generation = 2 ^ 32 - 1 then (0, false) else (generation + 1, true)

/-- `Reactor::Connection` with its grant; `session` has the rest of it. -/
structure ConnectionSlot where
  generation : Nat := 1
  socket : Option Nat := none
  principal : Bytes := []
  capabilities : Capability := Capability.none
  keyPrefix : Bytes := []
  session : Session

structure ConnectionHandoff where
  socket : Nat
  principal : Bytes
  capabilities : Capability
  keyPrefix : Bytes
  session : Session

inductive ConnectionPlace where
  | slot (executor index : Nat)
  | queued (executor : Nat)
  | gone
  deriving DecidableEq, Repr

/-- A GET, PUT or ERASE that entered `execute_local`, with its connection. -/
structure StoreAccess where
  executor : Nat
  socket : Nat
  connection : Connection
  request : RequestView

structure ServerMesh where
  slots : Nat → Nat → ConnectionSlot
  /-- The last slot of `free_slots_` comes first. -/
  freeSlots : Nat → List Nat
  handoffs : Nat → List ConnectionHandoff
  nextSocket : Nat
  /-- The principal and the grant of a socket when it was accepted. -/
  accepted : Nat → Option (Bytes × AuthzGrant)
  binds : Nat → List Nat
  place : Nat → ConnectionPlace
  accesses : List StoreAccess

namespace ServerMesh

def started (config : ReactorConfig) : ServerMesh where
  slots executor _ := { session := { connection := { executorId := executor } } }
  freeSlots _ := List.range config.maximumConnections
  handoffs _ := []
  nextSocket := 0
  accepted _ := none
  binds _ := []
  place _ := .gone
  accesses := []

variable (mesh : ServerMesh) (executor index : Nat) (slot : ConnectionSlot)

def setSlot : ServerMesh :=
  { mesh with
    slots := fun otherExecutor otherIndex =>
      if otherExecutor = executor ∧ otherIndex = index then slot
      else mesh.slots otherExecutor otherIndex }

def setPlace (socket : Nat) (place : ConnectionPlace) : ServerMesh :=
  { mesh with place := Function.update mesh.place socket place }

def recordBind (socket : Nat) (before after : Option Nat) : ServerMesh :=
  { mesh with
    binds := Function.update mesh.binds socket
      (mesh.binds socket ++ if before = after then [] else after.toList) }

def connection (config : ReactorConfig) (mesh : ServerMesh) (executor : Nat)
    (token : ConnectionToken) : Option (ConnectionSlot × Nat) :=
  let candidate := mesh.slots executor token.slot
  if token.slot ≥ config.maximumConnections then none
  else if candidate.generation ≠ token.generation then none
  else candidate.socket.map fun socket => (candidate, socket)

theorem connection_some {config : ReactorConfig} {mesh : ServerMesh} {executor socket : Nat}
    {token : ConnectionToken} {slot : ConnectionSlot}
    (found : mesh.connection config executor token = some (slot, socket)) :
    mesh.slots executor token.slot = slot ∧
      (mesh.slots executor token.slot).socket = some socket := by
  unfold connection at found
  dsimp only at found
  split at found
  · exact nomatch found
  split at found
  · exact nomatch found
  obtain ⟨_, here, same⟩ := Option.map_eq_some_iff.mp found
  obtain ⟨rfl, rfl⟩ := Prod.mk.inj same
  exact ⟨rfl, here⟩

/-- An emptied slot takes its next generation and is free again, unless it has none. -/
def retireSlot (emptied : ConnectionSlot) : ServerMesh :=
  let (generation, reusable) := advanceConnectionGeneration emptied.generation
  { mesh.setSlot executor index { emptied with generation } with
    freeSlots := Function.update mesh.freeSlots executor
      (if reusable then index :: mesh.freeSlots executor else mesh.freeSlots executor) }

def closeConnection (socket : Nat) : ServerMesh :=
  (mesh.retireSlot executor index
    { generation := slot.generation
      session := { connection := { executorId := slot.session.connection.executorId } } }).setPlace
    socket .gone

/-- What an event leaves of a connection that stays with its Reactor. -/
def settle (socket : Nat) : SessionState → ServerMesh
  | .open session =>
    (mesh.setSlot executor index { slot with session }).recordBind socket
      slot.session.connection.boundWorker session.connection.boundWorker
  | .closed => mesh.closeConnection executor index slot socket
  -- Only `transfer_connection` hands a connection off.
  | .handedOff _ => mesh

/-! ## Handoffs -/

/-- The slot of a connection whose socket, buffers and grant have been moved out. -/
def movedOut : ConnectionSlot where
  generation := slot.generation
  session :=
    { connection :=
      { executorId := slot.session.connection.executorId
        outputLease := slot.session.connection.outputLease
        mutationsInFlight := slot.session.connection.mutationsInFlight
        closeAfterFlush := slot.session.connection.closeAfterFlush } }

/-- `transfer_connection`, on the session that the BIND has bound to the target. -/
def transferConnection (config : ReactorConfig) (mesh : ServerMesh) (executor index : Nat)
    (slot : ConnectionSlot) (socket : Nat) (decisions : Decisions) (session : Session)
    (frame target requestId : Nat) : ServerMesh :=
  if session.connection.outputLease.isSome then
    mesh.settle executor index slot socket (FrameOutcome.state (.failed session
      ⟨.corruptedData, "connection handoff cannot transfer a scatter output lease"⟩))
  else if ¬ decisions.pollerRemoves then
    mesh.settle executor index slot socket
      (refuseHandoff config.toServerConfig session decisions frame target requestId).state
  else
    let handoff : ConnectionHandoff :=
      { socket
        principal := slot.principal
        capabilities := slot.capabilities
        keyPrefix := slot.keyPrefix
        session := { session with connection.boundWorker := some target } }
    if decisions.handoffTaken then
      let queued := (mesh.retireSlot executor index (movedOut slot)).setPlace socket (.queued target)
      { queued with
        handoffs := Function.update mesh.handoffs target (mesh.handoffs target ++ [handoff]) }.recordBind
        socket slot.session.connection.boundWorker (some target)
    else if ¬ decisions.pollerAdds then
      (mesh.retireSlot executor index (movedOut slot)).setPlace socket .gone
    else
      let restored :=
        { movedOut slot with
          socket := some handoff.socket
          principal := handoff.principal
          capabilities := handoff.capabilities
          keyPrefix := handoff.keyPrefix }
      mesh.settle executor index restored socket
        (refuseHandoff config.toServerConfig
          { session with
            connection :=
              { session.connection with
                pipelinedStoreInputObserved := false
                requestInFlight := false
                coldReadInFlight := false } }
          decisions frame target requestId).state

def adoptedSession (executor : Nat) (session : Session) : Session :=
  { session with
    connection :=
      { executorId := executor
        tls := session.connection.tls
        input := session.connection.input
        output := session.connection.output
        boundWorker := session.connection.boundWorker
        initialized := session.connection.initialized
        peerReadClosed := session.connection.peerReadClosed } }

/-- `adopt_connection`. The socket options and the poller may fail; a connection that is
not adopted is closed. The flush that follows is an event of its own. -/
def adoptConnection (executor : Nat) (handoff : ConnectionHandoff)
    (socketOptions pollerAdds : Bool) : ServerMesh :=
  let incoming := handoff.session.connection
  let rejected := mesh.setPlace handoff.socket .gone
  if incoming.peerReadClosed ∧ incoming.input = [] ∧ incoming.output = [] then rejected
  else
    match mesh.freeSlots executor with
    | [] => rejected
    | index :: rest =>
      let current := mesh.slots executor index
      if ¬ socketOptions then rejected.setSlot executor index { current with socket := none }
      else
        let session := adoptedSession executor handoff.session
        if ¬ pollerAdds then
          rejected.setSlot executor index
            { generation := current.generation
              session := { session with
                connection :=
                  { session.connection with
                    tls := false
                    input := []
                    output := []
                    boundWorker := none
                    initialized := false
                    peerReadClosed := false } } }
        else
          { (mesh.setPlace handoff.socket (.slot executor index)).setSlot executor index
              { generation := current.generation
                socket := some handoff.socket
                principal := handoff.principal
                capabilities := handoff.capabilities
                keyPrefix := handoff.keyPrefix
                session } with
            freeSlots := Function.update mesh.freeSlots executor rest }

end ServerMesh

/-! ## Accepted sockets -/

/-- What the handshake or the peer credentials of an accepted socket say. -/
inductive AcceptedPeer where
  | tcp
  | tls (handshake : Option Bytes)
  | unix (credentials : Option Bytes)
  deriving DecidableEq, Repr

/-- The principal of an accepted socket, unless it is dropped. -/
def acceptedPrincipal (config : ReactorConfig) : AcceptedPeer → Option Bytes
  | .tcp => some []
  | .tls handshake =>
    if ¬ config.tls then none
    else
      match handshake with
      | none => none
      | some principal =>
        if config.mtls then if principal = [] then none else some principal
        else some []
  | .unix credentials =>
    if config.unixPeercred then
      match credentials with
      | none => if config.unixPeercredRequired then none else some []
      | some principal => some principal
    else if config.unixPeercredRequired then none
    else some []

def acceptedGrant (config : ReactorConfig) (principal : Bytes) : AuthzGrant :=
  if config.authz.enabled then config.authz.grantFor principal else {}

def AcceptedPeer.isTls : AcceptedPeer → Bool
  | .tls _ => true
  | .tcp | .unix _ => false

/-! ## Events -/

inductive MeshEvent where
  | accept (executor : Nat) (peer : AcceptedPeer) (socketOptions pollerAdds : Bool)
  /-- `process_handoffs` takes the oldest handoff of a Reactor. -/
  | adopt (executor : Nat) (socketOptions pollerAdds : Bool)
  /-- `reject_pending_handoffs` takes it. -/
  | rejectHandoff (executor : Nat)
  | deliver (executor : Nat) (token : ConnectionToken) (event : Event)
  deriving DecidableEq

namespace ServerMesh

def acceptReady (config : ReactorConfig) (mesh : ServerMesh) (executor : Nat) (peer : AcceptedPeer)
    (socketOptions pollerAdds : Bool) : ServerMesh :=
  match acceptedPrincipal config peer with
  | none => mesh
  | some principal =>
    let grant := acceptedGrant config principal
    let socket := mesh.nextSocket
    { mesh with
      nextSocket := socket + 1
      accepted := Function.update mesh.accepted socket (some (principal, grant)) }.adoptConnection
      executor
      { socket
        principal
        capabilities := grant.capabilities
        keyPrefix := grant.keyPrefix
        session := { connection := { executorId := executor, tls := peer.isTls } } }
      socketOptions pollerAdds

/-- A turn over a frame, authorized by the grant in the slot. -/
def processFrame (config : ReactorConfig) (mesh : ServerMesh) (executor index : Nat)
    (slot : ConnectionSlot) (socket : Nat) (decisions : Decisions) : ServerMesh :=
  let authorized :=
    match decodeRequest slot.session.connection.input with
    | .ok (some (request, _)) =>
      authorizeRequest config.authz slot.capabilities slot.keyPrefix request.opcode request.key
    | _ => true
  let decisions := { decisions with authorized }
  match frameTurn config.toServerConfig slot.session decisions with
  | .settled outcome => mesh.settle executor index slot socket outcome.state
  | .transfer session frame target requestId =>
    mesh.transferConnection config executor index slot socket decisions session frame target requestId
  | .execute session request size =>
    { mesh with
      accesses := ⟨executor, socket, session.connection, request⟩ :: mesh.accesses }.settle
      executor index slot socket
      (executeLocal config.toServerConfig session decisions request size).state

def step (config : ReactorConfig) (mesh : ServerMesh) : MeshEvent → ServerMesh
  | .accept executor peer socketOptions pollerAdds =>
    mesh.acceptReady config executor peer socketOptions pollerAdds
  | .adopt executor socketOptions pollerAdds =>
    match mesh.handoffs executor with
    | [] => mesh
    | handoff :: rest =>
      { mesh with handoffs := Function.update mesh.handoffs executor rest }.adoptConnection
        executor handoff socketOptions pollerAdds
  | .rejectHandoff executor =>
    match mesh.handoffs executor with
    | [] => mesh
    | handoff :: rest =>
      { mesh with handoffs := Function.update mesh.handoffs executor rest }.setPlace
        handoff.socket .gone
  | .deliver executor token event =>
    match mesh.connection config executor token with
    | none => mesh
    | some (slot, socket) =>
      match event with
      | .frame decisions => mesh.processFrame config executor token.slot slot socket decisions
      | event =>
        mesh.settle executor token.slot slot socket
          (Server.step config.toServerConfig (.open slot.session) event)

end ServerMesh

end GlifiStore.Server
