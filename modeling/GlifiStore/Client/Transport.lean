import GlifiStore.Core.KeyHash
import GlifiStore.Lib.RecordedProgram
import GlifiStore.Server.RequestFraming

/-!
# The transport of the client

A call of the client is a program over the world around it: what the transport accepts
and delivers, which allocations fail, which connects succeed, what other threads do
meanwhile. A failed allocation throws. The world also keeps the record of what was sent,
which well-formed responses came in and where an allocation failed.
-/

namespace GlifiStore.Client

open ByteLayout Server StepProgram

/-- What one call of `send` or of the TLS session comes to. A wait that ends in time is
`again`; a deadline, an error and an end of the stream are failures. -/
inductive SendAnswer where
  | accepted (count : Nat)
  | again
  | failed (error : Error)
  deriving DecidableEq, Repr

inductive ReceiveAnswer where
  | data (bytes : Bytes)
  | again
  | failed (error : Error)
  deriving DecidableEq, Repr

/-- Where the frame of a request stands in the bytes to send. -/
structure EncodedRequest where
  requestId : Nat
  start : Nat
  size : Nat
  deriving DecidableEq, Repr

/-- What an allocation is for. -/
inductive AllocationPlace where
  | connection
  | request
  | response
  /-- `receive_buffered_response`. -/
  | pipelineResponse
  | report
  deriving DecidableEq, Repr

inductive ClientEvent where
  /-- The transport has accepted the first `count` bytes of the frames. -/
  | sent (attempt : Nat) (frames : List EncodedRequest) (count : Nat)
  /-- A response frame was well formed. -/
  | decoded (response : ResponseView)
  /-- The response is owned by the call. -/
  | received (response : ResponseView)
  | allocationFailed (place : AllocationPlace)
  deriving DecidableEq, Repr

structure ClientConfig where
  maximumFrameBytes : Nat
  maximumPipelineRequests : Nat
  maximumPipelineBytes : Nat
  requestTimeoutMs : Nat
  workerCount : Nat
  routingEpoch : Nat
  routing : WorkerRoutingState

variable (config : ClientConfig)

def ClientConfig.workerFor (key : Key) : Nat :=
  (hashKeyRouting key config.routing).toNat % config.workerCount

structure ClientWorld where
  /-- Whether the next allocations succeed; those beyond do. -/
  allocations : List Bool := []
  /-- What the next bootstraps come to. -/
  connects : List Status := []
  sends : List SendAnswer := []
  receives : List ReceiveAnswer := []
  /-- Whether another thread closes the client before the next looks at its health. -/
  closes : List Bool := []
  /-- How many request IDs other calls take before the next. -/
  taken : List UInt64 := []
  healthy : Bool := true
  connected : Bool := true
  input : Bytes := []
  nextRequestId : UInt64 := 1
  trace : List ClientEvent := []
  deriving DecidableEq, Repr

inductive BadAlloc where
  | badAlloc
  deriving DecidableEq, Repr

abbrev ClientProgram := Program ClientWorld BadAlloc

def ClientWorld.record (world : ClientWorld) (event : ClientEvent) : ClientWorld :=
  { world with trace := world.trace ++ [event] }

/-- Anything that takes memory. -/
def allocate (place : AllocationPlace) : ClientProgram Unit :=
  interact fun world =>
    let left := { world with allocations := world.allocations.tail }
    if world.allocations.headD true then (.ok (), left)
    else (.error .badAlloc, left.record (.allocationFailed place))

def loadHealthy : ClientProgram Bool :=
  interact fun world =>
    let healthy := world.healthy && !world.closes.headD false
    (.ok healthy, { world with healthy, closes := world.closes.tail })

def markUnhealthy : ClientProgram Unit :=
  perform fun world => { world with healthy := false }

/-- `fail`, whose message takes memory. -/
def failing {α : Type} (error : Error) : ClientProgram (Result α) := do
  allocate .report
  pure (.error error)

def timedOut : Error := ⟨.unavailable, "TCP operation timed out"⟩

def resetConnection : ClientProgram Unit :=
  perform fun world => { world with connected := false, input := [] }

def fetchAddRequestId : ClientProgram UInt64 :=
  interact fun world =>
    let id := world.nextRequestId + world.taken.headD 0
    (.ok id, { world with nextRequestId := id + 1, taken := world.taken.tail })

def nextRequestId : ClientProgram UInt64 := do
  let id ← fetchAddRequestId
  if id = 0 then fetchAddRequestId else pure id

/-- `ensure_connected`, with what `bootstrap` comes to. -/
def ensureConnected : ClientProgram Status := do
  let connected ← query fun world => .ok world.connected
  if connected then pure (.ok ())
  else do
    allocate .connection
    let answer ← interact fun world =>
      let answer := world.connects.headD (.error timedOut)
      (.ok answer,
        { world with connects := world.connects.tail, connected := answer.isOk, input := [] })
    -- The exchanges of the handshake: a throw here leaves the connection open.
    allocate .connection
    pure answer

/-! ## Sending -/

/-- The loop of `send_frame`: the bytes sent, its failure, and the answers that are left. -/
def sendLoop (size : Nat) : Nat → List SendAnswer → Nat × Option Error × List SendAnswer
  | sent, [] => (sent, if sent < size then some timedOut else none, [])
  | sent, answer :: rest =>
    if sent < size then
      match answer with
      | .accepted count => sendLoop size (sent + min count (size - sent)) rest
      | .again => sendLoop size sent rest
      | .failed error => (sent, some error, rest)
    else (sent, none, answer :: rest)

/-- `send_frame`: the bytes sent, and the failure. -/
def sendFrame (attempt : Nat) (frames : List EncodedRequest) (size : Nat) :
    ClientProgram (Nat × Option Error) :=
  interact fun world =>
    let ended := sendLoop size 0 world.sends
    let left := { world with sends := ended.2.2 }
    (.ok (ended.1, ended.2.1),
      if ended.1 = 0 then left else left.record (.sent attempt frames ended.1))

/-! ## Receiving -/

inductive ExchangeResult where
  | response (response : ResponseView)
  | failure (error : Error) (requestBytesSent : Nat)
  deriving DecidableEq, Repr

variable (place : AllocationPlace)

/-- An `ExchangeFailure`, whose message takes memory. -/
def exchangeFailure (error : Error) (requestBytesSent : Nat) : ClientProgram ExchangeResult := do
  allocate place
  pure (.failure error requestBytesSent)

def receiveLoop (count : Nat) : Bytes → List ReceiveAnswer → Result Bytes × List ReceiveAnswer
  | received, [] => (if received.length < count then .error timedOut else .ok received, [])
  | received, answer :: rest =>
    if received.length < count then
      match answer with
      | .data bytes =>
        let wanted := count - received.length
        if bytes.length ≤ wanted then receiveLoop count (received ++ bytes) rest
        else (.ok (received ++ bytes.take wanted), .data (bytes.drop wanted) :: rest)
      | .again => receiveLoop count received rest
      | .failed error => (.error error, rest)
    else (.ok received, answer :: rest)

def receiveExact (count : Nat) : ClientProgram (Result Bytes) :=
  interact fun world =>
    let ended := receiveLoop count [] world.receives
    (.ok ended.1, { world with receives := ended.2 })

/-- `OwnedResponse`: the value of a decoded response is copied. -/
def ownResponse (response : ResponseView) : ClientProgram ExchangeResult := do
  perform fun world => world.record (.decoded response)
  if response.value ≠ [] then allocate place
  perform fun world => world.record (.received response)
  pure (.response response)

def frameOutsideLimits : Error :=
  ⟨.corruptedData, "server response size is outside client limits"⟩

def invalidFrame : Error := ⟨.corruptedData, "server returned an invalid response frame"⟩

variable (requestBytesSent : Nat)

def ownFrame (frame : Bytes) : ClientProgram ExchangeResult :=
  match decodeResponse frame config.maximumFrameBytes with
  | .ok (some (response, consumed)) =>
    if consumed = frame.length then ownResponse place response
    else exchangeFailure place invalidFrame requestBytesSent
  | _ => exchangeFailure place invalidFrame requestBytesSent

def receiveResponse : ClientProgram ExchangeResult := do
  match ← receiveExact 4 with
  | .error error => exchangeFailure .response error requestBytesSent
  | .ok sizeBytes =>
    let frameSize := getLE 4 sizeBytes 0
    if frameSize < kResponseHeaderBytes ∨ frameSize > config.maximumFrameBytes then
      exchangeFailure .response frameOutsideLimits requestBytesSent
    else do
      allocate .response
      match ← receiveExact (frameSize - 4) with
      | .error error => exchangeFailure .response error requestBytesSent
      | .ok rest => ownFrame config .response requestBytesSent (sizeBytes ++ rest)

def exchange (attempt : Nat) (frame : EncodedRequest) : ClientProgram ExchangeResult := do
  let ended ← sendFrame attempt [frame] frame.size
  match ended.2 with
  | some error => exchangeFailure .request error ended.1
  | none => receiveResponse config ended.1

def receiveChunk : ClientProgram ReceiveAnswer :=
  interact fun world =>
    (.ok (world.receives.headD (.failed timedOut)), { world with receives := world.receives.tail })

/-- The loop of `receive_buffered_response`. Every turn but the last takes an answer of the
transport, so the answers bound the turns. -/
def receiveBuffered : Nat → ClientProgram ExchangeResult
  | 0 => exchangeFailure .pipelineResponse timedOut requestBytesSent
  | turns + 1 => do
    let input ← query fun world => .ok world.input
    let frameSize := getLE 4 input 0
    if 4 ≤ input.length ∧
        (frameSize < kResponseHeaderBytes ∨ frameSize > config.maximumFrameBytes) then
      exchangeFailure .pipelineResponse frameOutsideLimits requestBytesSent
    else if 4 ≤ input.length ∧ frameSize ≤ input.length then do
      match ← ownFrame config .pipelineResponse requestBytesSent (input.take frameSize) with
      | .response response => do
        perform fun world => { world with input := input.drop frameSize }
        pure (.response response)
      | .failure error sent => pure (.failure error sent)
    else do
      match ← receiveChunk with
      | .data bytes => do
        allocate .pipelineResponse
        perform fun world => { world with input := world.input ++ bytes }
        receiveBuffered turns
      | .again => receiveBuffered turns
      | .failed error => exchangeFailure .pipelineResponse error requestBytesSent

def receiveBufferedResponse : ClientProgram ExchangeResult := do
  let answers ← query fun world => .ok world.receives.length
  receiveBuffered config requestBytesSent (answers + 1)

/-! ## Checks of a response -/

/-- What `validate_response` accepts. -/
structure Valid (config : ClientConfig) (response : ResponseView) (requestId worker : Nat) :
    Prop where
  requestId : response.requestId = requestId
  workerCount : response.workerCount = config.workerCount
  routingEpoch : response.routingEpoch = config.routingEpoch
  owner : response.ownerWorker = worker ∨ response.status = .wrongOwner

def validateResponse (response : ResponseView) (requestId worker : Nat) : ClientProgram Status :=
  if response.requestId ≠ requestId then
    failing ⟨.corruptedData, "server response request ID does not match"⟩
  else if response.workerCount ≠ config.workerCount ∨
      response.routingEpoch ≠ config.routingEpoch then do
    markUnhealthy
    failing ⟨.unavailable, "server routing metadata changed"⟩
  else if response.ownerWorker ≠ worker ∧ response.status ≠ .wrongOwner then do
    markUnhealthy
    failing ⟨.corruptedData, "server response came from the wrong worker"⟩
  else pure (.ok ())

end GlifiStore.Client
