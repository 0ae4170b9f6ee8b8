import GlifiStore.Client.Mutate

/-!
# Pipelines of the client

`execute_pipeline` sends the frames of all requests at once and takes their responses in
order. A position without a trusted response is classified by the bytes that were sent.
Only the receiving of a response is guarded against a failed allocation; elsewhere the
failure ends the whole call.
-/

namespace GlifiStore.Client

open Server StepProgram

inductive PipelineOpcode where
  | get
  | put
  | erase
  deriving DecidableEq, Repr

def wireOpcode : PipelineOpcode → RequestOpcode
  | .get => .get
  | .put => .put
  | .erase => .erase

def isMutation : PipelineOpcode → Bool
  | .get => false
  | .put | .erase => true

structure PipelineRequest where
  opcode : PipelineOpcode := .get
  key : Bytes := []
  value : Bytes := []
  expireAtNs : UInt64 := 0
  deriving DecidableEq, Repr

inductive PipelineOutcome where
  | succeeded
  | failed
  | indeterminate
  deriving DecidableEq, Repr

structure PipelineResponse where
  outcome : PipelineOutcome := .failed
  value : Bytes := []
  error : Option ClientError := none
  deriving DecidableEq, Repr

def PipelineRequest.view (request : PipelineRequest) (requestId : UInt64) : RequestView :=
  requestView (wireOpcode request.opcode) requestId request.key request.value request.expireAtNs

/-! ## Admission -/

variable (config : ClientConfig)

/-- The checks of the requests: where each frame begins and its size, from `outputSize` on. -/
def planPipeline (worker : Nat) : Nat → List PipelineRequest → Result (List (Nat × Nat))
  | _, [] => .ok []
  | outputSize, request :: rest =>
    if config.workerFor request.key ≠ worker then
      fail .invalidArgument "every pipeline key must route to the same Worker"
    else if request.opcode ≠ .put ∧ (request.value ≠ [] ∨ request.expireAtNs ≠ 0) then
      fail .invalidArgument "GET and ERASE pipeline requests cannot carry PUT fields"
    else
      match encodedRequestSize (request.view 0) with
      | .error error => .error error
      | .ok frameSize =>
        if frameSize > config.maximumFrameBytes ∨
            frameSize > config.maximumPipelineBytes - outputSize then
          fail .recordTooLarge "pipeline exceeds a configured frame or aggregate byte limit"
        else
          match planPipeline worker (outputSize + frameSize) rest with
          | .error error => .error error
          | .ok later => .ok ((outputSize, frameSize) :: later)

abbrev Position := PipelineRequest × EncodedRequest

def encodePipeline : List (PipelineRequest × Nat × Nat) → ClientProgram (Result (List Position))
  | [] => pure (.ok [])
  | (request, start, size) :: rest => do
    let requestId ← nextRequestId
    match encodeRequest (request.view requestId) with
    | .error error => failing error
    | .ok _ => do
      match ← encodePipeline rest with
      | .error error => pure (.error error)
      | .ok later => pure (.ok ((request, ⟨requestId.toNat, start, size⟩) :: later))

/-! ## Outcomes -/

def positionReport (worker bytesSent : Nat) (position : Position)
    (wireStatus : Option Nat) (indeterminate : Bool) : RequestReport :=
  { operation := wireOpcode position.1.opcode
    requestId := some position.2.requestId
    worker := some worker
    routingEpoch := some config.routingEpoch
    bytesSent := bytesSent - position.2.start
    wireStatus
    mutation := isMutation position.1.opcode
    indeterminate }

def mayHaveArrived (bytesSent : Nat) (position : Position) : Bool :=
  isMutation position.1.opcode && decide (position.2.start < bytesSent)

def markUnresolved (worker : Nat) (error : Error) (bytesSent : Nat) :
    List Position → ClientProgram (List PipelineResponse)
  | [] => pure []
  | position :: rest => do
    let arrived := mayHaveArrived bytesSent position
    allocate .report
    let later ← markUnresolved worker error bytesSent rest
    pure
      ({ outcome := if arrived then .indeterminate else .failed
         error := some <| enrichError { toError := error }
          (positionReport config worker bytesSent position none arrived) } :: later)

def giveUp (worker : Nat) (error : Error) (bytesSent : Nat)
    (positions : List Position) : ClientProgram (List PipelineResponse) := do
  resetConnection
  markUnresolved config worker error bytesSent positions

/-- As `giveUp`, for an error that is made for the report. -/
def giveUpReporting (worker : Nat) (error : Error) (bytesSent : Nat)
    (positions : List Position) : ClientProgram (List PipelineResponse) := do
  resetConnection
  allocate .report
  markUnresolved config worker error bytesSent positions

/-- The guarded part of a turn of the receiving loop. -/
def receiveGuarded (bytesSent : Nat) : ClientProgram (Option ExchangeResult) :=
  recover
    (do
      let result ← receiveBufferedResponse config bytesSent
      pure (some result))
    fun _ => pure none

def failedResponse (worker bytesSent : Nat) (position : Position)
    (response : ResponseView) : ClientProgram PipelineResponse := do
  let unknown := isMutation position.1.opcode && decide (response.status = .internalError)
  allocate .report
  noteUnusable response.status
  pure
    { outcome := if unknown then .indeterminate else .failed
      error := some <| enrichError (errorFromWireStatus response.status)
        (positionReport config worker bytesSent position (some response.status.raw) unknown) }

def receivePipeline (worker bytesSent : Nat) : List Position → ClientProgram (List PipelineResponse)
  | [] => pure []
  | position :: rest => do
    match ← receiveGuarded config bytesSent with
    | none =>
      giveUpReporting config worker
        ⟨.resourceExhausted, "allocation failed while receiving pipeline responses"⟩ bytesSent
        (position :: rest)
    | some (.failure error _) => giveUp config worker error bytesSent (position :: rest)
    | some (.response response) => do
      match ← validateResponse config response position.2.requestId worker with
      | .error error => giveUp config worker error bytesSent (position :: rest)
      | .ok () =>
        if response.status = .ok then
          if isMutation position.1.opcode ∧ response.value ≠ [] then
            giveUpReporting config worker
              ⟨.corruptedData, "mutation response value must be empty"⟩ bytesSent
              (position :: rest)
          else do
            let later ← receivePipeline worker bytesSent rest
            pure ({ outcome := .succeeded, value := response.value } :: later)
        else do
          let failed ← failedResponse config worker bytesSent position response
          let later ← receivePipeline worker bytesSent rest
          pure (failed :: later)

def exchangePipeline (worker : Nat) (positions : List Position)
    (outputSize : Nat) : ClientProgram (List PipelineResponse) := do
  let ended ← sendFrame 0 (positions.map Prod.snd) outputSize
  match ended.2 with
  | some error => do
    allocate .request
    giveUp config worker error ended.1 positions
  | none => receivePipeline config worker ended.1 positions

def executePipelineImpl (requests : List PipelineRequest)
    (options : RequestOptions) : ClientProgram (Result (List PipelineResponse)) :=
  match resolveDeadline config options with
  | .error error => failing error
  | .ok _ =>
    match requests with
    | [] => pure (.ok [])
    | first :: _ => do
      let healthy ← loadHealthy
      if ¬ healthy then
        failing ⟨.unavailable, "client is closed or routing metadata changed"⟩
      else if requests.length > config.maximumPipelineRequests then
        failing ⟨.resourceExhausted, "pipeline exceeds the configured request limit"⟩
      else do
        let worker := config.workerFor first.key
        allocate .request
        match planPipeline config worker 0 requests with
        | .error error => failing error
        | .ok plan => do
          allocate .request
          match ← encodePipeline (requests.zip plan) with
          | .error error => pure (.error error)
          | .ok positions => do
            let stillHealthy ← loadHealthy
            if ¬ stillHealthy then
              failing ⟨.unavailable, "client closed before pipeline admission"⟩
            else do
              match ← ensureConnected with
              | .error error => failing error
              | .ok () => do
                let responses ←
                  exchangePipeline config worker positions (plan.map Prod.snd).sum
                pure (.ok responses)

def executePipeline (implementation : Option ClientConfig) (requests : List PipelineRequest)
    (options : RequestOptions) : ClientProgram (Result (List PipelineResponse)) :=
  recover
    (match implementation with
      | none => failing ⟨.unavailable, "client was moved from"⟩
      | some config => executePipelineImpl config requests options)
    fun _ => failing ⟨.resourceExhausted, "pipeline allocation failed before completion"⟩

end GlifiStore.Client
