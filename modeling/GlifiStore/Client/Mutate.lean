import GlifiStore.Client.Transport

/-!
# Mutations of the client

`put` and `erase` send one request and report what is known of it. The handlers for a
failed allocation stand outside of the code that knows how many bytes were sent.
-/

namespace GlifiStore.Client

open Server StepProgram

/-! ## Errors -/

inductive ErrorCategory where
  | invalidArgument
  | notFound
  | overloaded
  | permissionDenied
  | unavailable
  | transport
  | protocol
  | internal
  deriving DecidableEq, Repr

inductive Retryability where
  | never
  | sameRequest
  | newAttempt
  | reconcileFirst
  deriving DecidableEq, Repr

inductive MutationOutcome where
  | committed
  | rejected
  | indeterminate
  deriving DecidableEq, Repr

structure ClientError extends Error where
  category : Option ErrorCategory := none
  wireStatus : Option Nat := none
  bytesSent : Nat := 0
  requestId : Option Nat := none
  worker : Option Nat := none
  routingEpoch : Option Nat := none
  retryability : Option Retryability := none
  operation : Option RequestOpcode := none
  mutationOutcome : Option MutationOutcome := none
  deriving DecidableEq, Repr

def categoryFor : ErrorCode → ErrorCategory
  | .invalidArgument | .recordTooLarge => .invalidArgument
  | .notFound => .notFound
  | .resourceExhausted => .overloaded
  | .unavailable => .unavailable
  | .ioError => .transport
  | .corruptedData => .protocol
  | _ => .internal

def portableRetryability (category : ErrorCategory) (mutationSent indeterminate : Bool) :
    Retryability :=
  if indeterminate then .reconcileFirst
  else
    match category with
    | .invalidArgument => if mutationSent then .reconcileFirst else .never
    | .transport => if mutationSent then .reconcileFirst else .sameRequest
    | .overloaded | .permissionDenied | .unavailable => .never
    | .notFound => .newAttempt
    | .protocol | .internal => if mutationSent then .reconcileFirst else .newAttempt

/-- `error_from_wire_status`; the statuses that do not exist are not decoded. -/
def errorFromWireStatus (status : ResponseStatus) : ClientError :=
  let mapped (code : ErrorCode) (message : String) : ClientError :=
    { code
      message
      category := some (categoryFor code)
      wireStatus := some status.raw
      retryability := some (portableRetryability (categoryFor code) false false) }
  match status with
  | .invalidRequest => mapped .invalidArgument "server rejected the request as invalid"
  | .unsupported => mapped .invalidArgument "server does not support the request"
  | .internalError => mapped .internalError "server reported an internal error"
  | .notFound => mapped .notFound "key was not found"
  | .overloaded => mapped .resourceExhausted "server is overloaded"
  | .wrongOwner => mapped .corruptedData "server rejected the client's worker routing"
  | .notBound => mapped .unavailable "server connection is not bound to a worker"
  | .permissionDenied =>
    { code := .invalidArgument
      message := "server denied the request"
      category := some .permissionDenied
      wireStatus := some status.raw
      retryability := some .never }
  | .ok => { code := .internalError, message := "unexpected successful response mapping" }

/-- What `enrich_error` is told of the request beside the error. -/
structure RequestReport where
  operation : RequestOpcode
  requestId : Option Nat := none
  worker : Option Nat := none
  routingEpoch : Option Nat := none
  bytesSent : Nat := 0
  wireStatus : Option Nat := none
  mutation : Bool := true
  indeterminate : Bool := false

def enrichError (error : ClientError) (report : RequestReport) : ClientError :=
  let category := error.category.getD (categoryFor error.code)
  let sent := decide (0 < report.bytesSent)
  { error with
    category := some category
    operation := some report.operation
    requestId := report.requestId
    worker := report.worker
    routingEpoch := report.routingEpoch
    bytesSent := report.bytesSent
    wireStatus := report.wireStatus.or error.wireStatus
    mutationOutcome :=
      if report.mutation then
        some (if report.indeterminate then .indeterminate else .rejected)
      else error.mutationOutcome
    retryability := some <|
      if report.mutation then
        if sent ∧ category = .transport then .reconcileFirst
        else portableRetryability category sent report.indeterminate
      else portableRetryability category false false }

/-! ## Standalone mutations -/

structure MutationResult where
  outcome : MutationOutcome := .rejected
  error : Option ClientError := none
  deriving DecidableEq, Repr

def rejected (error : ClientError) (report : RequestReport) : ClientProgram MutationResult := do
  allocate .report
  pure { outcome := .rejected, error := some (enrichError error report) }

def indeterminate (error : ClientError) (report : RequestReport) :
    ClientProgram MutationResult := do
  allocate .report
  pure
    { outcome := .indeterminate
      error := some (enrichError error { report with indeterminate := true }) }

/-- The timeout of `RequestOptions`, in milliseconds. -/
structure RequestOptions where
  timeout : Option Int := none

variable (config : ClientConfig)

/-- `resolve_deadline`, up to the clock. -/
def resolveDeadline (options : RequestOptions) : Result Nat :=
  let timeoutMs :=
    match options.timeout with
    | some timeout => (timeout % 2 ^ 32).toNat
    | none => config.requestTimeoutMs
  if timeoutMs = 0 ∨ (∃ timeout, options.timeout = some timeout ∧ timeout ≤ 0) then
    fail .invalidArgument "request timeout must be positive"
  else .ok timeoutMs

def requestView (opcode : RequestOpcode) (requestId : UInt64) (key value : Bytes)
    (expireAtNs : UInt64) : RequestView :=
  { opcode
    requestId := requestId.toNat
    expireAtNs := expireAtNs.toNat
    key
    value
    requestIdFits := requestId.toNat_lt
    expireAtNsFits := expireAtNs.toNat_lt }

/-- Statuses after which the client is not used any more. -/
def noteUnusable (status : ResponseStatus) : ClientProgram Unit :=
  if status = .wrongOwner ∨ status = .notBound then markUnhealthy else pure ()

/-- What follows a response in `mutate`. -/
def concludeMutation (opcode : RequestOpcode) (worker : Nat)
    (frame : EncodedRequest) (response : ResponseView) : ClientProgram MutationResult := do
  let report : RequestReport :=
    { operation := opcode
      requestId := some frame.requestId
      worker := some worker
      routingEpoch := some config.routingEpoch
      bytesSent := frame.size }
  match ← validateResponse config response frame.requestId worker with
  | .error error => do
    resetConnection
    indeterminate { toError := error } report
  | .ok () =>
    if response.status = .ok then
      if response.value ≠ [] then do
        resetConnection
        indeterminate { code := .corruptedData, message := "mutation response value must be empty" }
          report
      else pure { outcome := .committed }
    else if response.status = .internalError then
      indeterminate (errorFromWireStatus response.status)
        { report with wireStatus := some response.status.raw }
    else do
      let result ← rejected (errorFromWireStatus response.status)
        { report with wireStatus := some response.status.raw }
      noteUnusable response.status
      pure result

/-- The attempts of `mutate`, of which `left` are left. -/
def mutateAttempts (opcode : RequestOpcode) (key value : Bytes)
    (expireAtNs : UInt64) (worker : Nat) : Nat → ClientProgram MutationResult
  | 0 =>
    rejected { code := .unavailable, message := "could not send mutation" }
      { operation := opcode, worker := some worker, routingEpoch := some config.routingEpoch }
  | left + 1 => do
    let attempt := 1 - left
    let report : RequestReport :=
      { operation := opcode, worker := some worker, routingEpoch := some config.routingEpoch }
    match ← ensureConnected with
    | .error error => rejected { toError := error } report
    | .ok () => do
      let requestId ← nextRequestId
      let report := { report with requestId := some requestId.toNat }
      allocate .request
      match encodeRequest (requestView opcode requestId key value expireAtNs) with
      | .error error => rejected { toError := error } report
      | .ok encoded =>
        if encoded.length > config.maximumFrameBytes then
          rejected
            { code := .recordTooLarge, message := "request exceeds the configured frame limit" }
            report
        else do
          let frame : EncodedRequest := ⟨requestId.toNat, 0, encoded.length⟩
          match ← exchange config attempt frame with
          | .failure error requestBytesSent => do
            resetConnection
            if requestBytesSent = 0 then
              if attempt = 0 then mutateAttempts opcode key value expireAtNs worker left
              else rejected { toError := error } report
            else
              indeterminate { toError := error } { report with bytesSent := requestBytesSent }
          | .response response => concludeMutation config opcode worker frame response

def mutate (opcode : RequestOpcode) (key value : Bytes)
    (expireAtNs : UInt64) (options : RequestOptions) : ClientProgram MutationResult := do
  let healthy ← loadHealthy
  if ¬ healthy then
    rejected { code := .unavailable, message := "client is closed or routing metadata changed" }
      { operation := opcode }
  else
    match resolveDeadline config options with
    | .error error => rejected { toError := error } { operation := opcode }
    | .ok _ => do
      let worker := config.workerFor key
      let stillHealthy ← loadHealthy
      if ¬ stillHealthy then
        rejected { code := .unavailable, message := "client closed before mutation admission" }
          { operation := opcode, worker := some worker, routingEpoch := some config.routingEpoch }
      else mutateAttempts config opcode key value expireAtNs worker 2

/-- The error of the handlers, which is not enriched. -/
def plainRejection (code : ErrorCode) (message : String) : ClientProgram MutationResult := do
  allocate .report
  pure { outcome := .rejected, error := some { code, message, mutationOutcome := some .rejected } }

variable (implementation : Option ClientConfig)

/-- `Client::put` and `Client::erase` around `mutate`; a client that was moved from has no
implementation. -/
def guardedMutate (opcode : RequestOpcode)
    (key value : Bytes) (expireAtNs : UInt64) (options : RequestOptions) :
    ClientProgram MutationResult :=
  recover
    (match implementation with
      | none => plainRejection .unavailable "client was moved from"
      | some config => mutate config opcode key value expireAtNs options)
    fun _ => plainRejection .resourceExhausted "client allocation failed"

def put (key value : Bytes) (expireAtNs : UInt64)
    (options : RequestOptions) : ClientProgram MutationResult :=
  guardedMutate implementation .put key value expireAtNs options

def erase (key : Bytes) (options : RequestOptions) : ClientProgram MutationResult :=
  guardedMutate implementation .erase key [] 0 options

end GlifiStore.Client
