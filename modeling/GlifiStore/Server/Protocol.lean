import GlifiStore.Core.Types
import GlifiStore.Lib.ByteLayout

/-!
# The wire protocol

Requests as the server decodes them and responses as it encodes them and the client
decodes them, with a 40-byte header each.
-/

namespace GlifiStore.Server

open ByteLayout

def kProtocolVersion : Nat := 2
def kRequestHeaderBytes : Nat := 40
def kResponseHeaderBytes : Nat := 40
def kMaxFrameBytes : Nat := 2 * 1024 * 1024
def kNoWorker : Nat := 0xFFFFFFFF

inductive RequestOpcode where
  | init
  | ping
  | get
  | put
  | erase
  | bindWorker
  | health
  | ready
  | stats
  | backup
  deriving DecidableEq, Repr

def RequestOpcode.raw : RequestOpcode → Nat
  | .init => 1
  | .ping => 2
  | .get => 3
  | .put => 4
  | .erase => 5
  | .bindWorker => 6
  | .health => 7
  | .ready => 8
  | .stats => 9
  | .backup => 10

def requestOpcode : Nat → Result RequestOpcode
  | 1 => .ok .init
  | 2 => .ok .ping
  | 3 => .ok .get
  | 4 => .ok .put
  | 5 => .ok .erase
  | 6 => .ok .bindWorker
  | 7 => .ok .health
  | 8 => .ok .ready
  | 9 => .ok .stats
  | 10 => .ok .backup
  | _ => fail .invalidRecord "request contains an unknown opcode"

inductive ResponseStatus where
  | ok
  | invalidRequest
  | unsupported
  | internalError
  | notFound
  | overloaded
  | wrongOwner
  | notBound
  | permissionDenied
  deriving DecidableEq, Repr

def ResponseStatus.raw : ResponseStatus → Nat
  | .ok => 0
  | .invalidRequest => 1
  | .unsupported => 2
  | .internalError => 3
  | .notFound => 4
  | .overloaded => 5
  | .wrongOwner => 6
  | .notBound => 7
  | .permissionDenied => 8

/-- A request, each number within the width of its type. -/
@[ext]
structure RequestView where
  opcode : RequestOpcode
  flags : Nat := 0
  requestId : Nat := 0
  expireAtNs : Nat := 0
  targetWorker : Nat := kNoWorker
  key : Bytes := []
  value : Bytes := []
  requestIdFits : requestId < 256 ^ 8 := by decide
  expireAtNsFits : expireAtNs < 256 ^ 8 := by decide
  targetWorkerFits : targetWorker < 256 ^ 4 := by decide
  deriving Repr

instance : DecidableEq RequestView := fun _ _ => decidable_of_iff' _ RequestView.ext_iff

structure ResponseView where
  status : ResponseStatus := .ok
  requestId : Nat
  ownerWorker : Nat := kNoWorker
  workerCount : Nat
  routingEpoch : Nat
  value : Bytes := []
  deriving DecidableEq, Repr

/-! ## Requests -/

variable (request : RequestView)

def validateRequestFields : Status :=
  let hasKey := request.key ≠ []
  let hasValue := request.value ≠ []
  let hasExpiry := request.expireAtNs ≠ 0
  let hasTarget := request.targetWorker ≠ kNoWorker
  match request.opcode with
  | .init | .health | .ready | .stats =>
    if hasKey ∨ hasValue ∨ hasExpiry ∨ hasTarget then
      fail .invalidArgument
        "lifecycle probe/INIT cannot carry key, value, expiry, or target_worker"
    else
      .ok ()
  | .ping =>
    if hasKey ∨ hasExpiry ∨ hasTarget then
      fail .invalidArgument "PING request cannot carry key, expiry, or target_worker"
    else
      .ok ()
  | .backup =>
    if ¬ hasKey ∨ hasValue ∨ hasExpiry ∨ hasTarget then
      fail .invalidArgument
        "BACKUP requires a destination path key and no value, expiry, or target_worker"
    else
      .ok ()
  | .get =>
    if ¬ hasKey ∨ hasValue ∨ hasExpiry ∨ hasTarget then
      fail .invalidArgument
        "GET request requires a key and cannot carry value, expiry, or target_worker"
    else
      .ok ()
  | .put =>
    if ¬ hasKey ∨ hasTarget then
      fail .invalidArgument "PUT request requires a key and cannot carry target_worker"
    else
      .ok ()
  | .erase =>
    if ¬ hasKey ∨ hasValue ∨ hasExpiry ∨ hasTarget then
      fail .invalidArgument
        "ERASE request requires a key and cannot carry value, expiry, or target_worker"
    else
      .ok ()
  | .bindWorker =>
    if hasKey ∨ hasValue ∨ hasExpiry then
      fail .invalidArgument "BIND_WORKER request cannot carry key, value, or expiry"
    else if ¬ hasTarget then
      fail .invalidArgument "BIND_WORKER request requires an explicit target_worker"
    else
      .ok ()

/-- A decoded frame with the bytes it has taken, or nothing while the frame is
not complete. -/
abbrev DecodedFrame (View : Type) := Option (View × Nat)

/-- `decode_request`. The sizes of a frame within the limit do not overflow. -/
def decodeRequest (input : Bytes) : Result (DecodedFrame RequestView) :=
  if input.length < 4 then
    .ok none
  else
    let frameSize := getLE 4 input 0
    if frameSize < kRequestHeaderBytes ∨ frameSize > kMaxFrameBytes then
      fail .invalidRecord "request frame size is outside protocol limits"
    else if input.length < frameSize then
      .ok none
    else if getLE 2 input 4 ≠ kProtocolVersion then
      fail .invalidRecord "request protocol version is unsupported"
    else if getLE 1 input 7 ≠ 0 ∨ getLE 4 input 36 ≠ 0 then
      fail .invalidRecord "request flags or reserved field are not canonical"
    else
      match requestOpcode (getLE 1 input 6) with
      | .error error => .error error
      | .ok opcode =>
        let keySize := getLE 4 input 16
        let valueSize := getLE 4 input 20
        if kRequestHeaderBytes + keySize + valueSize ≠ frameSize then
          fail .invalidRecord "request payload sizes do not match frame size"
        else
          let frame : RequestView :=
            { opcode := opcode
              flags := getLE 1 input 7
              requestId := getLE 8 input 8
              expireAtNs := getLE 8 input 24
              targetWorker := getLE 4 input 32
              key := slice input kRequestHeaderBytes keySize
              value := slice input (kRequestHeaderBytes + keySize) valueSize
              requestIdFits := getLE_lt 8 input 8
              expireAtNsFits := getLE_lt 8 input 24
              targetWorkerFits := getLE_lt 4 input 32 }
          match validateRequestFields frame with
          | .error error => .error error
          | .ok () => .ok (some (frame, frameSize))

def encodedRequestSize : Result Nat :=
  if request.flags ≠ 0 then
    fail .invalidArgument "request flags are not defined in protocol v2"
  else
    match validateRequestFields request with
    | .error error => .error error
    | .ok () =>
      if kRequestHeaderBytes + request.key.length + request.value.length > kMaxFrameBytes then
        fail .recordTooLarge "request exceeds protocol frame limits"
      else
        .ok (kRequestHeaderBytes + request.key.length + request.value.length)

/-- The positional writes of `encode_request`. -/
def requestFields (size : Nat) : List (Nat × Bytes) :=
  [(0, encodeLE 4 size),
    (4, encodeLE 2 kProtocolVersion),
    (6, encodeLE 1 request.opcode.raw),
    (7, encodeLE 1 request.flags),
    (8, encodeLE 8 request.requestId),
    (16, encodeLE 4 request.key.length),
    (20, encodeLE 4 request.value.length),
    (24, encodeLE 8 request.expireAtNs),
    (32, encodeLE 4 request.targetWorker),
    (36, encodeLE 4 0),
    (kRequestHeaderBytes, request.key),
    (kRequestHeaderBytes + request.key.length, request.value)]

def encodeRequest : Result Bytes :=
  match encodedRequestSize request with
  | .error error => .error error
  | .ok size => .ok (blitAll (List.replicate size 0) (requestFields request size))

/-! ## Responses -/

def encodedResponseSize (response : ResponseView) : Result Nat :=
  if kResponseHeaderBytes + response.value.length > kMaxFrameBytes then
    fail .recordTooLarge "response exceeds protocol frame limits"
  else
    .ok (kResponseHeaderBytes + response.value.length)

def encodeResponseHeader (response : ResponseView) : Bytes :=
  blitAll (List.replicate kResponseHeaderBytes 0)
    [(0, encodeLE 4 (kResponseHeaderBytes + response.value.length)),
      (4, encodeLE 2 kProtocolVersion),
      (6, encodeLE 2 response.status.raw),
      (8, encodeLE 8 response.requestId),
      (16, encodeLE 4 response.value.length),
      (20, encodeLE 4 response.ownerWorker),
      (24, encodeLE 4 response.workerCount),
      (28, encodeLE 4 0),
      (32, encodeLE 8 response.routingEpoch)]

/-- `encode_response` of a response within the size limit. -/
def encodeResponse (response : ResponseView) : Bytes :=
  encodeResponseHeader response ++ response.value

def responseStatus : Nat → Result ResponseStatus
  | 0 => .ok .ok
  | 1 => .ok .invalidRequest
  | 2 => .ok .unsupported
  | 3 => .ok .internalError
  | 4 => .ok .notFound
  | 5 => .ok .overloaded
  | 6 => .ok .wrongOwner
  | 7 => .ok .notBound
  | 8 => .ok .permissionDenied
  | _ => fail .invalidRecord "response contains an unknown status"

def decodeResponse (input : Bytes) (maximumFrameBytes : Nat) : Result (DecodedFrame ResponseView) :=
  if input.length < 4 then
    .ok none
  else
    let frameSize := getLE 4 input 0
    if frameSize < kResponseHeaderBytes ∨ frameSize > maximumFrameBytes then
      fail .invalidRecord "response frame size is outside protocol limits"
    else if input.length < frameSize then
      .ok none
    else if getLE 2 input 4 ≠ kProtocolVersion then
      fail .invalidRecord "response protocol version is unsupported"
    else if getLE 4 input 28 ≠ 0 then
      fail .invalidRecord "response reserved field is not canonical"
    else
      match responseStatus (getLE 2 input 6) with
      | .error error => .error error
      | .ok status =>
        let valueSize := getLE 4 input 16
        if kResponseHeaderBytes + valueSize ≠ frameSize then
          fail .invalidRecord "response payload size does not match frame size"
        else
          .ok (some
            ({ status
               requestId := getLE 8 input 8
               ownerWorker := getLE 4 input 20
               workerCount := getLE 4 input 24
               routingEpoch := getLE 8 input 32
               value := slice input kResponseHeaderBytes valueSize },
              frameSize))

end GlifiStore.Server
