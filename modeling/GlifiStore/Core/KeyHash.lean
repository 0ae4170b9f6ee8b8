import GlifiStore.Lib.ByteLayout
import GlifiStore.Core.Types

/-!
# Key hashes and Worker routing
-/

namespace GlifiStore

open ByteLayout

def kFnv1a64Offset : UInt64 := 14695981039346656037
def kFnv1a64Prime : UInt64 := 1099511628211

def hashKey (key : Key) : UInt64 :=
  key.foldl (fun hash byte => (hash ^^^ byte.toUInt64) * kFnv1a64Prime) kFnv1a64Offset

/-! ## SipHash-2-4 -/

def rotl (value shift : UInt64) : UInt64 :=
  (value <<< shift) ||| (value >>> (64 - shift))

structure SipState where
  v0 : UInt64
  v1 : UInt64
  v2 : UInt64
  v3 : UInt64

def sipround (state : SipState) : SipState :=
  let v0 := state.v0 + state.v1
  let v1 := rotl state.v1 13 ^^^ v0
  let v0 := rotl v0 32
  let v2 := state.v2 + state.v3
  let v3 := rotl state.v3 16 ^^^ v2
  let v0 := v0 + v3
  let v3 := rotl v3 21 ^^^ v0
  let v2 := v2 + v1
  let v1 := rotl v1 17 ^^^ v2
  let v2 := rotl v2 32
  ⟨v0, v1, v2, v3⟩

def sipcompress (state : SipState) (message : UInt64) : SipState :=
  let mixed := sipround (sipround { state with v3 := state.v3 ^^^ message })
  { mixed with v0 := mixed.v0 ^^^ message }

def sipabsorb (length : Nat) (state : SipState) (rest : Bytes) : SipState :=
  if 8 ≤ rest.length then
    sipabsorb length (sipcompress state (UInt64.ofNat (decodeLE (rest.take 8)))) (rest.drop 8)
  else
    sipcompress state ((UInt64.ofNat length <<< 56) ||| UInt64.ofNat (decodeLE rest))
  termination_by rest.length
  decreasing_by
    simp only [List.length_drop]
    omega

def siphash24 (key : Key) (k0 k1 : UInt64) : UInt64 :=
  let initial : SipState :=
    ⟨k0 ^^^ 0x736f6d6570736575, k1 ^^^ 0x646f72616e646f6d, k0 ^^^ 0x6c7967656e657261,
      k1 ^^^ 0x7465646279746573⟩
  let absorbed := sipabsorb key.length initial key
  let final := sipround (sipround (sipround (sipround
    { absorbed with v2 := absorbed.v2 ^^^ 0xff })))
  final.v0 ^^^ final.v1 ^^^ final.v2 ^^^ final.v3

/-! ## Routing -/

inductive RoutingAlgorithm where
  | fnv1a64V1
  | siphash24V1
  deriving DecidableEq, Repr

structure WorkerRoutingState where
  algorithm : RoutingAlgorithm
  seed : UInt64
  deriving DecidableEq, Repr

def kDefaultWorkerHashSeed : UInt64 := 0
def kWorkerRoutingSipKey1Xor : UInt64 := 0x6a09e667f3bcc909

/-- `validate_worker_routing_state`. The enumeration leaves no unknown algorithm
to reject. -/
def validateWorkerRoutingState (state : WorkerRoutingState) : Status :=
  match state.algorithm with
  | .fnv1a64V1 =>
    if state.seed ≠ kDefaultWorkerHashSeed then
      fail .invalidArgument "fnv1a64-v1 Worker routing requires a zero hash seed"
    else
      .ok ()
  | .siphash24V1 => .ok ()

def hashKeyRouting (key : Key) (state : WorkerRoutingState) : UInt64 :=
  match state.algorithm with
  | .siphash24V1 => siphash24 key state.seed (state.seed ^^^ kWorkerRoutingSipKey1Xor)
  | .fnv1a64V1 => hashKey key

def routeWorker (keyHash workerCount : Nat) : Nat :=
  keyHash % workerCount

end GlifiStore
