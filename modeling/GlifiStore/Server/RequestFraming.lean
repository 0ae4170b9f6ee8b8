import GlifiStore.Lib.Framing
import GlifiStore.Server.Protocol

/-!
# Request framing

The decoder accepts exactly the encodings of valid requests, whatever follows
them, and its decisions do not depend on how the stream is cut.
-/

namespace GlifiStore.Server

open ByteLayout

/-! ## What an encoding is -/

@[mk_iff]
structure EncodesRequest (request : RequestView) (bytes : Bytes) : Prop where
  flags : request.flags = 0
  valid : validateRequestFields request = .ok ()
  bounded : 40 + request.key.length + request.value.length ≤ kMaxFrameBytes
  length : bytes.length = 40 + request.key.length + request.value.length
  frameSize : getLE 4 bytes 0 = 40 + request.key.length + request.value.length
  version : getLE 2 bytes 4 = kProtocolVersion
  opcode : getLE 1 bytes 6 = request.opcode.raw
  noFlags : getLE 1 bytes 7 = 0
  requestId : getLE 8 bytes 8 = request.requestId
  keySize : getLE 4 bytes 16 = request.key.length
  valueSize : getLE 4 bytes 20 = request.value.length
  expireAtNs : getLE 8 bytes 24 = request.expireAtNs
  targetWorker : getLE 4 bytes 32 = request.targetWorker
  reserved : getLE 4 bytes 36 = 0
  key : slice bytes 40 request.key.length = request.key
  value : slice bytes (40 + request.key.length) request.value.length = request.value

section Encoding

variable {request : RequestView} {bytes : Bytes} {size : Nat}

theorem requestFields_apart : (requestFields request size).Pairwise Apart := by
  apply pairwise_apart_of_isChain
  simp [requestFields, kRequestHeaderBytes]

theorem requestFields_range {field : Nat × Bytes} (member : field ∈ requestFields request size) :
    field.1 + field.2.length ≤ 40 + request.key.length + request.value.length := by
  simp only [requestFields, List.mem_cons, List.not_mem_nil, or_false] at member
  rcases member with rfl | rfl | rfl | rfl | rfl | rfl | rfl | rfl | rfl | rfl | rfl | rfl <;>
    simp only [length_encodeLE, kRequestHeaderBytes] <;> omega

theorem not_uncovered_requestFields {i : Nat}
    (inside : i < 40 + request.key.length + request.value.length) :
    ¬ Uncovered (requestFields request size) i := by
  simp only [Uncovered, requestFields, List.forall_mem_cons, length_encodeLE, kRequestHeaderBytes,
    List.not_mem_nil, false_implies, implies_true, and_true]
  omega

theorem encodedRequestSize_ok :
    encodedRequestSize request = .ok size ↔
      request.flags = 0 ∧ validateRequestFields request = .ok () ∧
        40 + request.key.length + request.value.length ≤ kMaxFrameBytes ∧
        size = 40 + request.key.length + request.value.length := by
  fun_cases encodedRequestSize request with
  | case1 flags => simp [fail, flags]
  | case2 flags error invalid => simp [invalid]
  | case3 flags valid tooLarge =>
    simp only [fail, kRequestHeaderBytes] at tooLarge ⊢
    simp only [reduceCtorEq, false_iff, not_and]
    omega
  | case4 flags valid fits =>
    simp only [kRequestHeaderBytes, Nat.not_lt] at fits
    simp only [kRequestHeaderBytes, Except.ok.injEq]
    simp only [Decidable.not_not] at flags
    exact ⟨fun same => ⟨flags, valid, fits, same.symm⟩, fun all => all.2.2.2.symm⟩

theorem encodeRequest_ok : encodeRequest request = .ok bytes ↔ EncodesRequest request bytes := by
  have opcodeFits : request.opcode.raw < 256 ^ 1 := by cases request.opcode <;> decide
  unfold encodeRequest
  cases sized : encodedRequestSize request with
  | error error =>
    refine ⟨nofun, fun encodes => ?_⟩
    exact nomatch sized.symm.trans
      (encodedRequestSize_ok.mpr ⟨encodes.flags, encodes.valid, encodes.bounded, rfl⟩)
  | ok size =>
    obtain ⟨flags, valid, bounded, rfl⟩ := encodedRequestSize_ok.mp sized
    have small := bounded
    simp only [kMaxFrameBytes] at small
    rw [Except.ok.injEq, eq_comm, eq_blitAll_replicate_iff
      (fun field member => requestFields_range member) requestFields_apart, encodesRequest_iff]
    simp only [flags, valid, bounded, true_and]
    refine and_congr_right fun length => ?_
    rw [and_iff_left fun i inside uncovered =>
      absurd uncovered (not_uncovered_requestFields inside)]
    simp only [requestFields, flags, List.forall_mem_cons, List.not_mem_nil, false_implies,
      implies_true, and_true, kRequestHeaderBytes]
    have requestIdFits := request.requestIdFits
    have expireFits := request.expireAtNsFits
    have workerFits := request.targetWorkerFits
    simp (disch := first | omega | decide) only [slice_field_iff]

end Encoding

/-! ## What the decoder accepts -/

theorem requestOpcode_ok {encoded : Nat} {opcode : RequestOpcode} :
    requestOpcode encoded = .ok opcode ↔ encoded = opcode.raw := by
  constructor
  · fun_cases requestOpcode encoded <;> simp [fail] <;> rintro rfl <;> rfl
  · rintro rfl
    cases opcode <;> rfl

theorem decodeRequest_complete {input : Bytes} {request : RequestView} {size : Nat} :
    decodeRequest input = .ok (some (request, size)) ↔
      size ≤ input.length ∧ size = 40 + request.key.length + request.value.length ∧
        EncodesRequest request (input.take size) := by
  constructor
  · fun_cases decodeRequest input with
    | case9 _ frameSize limits complete version canonical opcode known keySize valueSize sizes frame
        valid =>
      simp only [Except.ok.injEq, Option.some.injEq, Prod.mk.injEq]
      rintro ⟨rfl, rfl⟩
      simp only [kRequestHeaderBytes, not_or, Decidable.not_not, Nat.not_lt] at *
      have keyLength : frame.key.length = keySize :=
        length_slice (by simp only [kRequestHeaderBytes]; omega)
      have valueLength : frame.value.length = valueSize :=
        length_slice (by simp only [kRequestHeaderBytes]; omega)
      refine ⟨complete, by omega, ?_⟩
      rw [encodesRequest_iff, keyLength, valueLength, List.length_take]
      simp (disch := omega) only [getLE_take, slice_take]
      exact ⟨canonical.1, valid, by omega, by omega, by omega, version, requestOpcode_ok.mp known,
        canonical.1, rfl, rfl, rfl, rfl, rfl, canonical.2, rfl, rfl⟩
    | _ => nofun
  · rintro ⟨inside, rfl, encodes⟩
    rw [encodesRequest_iff] at encodes
    simp (disch := omega) only [getLE_take, slice_take] at encodes
    obtain ⟨flags, valid, bounded, -, frameSize, version, opcode, noFlags, requestId, keySize,
      valueSize, expireAtNs, targetWorker, reserved, key, value⟩ := encodes
    have frame : (
        { opcode := request.opcode
          flags := 0
          requestId := getLE 8 input 8
          expireAtNs := getLE 8 input 24
          targetWorker := getLE 4 input 32
          key := slice input 40 request.key.length
          value := slice input (40 + request.key.length) request.value.length
          requestIdFits := getLE_lt 8 input 8
          expireAtNsFits := getLE_lt 8 input 24
          targetWorkerFits := getLE_lt 4 input 32 } : RequestView) = request :=
      RequestView.ext rfl flags.symm requestId expireAtNs targetWorker key value
    simp only [decodeRequest, kRequestHeaderBytes, frameSize, version, noFlags, reserved, opcode,
      keySize, valueSize, requestOpcode_ok.mpr rfl, frame, valid]
    rw [if_neg (show ¬ input.length < 4 by omega), if_neg (by omega), if_neg (Nat.not_lt.mpr inside)]
    simp

theorem decodeRequest_append (stream more : Bytes) (decided : decodeRequest stream ≠ .ok none) :
    decodeRequest (stream ++ more) = decodeRequest stream := by
  have longer : stream.length ≤ (stream ++ more).length := by simp
  unfold decodeRequest at decided ⊢
  by_cases short : stream.length < 4
  · simp [short] at decided
  simp only [if_neg short, if_neg (show ¬ (stream ++ more).length < 4 by omega),
    getLE_append_left more (show 0 + 4 ≤ stream.length by omega)] at decided ⊢
  by_cases limits : getLE 4 stream 0 < kRequestHeaderBytes ∨ getLE 4 stream 0 > kMaxFrameBytes
  · simp only [if_pos limits]
  simp only [if_neg limits] at decided ⊢
  by_cases incomplete : stream.length < getLE 4 stream 0
  · simp [incomplete] at decided
  have header : 40 ≤ stream.length := by
    simp only [kRequestHeaderBytes] at limits
    omega
  simp only [if_neg incomplete, if_neg (show ¬ (stream ++ more).length < getLE 4 stream 0 by omega)]
  simp (disch := omega) only [getLE_append_left]
  by_cases sizes : kRequestHeaderBytes + getLE 4 stream 16 + getLE 4 stream 20 ≠ getLE 4 stream 0
  · simp only [if_pos sizes]
  · simp (disch := omega) only [slice_append_left]

theorem decodeRequest_stable : Framing.Stable decodeRequest where
  append := decodeRequest_append
  taken stream request size decoded := by
    obtain ⟨inside, exact, -⟩ := decodeRequest_complete.mp decoded
    exact ⟨by omega, inside⟩

theorem decodeRequest_strict {request : RequestView} {bytes : Bytes}
    (encodes : EncodesRequest request bytes) {count : Nat} (strict : count < bytes.length) :
    decodeRequest (bytes.take count) = .ok none := by
  have length := encodes.length
  have bounded := encodes.bounded
  have taken : (bytes.take count).length = count := by
    rw [List.length_take]
    omega
  unfold decodeRequest
  by_cases short : count < 4
  · rw [taken, if_pos short]
  · have frameSize : getLE 4 (bytes.take count) 0 = bytes.length := by
      rw [getLE_take (by omega), encodes.frameSize, length]
    simp only [taken, frameSize, if_neg short]
    rw [if_neg (by simp only [kRequestHeaderBytes]; omega), if_pos strict]

/-! ## Framing -/

/-- The codec of requests: the decoder returns an encoded request whatever follows it,
accepts only encodings, keeps every decision when the stream grows, waits for the last
byte of a frame, and finds the same requests in however many chunks they arrive. -/
theorem request_framing_canonical :
    (∀ request bytes more, encodeRequest request = .ok bytes →
      decodeRequest (bytes ++ more) = .ok (some (request, bytes.length))) ∧
    (∀ input request size, decodeRequest input = .ok (some (request, size)) →
      size ≤ input.length ∧ encodeRequest request = .ok (input.take size)) ∧
    (∀ stream more, decodeRequest stream ≠ .ok none →
      decodeRequest (stream ++ more) = decodeRequest stream) ∧
    (∀ request bytes count, encodeRequest request = .ok bytes → count < bytes.length →
      decodeRequest (bytes.take count) = .ok none) ∧
    ∀ chunks : List Bytes, chunks.foldl (Framing.receive decodeRequest) ([], .ok []) =
      Framing.frames decodeRequest chunks.flatten := by
  refine ⟨?_, ?_, decodeRequest_append, ?_, ?_⟩
  · intro request bytes more encoded
    have encodes := encodeRequest_ok.mp encoded
    refine decodeRequest_complete.mpr ⟨by simp, encodes.length, ?_⟩
    rw [List.take_left]
    exact encodes
  · intro input request size decoded
    obtain ⟨inside, -, encodes⟩ := decodeRequest_complete.mp decoded
    exact ⟨inside, encodeRequest_ok.mpr encodes⟩
  · exact fun request bytes count encoded strict =>
      decodeRequest_strict (encodeRequest_ok.mp encoded) strict
  · exact Framing.foldl_receive decodeRequest_stable

/-- A stream of encoded requests is read back in order, with nothing left over. -/
theorem request_stream_round_trip
    (sent : List { sent : RequestView × Bytes // encodeRequest sent.1 = .ok sent.2 }) :
    Framing.frames decodeRequest (sent.flatMap (·.1.2)) = (sent.map (·.1.1), .ok []) := by
  induction sent with
  | nil => rfl
  | cons first sent ih =>
    have encodes := encodeRequest_ok.mp first.2
    rw [List.flatMap_cons, Framing.frames_of_some decodeRequest_stable
      (decodeRequest_complete.mpr ⟨by simp, encodes.length, by rwa [List.take_left]⟩),
      List.drop_left, ih, List.map_cons]

end GlifiStore.Server
