import GlifiStore.Server.RequestFraming

/-!
# Response framing

A stream of well-formed response frames with any status codes. The decoder finds the
frames whose status it knows; of a frame with an unknown status it reports an error, which
does not say where the next frame begins.
-/

namespace GlifiStore.Server

open ByteLayout

/-! ## Frames -/

/-- A well-formed response frame of version 2, with any status code. -/
structure ResponseFrame (maximum : Nat) where
  status : Nat
  requestId : Nat
  ownerWorker : Nat
  workerCount : Nat
  routingEpoch : Nat
  value : Bytes
  statusFits : status < 256 ^ 2
  requestIdFits : requestId < 256 ^ 8
  ownerWorkerFits : ownerWorker < 256 ^ 4
  workerCountFits : workerCount < 256 ^ 4
  routingEpochFits : routingEpoch < 256 ^ 8
  sizeFits : kResponseHeaderBytes + value.length < 256 ^ 4
  inLimit : kResponseHeaderBytes + value.length ≤ maximum

namespace ResponseFrame

variable {maximum : Nat} (frame : ResponseFrame maximum)

def fields : List (Nat × Bytes) :=
  [(0, encodeLE 4 (kResponseHeaderBytes + frame.value.length)),
    (4, encodeLE 2 kProtocolVersion),
    (6, encodeLE 2 frame.status),
    (8, encodeLE 8 frame.requestId),
    (16, encodeLE 4 frame.value.length),
    (20, encodeLE 4 frame.ownerWorker),
    (24, encodeLE 4 frame.workerCount),
    (28, encodeLE 4 0),
    (32, encodeLE 8 frame.routingEpoch)]

def bytes : Bytes :=
  blitAll (List.replicate kResponseHeaderBytes 0) frame.fields ++ frame.value

def view (status : ResponseStatus) : ResponseView :=
  { status
    requestId := frame.requestId
    ownerWorker := frame.ownerWorker
    workerCount := frame.workerCount
    routingEpoch := frame.routingEpoch
    value := frame.value }

/-- What a reader is to be told of the frame: its response, or an error for its status. -/
def answer : Except Error ResponseView :=
  (responseStatus frame.status).map frame.view

variable (frame : ResponseFrame maximum)

theorem fields_apart : frame.fields.Pairwise Apart := by
  apply pairwise_apart_of_isChain
  simp [fields]

theorem fields_range {field : Nat × Bytes} (member : field ∈ frame.fields) :
    field.1 + field.2.length ≤ (List.replicate kResponseHeaderBytes (0 : UInt8)).length := by
  simp only [fields, List.mem_cons, List.not_mem_nil, or_false] at member
  rcases member with rfl | rfl | rfl | rfl | rfl | rfl | rfl | rfl | rfl <;>
    simp [kResponseHeaderBytes]

theorem length_header :
    (blitAll (List.replicate kResponseHeaderBytes 0) frame.fields).length = 40 := by
  rw [length_blitAll fun _ member => frame.fields_range member, List.length_replicate]
  rfl

theorem length_bytes : frame.bytes.length = 40 + frame.value.length := by
  rw [bytes, List.length_append, frame.length_header]

theorem getLE_bytes {start width value : Nat} (more : Bytes)
    (member : (start, encodeLE width value) ∈ frame.fields) (small : value < 256 ^ width) :
    getLE width (frame.bytes ++ more) start = value := by
  have inside := frame.fields_range member
  rw [length_encodeLE, List.length_replicate] at inside
  have front : (frame.bytes ++ more).take 40 =
      (blitAll (List.replicate kResponseHeaderBytes 0) frame.fields).take 40 := by
    rw [bytes, List.append_assoc, List.take_append_of_le_length frame.length_header.ge]
  rw [getLE_congr (slice_eq_of_take_eq front inside)]
  exact getLE_blitAll_mem (fun _ held => frame.fields_range held) frame.fields_apart member small

theorem slice_value (more : Bytes) :
    slice (frame.bytes ++ more) kResponseHeaderBytes frame.value.length = frame.value := by
  have dropped : (frame.bytes ++ more).drop kResponseHeaderBytes = frame.value ++ more := by
    rw [bytes, List.append_assoc]
    exact List.drop_left' frame.length_header
  rw [slice, dropped, List.take_left']
  rfl

end ResponseFrame

/-! ## Known statuses -/

variable {encoded : Nat} {status : ResponseStatus}

theorem responseStatus_ok :
    responseStatus encoded = .ok status ↔ encoded = status.raw := by
  constructor
  · fun_cases responseStatus encoded <;> simp [fail] <;> rintro rfl <;> rfl
  · rintro rfl
    cases status <;> rfl

def KnownStatus (encoded : Nat) : Prop := encoded ≤ ResponseStatus.permissionDenied.raw

instance (encoded : Nat) : Decidable (KnownStatus encoded) :=
  inferInstanceAs (Decidable (encoded ≤ ResponseStatus.permissionDenied.raw))

theorem responseStatus_of_known (known : KnownStatus encoded) :
    ∃ status, responseStatus encoded = .ok status := by
  match encoded with
  | 0 | 1 | 2 | 3 | 4 | 5 | 6 | 7 | 8 => exact ⟨_, rfl⟩
  | beyond + 9 =>
    have small : beyond + 9 ≤ 8 := known
    omega

theorem known_of_responseStatus (found : responseStatus encoded = .ok status) :
    KnownStatus encoded := by
  rw [responseStatus_ok.mp found]
  cases status <;> decide

def unknownStatus : Error := ⟨.invalidRecord, "response contains an unknown status"⟩

theorem responseStatus_of_unknown (unknown : ¬ KnownStatus encoded) :
    responseStatus encoded = .error unknownStatus := by
  cases found : responseStatus encoded with
  | ok status => exact absurd (known_of_responseStatus found) unknown
  | error error =>
    revert found
    fun_cases responseStatus encoded <;> simp [fail, unknownStatus, eq_comm]

variable {maximum : Nat}

/-! ## The decoder -/

theorem decodeResponse_bytes (frame : ResponseFrame maximum) (more : Bytes) :
    decodeResponse (frame.bytes ++ more) maximum =
      (responseStatus frame.status).map fun status =>
        some (frame.view status, frame.bytes.length) := by
  have size := frame.getLE_bytes more (List.mem_of_getElem? (i := 0) rfl) frame.sizeFits
  have version := frame.getLE_bytes more (List.mem_of_getElem? (i := 1) rfl) (by decide)
  have status := frame.getLE_bytes more (List.mem_of_getElem? (i := 2) rfl) frame.statusFits
  have id := frame.getLE_bytes more (List.mem_of_getElem? (i := 3) rfl) frame.requestIdFits
  have valueSize := frame.getLE_bytes more (List.mem_of_getElem? (i := 4) rfl)
    ((Nat.le_add_left _ _).trans_lt frame.sizeFits)
  have owner := frame.getLE_bytes more (List.mem_of_getElem? (i := 5) rfl) frame.ownerWorkerFits
  have count := frame.getLE_bytes more (List.mem_of_getElem? (i := 6) rfl) frame.workerCountFits
  have reserved := frame.getLE_bytes more (List.mem_of_getElem? (i := 7) rfl) (by decide)
  have epoch := frame.getLE_bytes more (List.mem_of_getElem? (i := 8) rfl) frame.routingEpochFits
  have long : 40 + frame.value.length ≤ (frame.bytes ++ more).length := by
    rw [List.length_append, frame.length_bytes]
    omega
  have limit := frame.inLimit
  have value : slice (frame.bytes ++ more) 40 frame.value.length = frame.value :=
    frame.slice_value more
  simp only [kResponseHeaderBytes] at size limit
  unfold decodeResponse
  simp only [size, version, status, id, valueSize, owner, count, reserved, epoch, value,
    kResponseHeaderBytes]
  rw [if_neg (by omega), if_neg (by omega), if_neg (by omega)]
  cases responseStatus frame.status with
  | error error => simp [Except.map]
  | ok found => simp [Except.map, ResponseFrame.view, frame.length_bytes]

theorem decodeResponse_append (stream more : Bytes)
    (decided : decodeResponse stream maximum ≠ .ok none) :
    decodeResponse (stream ++ more) maximum = decodeResponse stream maximum := by
  have longer : stream.length ≤ (stream ++ more).length := by simp
  unfold decodeResponse at decided ⊢
  by_cases short : stream.length < 4
  · simp [short] at decided
  simp only [if_neg short, if_neg (show ¬ (stream ++ more).length < 4 by omega),
    getLE_append_left more (show 0 + 4 ≤ stream.length by omega)] at decided ⊢
  by_cases limits : getLE 4 stream 0 < kResponseHeaderBytes ∨ getLE 4 stream 0 > maximum
  · simp only [if_pos limits]
  simp only [if_neg limits] at decided ⊢
  by_cases incomplete : stream.length < getLE 4 stream 0
  · simp [incomplete] at decided
  have header : 40 ≤ stream.length := by
    simp only [kResponseHeaderBytes] at limits
    omega
  simp only [if_neg incomplete, if_neg (show ¬ (stream ++ more).length < getLE 4 stream 0 by omega)]
  simp (disch := omega) only [getLE_append_left]
  by_cases sizes : kResponseHeaderBytes + getLE 4 stream 16 ≠ getLE 4 stream 0
  · simp only [if_pos sizes]
  · simp (disch := omega) only [slice_append_left]

theorem decodeResponse_taken {stream : Bytes} {response : ResponseView} {size : Nat}
    (decoded : decodeResponse stream maximum = .ok (some (response, size))) :
    0 < size ∧ size ≤ stream.length := by
  revert decoded
  fun_cases decodeResponse stream maximum with
  | case8 long frameSize limits complete version reserved status known valueSize sizes =>
    simp only [Except.ok.injEq, Option.some.injEq, Prod.mk.injEq]
    rintro ⟨-, rfl⟩
    simp only [kResponseHeaderBytes] at limits
    omega
  | _ => simp [fail]

/-! ## Streams -/

/-- The decoder as a reader of a stream uses it: an item with its size, more to wait for,
or an error without a size. -/
def readResponse (maximum : Nat) : Framing.Decoder UInt8 (Except Error ResponseView) Error :=
  fun input =>
    match decodeResponse input maximum with
    | .error error => .error error
    | .ok none => .ok none
    | .ok (some (response, size)) => .ok (some (.ok response, size))

theorem readResponse_stable : Framing.Stable (readResponse maximum) where
  append stream more decided := by
    unfold readResponse at decided ⊢
    rw [decodeResponse_append stream more]
    intro waits
    rw [waits] at decided
    exact decided rfl
  taken stream item size decoded := by
    unfold readResponse at decoded
    split at decoded
    · exact absurd decoded nofun
    · exact absurd decoded nofun
    · next response found decides =>
      obtain ⟨-, rfl⟩ := Prod.mk.inj (Option.some.inj (Except.ok.inj decoded))
      exact decodeResponse_taken decides

/-- The reader gets the answer of every frame and is at the end of the stream. -/
def Synchronised (frames : List (ResponseFrame maximum)) (chunks : List Bytes) : Prop :=
  chunks.foldl (Framing.receive (readResponse maximum)) ([], .ok []) =
    (frames.map ResponseFrame.answer, .ok [])

variable {frames : List (ResponseFrame maximum)} {chunks : List Bytes}
  {frame : ResponseFrame maximum}

theorem readResponse_known (known : KnownStatus frame.status) (more : Bytes) :
    readResponse maximum (frame.bytes ++ more) = .ok (some (frame.answer, frame.bytes.length)) := by
  obtain ⟨status, found⟩ := responseStatus_of_known known
  rw [readResponse, decodeResponse_bytes, ResponseFrame.answer, found]
  rfl

theorem readResponse_unknown (unknown : ¬ KnownStatus frame.status) (more : Bytes) :
    readResponse maximum (frame.bytes ++ more) = .error unknownStatus := by
  rw [readResponse, decodeResponse_bytes, responseStatus_of_unknown unknown]
  rfl

theorem frames_readResponse (frames : List (ResponseFrame maximum)) :
    Framing.frames (readResponse maximum) (frames.map ResponseFrame.bytes).flatten =
      ((frames.takeWhile fun frame => KnownStatus frame.status).map ResponseFrame.answer,
        if ∀ frame ∈ frames, KnownStatus frame.status then .ok [] else .error unknownStatus) := by
  induction frames with
  | nil => exact Framing.frames_of_none rfl
  | cons frame rest ih =>
    rw [List.map_cons, List.flatten_cons]
    by_cases known : KnownStatus frame.status
    · rw [Framing.frames_of_some readResponse_stable (readResponse_known known _),
        List.drop_left, ih, List.takeWhile_cons_of_pos (by simpa using known), List.map_cons]
      simp only [List.forall_mem_cons, known, true_and]
    · rw [Framing.frames_of_error (readResponse_unknown known _),
        List.takeWhile_cons_of_neg (by simpa using known), List.map_nil,
        if_neg fun all => known (all frame List.mem_cons_self)]

/-- A stream of well-formed frames, however it is cut, is read in full exactly when every
status in it is known. -/
theorem responses_synchronised_iff (cut : chunks.flatten = (frames.map ResponseFrame.bytes).flatten) :
    Synchronised frames chunks ↔ ∀ frame ∈ frames, KnownStatus frame.status := by
  have read : chunks.foldl (Framing.receive (readResponse maximum)) ([], .ok []) =
      Framing.frames (readResponse maximum) chunks.flatten :=
    Framing.foldl_receive readResponse_stable chunks
  rw [Synchronised, read, cut, frames_readResponse]
  constructor
  · intro same
    by_contra unknown
    rw [if_neg unknown] at same
    exact absurd (Prod.mk.inj same).2 nofun
  · intro known
    rw [if_pos known, List.takeWhile_eq_self_iff.mpr fun frame member => by
      simpa using known frame member]

def smallFrame (status : Nat) (value : Bytes) (known : status < 256 ^ 2 := by decide)
    (fits : value.length ≤ 1 := by decide) : ResponseFrame kMaxFrameBytes where
  status := status
  requestId := 1
  ownerWorker := 0
  workerCount := 1
  routingEpoch := 1
  value := value
  statusFits := known
  requestIdFits := one_fits8
  ownerWorkerFits := zero_fits4
  workerCountFits := one_fits4
  routingEpochFits := one_fits8
  sizeFits := Nat.lt_of_le_of_lt (Nat.add_le_add_left fits _) (by decide)
  inLimit := Nat.le_trans (Nat.add_le_add_left fits _) (by decide)

/-- Two frames in three chunks, the second of which ends inside the second frame. -/
theorem responses_synchronised_halves :
    Synchronised [smallFrame 0 [7], smallFrame 3 []]
      [(smallFrame 0 [7]).bytes.take 10,
        (smallFrame 0 [7]).bytes.drop 10 ++ (smallFrame 3 []).bytes.take 5,
        (smallFrame 3 []).bytes.drop 5] := by
  refine (responses_synchronised_iff ?_).mpr (by decide)
  simp only [List.flatten_cons, List.flatten_nil, List.map_cons, List.map_nil, List.append_assoc,
    List.append_nil, List.take_append_drop]
  rw [← List.append_assoc, List.take_append_drop]

/-- Frames of different sizes with an unknown status get the same answer, so that no reader
can tell from it where the next frame begins. -/
theorem unknown_status_hides_boundary :
    ¬ Synchronised [smallFrame 9 []] [(smallFrame 9 []).bytes] ∧
      (smallFrame 9 []).bytes.length ≠ (smallFrame 9 [7]).bytes.length ∧
      ∀ more, decodeResponse ((smallFrame 9 []).bytes ++ more) kMaxFrameBytes =
        decodeResponse ((smallFrame 9 [7]).bytes ++ more) kMaxFrameBytes := by
  refine ⟨?_, ?_, fun more => ?_⟩
  · unfold Synchronised
    decide +kernel
  · rw [ResponseFrame.length_bytes, ResponseFrame.length_bytes]
    decide
  · rw [decodeResponse_bytes, decodeResponse_bytes]
    rfl

end GlifiStore.Server
