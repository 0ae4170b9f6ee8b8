import Mathlib

/-!
# Framed streams

A decoder looks at the front of a stream and finds an item with the length it
takes, asks for more, or fails. When its decisions stay as the stream grows, the
items of a stream do not depend on the chunks it arrives in.
-/

namespace Framing

variable {α β ε : Type}

/-- The front of a stream: an item and its length, or nothing yet. -/
abbrev Decoder (α β ε : Type) := List α → Except ε (Option (β × Nat))

/-- A decision stays when the stream grows, and an item takes a part of it. -/
structure Stable (decode : Decoder α β ε) : Prop where
  append : ∀ stream more, decode stream ≠ .ok none → decode (stream ++ more) = decode stream
  taken : ∀ stream item size, decode stream = .ok (some (item, size)) →
    0 < size ∧ size ≤ stream.length

variable (decode : Decoder α β ε)

/-- Items as long as there are any, and how the stream ends: with what is left of
it, or with a failure. -/
def drain : Nat → List α → List β × Except ε (List α)
  | 0, stream => ([], .ok stream)
  | fuel + 1, stream =>
    match decode stream with
    | .error error => ([], .error error)
    | .ok none => ([], .ok stream)
    | .ok (some (item, size)) =>
      let (items, rest) := drain fuel (stream.drop size)
      (item :: items, rest)

/-- All items of a stream. Each takes at least one element. -/
def frames (stream : List α) : List β × Except ε (List α) :=
  drain decode (stream.length + 1) stream

/-- A reader that keeps what it could not decode for the next chunk. -/
def receive : List β × Except ε (List α) → List α → List β × Except ε (List α)
  | (items, .error error), _ => (items, .error error)
  | (items, .ok pending), chunk =>
    let (more, rest) := frames decode (pending ++ chunk)
    (items ++ more, rest)

variable {decode : Decoder α β ε} {stream : List α}

theorem drain_eq_frames (stable : Stable decode) {fuel : Nat} (enough : stream.length < fuel) :
    drain decode fuel stream = frames decode stream := by
  suffices ∀ fuel other stream, List.length stream < fuel → List.length stream < other →
      drain decode fuel stream = drain decode other stream from
    this fuel _ stream enough (Nat.lt_succ_self _)
  intro fuel
  induction fuel with
  | zero => exact fun _ _ none => absurd none (Nat.not_lt_zero _)
  | succ fuel ih =>
    intro other stream small less
    cases other with
    | zero => exact absurd less (Nat.not_lt_zero _)
    | succ other =>
      unfold drain
      cases decoded : decode stream with
      | error error => rfl
      | ok front =>
        cases front with
        | none => rfl
        | some found =>
          obtain ⟨item, size⟩ := found
          obtain ⟨positive, inside⟩ := stable.taken stream item size decoded
          have shorter : (stream.drop size).length < stream.length := by
            rw [List.length_drop]
            omega
          simp only [ih other (stream.drop size) (by omega) (by omega)]

theorem frames_of_error {error : ε} (decoded : decode stream = .error error) :
    frames decode stream = ([], .error error) := by
  simp only [frames, drain, decoded]

theorem frames_of_none (decoded : decode stream = .ok none) :
    frames decode stream = ([], .ok stream) := by
  simp only [frames, drain, decoded]

theorem frames_of_some (stable : Stable decode) {item : β} {size : Nat}
    (decoded : decode stream = .ok (some (item, size))) :
    frames decode stream =
      (item :: (frames decode (stream.drop size)).1, (frames decode (stream.drop size)).2) := by
  obtain ⟨positive, inside⟩ := stable.taken stream item size decoded
  rw [frames, drain, decoded]
  simp only
  rw [drain_eq_frames stable (by rw [List.length_drop]; omega)]

/-- The items of a longer stream: those of its front, and those of what is left of
the front with the rest. -/
theorem frames_append (stable : Stable decode) (stream more : List α) :
    frames decode (stream ++ more) = receive decode (frames decode stream) more := by
  induction length : stream.length using Nat.strongRecOn generalizing stream with
  | ind count ih =>
    cases decoded : decode stream with
    | error error =>
      rw [frames_of_error decoded]
      exact frames_of_error ((stable.append stream more (by simp [decoded])).trans decoded)
    | ok front =>
      cases front with
      | none =>
        rw [frames_of_none decoded]
        rfl
      | some found =>
        obtain ⟨item, size⟩ := found
        obtain ⟨positive, inside⟩ := stable.taken stream item size decoded
        have same := (stable.append stream more (by simp [decoded])).trans decoded
        have left := ih _ (by rw [← length, List.length_drop]; omega) (stream.drop size) rfl
        obtain ⟨items, ended, drained⟩ : ∃ items ended,
            frames decode (stream.drop size) = (items, ended) := ⟨_, _, rfl⟩
        rw [frames_of_some stable decoded, frames_of_some stable same,
          List.drop_append_of_le_length inside, left, drained]
        cases ended with
        | error error => rfl
        | ok pending => rfl

theorem foldl_receive (stable : Stable decode) (chunks : List (List α)) :
    chunks.foldl (receive decode) (frames decode []) = frames decode chunks.flatten := by
  suffices ∀ stream, chunks.foldl (receive decode) (frames decode stream) =
      frames decode (stream ++ chunks.flatten) from this []
  induction chunks with
  | nil => simp
  | cons chunk rest ih =>
    intro stream
    rw [List.foldl_cons, ← frames_append stable, ih, List.flatten_cons, List.append_assoc]

end Framing
