import Mathlib

/-!
# Core types

Errors, identifiers and format constants shared by the Index, the Segment
codecs and the persistence layer. Strong identifiers are natural numbers; the
width of a field is stated where it is read, written or incremented.
-/

namespace GlifiStore

abbrev Bytes := List UInt8

abbrev Key := Bytes

inductive ErrorCode where
  | invalidArgument
  | arithmeticOverflow
  | recordTooLarge
  | segmentFull
  | segmentSealed
  | invalidRecord
  | checksumMismatch
  | invalidReference
  | sequenceConflict
  | corruptedData
  | notFound
  | resourceExhausted
  | storageExhausted
  | fileTooLarge
  | descriptorExhausted
  | readOnlyFilesystem
  | internalError
  | unavailable
  | ioError
  deriving DecidableEq, Repr

structure Error where
  code : ErrorCode
  message : String
  deriving DecidableEq, Repr

abbrev Result (α : Type) := Except Error α

abbrev Status := Result Unit

def fail {α : Type} (code : ErrorCode) (message : String) : Result α :=
  .error ⟨code, message⟩

theorem bind_eq_ok {α β : Type} {first : Result α} {rest : α → Result β} {value : β} :
    (first >>= rest) = .ok value ↔ ∃ middle, first = .ok middle ∧ rest middle = .ok value := by
  cases first with
  | error error => exact ⟨nofun, nofun⟩
  | ok middle => exact ⟨fun done => ⟨middle, rfl, done⟩, fun ⟨_, rfl, done⟩ => done⟩

theorem map_eq_ok {α β : Type} {result : Result α} {image : α → β} {value : β} :
    result.map image = .ok value ↔ ∃ inner, result = .ok inner ∧ image inner = value := by
  cases result with
  | error error => exact ⟨nofun, nofun⟩
  | ok inner =>
    exact ⟨fun done => ⟨inner, rfl, Except.ok.inj done⟩, fun ⟨_, rfl, done⟩ => congrArg _ done⟩

theorem guard_eq_ok {α : Type} {refused : Prop} [Decidable refused] {code : ErrorCode}
    {message : String} {rest : Result α} {value : α} :
    (if refused then fail code message else rest) = .ok value ↔ ¬ refused ∧ rest = .ok value := by
  split
  · next holds => exact ⟨nofun, fun both => absurd holds both.1⟩
  · next free => exact ⟨fun done => ⟨free, done⟩, And.right⟩

def kUInt32Max : Nat := 2 ^ 32 - 1
def kUInt64Max : Nat := 2 ^ 64 - 1
def kSizeMax : Nat := 2 ^ 64 - 1

theorem one_le_uint32Max : 1 ≤ kUInt32Max := by decide

theorem one_le_uint64Max : 1 ≤ kUInt64Max := by decide

def checkedAdd (lhs rhs : Nat) : Result Nat :=
  if rhs > kSizeMax - lhs then
    fail .arithmeticOverflow "unsigned addition overflow"
  else
    .ok (lhs + rhs)

/-- `align_up_checked` for the power-of-two alignments the formats use. -/
def alignUpChecked (value alignment : Nat) : Result Nat := do
  let withPadding ← checkedAdd value (alignment - 1)
  .ok (withPadding / alignment * alignment)

def kSegmentSizeBytes : Nat := 64 * 1024 * 1024
def kSegmentHeaderReservedBytes : Nat := 4096
def kRecordAlignment : Nat := 8
def kMaxNormalRecordSize : Nat := 1024 * 1024

structure RecordRef where
  segmentId : Nat
  offset : Nat
  size : Nat
  sequence : Nat
  generation : Nat
  deriving DecidableEq, Repr, Inhabited

end GlifiStore
