import Mathlib

/-!
# Integer arithmetic

The ratio in basis points, on machine words. An operation whose result leaves its type has no
result here, so a computed value also says that nothing wrapped on the way.
-/

namespace GlifiStore

def fits (bits value : Nat) : Option Nat := if value < 2 ^ bits then some value else none

def difference (left right : Nat) : Option Nat := if right ≤ left then some (left - right) else none

theorem fits_eq {bits value : Nat} (small : value < 2 ^ bits) : fits bits value = some value :=
  if_pos small

theorem difference_eq {left right : Nat} (ordered : right ≤ left) :
    difference left right = some (left - right) :=
  if_pos ordered

structure Fraction where
  quotient : Nat := 0
  remainder : Nat := 0
deriving DecidableEq, Repr

namespace Fraction

/-- The local `add` of `basis_points`. -/
def add (denominator : Nat) (left right : Fraction) : Option Fraction := do
  let quotient ← fits 32 (left.quotient + right.quotient)
  let missing ← difference denominator right.remainder
  if right.remainder ≠ 0 ∧ left.remainder ≥ missing then
    return ⟨← fits 32 (quotient + 1), ← difference left.remainder missing⟩
  else
    return ⟨quotient, ← fits 64 (left.remainder + right.remainder)⟩

def ofValue (denominator value : Nat) : Fraction :=
  ⟨value / denominator, value % denominator⟩

theorem add_ofValue {denominator left right : Nat} (positive : 0 < denominator)
    (word : denominator < 2 ^ 64) (bounded : left + right ≤ 10000 * denominator) :
    add denominator (ofValue denominator left) (ofValue denominator right)
      = some (ofValue denominator (left + right)) := by
  have leftBelow := Nat.mod_lt left positive
  have rightBelow := Nat.mod_lt right positive
  have total : (left + right) / denominator ≤ 10000 := Nat.div_le_of_le_mul (by linarith)
  rw [Nat.add_div positive] at total
  simp only [add, ofValue, Nat.add_div positive, Nat.add_mod_eq_ite,
    fits_eq (by omega : left / denominator + right / denominator < 2 ^ 32),
    difference_eq rightBelow.le, Option.bind_eq_bind, Option.bind_some]
  by_cases carry : denominator ≤ left % denominator + right % denominator
  · rw [if_pos carry] at total
    have carries : right % denominator ≠ 0 ∧
        left % denominator ≥ denominator - right % denominator := by omega
    simp only [if_pos carry, if_pos carries, difference_eq carries.2,
      fits_eq (show _ < 2 ^ 32 from Nat.lt_of_le_of_lt total (by decide)),
      Option.bind_some, Option.pure_def, Option.some.injEq, mk.injEq, true_and]
    omega
  · have stays : ¬ (right % denominator ≠ 0 ∧
        left % denominator ≥ denominator - right % denominator) := by omega
    simp only [if_neg carry, if_neg stays, fits_eq (Nat.lt_trans (Nat.not_le.mp carry) word),
      Option.bind_some, Option.pure_def, Nat.add_zero]

end Fraction

/-- The loop of `basis_points`. -/
def scaleLoop (denominator : Nat) (result multiple : Fraction) (scale : Nat) : Option Fraction :=
  if scale = 0 then some result
  else do
    let result ← (if scale &&& 1 ≠ 0 then result.add denominator multiple else some result)
    let multiple ← (if scale >>> 1 ≠ 0 then multiple.add denominator multiple else some multiple)
    scaleLoop denominator result multiple (scale >>> 1)
termination_by scale
decreasing_by rw [Nat.shiftRight_one]; omega

def basisPoints (numerator denominator : Nat) : Option Nat :=
  let kScale := 10000
  if denominator = 0 then some 0
  else if numerator ≥ denominator then some kScale
  else (scaleLoop denominator {} { remainder := numerator } kScale).map (·.quotient)

theorem scaleLoop_ofValue {denominator : Nat} (positive : 0 < denominator)
    (word : denominator < 2 ^ 64) (scale result multiple : Nat)
    (bounded : result + scale * multiple ≤ 10000 * denominator) :
    scaleLoop denominator (.ofValue denominator result) (.ofValue denominator multiple) scale
      = some (.ofValue denominator (result + scale * multiple)) := by
  induction scale using Nat.strong_induction_on generalizing result multiple with
  | _ scale ih =>
    rw [scaleLoop]
    by_cases done : scale = 0
    · simp [done]
    have halves : scale * multiple
        = scale % 2 * multiple + scale / 2 * (multiple + multiple) := by
      nth_rewrite 1 [← Nat.mod_add_div scale 2]
      ring
    rw [halves] at bounded ⊢
    have low : (if scale &&& 1 ≠ 0 then
        (Fraction.ofValue denominator result).add denominator (.ofValue denominator multiple)
        else some (.ofValue denominator result))
        = some (.ofValue denominator (result + scale % 2 * multiple)) := by
      rw [Nat.and_one_is_mod]
      rcases Nat.mod_two_eq_zero_or_one scale with even | odd
      · simp [even]
      · rw [odd, one_mul] at bounded ⊢
        rw [if_pos one_ne_zero, Fraction.add_ofValue positive word (by omega)]
    rw [if_neg done, low, Nat.shiftRight_one, ← Nat.add_assoc]
    by_cases last : scale / 2 = 0
    · simp [last, scaleLoop]
    · have doubled : multiple + multiple ≤ scale / 2 * (multiple + multiple) :=
        Nat.le_mul_of_pos_left _ (Nat.pos_of_ne_zero last)
      simp only [Option.bind_eq_bind, Option.bind_some]
      rw [if_pos last, Fraction.add_ofValue positive word (by omega), Option.bind_some]
      exact ih (scale / 2) (by omega) _ _ (by omega)

theorem basisPoints_floor (numerator denominator : Nat) (below : numerator < denominator)
    (word : denominator < 2 ^ 64) :
    basisPoints numerator denominator = some (numerator * 10000 / denominator) := by
  have started : (⟨0, numerator⟩ : Fraction) = .ofValue denominator numerator := by
    simp [Fraction.ofValue, Nat.div_eq_of_lt below, Nat.mod_eq_of_lt below]
  have zero : ({} : Fraction) = .ofValue denominator 0 := by simp [Fraction.ofValue]
  have run := scaleLoop_ofValue (Nat.zero_lt_of_lt below) word 10000 0 numerator (by omega)
  simp only [basisPoints, if_neg (Nat.ne_zero_of_lt below), if_neg (Nat.not_le.mpr below), started,
    zero, run]
  simp [Fraction.ofValue, Nat.mul_comm]

theorem basisPoints_floor_third :
    1 < 3 ∧ 3 < 2 ^ 64 ∧ basisPoints 1 3 = some (1 * 10000 / 3) :=
  ⟨by decide, by decide, basisPoints_floor 1 3 (by decide) (by decide)⟩

end GlifiStore
