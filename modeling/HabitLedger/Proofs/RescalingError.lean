import HabitLedger.Proofs.Rescaling
import Mathlib.Algebra.Order.Field.Rat
import Mathlib.Tactic.FieldSimp
import Mathlib.Tactic.Linarith
import Mathlib.Tactic.Positivity

/-!
How near scaled digits come. Every step rounds by at most its `2 ^ -53`rd part or half a unit, so
what is read differs from a magnitude that the same digits are exactly nearest to by at most its `2
^ -50`th part or one unit.
-/

namespace HabitLedger.Json

open Binary64

/-- The largest part by which rounding changes a number of full width. -/
def step : ℚ := 1 / 9007199254740992

/-- Rounding errs by one step at most, or by half a unit where the number is not of full width. -/
theorem roundUnits_bounds (num den : Nat) (positive : 0 < den) :
    (roundUnits num den : ℚ) ≤ num / den * (1 + step) + 1 / 2 ∧
      (num / den : ℚ) * (1 - step) ≤ roundUnits num den + 1 / 2 := by
  obtain ⟨high, low⟩ := roundUnits_error num den positive
  have some : (0 : ℚ) < den := by exact_mod_cast positive
  have part : (den * spacing (num / den) : ℚ) ≤ den + num * (2 * step) := by
    rcases spacing_quotient num den with single | under
    · rw [single, step]
      have : (0 : ℚ) ≤ num := Nat.cast_nonneg num
      push_cast
      linarith
    · have cast : 4503599627370496 * (den * spacing (num / den) : ℚ) ≤ num := by
        exact_mod_cast under
      rw [step]
      linarith
  have highCast : 2 * ((roundUnits num den : ℚ) * den) ≤ 2 * num + den * spacing (num / den) := by
    exact_mod_cast high
  have lowCast : 2 * (num : ℚ) ≤ 2 * (roundUnits num den * den) + den * spacing (num / den) := by
    exact_mod_cast low
  have ratio : (num / den : ℚ) * den = num := div_mul_cancel₀ _ (ne_of_gt some)
  constructor
  · refine le_of_mul_le_mul_right ?_ some
    calc (roundUnits num den : ℚ) * den ≤ num + num * step + den / 2 := by linarith
      _ = (num / den * (1 + step) + 1 / 2) * den := by
        rw [add_mul, mul_right_comm, ratio]
        ring
  · refine le_of_mul_le_mul_right ?_ some
    calc (num / den : ℚ) * (1 - step) * den = num - num * step := by
          rw [mul_right_comm, ratio]
          ring
      _ ≤ (roundUnits num den + 1 / 2) * den := by linarith

def Near (read units : Nat) : Prop :=
  read * 1125899906842624 ≤ units * 1125899906842625 + 1125899906842624 ∧
    units * 1125899906842623 ≤ read * 1125899906842624 + 1125899906842624

/-- What is rounded once more after a quotient that is itself five steps off. -/
theorem near_of_bounds (read units : Nat) (quotient exact : ℚ)
    (above : quotient ≤ exact * (1 + 5 * step) + 3 / 50)
    (below : exact * (1 - 5 * step) - 3 / 50 ≤ quotient)
    (readBounds : (read : ℚ) ≤ quotient * (1 + step) + 1 / 2 ∧
      quotient * (1 - step) ≤ read + 1 / 2)
    (unitsBounds : (units : ℚ) ≤ exact * (1 + step) + 1 / 2 ∧
      exact * (1 - step) ≤ units + 1 / 2) :
    Near read units := by
  obtain ⟨readHigh, readLow⟩ := readBounds
  obtain ⟨unitsHigh, unitsLow⟩ := unitsBounds
  rw [step] at *
  constructor
  · by_cases close : read ≤ units + 1
    · omega
    · have far : (units : ℚ) + 2 ≤ read := by exact_mod_cast Nat.lt_of_not_le close
      have bound : (read : ℚ) * 1125899906842624 ≤
          units * 1125899906842625 + 1125899906842624 := by
        linarith
      exact_mod_cast bound
  · by_cases close : units ≤ read + 1
    · omega
    · have far : (read : ℚ) + 2 ≤ units := by exact_mod_cast Nat.lt_of_not_le close
      have bound : (units : ℚ) * 1125899906842623 ≤
          read * 1125899906842624 + 1125899906842624 := by
        linarith
      exact_mod_cast bound

def Within (part x exact : ℚ) : Prop := exact * (1 - part) ≤ x ∧ x ≤ exact * (1 + part)

theorem Within.widen (part wider x exact : ℚ) (within : Within part x exact)
    (positive : 0 ≤ exact) (order : part ≤ wider) : Within wider x exact := by
  obtain ⟨low, high⟩ := within
  have grown := mul_le_mul_of_nonneg_left order positive
  constructor <;> linarith

theorem Within.mul (part more x y a b : ℚ) (first : Within part x a) (second : Within more y b)
    (positive : 0 ≤ a) (positive' : 0 ≤ b) (small : 0 ≤ part ∧ part ≤ 1)
    (small' : 0 ≤ more ∧ more ≤ 1) : Within (part + more + part * more) (x * y) (a * b) := by
  obtain ⟨low, high⟩ := first
  obtain ⟨low', high'⟩ := second
  have floor : 0 ≤ a * (1 - part) := mul_nonneg positive (by linarith)
  have floor' : 0 ≤ b * (1 - more) := mul_nonneg positive' (by linarith)
  have both : 0 ≤ a * b * (part * more) :=
    mul_nonneg (mul_nonneg positive positive') (mul_nonneg small.1 small'.1)
  constructor
  · calc a * b * (1 - (part + more + part * more)) ≤ a * (1 - part) * (b * (1 - more)) := by
          linarith
      _ ≤ x * y := mul_le_mul low low' floor' (le_trans floor low)
  · calc x * y ≤ a * (1 + part) * (b * (1 + more)) :=
          mul_le_mul high high' (le_trans floor' low') (mul_nonneg positive (by linarith))
      _ = a * b * (1 + (part + more + part * more)) := by ring

theorem wholeUnits_within (count : Nat) :
    Within step (wholeUnits count) (count * one : Nat) := by
  obtain ⟨low, high⟩ := round_whole_error (count * one)
  have lowCast : ((count * one : Nat) : ℚ) * 9007199254740991 ≤
      wholeUnits count * 9007199254740992 := by
    exact_mod_cast low
  have highCast : (wholeUnits count : ℚ) * 9007199254740992 ≤
      (count * one : Nat) * 9007199254740993 := by
    exact_mod_cast high
  rw [Within, step]
  constructor <;> linarith

section Powers
variable (n : Nat)

theorem power_within : Within step (wholeUnits (Nat.pow 10 n) / one) (10 ^ n) := by
  obtain ⟨low, high⟩ := wholeUnits_within (Nat.pow 10 n)
  have some : (0 : ℚ) < one := by exact_mod_cast Binary64.one_pos
  have exact : ((Nat.pow 10 n * one : Nat) : ℚ) = 10 ^ n * one := by
    rw [Nat.pow_eq]
    push_cast
    rfl
  rw [exact] at low high
  constructor
  · rw [le_div_iff₀ some]
    linarith
  · rw [div_le_iff₀ some]
    linarith

/-- An inverse is off by a little more than what it is the inverse of. -/
theorem inverse_within :
    Within (101 / 100 * step) (one / wholeUnits (Nat.pow 10 n)) (1 / 10 ^ n) := by
  obtain ⟨low, high⟩ := power_within n
  have exact : (0 : ℚ) < 10 ^ n := by positivity
  have lower : (0 : ℚ) < 1 - step := by
    rw [step]
    norm_num
  have positive : (0 : ℚ) < wholeUnits (Nat.pow 10 n) / one :=
    lt_of_lt_of_le (mul_pos exact lower) low
  have flipped : (one : ℚ) / wholeUnits (Nat.pow 10 n) = 1 / (wholeUnits (Nat.pow 10 n) / one) :=
    (one_div_div _ _).symm
  rw [flipped]
  constructor
  · rw [le_div_iff₀ positive]
    calc 1 / 10 ^ n * (1 - 101 / 100 * step) * (wholeUnits (Nat.pow 10 n) / one) ≤
          1 / 10 ^ n * (1 - 101 / 100 * step) * (10 ^ n * (1 + step)) := by
          refine mul_le_mul_of_nonneg_left high (mul_nonneg (by positivity) ?_)
          rw [step]
          norm_num
      _ = (1 - 101 / 100 * step) * (1 + step) := by field_simp
      _ ≤ 1 := by
          rw [step]
          norm_num
  · rw [div_le_iff₀ positive]
    calc (1 : ℚ) ≤ (1 + 101 / 100 * step) * (1 - step) := by
          rw [step]
          norm_num
      _ = 1 / 10 ^ n * (1 + 101 / 100 * step) * (10 ^ n * (1 - step)) := by field_simp
      _ ≤ 1 / 10 ^ n * (1 + 101 / 100 * step) * (wholeUnits (Nat.pow 10 n) / one) := by
          refine mul_le_mul_of_nonneg_left low (mul_nonneg (by positivity) ?_)
          rw [step]
          norm_num

end Powers

theorem reads_bounds (d : Decimal) (units : Nat) (reads : d.ReadsAs units) :
    (units : ℚ) ≤ d.quotient.1 / d.quotient.2 * (1 + step) + 1 / 2 ∧
      (d.quotient.1 / d.quotient.2 : ℚ) * (1 - step) ≤ units + 1 / 2 := by
  have bounds := roundUnits_bounds d.quotient.1 d.quotient.2 (Nat.pow_pos (by decide))
  rw [reads] at bounds
  exact bounds

theorem power_units_pos (n : Nat) : 0 < wholeUnits (Nat.pow 10 n) :=
  Nat.lt_of_lt_of_le Binary64.one_pos (one_le_wholeUnits _ (Nat.pow_pos (by decide)))

section Near
variable (kept units n : Nat)

theorem near_of_within (num den : Nat) (part exact : ℚ) (positive : 0 < den)
    (within : Within part (num / den) exact) (nonneg : 0 ≤ exact) (small : part ≤ 5 * step)
    (unitsBounds : (units : ℚ) ≤ exact * (1 + step) + 1 / 2 ∧
      exact * (1 - step) ≤ units + 1 / 2) : Near (roundUnits num den) units := by
  obtain ⟨low, high⟩ := within.widen part (5 * step) _ exact nonneg small
  exact near_of_bounds _ units _ exact (by linarith) (by linarith)
    (roundUnits_bounds num den positive) unitsBounds

theorem near_up (reads : (Decimal.mk kept n).ReadsAs units) : Near (rescaled kept n) units := by
  have bounds := reads_bounds _ units reads
  have exact : ((Decimal.mk kept n).quotient.1 : ℚ) / (Decimal.mk kept n).quotient.2 =
      (kept * one : Nat) * 10 ^ n := by
    simp [Decimal.quotient]
    ring
  rw [exact] at bounds
  have product := (wholeUnits_within kept).mul _ _ _ _ _ _ (power_within n) (by positivity)
    (by positivity) (by rw [step]; norm_num) (by rw [step]; norm_num)
  rw [← mul_div_assoc, ← Nat.cast_mul] at product
  rw [rescaled_up kept _ (by omega), Int.natAbs_natCast, timesPower]
  exact near_of_within units _ _ _ _ Binary64.one_pos product (by positivity)
    (by rw [step]; norm_num) bounds

theorem exact_down :
    ((Decimal.mk kept (-n)).quotient.1 : ℚ) / (Decimal.mk kept (-n)).quotient.2 =
      (kept * one : Nat) * (1 / 10 ^ n) := by
  simp [Decimal.quotient, div_eq_mul_inv]

/-- The rounded digits over the rounded power. -/
theorem quotient_within :
    Within (step + 101 / 100 * step + step * (101 / 100 * step))
      ((wholeUnits kept * one : Nat) / wholeUnits (Nat.pow 10 n))
      ((kept * one : Nat) * (1 / 10 ^ n)) := by
  have quotient := (wholeUnits_within kept).mul _ _ _ _ _ _ (inverse_within n) (by positivity)
    (by positivity) (by rw [step]; norm_num) (by rw [step]; norm_num)
  rw [← mul_div_assoc, ← Nat.cast_mul] at quotient
  exact quotient

theorem near_down (positive : 0 < n) (near : n ≤ 308)
    (reads : (Decimal.mk kept (-n)).ReadsAs units) : Near (rescaled kept (-n)) units := by
  have bounds := reads_bounds _ units reads
  rw [exact_down kept n] at bounds
  rw [rescaled_down kept _ (by omega) (by omega), Int.natAbs_neg, Int.natAbs_natCast, overPower]
  exact near_of_within units _ _ _ _ (power_units_pos n) (quotient_within kept n) (by positivity)
    (by rw [step]; norm_num) bounds

/-- A second rounding in between, and then a second power. -/
theorem twice_within (first : Nat) (middle : ℚ) (within : Within step middle 1) :
    Within (5 * step)
      ((wholeUnits kept * one : Nat) / wholeUnits (Nat.pow 10 first) * middle *
        (one / wholeUnits (Nat.pow 10 n)))
      ((kept * one : Nat) * (1 / 10 ^ first) * 1 * (1 / 10 ^ n)) := by
  have twice := (quotient_within kept first).mul _ _ _ _ _ _ within (by positivity) (by norm_num)
    (by rw [step]; norm_num) (by rw [step]; norm_num)
  have thrice := twice.mul _ _ _ _ _ _ (inverse_within n) (by positivity) (by positivity)
    (by rw [step]; norm_num) (by rw [step]; norm_num)
  exact thrice.widen _ _ _ _ (by positivity) (by rw [step]; norm_num)

/-- Half a unit lost on the way is divided by ten at least. -/
theorem inverse_small (positive : 0 < n) :
    (one / wholeUnits (Nat.pow 10 n) : ℚ) / 2 ≤ 3 / 50 := by
  have tenth : (1 / 10 ^ n : ℚ) ≤ 1 / 10 := by
    refine one_div_le_one_div_of_le (by norm_num) ?_
    exact_mod_cast Nat.le_self_pow (Nat.ne_of_gt positive) 10
  have high := (inverse_within n).2
  rw [step] at high
  linarith

/-- Two divisions stay near: the half unit lost in between is divided by ten at least. -/
theorem near_twice (first : Nat) (positive : 0 < n)
    (reads : (Decimal.mk kept (-(first + n : Nat))).ReadsAs units) :
    Near (overPower (overPower (wholeUnits kept) first) n) units := by
  have bounds := reads_bounds _ units reads
  have exact : (kept * one : Nat) * (1 / 10 ^ (first + n)) =
      ((kept * one : Nat) * (1 / 10 ^ first) * 1 * (1 / 10 ^ n) : ℚ) := by
    rw [pow_add, ← one_div_mul_one_div]
    ring
  rw [exact_down kept (first + n), exact] at bounds
  have stepPositive : (0 : ℚ) ≤ step := by
    rw [step]
    norm_num
  have above := (twice_within kept n first (1 + step) ⟨by linarith, by linarith⟩).2
  have below := (twice_within kept n first (1 - step) ⟨by linarith, by linarith⟩).1
  obtain ⟨middleHigh, middleLow⟩ := roundUnits_bounds (wholeUnits kept * one) _
    (power_units_pos first)
  rw [overPower, overPower]
  -- Of the number in between only its bounds are used from here on.
  generalize roundUnits (wholeUnits kept * one) (wholeUnits (Nat.pow 10 first)) = middle at *
  have regroup : ((middle * one : Nat) / wholeUnits (Nat.pow 10 n) : ℚ) =
      middle * (one / wholeUnits (Nat.pow 10 n)) := by
    push_cast
    ring
  have halved := inverse_small n positive
  have positiveInverse : (0 : ℚ) ≤ one / wholeUnits (Nat.pow 10 n) := by positivity
  have middleAbove := mul_le_mul_of_nonneg_right middleHigh positiveInverse
  have middleBelow := mul_le_mul_of_nonneg_right middleLow positiveInverse
  refine near_of_bounds _ units _ _ ?_ ?_
    (roundUnits_bounds (middle * one) _ (power_units_pos n)) bounds
  · rw [regroup]
    linarith
  · rw [regroup]
    linarith

theorem near_far (far : 308 < n) (near : n ≤ 616)
    (reads : (Decimal.mk kept (-n)).ReadsAs units) : Near (rescaled kept (-n)) units := by
  obtain ⟨rest, rfl⟩ := Nat.exists_eq_add_of_lt far
  have remains : (-((308 + rest + 1 : Nat) : Int) + 308).natAbs = rest + 1 := by omega
  rw [rescaled_far kept _ (by omega), remains]
  exact near_twice kept units (rest + 1) 308 (Nat.succ_pos rest) reads

end Near

end HabitLedger.Json
