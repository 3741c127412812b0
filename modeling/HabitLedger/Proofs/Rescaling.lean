import HabitLedger.Json.Leaf
import HabitLedger.Proofs.Rank
import HabitLedger.Proofs.RoundingError

/-!
What becomes of kept digits that are scaled by a power of ten. The digits are rounded, the power is
rounded and so is their product or quotient; where the power is out of reach it is taken in two
steps.
-/

namespace HabitLedger.Json

open Binary64

def wholeUnits (count : Nat) : Nat := roundUnits (count * one) 1

def overPower (units n : Nat) : Nat := roundUnits (units * one) (wholeUnits (Nat.pow 10 n))

def timesPower (units n : Nat) : Nat := roundUnits (units * wholeUnits (Nat.pow 10 n)) one

def rescaled (kept : Nat) (power : Int) : Nat :=
  if power < -308 then overPower (overPower (wholeUnits kept) 308) (power + 308).natAbs
  else if power < 0 then overPower (wholeUnits kept) power.natAbs
  else timesPower (wholeUnits kept) power.natAbs

section Cases
variable (kept : Nat) (power : Int)

theorem rescaled_far (far : power < -308) : rescaled kept power =
    overPower (overPower (wholeUnits kept) 308) (power + 308).natAbs :=
  if_pos far

theorem rescaled_down (near : -308 ≤ power) (below : power < 0) :
    rescaled kept power = overPower (wholeUnits kept) power.natAbs :=
  (if_neg (Int.not_lt.mpr near)).trans (if_pos below)

theorem rescaled_up (above : 0 ≤ power) :
    rescaled kept power = timesPower (wholeUnits kept) power.natAbs :=
  (if_neg (by omega)).trans (if_neg (Int.not_lt.mpr above))

end Cases

def Holds (x : Binary64) (units : Nat) : Prop :=
  ∃ m : Magnitude, x = .finite false m ∧ m.units = units

theorem ofQuotient_holds (num den : Nat) (small : roundUnits num den < limit) :
    Holds (ofQuotient false num den) (roundUnits num den) :=
  ⟨⟨_, small, spacing_dvd_roundUnits num den⟩, dif_pos small, rfl⟩

theorem div_holds (x y : Binary64) (units divisor : Nat) (left : Holds x units)
    (right : Holds y divisor) (positive : 0 < divisor)
    (small : roundUnits (units * one) divisor < limit) :
    Holds (x / y) (roundUnits (units * one) divisor) := by
  obtain ⟨m, rfl, rfl⟩ := left
  obtain ⟨n, rfl, rfl⟩ := right
  have some : n.units ≠ 0 := Nat.ne_of_gt positive
  have quotient := ofQuotient_holds _ _ small
  change Holds (Binary64.div _ _) _
  simpa only [Binary64.div, some, if_false, bne_self_eq_false] using quotient

theorem mul_holds (x y : Binary64) (units factor : Nat) (left : Holds x units)
    (right : Holds y factor) (small : roundUnits (units * factor) one < limit) :
    Holds (x * y) (roundUnits (units * factor) one) := by
  obtain ⟨m, rfl, rfl⟩ := left
  obtain ⟨n, rfl, rfl⟩ := right
  exact ofQuotient_holds _ _ small

theorem holds_present (x : Binary64) (units : Nat) (holds : Holds x units) :
    units < limit ∧ spacing units ∣ units := by
  obtain ⟨m, _, rfl⟩ := holds
  exact m.sound

theorem wholeUnits_grows (count more : Nat) (order : count ≤ more) :
    wholeUnits count ≤ wholeUnits more :=
  roundUnits_grows _ 1 _ 1 Nat.one_pos Nat.one_pos
    (Nat.mul_le_mul_right 1 (Nat.mul_le_mul_right one order))

theorem wholeUnits_one : wholeUnits 1 = one := by
  rw [wholeUnits, Nat.one_mul]
  exact roundUnits_whole one (present_power places)

theorem one_le_wholeUnits (count : Nat) (positive : 0 < count) : one ≤ wholeUnits count := by
  rw [← wholeUnits_one]
  exact wholeUnits_grows 1 count positive

theorem powers_fit (n most : Nat) (order : n ≤ most) (fits : wholeUnits (Nat.pow 10 most) < limit) :
    wholeUnits (Nat.pow 10 n) < limit :=
  Nat.lt_of_le_of_lt (wholeUnits_grows _ _ (Nat.pow_le_pow_right (Nat.succ_pos 9) order)) fits

theorem power_small (n : Nat) (bound : n ≤ 308) : wholeUnits (Nat.pow 10 n) < limit :=
  powers_fit n 308 bound (by decide +kernel)

theorem ofInt_holds (count : Nat) (small : wholeUnits count < limit) :
    Holds (Binary64.ofInt count) (wholeUnits count) := by
  have positive : decide ((count : Int) < 0) = false := decide_eq_false (by omega)
  rw [Binary64.ofInt, positive, Int.natAbs_natCast]
  exact ofQuotient_holds _ _ small

theorem powerOfTen_holds (n : Nat) (bound : n ≤ 308) :
    Holds (powerOfTen n) (wholeUnits (Nat.pow 10 n)) := by
  have digits : Text.digitCount 1 = 1 := by
    rw [Text.digitCount]
    rfl
  have order : Decimal.order ⟨1, n⟩ = 1 + n := by
    simp [Decimal.order, digits]
  have quotient : Decimal.quotient ⟨1, n⟩ = (Nat.pow 10 n * one, 1) := by
    simp [Decimal.quotient]
  have near : ¬ (1 = 0 ∨ (1 + n : Int) < -330) := by omega
  rw [powerOfTen, Decimal.toBinary64, order, quotient, if_neg near, if_neg (by omega)]
  exact ofQuotient_holds _ _ (power_small n bound)

/-- Dividing by a power of ten leaves a number finite. -/
theorem over_power (x : Binary64) (units n : Nat) (holds : Holds x units) (near : n ≤ 308) :
    Holds (x / powerOfTen n) (overPower units n) := by
  obtain ⟨small, present⟩ := holds_present x units holds
  have least := one_le_wholeUnits (Nat.pow 10 n) (Nat.pow_pos (by decide))
  have positive := Nat.lt_of_lt_of_le Binary64.one_pos least
  have order := roundUnits_grows (units * one) (wholeUnits (Nat.pow 10 n)) (units * one) one
    positive Binary64.one_pos (Nat.mul_le_mul_left _ least)
  rw [roundUnits_exact units one Binary64.one_pos present] at order
  exact div_holds x _ units _ holds (powerOfTen_holds n near) positive
    (Nat.lt_of_le_of_lt order small)

section Scale
variable (kept : Nat) (small : wholeUnits kept < limit)
include small

theorem scale_down (n : Nat) (positive : 0 < n) (near : n ≤ 308) :
    ∃ x, scale (Binary64.ofInt kept) (-n) = .ok x ∧ Holds x (rescaled kept (-n)) := by
  have quotient := over_power _ _ n (ofInt_holds kept small) near
  refine ⟨Binary64.ofInt kept / powerOfTen n, ?_, ?_⟩
  · rw [scale, if_neg (by omega), if_pos (by omega), Int.natAbs_neg, Int.natAbs_natCast]
  · rw [rescaled_down kept _ (by omega) (by omega), Int.natAbs_neg, Int.natAbs_natCast]
    exact quotient

theorem scale_up (n : Nat) (near : n ≤ 308)
    (fits : timesPower (wholeUnits kept) n < limit) :
    ∃ x, scale (Binary64.ofInt kept) n = .ok x ∧ Holds x (rescaled kept n) := by
  have product := mul_holds _ _ _ _ (ofInt_holds kept small) (powerOfTen_holds n near) fits
  have finite : (Binary64.ofInt kept * powerOfTen n).isFinite = true := by
    obtain ⟨m, equal, _⟩ := product
    rw [equal]
    rfl
  refine ⟨Binary64.ofInt kept * powerOfTen n, ?_, ?_⟩
  · rw [scale, if_neg (by omega), if_neg (by omega), if_pos (by omega), Int.natAbs_natCast,
      if_pos finite]
  · rw [rescaled_up kept _ (by omega), Int.natAbs_natCast]
    exact product

/-- A power out of reach is taken in two steps. -/
theorem scale_far (n : Nat) (positive : 0 < kept) (far : 308 < n) (near : n ≤ 616) :
    ∃ x, scale (Binary64.ofInt kept) (-n) = .ok x ∧ Holds x (rescaled kept (-n)) := by
  have start := ofInt_holds kept small
  have first := over_power _ _ 308 start (Nat.le_refl 308)
  have second := over_power _ _ (n - 308) first (by omega)
  have some : Binary64.ofInt kept ≠ Binary64.zero false := by
    intro zero
    obtain ⟨m, equal, units⟩ := start
    have least := one_le_wholeUnits kept positive
    rw [zero] at equal
    have none : m.units = 0 := by
      cases equal
      rfl
    have := Binary64.one_pos
    omega
  have rest : (-(n : Int) + 308) = -((n - 308 : Nat) : Int) := by omega
  have restPositive : 0 < n - 308 := by omega
  refine ⟨Binary64.ofInt kept / powerOfTen 308 / powerOfTen (n - 308), ?_, ?_⟩
  · rw [scale, if_pos (by omega), if_neg some, rest]
    rw [scale, if_neg (by omega), if_pos (by omega), Int.natAbs_neg, Int.natAbs_natCast]
  · rw [rescaled_far kept _ (by omega), rest, Int.natAbs_neg, Int.natAbs_natCast]
    exact second

end Scale

/-! ## Where nothing is lost -/

theorem power_exact (n : Nat) (small : n ≤ 22) :
    wholeUnits (Nat.pow 10 n) = Nat.pow 10 n * one := by
  have present : ∀ n < 23, spacing (Nat.pow 10 n * one) ∣ Nat.pow 10 n * one := by decide +kernel
  exact roundUnits_whole _ (present n (Nat.lt_succ_of_le small))

/-- Up to 2 ^ 53 and 10 ^ 22 digits and power are exact, and one rounding is what a reader may
do. -/
theorem rescaled_exact (kept units : Nat) (power : Int) (small : kept ≤ 9007199254740992)
    (near : power.natAbs ≤ 22) (reads : (Decimal.mk kept power).ReadsAs units) :
    rescaled kept power = units := by
  have digits : wholeUnits kept = kept * one := roundUnits_whole _ (whole_present kept small).2
  have tens := power_exact power.natAbs near
  have unit := Binary64.one_pos
  have tensPositive : 0 < Nat.pow 10 power.natAbs := Nat.pow_pos (by decide)
  rw [← reads]
  by_cases below : power < 0
  · rw [rescaled_down kept power (by omega) below, overPower, digits, tens]
    have quotient : (Decimal.mk kept power).quotient = (kept * one, Nat.pow 10 power.natAbs) := by
      have up : power.toNat = 0 := by omega
      have down : (-power).toNat = power.natAbs := by omega
      simp [Decimal.quotient, up, down]
    rw [quotient]
    refine roundUnits_congr _ _ _ _ (Nat.mul_pos tensPositive unit) tensPositive ?_
    ring
  · rw [rescaled_up kept power (by omega), timesPower, digits, tens]
    have quotient : (Decimal.mk kept power).quotient =
        (kept * Nat.pow 10 power.natAbs * one, 1) := by
      have up : power.toNat = power.natAbs := by omega
      have down : (-power).toNat = 0 := by omega
      simp [Decimal.quotient, up, down]
    rw [quotient]
    refine roundUnits_congr _ _ _ _ unit Nat.one_pos ?_
    ring

end HabitLedger.Json
