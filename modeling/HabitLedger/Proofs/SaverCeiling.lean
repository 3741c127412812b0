import HabitLedger.Proofs.Improvement
import HabitLedger.Proofs.RoundingError
import Mathlib.Algebra.Order.Field.Rat
import Mathlib.Tactic.Linarith
import Mathlib.Tactic.NormNum

/-!
Where savers really stop. The share of the budget is rounded once as a quotient and once as a
percentage, and only then compared with the ceiling. Both roundings keep order, so there is one
exact share up to which the badge is earned; it lies a little below four fifths.
-/

namespace HabitLedger

namespace Binary64

def value (x : Binary64) : ℚ := x.rank / one

/-- What rounds to no more than a magnitude is at most halfway from it to the next one. -/
theorem halfway (num den units : Nat) (positive : 0 < den) (below : roundUnits num den ≤ units) :
    2 * num ≤ (2 * units + spacing units) * den := by
  have finer : spacing (num / den) ≤ spacing units := by
    refine Nat.pow_le_pow_right (by decide) (Nat.sub_le_sub_right ?_ 52)
    by_contra wider
    have some : num / den ≠ 0 := by
      intro zero
      simp [zero] at wider
    have passed : 2 ^ (units.log2 + 1) ≤ num / den :=
      Nat.le_trans (Nat.pow_le_pow_right (by decide) (Nat.lt_of_not_le wider))
        (Nat.log2_self_le some)
    have order := roundUnits_grows (2 ^ (units.log2 + 1)) 1 num den Nat.one_pos positive ?_
    · rw [roundUnits_whole _ (present_power _)] at order
      have := @Nat.lt_log2_self units
      omega
    · rw [Nat.mul_one]
      exact (Nat.le_div_iff_mul_le positive).mp passed
  obtain ⟨_, low⟩ := roundUnits_error num den positive
  calc 2 * num ≤ 2 * (roundUnits num den * den) + den * spacing (num / den) := low
    _ ≤ 2 * (units * den) + den * spacing units :=
        Nat.add_le_add (Nat.mul_le_mul_left 2 (Nat.mul_le_mul_right den below))
          (Nat.mul_le_mul_left den finer)
    _ = (2 * units + spacing units) * den := by ring

end Binary64

open Binary64

namespace Badge

/-- The largest share whose percentage is below the ceiling, in units: a whole number of the 2 ^
-53rd part. -/
def lastShare : Nat := 7205759403792792 * (one / 9007199254740992)

theorem lastShare_rounded :
    roundUnits (14411518807585585 * one) 18014398509481984 = lastShare := by
  decide +kernel

theorem lastShare_halfway :
    (2 * lastShare + spacing lastShare) * 9007199254740992 = 14411518807585585 * one := by
  decide +kernel

theorem lastShare_present : spacing lastShare ∣ lastShare := by
  decide +kernel

theorem lastShare_below : scaled (100 * one) one lastShare < 80 * one := by
  decide +kernel

theorem nextShare_reaches :
    lastShare + spacing lastShare ≤ limit ∧
      80 * one ≤ scaled (100 * one) one (lastShare + spacing lastShare) := by
  decide +kernel

section Share
variable (part units : Nat) (positive : 0 < units)
include positive

theorem share_below (small : part * 18014398509481984 ≤ units * 14411518807585585) :
    roundUnits (part * one) units ≤ lastShare := by
  rw [← lastShare_rounded]
  refine roundUnits_grows _ _ _ _ positive (by decide) ?_
  calc part * one * 18014398509481984 = part * 18014398509481984 * one := by ring
    _ ≤ units * 14411518807585585 * one := Nat.mul_le_mul_right one small
    _ = 14411518807585585 * one * units := by ring

theorem share_above (large : units * 14411518807585585 < part * 18014398509481984) :
    lastShare + spacing lastShare ≤ roundUnits (part * one) units := by
  refine next_present _ _ lastShare_present (spacing_dvd_roundUnits _ _) ?_
  by_contra below
  have close := halfway (part * one) units lastShare positive (Nat.le_of_not_lt below)
  refine absurd large (Nat.not_lt_of_le (Nat.le_of_mul_le_mul_right ?_ Binary64.one_pos))
  calc part * 18014398509481984 * one = 2 * (part * one) * 9007199254740992 := by ring
    _ ≤ (2 * lastShare + spacing lastShare) * units * 9007199254740992 :=
        Nat.mul_le_mul_right _ close
    _ = (2 * lastShare + spacing lastShare) * 9007199254740992 * units := by ring
    _ = units * 14411518807585585 * one := by
        rw [lastShare_halfway]
        ring

/-- The percentage comes out below 80 exactly up to the last share. -/
theorem scaled_below_iff (small : part < limit) :
    scaled (100 * one) one (scaled one units part) < 80 * one ↔
      part * 18014398509481984 ≤ units * 14411518807585585 := by
  have share : scaled one units part = min (roundUnits (part * one) units) limit :=
    if_neg (Nat.not_le_of_lt small)
  constructor
  · intro below
    by_contra large
    obtain ⟨bounded, reached⟩ := nextShare_reaches
    have above := share_above part units positive (Nat.lt_of_not_le large)
    have order := scaled_grows (100 * one) one _ _ Binary64.one_pos
      (Nat.le_min_of_le_of_le above bounded)
    rw [← share] at order
    omega
  · intro low
    have under := share_below part units positive low
    have order := scaled_grows (100 * one) one _ _ Binary64.one_pos
      (Nat.le_trans (Nat.min_le_left (roundUnits (part * one) units) limit) under)
    rw [← share] at order
    exact Nat.lt_of_le_of_lt order lastShare_below

/-- Less than nothing is no share of the budget and always below the ceiling. -/
theorem percentRank_below_iff (spent : Int) (small : spent.natAbs < limit) :
    percentRank units spent < (80 * one : Nat) ↔
      spent * 18014398509481984 ≤ units * 14411518807585585 := by
  rcases Int.le_total 0 spent with some | none
  · obtain ⟨part, rfl⟩ := Int.eq_ofNat_of_zero_le some
    rw [Int.natAbs_natCast] at small
    rw [percentRank, mirrored_above, mirrored_above, Int.ofNat_lt,
      scaled_below_iff part units positive small]
    omega
  · have order := percentRank_grows units positive spent 0 none
    rw [percentRank_zero units positive] at order
    have := Binary64.one_pos
    omega

end Share

section Exact
variable (totals : Totals) (spent : totals.spent.isFinite = true)
  (budget : totals.budget.isFinite = true) (positive : 0 < totals.budget)

def lastExact : ℚ := 14411518807585585 / 18014398509481984

theorem value_le_iff (x y : Binary64) :
    x.value ≤ lastExact * y.value ↔ x.rank * 18014398509481984 ≤ y.rank * 14411518807585585 := by
  have unit : (0 : ℚ) < one := by exact_mod_cast Binary64.one_pos
  rw [value, value, lastExact, ← mul_div_assoc, div_le_div_iff_of_pos_right unit]
  constructor
  · intro order
    have scaled : (x.rank * 18014398509481984 : ℚ) ≤ y.rank * 14411518807585585 := by linarith
    exact_mod_cast scaled
  · intro order
    have scaled : (x.rank * 18014398509481984 : ℚ) ≤ y.rank * 14411518807585585 := by
      exact_mod_cast order
    linarith

include spent in
theorem spent_number : totals.spent.isNaN = false ∧ totals.spent.rank.natAbs < limit := by
  cases number : totals.spent with
  | nan => rw [number] at spent; cases spent
  | infinite negative => rw [number] at spent; cases spent
  | finite negative m =>
    refine ⟨rfl, ?_⟩
    have small := m.sound.1
    cases negative <;> simpa [rank, signed] using small

include budget positive in
theorem budget_positive : ∃ m : Magnitude, totals.budget = finite false m ∧ 0 < m.units := by
  have usable : ¬ (totals.budget.isFinite = false ∨ totals.budget ≤ 0) := by
    rintro (infinite | below)
    · exact Bool.false_ne_true (infinite.symm.trans budget)
    · exact Bool.false_ne_true (below.2.2.symm.trans positive)
  obtain ⟨m, some, whole, _⟩ := percentage_some totals.spent totals.budget _ (if_neg usable)
  exact ⟨m, whole, some⟩

include spent budget positive in
theorem frugal_iff :
    Frugal totals ↔ totals.spent.value ≤ lastExact * totals.budget.value := by
  obtain ⟨number, small⟩ := spent_number totals spent
  obtain ⟨m, whole, some⟩ := budget_positive totals budget positive
  obtain ⟨shown, place⟩ := rank_percent totals.spent m some number
  have ceiling := rank_ofNat 80 (by decide)
  have share : totals.usagePercent = Option.some (totals.spent / finite false m * 100) := by
    rw [Totals.usagePercent, whole, percentage_finite _ m some]
  have below : totals.spent / finite false m * 100 < saverCeiling ↔
      percentRank m.units totals.spent.rank < (80 * one : Nat) := by
    rw [lt_iff_rank, place, saverCeiling, ceiling.2]
    exact ⟨fun all => all.2.2, fun order => ⟨shown, ceiling.1, order⟩⟩
  rw [Frugal, share, value_le_iff, whole]
  simp only [Option.mem_some_iff, exists_eq_left', below]
  exact percentRank_below_iff m.units some _ small

include spent budget positive in
/-- Against exact arithmetic: the badge is earned exactly up to one share of the budget. It is never
earned at four fifths or above, whatever is rounded, and with five expenses it is not missed by
anyone who stays a millionth below. -/
theorem saver_sound :
    (Earned totals .saver ↔
      totals.spent.value ≤ lastExact * totals.budget.value ∧ 5 ≤ totals.expenses) ∧
    (Earned totals .saver → 5 * totals.spent.value < 4 * totals.budget.value) ∧
    (5 ≤ totals.expenses → totals.spent.value ≤ 0.799999 * totals.budget.value →
      Earned totals .saver) := by
  have told : Earned totals .saver ↔
      totals.spent.value ≤ lastExact * totals.budget.value ∧ 5 ≤ totals.expenses :=
    and_congr_left' (frugal_iff totals spent budget positive)
  have some : 0 < totals.budget.value := by
    obtain ⟨m, whole, some⟩ := budget_positive totals budget positive
    have above : 0 < totals.budget.rank := by simpa [whole, rank, signed] using some
    exact div_pos (by exact_mod_cast above) (by exact_mod_cast Binary64.one_pos)
  refine ⟨told, fun earned => ?_, fun enough order => told.mpr ⟨?_, enough⟩⟩
  · obtain ⟨order, _⟩ := told.mp earned
    rw [lastExact] at order
    linarith
  · have under : (0.799999 : ℚ) ≤ lastExact := by norm_num [lastExact]
    calc totals.spent.value ≤ 0.799999 * totals.budget.value := order
      _ ≤ lastExact * totals.budget.value := mul_le_mul_of_nonneg_right under some.le

end Exact

/-- Of the least of all budgets, five units, three are below four fifths and four are not. -/
theorem saver_sound_least :
    let least (units : Fin 6) : Binary64 :=
      finite false ⟨units, (by decide +kernel : ∀ units : Fin 6, Exists units) units⟩
    let totals (units : Fin 6) : Totals := ⟨5, least units, least 5, 0⟩
    0 < (totals 3).budget ∧ Earned (totals 3) .saver ∧
      5 * (totals 3).spent.value < 4 * (totals 3).budget.value ∧ ¬ Earned (totals 4) .saver := by
  intro least totals
  have positive : 0 < (totals 3).budget := by decide +kernel
  have earned : Earned (totals 3) .saver := by decide +kernel
  exact ⟨positive, earned, (saver_sound (totals 3) rfl rfl positive).2.1 earned, by decide +kernel⟩

end Badge

end HabitLedger
