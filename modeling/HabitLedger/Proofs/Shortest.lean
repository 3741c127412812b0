import HabitLedger.Binary64.Decimal
import HabitLedger.Proofs.Digits
import HabitLedger.Proofs.RoundingError

/-!
The shortest decimal of a magnitude. Seventeen digits are always enough to read the magnitude back,
so the search never comes to its end without a result, and what is written is read as what it was
written for.
-/

namespace HabitLedger.Binary64.Decimal

theorem scale_value : scale = 342 := by
  unfold scale
  rfl

theorem on_grid (digits place grid : Nat) (fine : grid ≤ place) :
    digits * Nat.pow 10 (place - grid) * Nat.pow 10 grid = digits * Nat.pow 10 place := by
  simp only [Nat.pow_eq]
  rw [Nat.mul_assoc, ← Nat.pow_add, Nat.sub_add_cancel fine]

section Grid
variable (units grid count : Nat)

theorem scaled_bounds :
    scaled units * one ≤ units * Nat.pow 10 scale ∧
      units * Nat.pow 10 scale < (scaled units + 1) * one := by
  exact ⟨Nat.div_mul_le_self _ _, (Nat.div_lt_iff_lt_mul one_pos).mp (Nat.lt_succ_self _)⟩

theorem below_bounds :
    (below units grid).digits * Nat.pow 10 grid * one ≤ units * Nat.pow 10 scale ∧
      units * Nat.pow 10 scale < ((below units grid).digits + 1) * Nat.pow 10 grid * one := by
  obtain ⟨low, high⟩ := scaled_bounds units
  have lower : (below units grid).digits * Nat.pow 10 grid ≤ scaled units :=
    Nat.div_mul_le_self _ _
  have upper : scaled units + 1 ≤ ((below units grid).digits + 1) * Nat.pow 10 grid :=
    (Nat.div_lt_iff_lt_mul (Nat.pow_pos (by decide))).mp (Nat.lt_succ_self _)
  exact ⟨Nat.le_trans (Nat.mul_le_mul_right one lower) low,
    Nat.lt_of_lt_of_le high (Nat.mul_le_mul_right one upper)⟩

/-- The value of a decimal on a grid, without the cases of its exponent's sign. -/
theorem quotient_on_grid (digits : Nat) :
    ∃ num den, Decimal.quotient ⟨digits, grid - scale⟩ = (num, den) ∧ 0 < den ∧
      num * Nat.pow 10 scale = digits * Nat.pow 10 grid * one * den := by
  have powers : ((grid : Int) - scale).toNat + scale = grid + (-((grid : Int) - scale)).toNat := by
    omega
  have equal : Nat.pow 10 ((grid : Int) - scale).toNat * Nat.pow 10 scale =
      Nat.pow 10 grid * Nat.pow 10 (-((grid : Int) - scale)).toNat := by
    simp only [Nat.pow_eq]
    rw [← Nat.pow_add, ← Nat.pow_add, powers]
  refine ⟨_, _, rfl, Nat.pow_pos (by decide), ?_⟩
  calc digits * Nat.pow 10 ((grid : Int) - scale).toNat * one * Nat.pow 10 scale =
        digits * one * (Nat.pow 10 ((grid : Int) - scale).toNat * Nat.pow 10 scale) := by ring
    _ = digits * Nat.pow 10 grid * one * Nat.pow 10 (-((grid : Int) - scale)).toNat := by
        rw [equal]
        ring

/-- A decimal within half a step, where there are `10 ^ 16` steps up to the magnitude. -/
theorem readsAs_of_near (digits step : Nat) (positive : 0 < units)
    (present : spacing units ∣ units)
    (dense : 10000000000000000 * step ≤ units * Nat.pow 10 scale)
    (low : 2 * (units * Nat.pow 10 scale) ≤ 2 * (digits * Nat.pow 10 grid * one) + step)
    (high : 2 * (digits * Nat.pow 10 grid * one) ≤ 2 * (units * Nat.pow 10 scale) + step) :
    Decimal.ReadsAs ⟨digits, grid - scale⟩ units := by
  obtain ⟨num, den, form, denPositive, value⟩ := quotient_on_grid grid digits
  rw [ReadsAs, form]
  have some : 0 < units * Nat.pow 10 scale := Nat.mul_pos positive (Nat.pow_pos (by decide))
  refine roundUnits_of_near num den units present denPositive ?_ ?_
  · refine Nat.lt_of_mul_lt_mul_right (a := Nat.pow 10 scale) ?_
    calc units * den * 18014398509481983 * Nat.pow 10 scale =
          units * Nat.pow 10 scale * 18014398509481983 * den := by ring
      _ < digits * Nat.pow 10 grid * one * 18014398509481984 * den :=
          Nat.mul_lt_mul_of_pos_right (by omega) denPositive
      _ = digits * Nat.pow 10 grid * one * den * 18014398509481984 := by ring
      _ = num * Nat.pow 10 scale * 18014398509481984 := by rw [value]
      _ = num * 18014398509481984 * Nat.pow 10 scale := by ring
  · refine Nat.lt_of_mul_lt_mul_right (a := Nat.pow 10 scale) ?_
    calc num * 18014398509481984 * Nat.pow 10 scale =
          num * Nat.pow 10 scale * 18014398509481984 := by ring
      _ = digits * Nat.pow 10 grid * one * den * 18014398509481984 := by rw [value]
      _ = digits * Nat.pow 10 grid * one * 18014398509481984 * den := by ring
      _ < units * Nat.pow 10 scale * 18014398509481985 * den :=
          Nat.mul_lt_mul_of_pos_right (by omega) denPositive
      _ = units * den * 18014398509481985 * Nat.pow 10 scale := by ring

end Grid

theorem above_on_grid (units grid count : Nat) (some : 0 < count) :
    ∃ digits place : Nat, above units grid count = ⟨digits, place - scale⟩ ∧
      digits * Nat.pow 10 place = ((below units grid).digits + 1) * Nat.pow 10 grid := by
  unfold above
  split
  · next full =>
    refine ⟨Nat.pow 10 (count - 1), grid + 1, ?_, ?_⟩
    · congr 1
      push_cast
      ring
    · rw [full]
      simp only [Nat.pow_eq]
      rw [← Nat.pow_add, ← Nat.pow_add]
      congr 1
      omega
  · exact ⟨_, grid, rfl, rfl⟩

theorem onGrid_of_either (tie : Tie) (units grid count : Nat)
    (either : (below units grid).ReadsAs units ∨ (above units grid count).ReadsAs units) :
    onGrid tie units grid count ≠ none := by
  unfold onGrid
  rcases either with lower | upper
  · rw [if_pos lower]
    split <;> nofun
  · rw [if_pos upper, if_pos upper]
    split <;> nofun

/-- A grid this dense has a decimal that reads back. -/
theorem onGrid_some (tie : Tie) (units grid count : Nat) (some : 0 < count) (positive : 0 < units)
    (present : spacing units ∣ units)
    (dense : 10000000000000000 * (Nat.pow 10 grid * one) ≤ units * Nat.pow 10 scale) :
    onGrid tie units grid count ≠ none := by
  obtain ⟨low, high⟩ := below_bounds units grid
  have either : (below units grid).ReadsAs units ∨ (above units grid count).ReadsAs units := by
    obtain ⟨digits, place, next, value⟩ := above_on_grid units grid count some
    have upper : digits * Nat.pow 10 place * one =
        (below units grid).digits * Nat.pow 10 grid * one + Nat.pow 10 grid * one := by
      rw [value]
      ring
    have under : ((below units grid).digits + 1) * Nat.pow 10 grid * one =
        (below units grid).digits * Nat.pow 10 grid * one + Nat.pow 10 grid * one := by
      ring
    by_cases down : 2 * (units * Nat.pow 10 scale) ≤
        2 * ((below units grid).digits * Nat.pow 10 grid * one) + Nat.pow 10 grid * one
    · refine Or.inl (readsAs_of_near units grid (below units grid).digits _ positive present dense
        down ?_)
      omega
    · refine Or.inr ?_
      rw [next]
      refine readsAs_of_near units place digits _ positive present dense ?_ ?_
      · omega
      · omega
  exact onGrid_of_either tie units grid count either

theorem scaled_large (units : Nat) (positive : 0 < units) :
    1000000000000000000 ≤ scaled units := by
  have fine : 1000000000000000000 * one ≤ Nat.pow 10 scale := by decide +kernel
  refine (Nat.le_div_iff_mul_le one_pos).mpr (Nat.le_trans fine ?_)
  exact Nat.le_mul_of_pos_left _ positive

theorem scaled_wide (units : Nat) (positive : 0 < units) : 18 < Text.digitCount (scaled units) :=
  Text.le_digitCount 18 _ (scaled_large units positive)

theorem digits_of_readsAs (units : Nat) (d : Decimal) (positive : 0 < units)
    (reads : d.ReadsAs units) : 0 < d.digits := by
  by_contra none
  have zero : d.quotient.1 = 0 * d.quotient.2 := by
    simp [quotient, Nat.eq_zero_of_not_pos none]
  have nothing := roundUnits_exact 0 d.quotient.2 (Nat.pow_pos (by decide)) (Nat.dvd_zero _)
  rw [ReadsAs, zero, nothing] at reads
  omega

structure Fits (units count : Nat) (d : Decimal) : Prop where
  digits : d.digits < Nat.pow 10 count
  least : (Text.digitCount (scaled units) : Int) - count - scale ≤ d.exponent
  most : d.exponent ≤ (Text.digitCount (scaled units) : Int) - scale

section Search
variable (tie : Tie) (units count : Nat) (some : 0 < count)
  (short : count ≤ Text.digitCount (scaled units))
include short

theorem below_digits :
    (below units (Text.digitCount (scaled units) - count)).digits < Nat.pow 10 count := by
  refine (Nat.div_lt_iff_lt_mul (Nat.pow_pos (by decide))).mpr ?_
  calc scaled units < 10 ^ Text.digitCount (scaled units) := Text.lt_pow_digitCount _
    _ = 10 ^ count * 10 ^ (Text.digitCount (scaled units) - count) := by
        rw [← Nat.pow_add, Nat.add_sub_cancel' short]

theorem below_fits : Fits units count (below units (Text.digitCount (scaled units) - count)) where
  digits := below_digits units count short
  least := by
    simp only [below]
    omega
  most := by
    simp only [below]
    omega

include some

theorem above_fits :
    Fits units count (above units (Text.digitCount (scaled units) - count) count) := by
  have digits := below_digits units count short
  unfold above
  split
  · refine ⟨Nat.pow_lt_pow_right (by decide) (by omega), ?_, ?_⟩ <;> dsimp only <;> omega
  · refine ⟨?_, ?_, ?_⟩ <;> dsimp only <;> omega

theorem onGrid_fits (d : Decimal)
    (found : onGrid tie units (Text.digitCount (scaled units) - count) count = .some d) :
    Fits units count d := by
  have low := below_fits units count short
  have high := above_fits units count some short
  unfold onGrid at found
  split at found
  · split at found
    · cases found
      rcases @nearer_eq tie units (Text.digitCount (scaled units) - count) count with equal | equal
      · rw [equal]
        exact low
      · rw [equal]
        exact high
    · cases found
      exact low
  · split at found
    · cases found
      exact high
    · cases found

end Search

/-- The search takes the first grid that has a decimal to give. -/
theorem search_stops (tie : Tie) (units count : Nat) (least : 1 ≤ count) (most : count ≤ 17)
    (found : onGrid tie units (Text.digitCount (scaled units) - count) count ≠ none) :
    ∃ fewer, 1 ≤ fewer ∧ fewer ≤ count ∧
      onGrid tie units (Text.digitCount (scaled units) - fewer) fewer =
        some (shortest tie units) := by
  have tried : count ∈ List.range' 1 17 := List.mem_range'_1.mpr ⟨least, by omega⟩
  unfold shortest shortestOfWidth
  cases search : (List.range' 1 17).findSome? fun count =>
      onGrid tie units (Text.digitCount (scaled units) - count) count with
  | none => exact absurd (List.findSome?_eq_none_iff.mp search count tried) found
  | some d =>
    obtain ⟨front, fewer, back, split, here, before⟩ := List.findSome?_eq_some_iff.mp search
    have member : fewer ∈ List.range' 1 17 := by
      rw [split]
      exact List.mem_append_right front List.mem_cons_self
    refine ⟨fewer, (List.mem_range'_1.mp member).1, ?_, here⟩
    have sorted : (List.range' 1 17).Pairwise (· < ·) := List.pairwise_lt_range'
    rw [split] at sorted tried
    rcases List.mem_append.mp tried with early | late
    · exact absurd (before count early) found
    · rcases List.mem_cons.mp late with same | later
      · exact Nat.le_of_eq same.symm
      · have rising := (List.pairwise_append.mp sorted).2.1
        exact Nat.le_of_lt ((List.pairwise_cons.mp rising).1 count later)

/-- Seventeen digits are enough, so one of the seventeen grids holds the result. -/
theorem shortest_on_grid (tie : Tie) (units : Nat) (positive : 0 < units)
    (present : spacing units ∣ units) :
    ∃ count, 1 ≤ count ∧ count ≤ 17 ∧
      onGrid tie units (Text.digitCount (scaled units) - count) count =
        some (shortest tie units) := by
  have wide := scaled_wide units positive
  have dense : 10000000000000000 *
      (Nat.pow 10 (Text.digitCount (scaled units) - 17) * one) ≤ units * Nat.pow 10 scale := by
    have leading := Text.pow_digitCount_le (scaled units)
      (Nat.lt_of_lt_of_le (by decide) (scaled_large units positive))
    have split : 10 ^ (Text.digitCount (scaled units) - 1) =
        10000000000000000 * 10 ^ (Text.digitCount (scaled units) - 17) := by
      have width : Text.digitCount (scaled units) - 1 =
          16 + (Text.digitCount (scaled units) - 17) := by
        omega
      rw [width, Nat.pow_add]
    rw [split] at leading
    calc 10000000000000000 * (Nat.pow 10 (Text.digitCount (scaled units) - 17) * one) =
          10000000000000000 * 10 ^ (Text.digitCount (scaled units) - 17) * one :=
          (Nat.mul_assoc _ _ _).symm
      _ ≤ scaled units * one := Nat.mul_le_mul_right one leading
      _ ≤ units * Nat.pow 10 scale := (scaled_bounds units).1
  exact search_stops tie units 17 (by decide) (Nat.le_refl 17)
    (onGrid_some tie units _ 17 (by decide) positive present dense)

/-- The shortest decimal of a magnitude is read as the magnitude. -/
theorem shortest_reads (tie : Tie) (units : Nat) (positive : 0 < units)
    (present : spacing units ∣ units) : (shortest tie units).ReadsAs units := by
  obtain ⟨_, _, _, found⟩ := shortest_on_grid tie units positive present
  exact readsAs_of_onGrid found

theorem shortest_fits (tie : Tie) (units : Nat) (positive : 0 < units)
    (present : spacing units ∣ units) : Fits units 17 (shortest tie units) := by
  obtain ⟨count, least, most, found⟩ := shortest_on_grid tie units positive present
  have wide := scaled_wide units positive
  have fits := onGrid_fits tie units count least (by omega) _ found
  refine ⟨?_, ?_, fits.most⟩
  · exact Nat.lt_of_lt_of_le fits.digits (Nat.pow_le_pow_right (by decide) most)
  · have := fits.least
    omega

end HabitLedger.Binary64.Decimal
