import HabitLedger.Proofs.DecimalNumerals
import HabitLedger.Proofs.RescalingError

/-!
A finite double read back from its own text. Reading always succeeds, up to the largest double, and
gives the same sign and a magnitude beside the one written; with few digits it gives the same
double.
-/

namespace HabitLedger.Json

open Binary64 Decimal

section Top
variable (kept n units : Nat) (reads : (Decimal.mk kept n).ReadsAs units) (small : units < limit)
include reads small

omit small in
theorem reads_whole : roundUnits (kept * Nat.pow 10 n * one) 1 = units := by
  simpa [Decimal.ReadsAs, Decimal.quotient] using reads

/-- A decimal that is read as a finite magnitude is below everything that is not. -/
theorem reads_below (num : Nat) (infinite : limit ≤ roundUnits num 1) :
    kept * Nat.pow 10 n * one < num := by
  by_contra large
  have order := roundUnits_grows num 1 (kept * Nat.pow 10 n * one) 1 Nat.one_pos Nat.one_pos
    (Nat.mul_le_mul_right 1 (Nat.le_of_not_lt large))
  rw [reads_whole kept n units reads] at order
  omega

theorem digits_below (more : Nat) (infinite : limit ≤ roundUnits (more * Nat.pow 10 n * one) 1) :
    kept < more := by
  have less := reads_below kept n units reads small _ infinite
  exact Nat.lt_of_mul_lt_mul_right (Nat.lt_of_mul_lt_mul_right less)

theorem reads_small : kept * Nat.pow 10 n * one < limit :=
  reads_below kept n units reads small limit (Nat.le_of_eq roundUnits_limit.symm)

theorem exponent_below (most : Nat) (huge : limit ≤ Nat.pow 10 most * one) (positive : 0 < kept) :
    n < most := by
  by_contra large
  have bound := reads_small kept n units reads small
  have tens : Nat.pow 10 most ≤ Nat.pow 10 n := Nat.pow_le_pow_right (by decide) (by omega)
  have grown : Nat.pow 10 most * one ≤ kept * Nat.pow 10 n * one :=
    Nat.mul_le_mul_right one (Nat.le_trans tens (Nat.le_mul_of_pos_left _ positive))
  exact Nat.lt_irrefl _ (Nat.lt_of_lt_of_le bound (Nat.le_trans huge grown))

theorem exponent_small (positive : 0 < kept) : n ≤ 308 :=
  Nat.le_of_lt_succ (exponent_below kept n units reads small 309 (by decide +kernel) positive)

end Top

theorem timesPower_grows (kept more n larger : Nat) (digits : kept ≤ more) (power : n ≤ larger) :
    timesPower (wholeUnits kept) n ≤ timesPower (wholeUnits more) larger :=
  roundUnits_grows _ _ _ _ Binary64.one_pos Binary64.one_pos
    (Nat.mul_le_mul_right one (Nat.mul_le_mul (wholeUnits_grows kept more digits)
      (wholeUnits_grows _ _ (Nat.pow_le_pow_right (by decide) power))))

-- The seventeen digits that come nearest to the largest double have a neighbour which is still read
-- as that double, but whose rounded product is infinite.
def overshooting : Decimal := ⟨17976931348623158, 292⟩

/-- The overshooting decimal is the only one with a rounded product beyond the limit. -/
theorem product_small_digits (kept n units : Nat) (short : kept < 100000000000000000)
    (reads : (Decimal.mk kept n).ReadsAs units) (small : units < limit) (positive : 0 < kept)
    (inside : Decimal.mk kept n ≠ overshooting) : timesPower (wholeUnits kept) n < limit := by
  have near := exponent_small kept n units reads small positive
  have bound := reads_small kept n units reads small
  by_cases low : n ≤ 291
  · refine Nat.lt_of_le_of_lt
      (timesPower_grows _ 100000000000000000 _ 291 (Nat.le_of_lt short) low) ?_
    decide +kernel
  by_cases top : n = 292
  · subst top
    -- At this exponent the overshooting decimal is the first to go wrong and the last that is read.
    have below : kept ≤ 17976931348623157 := by
      by_contra above
      have last := digits_below kept 292 units reads small 17976931348623159 (by decide +kernel)
      have equal : kept = 17976931348623158 := by omega
      exact inside (by rw [equal]; rfl)
    refine Nat.lt_of_le_of_lt (timesPower_grows _ _ _ 292 below (Nat.le_refl 292)) ?_
    decide +kernel
  · obtain ⟨extra, rfl⟩ : ∃ extra, n = 293 + extra := ⟨n - 293, by omega⟩
    -- Sixteen exponents are left, each with a largest row of digits: these are evaluated.
    have tops : ∀ extra < 16,
        timesPower (wholeUnits (limit / (Nat.pow 10 (293 + extra) * one))) (293 + extra) <
          limit := by
      decide +kernel
    have digits : kept ≤ limit / (Nat.pow 10 (293 + extra) * one) := by
      refine (Nat.le_div_iff_mul_le (Nat.mul_pos (Nat.pow_pos (by decide)) Binary64.one_pos)).mpr ?_
      rw [← Nat.mul_assoc]
      exact Nat.le_of_lt bound
    exact Nat.lt_of_le_of_lt (timesPower_grows _ _ _ _ digits (Nat.le_refl _))
      (tops extra (by omega))

theorem shortest_inside (units : Nat) (positive : 0 < units) (present : spacing units ∣ units) :
    shortest .even units ≠ overshooting := by
  intro equal
  obtain ⟨count, least, most, found⟩ := shortest_on_grid .even units positive present
  have wide := scaled_wide units positive
  have reads := readsAs_of_onGrid found
  have digits := (onGrid_fits .even units count least (by omega) _ found).digits
  rw [equal] at found reads digits
  have value := (reads_whole 17976931348623158 292 units reads).symm
  have width : Text.digitCount (scaled units) = 651 := by
    rw [value]
    refine Nat.le_antisymm (Text.digitCount_le 651 _ (by decide) ?_) (Text.le_digitCount 650 _ ?_)
    · decide +kernel
    · decide +kernel
  have full : count = 17 := by
    refine Nat.le_antisymm most ?_
    by_contra few
    have tens : Nat.pow 10 count ≤ Nat.pow 10 16 := Nat.pow_le_pow_right (by decide) (by omega)
    exact absurd (Nat.lt_of_lt_of_le digits tens) (by decide)
  rw [width, full, value] at found
  exact absurd found (by decide +kernel)

/-! ## Digits and power of a text -/

section Kept
variable (d : Decimal)

theorem kept_short (short : d.digits < 100000000000000000) : d.kept < 100000000000000000 := by
  rw [Decimal.kept]
  split
  · next plain => exact plain_short d plain
  · exact short

theorem kept_positive (positive : 0 < d.digits) : 0 < d.kept := by
  rw [Decimal.kept]
  split
  · exact Nat.mul_pos positive (Nat.pow_pos (by decide))
  · exact positive

/-- The zero after the point and the power that takes it back leave the value as it is. -/
theorem kept_reads (units : Nat) (reads : d.ReadsAs units) :
    (Decimal.mk d.kept d.power).ReadsAs units := by
  rw [Decimal.kept, Decimal.power]
  split
  · next plain =>
    have whole := plain.1
    have up : d.quotient = (d.digits * Nat.pow 10 d.exponent.toNat * one, 1) := by
      have down : (-d.exponent).toNat = 0 := by omega
      simp [Decimal.quotient, down]
    have down : (Decimal.mk (d.digits * Nat.pow 10 (d.exponent.toNat + 1)) (-1)).quotient =
        (d.digits * Nat.pow 10 (d.exponent.toNat + 1) * one, 10) := by
      simp [Decimal.quotient]
    rw [Decimal.ReadsAs, up] at reads
    rw [Decimal.ReadsAs, down, ← reads]
    refine roundUnits_congr _ _ _ _ (Nat.succ_pos 9) Nat.one_pos ?_
    simp only [Nat.pow_eq, Nat.pow_succ]
    ring
  · exact reads

theorem kept_inside (inside : d ≠ overshooting) : Decimal.mk d.kept d.power ≠ overshooting := by
  intro equal
  by_cases plain : d.Plain
  · have power := congrArg Decimal.exponent equal
    simp [Decimal.power, plain, overshooting] at power
  · simp only [Decimal.kept, Decimal.power, plain, if_false] at equal
    exact inside equal

end Kept

theorem scaled_near (kept units : Nat) (power : Int) (short : kept < 100000000000000000)
    (positive : 0 < kept) (small : units < limit) (least : -616 ≤ power)
    (reads : (Decimal.mk kept power).ReadsAs units)
    (inside : Decimal.mk kept power ≠ overshooting) :
    ∃ x, scale (Binary64.ofInt kept) power = .ok x ∧ Holds x (rescaled kept power) ∧
      Near (rescaled kept power) units := by
  have finite : wholeUnits kept < limit := by
    refine Nat.lt_of_le_of_lt (wholeUnits_grows kept 100000000000000000 (Nat.le_of_lt short)) ?_
    decide +kernel
  rcases Int.lt_or_le power 0 with below | above
  · obtain ⟨n, rfl⟩ : ∃ n : Nat, power = -n := ⟨power.natAbs, by omega⟩
    by_cases near : n ≤ 308
    · obtain ⟨x, read, holds⟩ := scale_down kept finite n (by omega) near
      exact ⟨x, read, holds, near_down kept units n (by omega) near reads⟩
    · obtain ⟨x, read, holds⟩ := scale_far kept finite n positive (by omega) (by omega)
      exact ⟨x, read, holds, near_far kept units n (by omega) (by omega) reads⟩
  · obtain ⟨n, rfl⟩ : ∃ n : Nat, power = n := ⟨power.natAbs, by omega⟩
    have near := exponent_small kept n units reads small positive
    have fits := product_small_digits kept n units short reads small positive inside
    obtain ⟨x, read, holds⟩ := scale_up kept finite n near fits
    exact ⟨x, read, holds, near_up kept units n reads⟩

section Reread
variable (d : Decimal) (units : Nat) (reads : d.ReadsAs units) (small : units < limit)
  (digits : 0 < d.digits ∧ d.digits < 100000000000000000)
include reads small digits

theorem most_exponent : d.exponent ≤ 308 := by
  obtain ⟨kept, exponent⟩ := d
  by_contra large
  dsimp only at large
  obtain ⟨n, rfl⟩ : ∃ n : Nat, exponent = n := ⟨exponent.natAbs, by omega⟩
  have near := exponent_small kept n units reads small digits.1
  omega

variable (least : -342 ≤ d.exponent)
include least

theorem leading_near : (Numeral.leading d).natAbs < 0x80000000 := by
  have most := most_exponent d units reads small digits
  have length := Text.length_digits d.digits
  have count := Text.digitCount_le 17 _ (by decide) digits.2
  rw [Numeral.leading]
  omega

theorem reread_decimal (inside : d ≠ overshooting) (negative : Bool) :
    ∃ m : Magnitude, (Numeral.ofDecimal negative d).number =
        .ok (.real (.finite negative m)) ∧
      Near m.units units ∧ (d.Short → m.units = units) := by
  have power : -616 ≤ d.power := by
    rw [Decimal.power]
    split <;> omega
  obtain ⟨x, read, ⟨m, equal, value⟩, beside⟩ := scaled_near d.kept units d.power
    (kept_short d digits.2) (kept_positive d digits.1) small power (kept_reads d units reads)
    (kept_inside d inside)
  refine ⟨m, ?_, value ▸ beside, fun few => ?_⟩
  · rw [Numeral.ofDecimal_number negative d digits.2
      (leading_near d units reads small digits least), realNumber, read, equal]
    cases negative <;> rfl
  · rw [value]
    exact rescaled_exact d.kept units d.power few.1 few.2 (kept_reads d units reads)

end Reread

/-- The text of a finite double that is not zero is read as a double beside it, and as the same one
where few digits were written. -/
theorem reread (negative : Bool) (m : Magnitude) (positive : 0 < m.units) :
    ∃ read : Magnitude, (Numeral.ofDecimal negative (shortest .even m.units)).number =
        .ok (.real (.finite negative read)) ∧
      Near read.units m.units ∧ ((shortest .even m.units).Short → read = m) := by
  have fits := shortest_fits .even m.units positive m.sound.2
  have reads := shortest_reads .even m.units positive m.sound.2
  have places := scale_value
  have least : -342 ≤ (shortest .even m.units).exponent := by
    have := fits.least
    have := scaled_wide m.units positive
    omega
  obtain ⟨read, number, beside, exact⟩ := reread_decimal (shortest .even m.units) m.units reads
    m.sound.1 ⟨digits_of_readsAs m.units _ positive reads, fits.digits⟩ least
    (shortest_inside m.units positive m.sound.2) negative
  refine ⟨read, number, beside, fun short => ?_⟩
  have same := exact short
  cases read
  cases m
  cases same
  rfl

end HabitLedger.Json
