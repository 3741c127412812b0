import HabitLedger.Proofs.Rounding

/-!
How far rounding goes. A rounded quotient lies within half a spacing of the exact one, and a spacing
is either one unit or at most the `2 ^ -52`nd part of the magnitude, so rounding a whole number of
units changes it by at most its `2 ^ -53`rd part.
-/

namespace HabitLedger.Binary64

section Nearest
variable (num den : Nat) (positive : 0 < den)
include positive

theorem nearestEven_error :
    2 * (nearestEven num den * den) ≤ 2 * num + den ∧
      2 * num ≤ 2 * (nearestEven num den * den) + den := by
  have split := Nat.div_add_mod num den
  have rest := Nat.mod_lt num positive
  rw [Nat.mul_comm] at split
  have next : (num / den + 1) * den = num / den * den + den := by ring
  unfold nearestEven
  split
  · omega
  · split
    · rw [next]
      omega
    · rcases Nat.mod_two_eq_zero_or_one (num / den) with parity | parity
      · rw [parity, Nat.add_zero]
        omega
      · rw [parity, next]
        omega

/-- Rounding errs by half a spacing at most. -/
theorem roundUnits_error :
    2 * (roundUnits num den * den) ≤ 2 * num + den * spacing (num / den) ∧
      2 * num ≤ 2 * (roundUnits num den * den) + den * spacing (num / den) := by
  have error := nearestEven_error num (den * spacing (num / den))
    (Nat.mul_pos positive (spacing_pos _))
  have regroup : roundUnits num den * den =
      nearestEven num (den * spacing (num / den)) * (den * spacing (num / den)) := by
    rw [roundUnits]
    ring
  rw [regroup]
  exact error

end Nearest

theorem nearestEven_of_near (num den count : Nat) (positive : 0 < den)
    (below : 2 * (count * den) < 2 * num + den) (above : 2 * num < 2 * (count * den) + den) :
    nearestEven num den = count := by
  obtain ⟨high, low⟩ := nearestEven_error num den positive
  have less : nearestEven num den * den < (count + 1) * den := by
    rw [Nat.add_mul]
    omega
  have more : count * den < (nearestEven num den + 1) * den := by
    rw [Nat.add_mul]
    omega
  exact Nat.le_antisymm (Nat.le_of_lt_succ (Nat.lt_of_mul_lt_mul_right less))
    (Nat.le_of_lt_succ (Nat.lt_of_mul_lt_mul_right more))

/-- Rounding looks at the quotient alone. -/
theorem roundUnits_congr (num den num' den' : Nat) (positive : 0 < den) (positive' : 0 < den')
    (same : num * den' = num' * den) : roundUnits num den = roundUnits num' den' :=
  Nat.le_antisymm (roundUnits_grows num den num' den' positive positive' (Nat.le_of_eq same))
    (roundUnits_grows num' den' num den positive' positive (Nat.le_of_eq same.symm))

theorem spacing_small (units : Nat) :
    spacing units = 1 ∨ spacing units * 4503599627370496 ≤ units := by
  by_cases large : units.log2 ≤ 52
  · refine Or.inl ?_
    rw [spacing, Nat.sub_eq_zero_of_le large]
  · refine Or.inr ?_
    have nonzero : units ≠ 0 := by
      rintro rfl
      simp at large
    calc spacing units * 4503599627370496 = 2 ^ (units.log2 - 52) * 2 ^ 52 := rfl
      _ = 2 ^ units.log2 := by rw [← Nat.pow_add, Nat.sub_add_cancel (by omega)]
      _ ≤ units := Nat.log2_self_le nonzero

theorem spacing_quotient (num den : Nat) :
    spacing (num / den) = 1 ∨ 4503599627370496 * (den * spacing (num / den)) ≤ num := by
  refine (spacing_small (num / den)).imp_right fun small => ?_
  calc 4503599627370496 * (den * spacing (num / den)) =
        spacing (num / den) * 4503599627370496 * den := by ring
    _ ≤ num / den * den := Nat.mul_le_mul_right den small
    _ ≤ num := Nat.div_mul_le_self num den

/-- Above the smallest magnitudes rounding changes a number by at most its `2 ^ -53`rd part. -/
theorem roundUnits_part (num den : Nat) (positive : 0 < den)
    (large : 4503599627370496 < roundUnits num den) :
    roundUnits num den * den * 9007199254740992 ≤ num * 9007199254740993 ∧
      num * 9007199254740991 ≤ roundUnits num den * den * 9007199254740992 := by
  have wide : 4503599627370496 * den ≤ num := by
    by_contra less
    have order := roundUnits_grows num den 4503599627370496 1 positive Nat.one_pos (by omega)
    have exact : roundUnits 4503599627370496 1 = 4503599627370496 := by decide +kernel
    omega
  obtain ⟨high, low⟩ := roundUnits_error num den positive
  have part : 4503599627370496 * (den * spacing (num / den)) ≤ num := by
    rcases spacing_quotient num den with single | small
    · rw [single, Nat.mul_one]
      exact wide
    · exact small
  constructor <;> omega

/-- Where the spacing is one unit a whole number of units is not rounded at all. -/
theorem round_whole_error (units : Nat) :
    units * 9007199254740991 ≤ roundUnits units 1 * 9007199254740992 ∧
      roundUnits units 1 * 9007199254740992 ≤ units * 9007199254740993 := by
  rcases spacing_small units with single | small
  · rw [roundUnits_whole units (by rw [single]; exact Nat.one_dvd _)]
    omega
  · have error := roundUnits_error units 1 Nat.one_pos
    rw [Nat.div_one, Nat.mul_one, Nat.one_mul] at error
    omega

/-- Between a magnitude and its spacing above there is no other. -/
theorem next_present (units more : Nat) (present : spacing units ∣ units)
    (presentMore : spacing more ∣ more) (less : units < more) : units + spacing units ≤ more := by
  have finer : spacing units ∣ spacing more :=
    Nat.pow_dvd_pow 2 (Nat.sub_le_sub_right (log2_grows units more (Nat.le_of_lt less)) 52)
  have gap := Nat.le_of_dvd (Nat.sub_pos_of_lt less)
    (Nat.dvd_sub (Nat.dvd_trans finer presentMore) present)
  omega

theorem units_lt_spacing (units : Nat) : units < 9007199254740992 * spacing units :=
  (Nat.div_lt_iff_lt_mul (spacing_pos units)).mp (quotient_lt units)

theorem spacing_power (power : Nat) (large : 52 ≤ power) :
    4503599627370496 * spacing (2 ^ power) = 2 ^ power := by
  rw [spacing, Nat.log2_two_pow]
  calc 2 ^ 52 * 2 ^ (power - 52) = 2 ^ power := by rw [← Nat.pow_add, Nat.add_sub_cancel' large]

section Near
variable (num den units : Nat) (present : spacing units ∣ units)
include present

theorem power_le_of_near
    (above : num * 18014398509481984 < units * den * 18014398509481985)
    (power : Nat) (reached : 2 ^ power * den ≤ num) : 2 ^ power ≤ units := by
  by_contra less
  have next := next_present units (2 ^ power) present (present_power power) (Nat.lt_of_not_le less)
  have dense := units_lt_spacing units
  have scaled : 2 ^ power * 18014398509481984 < units * 18014398509481985 := by
    refine Nat.lt_of_mul_lt_mul_right (a := den) ?_
    calc 2 ^ power * 18014398509481984 * den = 2 ^ power * den * 18014398509481984 := by ring
      _ ≤ num * 18014398509481984 := Nat.mul_le_mul_right _ reached
      _ < units * den * 18014398509481985 := above
      _ = units * 18014398509481985 * den := by ring
  omega

theorem le_power_of_near
    (below : units * den * 18014398509481983 < num * 18014398509481984)
    (power : Nat) (large : 52 ≤ power) (reached : num < 2 ^ power * den) :
    units ≤ 2 ^ power := by
  by_contra more
  have next := next_present (2 ^ power) units (present_power power) present (Nat.lt_of_not_le more)
  have dense := spacing_power power large
  have scaled : units * 18014398509481983 < 2 ^ power * 18014398509481984 := by
    refine Nat.lt_of_mul_lt_mul_right (a := den) ?_
    calc units * 18014398509481983 * den = units * den * 18014398509481983 := by ring
      _ < num * 18014398509481984 := below
      _ ≤ 2 ^ power * den * 18014398509481984 := Nat.mul_le_mul_right _ (Nat.le_of_lt reached)
      _ = 2 ^ power * 18014398509481984 * den := by ring
  omega

variable (positive : 0 < den)
  (below : units * den * 18014398509481983 < num * 18014398509481984)
  (above : num * 18014398509481984 < units * den * 18014398509481985)
include positive below above

/-- The quotient may lie just below a power of two that the magnitude is, so their spacings may
differ. -/
theorem spacing_of_near :
    spacing (num / den) ∣ units ∧ units ≤ 9007199254740992 * spacing (num / den) := by
  have under : num < 2 ^ ((num / den).log2 + 1) * den :=
    (Nat.div_lt_iff_lt_mul positive).mp Nat.lt_log2_self
  by_cases large : (num / den).log2 < 52
  -- Below 2^53 every whole number is a magnitude.
  · have single : spacing (num / den) = 1 := by
      rw [spacing, Nat.sub_eq_zero_of_le (Nat.le_of_lt large)]
    have wide : num < 2 ^ 53 * den :=
      Nat.lt_of_lt_of_le under (Nat.mul_le_mul_right den
        (Nat.pow_le_pow_right (by decide) (by omega)))
    have bound := le_power_of_near num den units present below 53 (by decide) wide
    rw [single]
    exact ⟨Nat.one_dvd units, bound⟩
  · have some : num / den ≠ 0 := by
      intro zero
      simp [zero] at large
    have reached : 2 ^ (num / den).log2 * den ≤ num :=
      (Nat.le_div_iff_mul_le positive).mp (Nat.log2_self_le some)
    have low := power_le_of_near num den units present above _ reached
    have high := le_power_of_near num den units present below _ (by omega) under
    have dense : 4503599627370496 * spacing (num / den) = 2 ^ (num / den).log2 := by
      rw [← spacing_power _ (Nat.le_of_not_lt large), spacing, spacing, Nat.log2_two_pow]
    have double := Nat.pow_succ 2 (num / den).log2
    refine ⟨?_, by omega⟩
    -- At the next power of two the spacing doubles, and the power is a multiple of both.
    rcases Nat.lt_or_eq_of_le high with less | equal
    · have positive := Nat.lt_of_lt_of_le (Nat.two_pow_pos (num / den).log2) low
      have same := (Nat.log2_eq_iff (Nat.ne_of_gt positive)).mpr ⟨low, less⟩
      rw [spacing, ← same]
      exact present
    · rw [equal]
      exact Nat.pow_dvd_pow 2 (by omega)

theorem roundUnits_of_near : roundUnits num den = units := by
  obtain ⟨⟨count, multiple⟩, close⟩ := spacing_of_near num den units present positive below above
  have grid : count * (den * spacing (num / den)) = units * den := by
    conv_rhs => rw [multiple]
    ring
  have reach : units * den ≤ 9007199254740992 * (den * spacing (num / den)) := by
    calc units * den ≤ 9007199254740992 * spacing (num / den) * den :=
            Nat.mul_le_mul_right den close
      _ = 9007199254740992 * (den * spacing (num / den)) := by ring
  have count_eq := nearestEven_of_near num (den * spacing (num / den)) count
    (Nat.mul_pos positive (spacing_pos _)) (by omega) (by omega)
  rw [roundUnits, count_eq, Nat.mul_comm]
  exact multiple.symm

end Near

end HabitLedger.Binary64
