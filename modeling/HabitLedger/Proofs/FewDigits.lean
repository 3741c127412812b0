import HabitLedger.Proofs.DecimalNumerals

/-!
Decimals of few digits. A double is far narrower than the step between two such decimals, so at most
one of them is read as it; what is written of the double is that decimal again, whatever the search
tries first, and such a number is read back as it is.
-/

namespace HabitLedger.Binary64.Decimal

/-- Reading depends on the value of a decimal, not on the zeros that it is written with. -/
theorem readsAs_congr (digits place more other units : Nat)
    (same : digits * Nat.pow 10 place = more * Nat.pow 10 other)
    (reads : Decimal.ReadsAs ⟨digits, place - scale⟩ units) :
    Decimal.ReadsAs ⟨more, other - scale⟩ units := by
  obtain ⟨num, den, form, positive, value⟩ := quotient_on_grid place digits
  obtain ⟨moreNum, moreDen, moreForm, morePositive, moreValue⟩ := quotient_on_grid other more
  rw [ReadsAs, form] at reads
  rw [ReadsAs, moreForm, ← reads]
  refine roundUnits_congr _ _ _ _ morePositive positive ?_
  have grid : 0 < Nat.pow 10 scale := Nat.pow_pos (by decide)
  refine Nat.eq_of_mul_eq_mul_right grid ?_
  calc moreNum * den * Nat.pow 10 scale = moreNum * Nat.pow 10 scale * den := by ring
    _ = digits * Nat.pow 10 place * one * den * moreDen := by
        rw [moreValue, same]
        ring
    _ = num * moreDen * Nat.pow 10 scale := by
        rw [← value]
        ring

def Close (units value : Nat) : Prop :=
  units * Nat.pow 10 scale * 9007199254740992 ≤ value * one * 9007199254740993 ∧
    value * one * 9007199254740991 ≤ units * Nat.pow 10 scale * 9007199254740992

theorem close_of_reads (digits place units : Nat) (large : 4503599627370496 < units)
    (reads : Decimal.ReadsAs ⟨digits, place - scale⟩ units) :
    Close units (digits * Nat.pow 10 place) := by
  obtain ⟨num, den, form, positive, value⟩ := quotient_on_grid place digits
  rw [ReadsAs, form] at reads
  obtain ⟨high, low⟩ := roundUnits_part num den positive (reads ▸ large)
  rw [reads] at high low
  constructor
  · refine Nat.le_of_mul_le_mul_right ?_ positive
    calc units * Nat.pow 10 scale * 9007199254740992 * den =
          units * den * 9007199254740992 * Nat.pow 10 scale := by ring
      _ ≤ num * 9007199254740993 * Nat.pow 10 scale := Nat.mul_le_mul_right _ high
      _ = num * Nat.pow 10 scale * 9007199254740993 := by ring
      _ = digits * Nat.pow 10 place * one * 9007199254740993 * den := by
          rw [value]
          ring
  · refine Nat.le_of_mul_le_mul_right ?_ positive
    calc digits * Nat.pow 10 place * one * 9007199254740991 * den =
          num * Nat.pow 10 scale * 9007199254740991 := by
          rw [value]
          ring
      _ = num * 9007199254740991 * Nat.pow 10 scale := by ring
      _ ≤ units * den * 9007199254740992 * Nat.pow 10 scale := Nat.mul_le_mul_right _ low
      _ = units * Nat.pow 10 scale * 9007199254740992 * den := by ring

section Grid
variable (units grid count : Nat) (close : Close units (count * Nat.pow 10 grid))
include close

/-- Two multiples of the grid are a whole step apart, more than two roundings. -/
theorem close_unique (other : Nat) (few : count < 4503599627370496)
    (otherClose : Close units (other * Nat.pow 10 grid)) : other = count := by
  obtain ⟨high, low⟩ := close
  obtain ⟨otherHigh, otherLow⟩ := otherClose
  have step : 0 < Nat.pow 10 grid * one := Nat.mul_pos (Nat.pow_pos (by decide)) one_pos
  have below : other * 9007199254740991 ≤ count * 9007199254740993 := by
    refine Nat.le_of_mul_le_mul_right ?_ step
    calc other * 9007199254740991 * (Nat.pow 10 grid * one) =
          other * Nat.pow 10 grid * one * 9007199254740991 := by ring
      _ ≤ count * Nat.pow 10 grid * one * 9007199254740993 := Nat.le_trans otherLow high
      _ = count * 9007199254740993 * (Nat.pow 10 grid * one) := by ring
  have above : count * 9007199254740991 ≤ other * 9007199254740993 := by
    refine Nat.le_of_mul_le_mul_right ?_ step
    calc count * 9007199254740991 * (Nat.pow 10 grid * one) =
          count * Nat.pow 10 grid * one * 9007199254740991 := by ring
      _ ≤ other * Nat.pow 10 grid * one * 9007199254740993 := Nat.le_trans low otherHigh
      _ = other * 9007199254740993 * (Nat.pow 10 grid * one) := by ring
  omega

theorem close_neighbour (few : (below units grid).digits < 1000000000000000) :
    count = (below units grid).digits ∨ count = (below units grid).digits + 1 := by
  obtain ⟨high, low⟩ := close
  obtain ⟨floor, ceiling⟩ := below_bounds units grid
  generalize (below units grid).digits = digits at few floor ceiling ⊢
  have step : 0 < Nat.pow 10 grid * one := Nat.mul_pos (Nat.pow_pos (by decide)) one_pos
  have under : digits * 9007199254740992 ≤ count * 9007199254740993 := by
    refine Nat.le_of_mul_le_mul_right ?_ step
    calc digits * 9007199254740992 * (Nat.pow 10 grid * one) =
          digits * Nat.pow 10 grid * one * 9007199254740992 := by ring
      _ ≤ units * Nat.pow 10 scale * 9007199254740992 := Nat.mul_le_mul_right _ floor
      _ ≤ count * Nat.pow 10 grid * one * 9007199254740993 := high
      _ = count * 9007199254740993 * (Nat.pow 10 grid * one) := by ring
  have above : count * 9007199254740991 < (digits + 1) * 9007199254740992 := by
    refine Nat.lt_of_mul_lt_mul_right (a := Nat.pow 10 grid * one) ?_
    calc count * 9007199254740991 * (Nat.pow 10 grid * one) =
          count * Nat.pow 10 grid * one * 9007199254740991 := by ring
      _ ≤ units * Nat.pow 10 scale * 9007199254740992 := low
      _ < (digits + 1) * Nat.pow 10 grid * one * 9007199254740992 :=
          Nat.mul_lt_mul_of_pos_right ceiling (by decide)
      _ = (digits + 1) * 9007199254740992 * (Nat.pow 10 grid * one) := by ring
  omega

end Grid

/-- Ten times as many, with a zero after the point, is still below `2 ^ 53`. -/
theorem count_few (digits : Nat) (few : digits ≤ 900719925474099) :
    1 ≤ Text.digitCount digits ∧ Text.digitCount digits ≤ 15 := by
  refine ⟨?_, Text.digitCount_le 15 digits (by decide) (Nat.lt_of_le_of_lt few (by decide))⟩
  rw [Text.digitCount]
  split <;> omega

/-- A decimal of the value of another has no more digits before the point. -/
theorem place_of_value (row other digits place : Nat)
    (value : row * Nat.pow 10 other = digits * Nat.pow 10 place) (some : 0 < digits)
    (few : digits < Nat.pow 10 15) : other < place + 15 := by
  have positive : 0 < row * Nat.pow 10 other := value ▸ Nat.mul_pos some (Nat.pow_pos (by decide))
  refine (Nat.pow_lt_pow_iff_right (a := 10) (by decide)).mp ?_
  calc 10 ^ other ≤ row * 10 ^ other := Nat.le_mul_of_pos_left _ (Nat.pos_of_mul_pos_right positive)
    _ = digits * 10 ^ place := value
    _ < 10 ^ 15 * 10 ^ place := Nat.mul_lt_mul_of_pos_right few (Nat.pow_pos (by decide))
    _ = 10 ^ (place + 15) := by rw [← Nat.pow_add, Nat.add_comm]

theorem digits_of_value (row zeros digits place top : Nat)
    (value : row * Nat.pow 10 (top + zeros) = digits * Nat.pow 10 place) (order : place ≤ top) :
    row * Nat.pow 10 zeros ≤ digits := by
  have grid : 0 < Nat.pow 10 place := Nat.pow_pos (by decide)
  refine Nat.le_of_mul_le_mul_right ?_ grid
  calc row * 10 ^ zeros * 10 ^ place ≤ row * 10 ^ zeros * 10 ^ top :=
        Nat.mul_le_mul_left _ (Nat.pow_le_pow_right (by decide) order)
    _ = row * 10 ^ (top + zeros) := by rw [Nat.mul_assoc, ← Nat.pow_add, Nat.add_comm]
    _ = digits * 10 ^ place := value

theorem short_of_value (row other digits place top : Nat)
    (value : row * Nat.pow 10 other = digits * Nat.pow 10 place) (some : 0 < digits)
    (few : digits ≤ 900719925474099) (small : row < 1000000000000000) (finest : place ≤ other + 1)
    (places : top ≤ place + 21) (whole : place ≤ top) : Short ⟨row, other - top⟩ := by
  have most := place_of_value row other digits place value some (Nat.lt_of_le_of_lt few (by decide))
  rw [Short, kept, power]
  split
  · next plain =>
    have above := plain.1
    dsimp only at above ⊢
    obtain ⟨zeros, rfl⟩ := Nat.exists_eq_add_of_le (show top ≤ other by omega)
    have bound := digits_of_value row zeros digits place top value whole
    rw [show ((top + zeros : Nat) - (top : Int)).toNat = zeros by omega]
    refine ⟨?_, by decide⟩
    calc row * Nat.pow 10 (zeros + 1) = 10 * (row * Nat.pow 10 zeros) := by
          simp only [Nat.pow_eq, Nat.pow_succ]
          ring
      _ ≤ 10 * 900719925474099 := Nat.mul_le_mul_left 10 (Nat.le_trans bound few)
      _ ≤ 9007199254740992 := by decide
  · dsimp only
    constructor <;> omega

section Few
variable (digits place units : Nat) (few : digits ≤ 900719925474099)
  (large : 4503599627370496 < units) (reads : Decimal.ReadsAs ⟨digits, place - scale⟩ units)
include few large reads

/-- The magnitude has as many digits before the point as the decimal, or one less. -/
theorem width_most : Text.digitCount (scaled units) ≤ Text.digitCount digits + place := by
  obtain ⟨high, _⟩ := close_of_reads digits place units large reads
  obtain ⟨least, _⟩ := count_few digits few
  refine Text.digitCount_le _ _ (by omega) ((Nat.div_lt_iff_lt_mul one_pos).mpr ?_)
  have next : (digits + 1) * Nat.pow 10 place ≤ 10 ^ (Text.digitCount digits + place) := by
    rw [Nat.pow_add]
    exact Nat.mul_le_mul_right _ (Text.lt_pow_digitCount digits)
  have inside : units * Nat.pow 10 scale < (digits + 1) * Nat.pow 10 place * one := by
    have split : (digits + 1) * Nat.pow 10 place * one =
        digits * Nat.pow 10 place * one + Nat.pow 10 place * one := by ring
    have small : digits * Nat.pow 10 place * one ≤ 900719925474099 * (Nat.pow 10 place * one) := by
      rw [Nat.mul_assoc]
      exact Nat.mul_le_mul_right _ few
    have step : 0 < Nat.pow 10 place * one := Nat.mul_pos (Nat.pow_pos (by decide)) one_pos
    omega
  exact Nat.lt_of_lt_of_le inside (Nat.mul_le_mul_right one next)

theorem width_least (some : 0 < digits) :
    Text.digitCount digits + place ≤ Text.digitCount (scaled units) + 1 := by
  obtain ⟨_, low⟩ := close_of_reads digits place units large reads
  obtain ⟨least, _⟩ := count_few digits few
  have wide := scaled_wide units (by omega)
  by_contra narrow
  have leading := Text.pow_digitCount_le digits some
  have tenth : 10 * (10 ^ (Text.digitCount digits + place - 2) * one) ≤
      digits * Nat.pow 10 place * one := by
    rw [← Nat.mul_assoc]
    refine Nat.mul_le_mul_right one ?_
    calc 10 * 10 ^ (Text.digitCount digits + place - 2) =
          10 ^ (Text.digitCount digits - 1) * 10 ^ place := by
          rw [← Nat.pow_succ', ← Nat.pow_add]
          congr 1
          omega
      _ ≤ digits * 10 ^ place := Nat.mul_le_mul_right _ leading
  have reached : 10 ^ (Text.digitCount digits + place - 2) ≤ scaled units :=
    (Nat.le_div_iff_mul_le one_pos).mpr (by omega)
  have more := Text.le_digitCount _ (scaled units) reached
  omega

/-- On the grid of its own digits the decimal is one of the two neighbours that are tried. -/
theorem multiple_on_grid :
    ∃ count, count * Nat.pow 10 (Text.digitCount (scaled units) - Text.digitCount digits) =
        digits * Nat.pow 10 place ∧
      (count = (below units (Text.digitCount (scaled units) - Text.digitCount digits)).digits ∨
        count = (below units (Text.digitCount (scaled units) - Text.digitCount digits)).digits +
          1) ∧
      count < 4503599627370496 := by
  have narrow := width_most digits place units few large reads
  obtain ⟨_, short⟩ := count_few digits few
  have wide := scaled_wide units (by omega)
  have small := below_digits units (Text.digitCount digits) (by omega)
  have tens : Nat.pow 10 (Text.digitCount digits) ≤ Nat.pow 10 15 :=
    Nat.pow_le_pow_right (by decide) short
  generalize grid : Text.digitCount (scaled units) - Text.digitCount digits = place' at small ⊢
  have value := on_grid digits place place' (by omega)
  have close := close_of_reads digits place units large reads
  rw [← value] at close
  have beside := close_neighbour units place' _ close (Nat.lt_of_lt_of_le small tens)
  refine ⟨_, value, beside, ?_⟩
  have bound : Nat.pow 10 15 = 1000000000000000 := rfl
  omega

theorem onGrid_few (tie : Tie) :
    onGrid tie units (Text.digitCount (scaled units) - Text.digitCount digits)
      (Text.digitCount digits) ≠ none := by
  obtain ⟨least, _⟩ := count_few digits few
  obtain ⟨count, value, beside, _⟩ := multiple_on_grid digits place units few large reads
  refine onGrid_of_either tie units _ _ ?_
  rcases beside with floor | ceiling
  · rw [floor] at value
    exact Or.inl (readsAs_congr digits place _ _ units value.symm reads)
  · obtain ⟨upper, next, form, same⟩ := above_on_grid units
      (Text.digitCount (scaled units) - Text.digitCount digits) (Text.digitCount digits) least
    rw [ceiling] at value
    refine Or.inr ?_
    rw [form]
    exact readsAs_congr digits place upper next units (value.symm.trans same.symm) reads

/-- What is written has the value of the decimal and lies on a grid no more than one place finer. -/
theorem shortest_few (some : 0 < digits) (tie : Tie) :
    ∃ other : Nat, shortest tie units = ⟨(shortest tie units).digits, other - scale⟩ ∧
      (shortest tie units).digits * Nat.pow 10 other = digits * Nat.pow 10 place ∧
      (shortest tie units).digits < 1000000000000000 ∧ place ≤ other + 1 := by
  have broad := width_least digits place units few large reads some
  obtain ⟨least, short⟩ := count_few digits few
  have wide := scaled_wide units (by omega)
  obtain ⟨fewer, start, order, found⟩ := search_stops tie units _ least (by omega)
    (onGrid_few digits place units few large reads tie)
  have written := readsAs_of_onGrid found
  have fits := onGrid_fits tie units fewer start (by omega) _ found
  generalize shortest tie units = d at written fits ⊢
  obtain ⟨row, exponent⟩ := d
  have finest := fits.least
  dsimp only at finest
  obtain ⟨other, rfl⟩ : ∃ other : Nat, exponent = other - scale :=
    ⟨(exponent + scale).toNat, by omega⟩
  obtain ⟨count, value, _, small⟩ := multiple_on_grid digits place units few large reads
  have close := close_of_reads digits place units large reads
  have otherClose := close_of_reads row other units large written
  have otherValue := on_grid row other
    (Text.digitCount (scaled units) - Text.digitCount digits) (by omega)
  rw [← value] at close
  rw [← otherValue] at otherClose
  -- Two decimals this short that read as one magnitude have one value.
  have same := close_unique units _ count close _ small otherClose
  refine ⟨other, rfl, ?_, ?_, by omega⟩
  · rw [← otherValue, same, value]
  · have tens : Nat.pow 10 fewer ≤ Nat.pow 10 15 := Nat.pow_le_pow_right (by decide) (by omega)
    exact Nat.lt_of_lt_of_le fits.digits tens

theorem short_of_few (some : 0 < digits) (tie : Tie) (places : scale ≤ place + 21)
    (whole : place ≤ scale) :
    (shortest tie units).Short := by
  obtain ⟨other, form, value, small, finest⟩ :=
    shortest_few digits place units few large reads some tie
  rw [form]
  exact short_of_value _ other digits place scale value some few small finest places whole

end Few

end HabitLedger.Binary64.Decimal

namespace HabitLedger.Binary64

/-- Zero, or written with so few digits that reading rounds only once. -/
def Brief : Binary64 → Prop
  | .finite _ m => m.units = 0 ∨ (Decimal.shortest .even m.units).Short
  | _ => False

instance : (x : Binary64) → Decidable x.Brief
  | .nan => inferInstanceAs (Decidable False)
  | .infinite _ => inferInstanceAs (Decidable False)
  | .finite _ _ => inferInstanceAs (Decidable (_ ∨ _))

theorem Brief.finite {x : Binary64} (brief : x.Brief) : x.isFinite = true := by
  cases x with
  | nan => exact brief.elim
  | infinite _ => exact brief.elim
  | finite _ _ => rfl

section Entered
variable (negative : Bool) (digits places : Nat) (few : digits ≤ 900719925474099)
  (short : places ≤ 21)
include few short

theorem entered_bounds (some : 0 < digits) :
    4503599627370496 < roundUnits (digits * one) (Nat.pow 10 places) ∧
      roundUnits (digits * one) (Nat.pow 10 places) < limit := by
  have positive : 0 < Nat.pow 10 places := Nat.pow_pos (by decide)
  constructor
  · have exact : roundUnits 9007199254740992 1 = 9007199254740992 := by decide +kernel
    have order := roundUnits_grows 9007199254740992 1 (digits * one) (Nat.pow 10 places)
      Nat.one_pos positive ?_
    · omega
    calc 9007199254740992 * Nat.pow 10 places ≤ 9007199254740992 * Nat.pow 10 21 :=
          Nat.mul_le_mul_left _ (Nat.pow_le_pow_right (by decide) short)
      _ ≤ one := by decide +kernel
      _ ≤ digits * one * 1 := by
          rw [Nat.mul_one]
          exact Nat.le_mul_of_pos_left one some
  · have top : roundUnits (900719925474099 * one) 1 < limit := by decide +kernel
    refine Nat.lt_of_le_of_lt
      (roundUnits_grows _ _ (900719925474099 * one) 1 positive Nat.one_pos ?_) top
    rw [Nat.mul_one]
    exact Nat.le_trans (Nat.mul_le_mul_right one few) (Nat.le_mul_of_pos_right _ positive)

/-- Fourteen digits are always below the bound, twenty-one of them may stand after the point. -/
theorem brief_entered : (Decimal.toBinary64 negative ⟨digits, -places⟩).Brief := by
  by_cases some : 0 < digits
  · have count := Decimal.count_few digits few
    obtain ⟨large, small⟩ := entered_bounds digits places few short some
    have quotient : Decimal.quotient ⟨digits, -places⟩ = (digits * one, Nat.pow 10 places) := by
      simp [Decimal.quotient]
    have order : Decimal.order ⟨digits, -places⟩ = Text.digitCount digits - places := rfl
    have scale := Decimal.scale_value
    have exponent : (-places : Int) = (342 - places : Nat) - (Decimal.scale : Int) := by omega
    have reads : Decimal.ReadsAs ⟨digits, (342 - places : Nat) - (Decimal.scale : Int)⟩
        (roundUnits (digits * one) (Nat.pow 10 places)) := by
      rw [← exponent, Decimal.ReadsAs, quotient]
    have near : ¬ (digits = 0 ∨ Decimal.order ⟨digits, -places⟩ < -330) := by omega
    rw [Decimal.toBinary64, if_neg near, if_neg (by omega), quotient, ofQuotient, dif_pos small]
    exact Or.inr (Decimal.short_of_few digits (342 - places) _ few large reads some .even
      (by omega) (by omega))
  · obtain rfl : digits = 0 := Nat.eq_zero_of_not_pos some
    exact Or.inl rfl

end Entered

end HabitLedger.Binary64
