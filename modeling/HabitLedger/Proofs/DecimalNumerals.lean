import HabitLedger.Proofs.Numerals
import HabitLedger.Proofs.Shortest

/-!
The numerals of doubles. Whatever form a magnitude is written in, the reader keeps the digits of its
shortest decimal and scales them by the exponent; only a whole number without exponent also brings
its zeros and the one after the point.
-/

namespace HabitLedger

namespace Json
open Binary64

theorem keepFraction_row (row : List Char) (value : Nat)
    (fits : row.foldl (fun v c => 10 * v + Text.digitValue c) value < UInt64.size) :
    keepFraction value row =
      (row.foldl (fun v c => 10 * v + Text.digitValue c) value, row.length) := by
  induction row generalizing value with
  | nil => rfl
  | cons c row ih =>
    have small := Nat.lt_of_le_of_lt (Text.numeral_grows row _) fits
    rw [keepFraction, if_pos small]
    simp [ih _ fits]

namespace Numeral
variable (negative : Bool) (whole row : List Char)

theorem keep_whole (fits : Text.numeral (whole ++ row) < UInt64.size) :
    whole.foldl Kept.push ⟨0, 0⟩ = ⟨Text.numeral whole, 0⟩ := by
  refine keep_row whole 0 (Nat.lt_of_le_of_lt ?_ fits)
  rw [Text.numeral, List.foldl_append]
  exact Text.numeral_grows row _

theorem keep_both (fits : Text.numeral (whole ++ row) < UInt64.size) :
    keepFraction (Text.numeral whole) row = (Text.numeral (whole ++ row), row.length) := by
  rw [Text.numeral, List.foldl_append] at fits
  rw [Text.numeral, keepFraction_row row _ fits, Text.numeral, List.foldl_append]

theorem number_pointed (fits : Text.numeral (whole ++ row) < UInt64.size) :
    (Numeral.mk negative whole (some row) none).number =
      realNumber negative (Text.numeral (whole ++ row)) (-row.length) := by
  simp [number, keep_whole whole row fits, keep_both whole row fits]

theorem exponentNumber_power (kept : Nat) (base power : Int) (small : power.natAbs < 0x80000000) :
    exponentNumber negative kept base (decide (power < 0), Text.digits power.natAbs) =
      realNumber negative kept (base + power) := by
  simp only [exponentNumber, Text.numeral_digits, small, if_true]
  congr 1
  split
  · next below =>
    have := of_decide_eq_true below
    omega
  · next above =>
    have := of_decide_eq_false (Bool.eq_false_iff.mpr above)
    omega

theorem number_scientific (power : Int) (small : power.natAbs < 0x80000000)
    (fits : Text.numeral (whole ++ row) < UInt64.size) :
    (Numeral.mk negative whole (if row.isEmpty then none else some row)
        (some (decide (power < 0), Text.digits power.natAbs))).number =
      realNumber negative (Text.numeral (whole ++ row)) (power - row.length) := by
  cases row with
  | nil =>
    have kept := keep_whole whole [] fits
    simp [number, kept, exponentNumber_power _ _ _ _ small]
  | cons c row =>
    have kept := keep_whole whole (c :: row) fits
    have both := keep_both whole (c :: row) fits
    have exponent := exponentNumber_power negative (Text.numeral (whole ++ c :: row))
      (-((c :: row).length : Int)) power small
    simp only [List.isEmpty_cons, Bool.false_eq_true, if_false, number, kept, both]
    simp only [List.length_cons, Int.natCast_add, Int.natCast_one] at exponent ⊢
    rw [show ((0 : Nat) : Int) - (row.length + 1) = -(row.length + 1 : Int) by omega, exponent]
    congr 1
    omega

end Numeral

end Json

namespace Binary64.Decimal

def Plain (d : Decimal) : Prop := 0 ≤ d.exponent ∧ d.order ≤ 16

instance (d : Decimal) : Decidable d.Plain := inferInstanceAs (Decidable (_ ∧ _))

def kept (d : Decimal) : Nat :=
  if d.Plain then d.digits * Nat.pow 10 (d.exponent.toNat + 1) else d.digits

def power (d : Decimal) : Int := if d.Plain then -1 else d.exponent

/-- Few enough digits and a small enough power for one rounding to be all there is. -/
def Short (d : Decimal) : Prop := d.kept ≤ 9007199254740992 ∧ d.power.natAbs ≤ 22

instance (d : Decimal) : Decidable d.Short := inferInstanceAs (Decidable (_ ∧ _))

theorem plain_short (d : Decimal) (plain : d.Plain) :
    d.digits * Nat.pow 10 (d.exponent.toNat + 1) < 100000000000000000 := by
  obtain ⟨above, small⟩ := plain
  simp only [Decimal.order] at small
  calc d.digits * 10 ^ (d.exponent.toNat + 1) <
        10 ^ Text.digitCount d.digits * 10 ^ (d.exponent.toNat + 1) :=
        Nat.mul_lt_mul_of_pos_right (Text.lt_pow_digitCount _) (Nat.pow_pos (by decide))
    _ = 10 ^ (Text.digitCount d.digits + (d.exponent.toNat + 1)) := (Nat.pow_add _ _ _).symm
    _ ≤ 10 ^ 17 := Nat.pow_le_pow_right (by decide) (by omega)

end Binary64.Decimal

namespace Json
open Binary64

theorem isRow_append (row more : List Char) (digits : IsRow row)
    (moreDigits : ∀ c ∈ more, c.isDigit = true) : IsRow (row ++ more) := by
  refine ⟨List.append_ne_nil_of_left_ne_nil digits.1 more, fun c member => ?_⟩
  rcases List.mem_append.mp member with front | back
  · exact digits.2 c front
  · exact moreDigits c back

theorem zeros_digits (count : Nat) : ∀ c ∈ List.replicate count '0', c.isDigit = true := by
  intro c member
  rw [List.eq_of_mem_replicate member]
  rfl

theorem isRow_zero : IsRow ['0'] := ⟨by simp, by simp⟩

namespace Numeral
section Forms
variable (negative : Bool) (row : List Char) (digits : IsRow row)

theorem small_sound (count : Nat) (digits : IsRow row) :
    (Numeral.mk negative ['0'] (some (List.replicate count '0' ++ row)) none).Sound where
  whole := isRow_zero
  zero_alone _ := rfl
  fraction part member := by
    cases member
    refine ⟨List.append_ne_nil_of_right_ne_nil _ digits.1, fun c member => ?_⟩
    rcases List.mem_append.mp member with front | back
    · exact zeros_digits count c front
    · exact digits.2 c back
  exponent _ part := nomatch part

theorem plain_sound (count : Nat) (digits : IsRow row) (front : row.head? ≠ some '0') :
    (Numeral.mk negative (row ++ List.replicate count '0') (some ['0']) none).Sound where
  whole := isRow_append row _ digits (zeros_digits count)
  zero_alone zero := by
    obtain ⟨c, tail, cons⟩ := List.exists_cons_of_ne_nil digits.1
    rw [cons] at zero front
    exact absurd zero front
  fraction part member := by
    cases member
    exact isRow_zero
  exponent _ part := nomatch part

theorem take_front (count : Nat) (some : 0 < count) : (row.take count).head? = row.head? := by
  cases row with
  | nil => simp
  | cons c tail =>
    cases count with
    | zero => exact absurd some (by decide)
    | succ count => rfl

theorem take_row (count : Nat) (some : 0 < count) (digits : IsRow row) :
    IsRow (row.take count) := by
  refine ⟨fun none => ?_, fun c member => digits.2 c (List.take_subset count row member)⟩
  rcases List.take_eq_nil_iff.mp none with zero | empty
  · omega
  · exact digits.1 empty

theorem drop_row (count : Nat) (long : count < row.length) (digits : IsRow row) :
    IsRow (row.drop count) := by
  refine ⟨fun none => ?_, fun c member => digits.2 c (List.drop_subset count row member)⟩
  have := List.drop_eq_nil_iff.mp none
  omega

theorem split_sound (count : Nat) (some : 0 < count) (long : count < row.length)
    (digits : IsRow row) (front : row.head? ≠ .some '0') :
    (Numeral.mk negative (row.take count) (.some (row.drop count)) none).Sound where
  whole := take_row row count some digits
  zero_alone zero := absurd (take_front row count some ▸ zero) front
  fraction part member := by
    cases member
    exact drop_row row count long digits
  exponent _ part := nomatch part

theorem scientific_sound (power : Int) (digits : IsRow row) (front : row.head? ≠ some '0') :
    (Numeral.mk negative (row.take 1) (if (row.drop 1).isEmpty then none else some (row.drop 1))
      (some (decide (power < 0), Text.digits power.natAbs))).Sound where
  whole := take_row row 1 (by decide) digits
  zero_alone zero := absurd (take_front row 1 (by decide) ▸ zero) front
  fraction part member := by
    split at member
    · cases member
    · next some =>
      cases member
      refine ⟨fun none => some (by rw [none]; rfl), fun c inside => ?_⟩
      exact digits.2 c (List.drop_subset 1 row inside)
  exponent part member := by
    cases member
    exact isRow_digits _

end Forms

def leading (d : Decimal) : Int := (Text.digits d.digits).length - 1 + d.exponent

def ofDecimal (negative : Bool) (d : Decimal) : Numeral :=
  let row := Text.digits d.digits
  if leading d < -5 ∨ 16 ≤ leading d then
    ⟨negative, row.take 1, if (row.drop 1).isEmpty then none else some (row.drop 1),
      some (decide (leading d < 0), Text.digits (leading d).natAbs)⟩
  else if leading d < 0 then
    ⟨negative, ['0'], some (List.replicate (-leading d - 1).toNat '0' ++ row), none⟩
  else if row.length ≤ (leading d).toNat + 1 then
    ⟨negative, row ++ List.replicate ((leading d).toNat + 1 - row.length) '0', some ['0'], none⟩
  else ⟨negative, row.take ((leading d).toNat + 1), some (row.drop ((leading d).toNat + 1)), none⟩

section Decimals
variable (negative : Bool) (d : Decimal)

theorem ofDecimal_sound (positive : 0 < d.digits) : (ofDecimal negative d).Sound := by
  have digits := isRow_digits d.digits
  have front := Text.digits_front d.digits positive
  unfold ofDecimal
  dsimp only
  split
  · exact scientific_sound negative _ _ digits front
  split
  · exact small_sound negative _ _ digits
  split
  · exact plain_sound negative _ _ digits front
  · exact split_sound negative _ _ (by omega) (by omega) digits front

theorem ofDecimal_chars :
    (ofDecimal negative d).chars = signText negative ++
      if Style.json.positional (leading d) then
        positionalText Style.json.pointed (Text.digits d.digits) (leading d)
      else scientificText (Text.digits d.digits) (leading d) := by
  have style : Style.json.positional (leading d) = true ↔ ¬ (leading d < -5 ∨ 16 ≤ leading d) := by
    simp only [Style.json, Bool.and_eq_true, decide_eq_true_eq]
    omega
  unfold ofDecimal
  dsimp only
  split
  · next outside =>
    rw [if_neg (fun inside => style.mp inside outside)]
    cases rest : (Text.digits d.digits).drop 1 with
    | nil => simp [chars, scientificText, fractionText, exponentText, rest]
    | cons c tail => simp [chars, scientificText, fractionText, exponentText, rest]
  · next inside =>
    rw [if_pos (style.mpr inside)]
    unfold positionalText
    split
    · simp [chars, fractionText, exponentText]
    · split <;> simp [chars, fractionText, exponentText, Style.json, *]

variable (short : d.digits < 100000000000000000)

theorem numeral_parts (count : Nat) :
    Text.numeral ((Text.digits d.digits).take count ++ (Text.digits d.digits).drop count) =
      d.digits := by
  rw [List.take_append_drop, Text.numeral_digits]

include short

theorem number_outside (outside : leading d < -5 ∨ 16 ≤ leading d)
    (near : (leading d).natAbs < 0x80000000) :
    (ofDecimal negative d).number = realNumber negative d.kept d.power := by
  have length := Text.length_digits d.digits
  have some := List.length_pos_iff.mpr (Text.digits_ne_nil d.digits)
  have value := numeral_parts d 1
  have unplain : ¬ d.Plain := by
    rintro ⟨whole, small⟩
    simp only [Decimal.order, leading] at small outside
    omega
  have read := number_scientific negative _ _ (leading d) near
    (value.trans_lt (Nat.lt_trans short (by decide)))
  rw [ofDecimal, if_pos outside]
  rw [read, value, Decimal.kept, Decimal.power, if_neg unplain, if_neg unplain]
  congr 1
  simp only [leading, List.length_drop]
  omega

theorem number_small (inside : ¬ (leading d < -5 ∨ 16 ≤ leading d)) (small : leading d < 0) :
    (ofDecimal negative d).number = realNumber negative d.kept d.power := by
  have length := Text.length_digits d.digits
  have some := List.length_pos_iff.mpr (Text.digits_ne_nil d.digits)
  have value : Text.numeral (['0'] ++
      (List.replicate (-leading d - 1).toNat '0' ++ Text.digits d.digits)) = d.digits := by
    have zeros := Text.numeral_zeros ((-leading d - 1).toNat + 1) (Text.digits d.digits)
    rw [Text.numeral_digits] at zeros
    exact zeros
  have unplain : ¬ d.Plain := by
    rintro ⟨whole, _⟩
    simp only [leading] at small
    omega
  have read := number_pointed negative _ _ (value.trans_lt (Nat.lt_trans short (by decide)))
  rw [ofDecimal, if_neg inside, if_pos small]
  rw [read, value, Decimal.kept, Decimal.power, if_neg unplain, if_neg unplain]
  congr 1
  simp only [List.length_append, List.length_replicate]
  simp only [leading] at small ⊢
  omega

theorem number_split (inside : ¬ (leading d < -5 ∨ 16 ≤ leading d)) (large : ¬ leading d < 0)
    (long : ¬ (Text.digits d.digits).length ≤ (leading d).toNat + 1) :
    (ofDecimal negative d).number = realNumber negative d.kept d.power := by
  have value := numeral_parts d ((leading d).toNat + 1)
  have unplain : ¬ d.Plain := by
    rintro ⟨whole, _⟩
    simp only [leading] at long
    omega
  have read := number_pointed negative _ _ (value.trans_lt (Nat.lt_trans short (by decide)))
  rw [ofDecimal, if_neg inside, if_neg large, if_neg long]
  rw [read, value, Decimal.kept, Decimal.power, if_neg unplain, if_neg unplain]
  congr 1
  simp only [List.length_drop]
  simp only [leading] at large long ⊢
  omega

omit short in
theorem number_plain (inside : ¬ (leading d < -5 ∨ 16 ≤ leading d)) (large : ¬ leading d < 0)
    (whole : (Text.digits d.digits).length ≤ (leading d).toNat + 1) :
    (ofDecimal negative d).number = realNumber negative d.kept d.power := by
  have length := Text.length_digits d.digits
  have plain : d.Plain := by
    simp only [Decimal.Plain, Decimal.order]
    simp only [leading] at inside large whole
    omega
  have zeros : (leading d).toNat + 1 - (Text.digits d.digits).length = d.exponent.toNat := by
    simp only [leading] at large whole ⊢
    omega
  have value : Text.numeral (Text.digits d.digits ++ List.replicate d.exponent.toNat '0' ++ ['0']) =
      d.digits * 10 ^ (d.exponent.toNat + 1) := by
    have more := Text.numeral_append_zeros (Text.digits d.digits) (d.exponent.toNat + 1)
    rw [Text.numeral_digits, List.replicate_succ', ← List.append_assoc] at more
    exact more
  have fits : d.digits * 10 ^ (d.exponent.toNat + 1) < UInt64.size :=
    Nat.lt_trans (Decimal.plain_short d plain) (by decide)
  have read := number_pointed negative _ _ (value.trans_lt fits)
  rw [ofDecimal, if_neg inside, if_neg large, if_pos whole, zeros]
  rw [read, value, Decimal.kept, Decimal.power, if_pos plain, if_pos plain]
  rfl

/-- The text of a decimal is read as its digits scaled by a power of ten, in whichever style it is
written. -/
theorem ofDecimal_number (near : (leading d).natAbs < 0x80000000) :
    (ofDecimal negative d).number = realNumber negative d.kept d.power := by
  by_cases outside : leading d < -5 ∨ 16 ≤ leading d
  · exact number_outside negative d short outside near
  by_cases small : leading d < 0
  · exact number_small negative d short outside small
  by_cases whole : (Text.digits d.digits).length ≤ (leading d).toNat + 1
  · exact number_plain negative d outside small whole
  · exact number_split negative d short outside small whole

end Decimals
end Numeral

end Json

end HabitLedger
