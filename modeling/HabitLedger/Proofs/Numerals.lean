import HabitLedger.Proofs.Digits
import HabitLedger.Proofs.Tokens

/-!
The numerals of whole numbers: the digits of a number are a sound numeral, and as long as it fits 64
bits no digit is lost on the way back.
-/

namespace HabitLedger.Json

theorem isRow_digits (n : Nat) : IsRow (Text.digits n) :=
  ⟨Text.digits_ne_nil n, fun _ => Text.isDigit_of_mem_digits⟩

theorem keep_row (row : List Char) (value : Nat)
    (fits : row.foldl (fun v c => 10 * v + Text.digitValue c) value < UInt64.size) :
    row.foldl Kept.push ⟨value, 0⟩ =
      ⟨row.foldl (fun v c => 10 * v + Text.digitValue c) value, 0⟩ := by
  induction row generalizing value with
  | nil => rfl
  | cons c row ih =>
    have small := Nat.lt_of_le_of_lt (Text.numeral_grows row _) fits
    simp only [List.foldl_cons, Kept.push, true_and]
    rw [if_pos small]
    exact ih _ fits

namespace Numeral

def ofNatural (n : Nat) : Numeral := ⟨false, Text.digits n, none, none⟩

theorem ofNatural_sound (n : Nat) : (ofNatural n).Sound where
  whole := isRow_digits n
  zero_alone zero := by
    by_cases none : n = 0
    · subst none
      simp [ofNatural, Text.digits]
    · exact absurd zero (Text.digits_front n (Nat.pos_of_ne_zero none))
  fraction _ part := nomatch part
  exponent _ part := nomatch part

theorem ofNatural_chars (n : Nat) : (ofNatural n).chars = (Number.whole n).chars := by
  simp [ofNatural, chars, fractionText, exponentText, Number.chars, integerText,
    Binary64.signText]

theorem ofNatural_number (n : Nat) (fits : n < UInt64.size) :
    (ofNatural n).number = .ok (.whole n) := by
  have value := Text.numeral_digits n
  have kept := keep_row (Text.digits n) 0 (by rw [← Text.numeral, value]; exact fits)
  rw [← Text.numeral, value] at kept
  simp [number, ofNatural, kept, wholeNumber]

end Numeral

end HabitLedger.Json
