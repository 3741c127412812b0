import HabitLedger.Text.Digits
import Mathlib.Algebra.Order.Ring.Nat

/-!
Rows of digits: how long they are, what they start with, and what zeros before or after them do.
-/

namespace HabitLedger.Text

theorem digit_bounds (c : Char) (digit : c.isDigit = true) : 48 ≤ c.toNat ∧ c.toNat ≤ 57 := by
  simpa [Char.isDigit, UInt32.le_iff_toNat_le] using digit

/-- Lowering moves the capital letters by 32 places and nothing else. -/
theorem lower_cases (c : Char) :
    c.toLower = c ∨ 65 ≤ c.toNat ∧ c.toNat ≤ 90 ∧ c.toLower.toNat = c.toNat + 32 := by
  by_cases capital : c.val ≥ 'A'.val ∧ c.val ≤ 'Z'.val
  · have above : 65 ≤ c.toNat := UInt32.le_iff_toNat_le.mp capital.1
    have below : c.toNat ≤ 90 := UInt32.le_iff_toNat_le.mp capital.2
    have moved := (by decide : ∀ n < 91, 65 ≤ n → (Char.ofNat n).toLower.toNat = n + 32)
      c.toNat (Nat.lt_succ_of_le below) above
    rw [Char.ofNat_toNat] at moved
    exact .inr ⟨above, below, moved⟩
  · exact .inl (dif_neg capital)

theorem digit_lower (c : Char) (digit : c.isDigit = true) : c.toLower = c := by
  have bounds := digit_bounds c digit
  rcases lower_cases c with same | ⟨above, _, _⟩
  · exact same
  · omega

theorem digits_front (n : Nat) (positive : 0 < n) : (digits n).head? ≠ some '0' := by
  fun_induction digits n with
  | case1 n small =>
    exact (by decide : ∀ n < 10, 0 < n → [digitChar n].head? ≠ some '0') n small positive
  | case2 n large ih =>
    obtain ⟨c, tail, front⟩ := List.exists_cons_of_ne_nil (digits_ne_nil (n / 10))
    rw [front] at ih ⊢
    exact ih (by omega)

theorem numeral_grows (row : List Char) (value : Nat) :
    value ≤ row.foldl (fun v c => 10 * v + digitValue c) value := by
  induction row generalizing value with
  | nil => exact Nat.le_refl value
  | cons c row ih =>
    have step : value ≤ 10 * value + digitValue c := by omega
    exact Nat.le_trans step (ih _)

theorem numeral_zeros (count : Nat) (row : List Char) :
    numeral (List.replicate count '0' ++ row) = numeral row := by
  induction count with
  | zero => rfl
  | succ count ih => exact ih

theorem numeral_append_zeros (row : List Char) (count : Nat) :
    numeral (row ++ List.replicate count '0') = numeral row * 10 ^ count := by
  induction count with
  | zero => simp
  | succ count ih =>
    rw [List.replicate_succ', ← List.append_assoc, numeral_append_digit, ih, Nat.pow_succ]
    change 10 * (numeral row * 10 ^ count) + 0 = _
    rw [Nat.add_zero, Nat.mul_comm 10, Nat.mul_assoc]

theorem digitValue_le (c : Char) (digit : c.isDigit = true) : digitValue c ≤ 9 := by
  have bounds := digit_bounds c digit
  change c.toNat - 48 ≤ 9
  omega

theorem numeral_below (row : List Char) (value : Nat) (digits : ∀ c ∈ row, c.isDigit = true) :
    row.foldl (fun v c => 10 * v + digitValue c) value < (value + 1) * 10 ^ row.length := by
  induction row generalizing value with
  | nil => simp
  | cons c row ih =>
    obtain ⟨digit, rest⟩ := List.forall_mem_cons.mp digits
    have small := digitValue_le c digit
    calc row.foldl (fun v c => 10 * v + digitValue c) (10 * value + digitValue c)
        < (10 * value + digitValue c + 1) * 10 ^ row.length := ih _ rest
      _ ≤ (value + 1) * 10 * 10 ^ row.length := Nat.mul_le_mul_right _ (by omega)
      _ = (value + 1) * 10 ^ (c :: row).length := by
        rw [List.length_cons, Nat.pow_succ, Nat.mul_assoc, Nat.mul_comm 10]

theorem numeral_lt_pow (row : List Char) (digits : ∀ c ∈ row, c.isDigit = true) :
    numeral row < 10 ^ row.length := by
  have below := numeral_below row 0 digits
  rwa [Nat.zero_add, Nat.one_mul] at below

theorem lt_pow_digitCount (n : Nat) : n < 10 ^ digitCount n := by
  fun_induction digitCount n with
  | case1 n small => exact small
  | case2 n large ih =>
    rw [Nat.pow_succ]
    omega

theorem pow_digitCount_le (n : Nat) (positive : 0 < n) : 10 ^ (digitCount n - 1) ≤ n := by
  fun_induction digitCount n with
  | case1 n small => exact positive
  | case2 n large ih =>
    have tenth := ih (by omega)
    have some : 0 < digitCount (n / 10) := by
      rw [digitCount]
      split <;> omega
    calc 10 ^ (digitCount (n / 10) + 1 - 1) = 10 ^ (digitCount (n / 10) - 1) * 10 := by
          rw [← Nat.pow_succ]
          congr 1
          omega
      _ ≤ n / 10 * 10 := Nat.mul_le_mul_right 10 tenth
      _ ≤ n := Nat.div_mul_le_self n 10

theorem digitCount_le (width n : Nat) (some : 0 < width) (small : n < 10 ^ width) :
    digitCount n ≤ width := by
  by_cases zero : n = 0
  · rw [zero, digitCount]
    exact some
  · have reached := pow_digitCount_le n (Nat.pos_of_ne_zero zero)
    have := (Nat.pow_lt_pow_iff_right (by decide)).mp (Nat.lt_of_le_of_lt reached small)
    omega

theorem le_digitCount (width n : Nat) (large : 10 ^ width ≤ n) : width < digitCount n :=
  (Nat.pow_lt_pow_iff_right (by decide)).mp (Nat.lt_of_le_of_lt large (lt_pow_digitCount n))

theorem isDigit_padded (width n : Nat) (c : Char) (member : c ∈ padded width n) :
    c.isDigit = true := by
  rcases List.mem_append.mp member with zero | digit
  · rw [List.eq_of_mem_replicate zero]
    rfl
  · exact isDigit_of_mem_digits digit

theorem numeral_padded (width n : Nat) : numeral (padded width n) = n := by
  rw [padded, numeral_zeros, numeral_digits]

theorem length_padded (width n : Nat) (fits : digitCount n ≤ width) :
    (padded width n).length = width := by
  rw [padded, List.length_append, List.length_replicate, length_digits]
  omega

theorem padded_front (width n : Nat) :
    ∃ c row, padded width n = c :: row ∧ c.isDigit = true := by
  cases front : padded width n with
  | nil => exact absurd (List.append_eq_nil_iff.mp front).2 (digits_ne_nil n)
  | cons c row =>
    exact ⟨c, row, rfl, isDigit_padded width n c (by rw [front]; exact List.mem_cons_self)⟩

end HabitLedger.Text
