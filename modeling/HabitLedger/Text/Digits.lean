/-!
Decimal numerals: the digits of a number, the number that digits stand for, and padding to a width.
Only the ten ASCII digits count.
-/

namespace HabitLedger.Text

def digitValue (c : Char) : Nat := c.toNat - '0'.toNat

def digitChar (value : Nat) : Char := Char.ofNat ('0'.toNat + value)

def numeral (row : List Char) : Nat := row.foldl (fun value c => 10 * value + digitValue c) 0

def digits (n : Nat) : List Char :=
  if n < 10 then [digitChar n] else digits (n / 10) ++ [digitChar (n % 10)]

def digitCount (n : Nat) : Nat := if n < 10 then 1 else digitCount (n / 10) + 1

def padded (width n : Nat) : List Char :=
  List.replicate (width - digitCount n) '0' ++ digits n

theorem digitValue_digitChar {value : Nat} (small : value < 10) :
    digitValue (digitChar value) = value :=
  (by decide : ∀ v < 10, digitValue (digitChar v) = v) value small

theorem isDigit_digitChar {value : Nat} (small : value < 10) : (digitChar value).isDigit = true :=
  (by decide : ∀ v < 10, (digitChar v).isDigit = true) value small

theorem numeral_append_digit (row : List Char) (c : Char) :
    numeral (row ++ [c]) = 10 * numeral row + digitValue c := by
  simp [numeral]

theorem numeral_digits (n : Nat) : numeral (digits n) = n := by
  fun_induction digits n with
  | case1 n small => simp [numeral, digitValue_digitChar small]
  | case2 n large ih =>
    rw [numeral_append_digit, ih, digitValue_digitChar (Nat.mod_lt _ (by decide))]
    omega

theorem digits_ne_nil (n : Nat) : digits n ≠ [] := by
  rw [digits]
  split <;> simp

theorem isDigit_of_mem_digits {n : Nat} {c : Char} (member : c ∈ digits n) : c.isDigit = true := by
  fun_induction digits n with
  | case1 n small =>
    rw [List.mem_singleton.mp member]
    exact isDigit_digitChar small
  | case2 n large ih =>
    rcases List.mem_append.mp member with front | last
    · exact ih front
    · rw [List.mem_singleton.mp last]
      exact isDigit_digitChar (Nat.mod_lt _ (by decide))

theorem length_digits (n : Nat) : (digits n).length = digitCount n := by
  fun_induction digits n with
  | case1 n small => simp [digitCount, small]
  | case2 n large ih => rw [digitCount]; simp [large, ih]

end HabitLedger.Text
