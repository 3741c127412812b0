/-!
Hexadecimal numerals: digits are written in lower case and read in either case.
-/

namespace HabitLedger.Text

def hexChar (value : Nat) : Char :=
  if value < 10 then Char.ofNat ('0'.toNat + value) else Char.ofNat ('a'.toNat + (value - 10))

def hexValue? (c : Char) : Option Nat :=
  if '0' ≤ c ∧ c ≤ '9' then some (c.toNat - '0'.toNat)
  else if 'a' ≤ c ∧ c ≤ 'f' then some (c.toNat - 'a'.toNat + 10)
  else if 'A' ≤ c ∧ c ≤ 'F' then some (c.toNat - 'A'.toNat + 10)
  else none

def hexNumeral? (row : List Char) : Option Nat :=
  row.foldl (fun value c => value.bind fun v => (hexValue? c).map fun d => 16 * v + d) (some 0)

def hexDigits (n : Nat) : List Char :=
  if n < 16 then [hexChar n] else hexDigits (n / 16) ++ [hexChar (n % 16)]

def hexFixed : Nat → Nat → List Char
  | 0, _ => []
  | width + 1, n => hexFixed width (n / 16) ++ [hexChar (n % 16)]

theorem hexValue?_hexChar {value : Nat} (small : value < 16) :
    hexValue? (hexChar value) = some value :=
  (by decide : ∀ v < 16, hexValue? (hexChar v) = some v) value small

theorem hexNumeral?_append_digit (row : List Char) (c : Char) :
    hexNumeral? (row ++ [c]) =
      (hexNumeral? row).bind fun v => (hexValue? c).map fun d => 16 * v + d := by
  simp [hexNumeral?]

theorem hexNumeral?_hexFixed {width n : Nat} (small : n < Nat.pow 16 width) :
    hexNumeral? (hexFixed width n) = some n := by
  induction width generalizing n with
  | zero => simp_all [hexFixed, hexNumeral?]
  | succ width ih =>
    have smaller : n / 16 < Nat.pow 16 width := by
      refine Nat.div_lt_of_lt_mul ?_
      rw [Nat.mul_comm]
      exact small
    rw [hexFixed, hexNumeral?_append_digit, hexValue?_hexChar (Nat.mod_lt _ (by decide)),
      ih smaller]
    simp only [Option.bind_some, Option.map_some, Option.some.injEq]
    omega

theorem length_hexFixed (width n : Nat) : (hexFixed width n).length = width := by
  induction width generalizing n with
  | zero => rfl
  | succ width ih => simp [hexFixed, ih]

end HabitLedger.Text
