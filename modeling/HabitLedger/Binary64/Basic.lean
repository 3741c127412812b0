/-!
Double-precision numbers as exact values. A finite number is a sign and a magnitude counted in units
of `2 ^ -1074`; the magnitudes that exist are the multiples of their own spacing below `2 ^ 1024`.
Every operation takes the exact result of its operands and rounds it once, to the nearest magnitude
and on a tie to the even one, so an operation whose exact result exists returns it.
-/

namespace HabitLedger

namespace Binary64

/-- Distance from a magnitude to the next one above: 53 binary digits are kept. -/
def spacing (units : Nat) : Nat := Nat.pow 2 (units.log2 - 52)

@[irreducible] def places : Nat := 1074

def one : Nat := Nat.pow 2 places

def limit : Nat := Nat.pow 2 (1024 + places)

theorem one_pos : 0 < one := Nat.two_pow_pos places

theorem limit_pos : 0 < limit := Nat.two_pow_pos (1024 + places)

def Exists (units : Nat) : Prop := units < limit ∧ spacing units ∣ units

instance (units : Nat) : Decidable (Exists units) :=
  inferInstanceAs (Decidable (_ ∧ _))

end Binary64

/-- A finite magnitude, in units of `2 ^ -1074`. -/
structure Magnitude where
  units : Nat
  sound : Binary64.Exists units
  deriving DecidableEq

inductive Binary64 where
  | nan
  | infinite (negative : Bool)
  | finite (negative : Bool) (magnitude : Magnitude)
  deriving DecidableEq

namespace Binary64

/-- The whole number nearest to `num / den`; a half goes to the even neighbour. -/
def nearestEven (num den : Nat) : Nat :=
  if 2 * (num % den) < den then num / den
  else if den < 2 * (num % den) then num / den + 1
  else num / den + num / den % 2

theorem nearestEven_le (num den : Nat) : nearestEven num den ≤ num / den + 1 := by
  unfold nearestEven
  split
  · omega
  · split <;> omega

def roundUnits (num den : Nat) : Nat :=
  nearestEven num (den * spacing (num / den)) * spacing (num / den)

theorem spacing_dvd_of_lt {units power : Nat} (small : units < Nat.pow 2 (power + 53)) :
    spacing units ∣ Nat.pow 2 power := by
  refine Nat.pow_dvd_pow 2 ?_
  by_cases zero : units = 0
  · simp [zero]
  · have := (Nat.log2_lt zero).mpr small
    omega

/-- A magnitude is a number of 53 binary digits times its spacing. -/
theorem quotient_lt (units : Nat) : units / spacing units < 9007199254740992 := by
  show units / 2 ^ (units.log2 - 52) < 2 ^ 53
  rw [Nat.div_lt_iff_lt_mul (Nat.two_pow_pos _), ← Nat.pow_add]
  refine Nat.lt_of_lt_of_le Nat.lt_log2_self ?_
  exact Nat.pow_le_pow_right (by decide) (by omega)

/-- What rounding returns is a multiple of its own spacing. -/
theorem spacing_dvd_roundUnits (num den : Nat) :
    spacing (roundUnits num den) ∣ roundUnits num den := by
  have bound : nearestEven num (den * spacing (num / den)) ≤ 2 ^ 53 := by
    refine Nat.le_trans (nearestEven_le ..) ?_
    rw [← Nat.div_div_eq_div_mul]
    exact quotient_lt _
  unfold roundUnits
  generalize nearestEven num (den * spacing (num / den)) = count at bound
  rw [spacing.eq_def (num / den), Nat.pow_eq]
  generalize (num / den).log2 - 52 = power
  by_cases full : count = 2 ^ 53
  · subst full
    rw [← Nat.pow_add]
    have step : spacing (2 ^ (53 + power)) ∣ 2 ^ (power + 1) :=
      spacing_dvd_of_lt (Nat.pow_lt_pow_right (by decide) (by omega))
    refine Nat.dvd_trans step ?_
    · exact Nat.pow_dvd_pow 2 (by omega)
  · have small : count * 2 ^ power < 2 ^ (power + 53) := by
      rw [Nat.pow_add, Nat.mul_comm (2 ^ power)]
      exact Nat.mul_lt_mul_of_pos_right (by omega) (Nat.two_pow_pos _)
    exact Nat.dvd_trans (spacing_dvd_of_lt small) (Nat.dvd_mul_left ..)

/-- The double nearest to `num / den` units, infinite from `2 ^ 1024` on. -/
def ofQuotient (negative : Bool) (num den : Nat) : Binary64 :=
  if small : roundUnits num den < limit then
    .finite negative ⟨roundUnits num den, small, spacing_dvd_roundUnits num den⟩
  else .infinite negative

def zero (negative : Bool) : Binary64 := .finite negative ⟨0, limit_pos, Nat.dvd_zero _⟩

def ofInt (value : Int) : Binary64 := ofQuotient (value < 0) (value.natAbs * one) 1

instance (n : Nat) : OfNat Binary64 n := ⟨ofInt n⟩

instance : Inhabited Binary64 := ⟨0⟩

def signed (negative : Bool) (magnitude : Magnitude) : Int :=
  if negative then -(magnitude.units : Int) else magnitude.units

def neg : Binary64 → Binary64
  | .nan => .nan
  | .infinite negative => .infinite (!negative)
  | .finite negative magnitude => .finite (!negative) magnitude

instance : Neg Binary64 := ⟨neg⟩

/-- The exact sum, rounded once; a sum of nothing is negative only if both operands are. -/
def add : Binary64 → Binary64 → Binary64
  | .nan, _ => .nan
  | _, .nan => .nan
  | .infinite a, .infinite b => if a = b then .infinite a else .nan
  | .infinite a, .finite .. => .infinite a
  | .finite .., .infinite b => .infinite b
  | .finite a x, .finite b y =>
    let total := signed a x + signed b y
    if total = 0 then zero (a && b) else ofQuotient (total < 0) total.natAbs 1

instance : Add Binary64 := ⟨add⟩

instance : Sub Binary64 := ⟨fun x y => x + -y⟩

def mul : Binary64 → Binary64 → Binary64
  | .nan, _ => .nan
  | _, .nan => .nan
  | .infinite a, .infinite b => .infinite (a != b)
  | .infinite a, .finite b y => if y.units = 0 then .nan else .infinite (a != b)
  | .finite a x, .infinite b => if x.units = 0 then .nan else .infinite (a != b)
  | .finite a x, .finite b y => ofQuotient (a != b) (x.units * y.units) one

instance : Mul Binary64 := ⟨mul⟩

def div : Binary64 → Binary64 → Binary64
  | .nan, _ => .nan
  | _, .nan => .nan
  | .infinite _, .infinite _ => .nan
  | .infinite a, .finite b _ => .infinite (a != b)
  | .finite a _, .infinite b => zero (a != b)
  | .finite a x, .finite b y =>
    if y.units = 0 then if x.units = 0 then .nan else .infinite (a != b)
    else ofQuotient (a != b) (x.units * one) y.units

instance : Div Binary64 := ⟨div⟩

/-- Order by value: both zeros are one value, and `nan` is below and above nothing. -/
def less : Binary64 → Binary64 → Bool
  | .nan, _ => false
  | _, .nan => false
  | .infinite a, .infinite b => a && !b
  | .infinite a, .finite .. => a
  | .finite .., .infinite b => !b
  | .finite a x, .finite b y => signed a x < signed b y

def isNaN : Binary64 → Bool
  | .nan => true
  | _ => false

def isFinite : Binary64 → Bool
  | .finite .. => true
  | _ => false

instance : LT Binary64 := ⟨fun x y => x.less y = true⟩

instance : LE Binary64 := ⟨fun x y => x.isNaN = false ∧ y.isNaN = false ∧ y.less x = false⟩

instance (x y : Binary64) : Decidable (x < y) := inferInstanceAs (Decidable (_ = true))

instance (x y : Binary64) : Decidable (x ≤ y) := inferInstanceAs (Decidable (_ ∧ _))

/-- The sum from left to right. It starts from `-0`, the one number that any addend replaces. -/
def sum (terms : List Binary64) : Binary64 := terms.foldl (· + ·) (-0)

end Binary64

end HabitLedger
