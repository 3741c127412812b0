import HabitLedger.Binary64.Basic
import HabitLedger.Text.Digits

/-!
Doubles and decimals. Reading takes the double nearest to a decimal; writing takes a decimal with
the fewest digits among those that read back as the same magnitude, and of two such decimals the
nearer one. Only neighbours of the magnitude on each decimal grid are tried: if any decimal of that
many digits reads back, one of the two neighbours does.
-/

namespace HabitLedger.Binary64

structure Decimal where
  digits : Nat
  exponent : Int
  deriving DecidableEq

namespace Decimal

/-- Which of two equally near decimals is written: the one with an even last digit, or the one
farther from zero. -/
inductive Tie where
  | even
  | up
  deriving DecidableEq

def Tie.keeps : Tie → Nat → Bool
  | .even, digits => digits % 2 = 0
  | .up, _ => false

def quotient (d : Decimal) : Nat × Nat :=
  (d.digits * Nat.pow 10 d.exponent.toNat * one, Nat.pow 10 (-d.exponent).toNat)

def ReadsAs (d : Decimal) (units : Nat) : Prop :=
  roundUnits d.quotient.1 d.quotient.2 = units

instance (d : Decimal) (units : Nat) : Decidable (d.ReadsAs units) :=
  inferInstanceAs (Decidable (_ = _))

def order (d : Decimal) : Int := Text.digitCount d.digits + d.exponent

/-- The double nearest to a decimal. A decimal from `10 ^ 310` on is infinite and one below
`10 ^ -330` is zero, whatever its digits are. -/
def toBinary64 (negative : Bool) (d : Decimal) : Binary64 :=
  -- Decided here, so that no power of ten is ever larger than the written digits call for.
  if d.digits = 0 ∨ d.order < -330 then zero negative
  else if 310 < d.order then .infinite negative
  else ofQuotient negative d.quotient.1 d.quotient.2

/-- At this many decimal places the smallest magnitude still has 19 digits. -/
@[irreducible] def scale : Nat := 342

def scaled (units : Nat) : Nat := units * Nat.pow 10 scale / one

variable (tie : Tie) (units grid count : Nat)

/-- The decimal below or at the magnitude among the multiples of `10 ^ (grid - scale)`. -/
def below : Decimal := ⟨scaled units / Nat.pow 10 grid, grid - scale⟩

def above : Decimal :=
  if (below units grid).digits + 1 = Nat.pow 10 count then
    ⟨Nat.pow 10 (count - 1), grid - scale + 1⟩
  else ⟨(below units grid).digits + 1, grid - scale⟩

def middle : Nat := (2 * (below units grid).digits + 1) * Nat.pow 10 grid * one

def leansDown : Bool :=
  2 * units * Nat.pow 10 scale < middle units grid ||
    2 * units * Nat.pow 10 scale = middle units grid && tie.keeps (below units grid).digits

def nearer : Decimal :=
  if leansDown tie units grid then below units grid else above units grid count

def onGrid : Option Decimal :=
  if (below units grid).ReadsAs units then
    if (above units grid count).ReadsAs units then some (nearer tie units grid count)
    else some (below units grid)
  else if (above units grid count).ReadsAs units then some (above units grid count)
  else none

/-- The shortest decimal of a magnitude whose scaled form has `width` digits; 17 digits suffice. -/
def shortestOfWidth (width : Nat) : Decimal :=
  ((List.range' 1 17).findSome? fun count => onGrid tie units (width - count) count).getD
    (below units (width - 17))

def shortest : Decimal := shortestOfWidth tie units (Text.digitCount (scaled units))

variable {tie units grid count}

theorem nearer_eq :
    nearer tie units grid count = below units grid ∨
      nearer tie units grid count = above units grid count := by
  unfold nearer
  split
  · exact Or.inl rfl
  · exact Or.inr rfl

theorem readsAs_of_onGrid {d : Decimal} (found : onGrid tie units grid count = some d) :
    d.ReadsAs units := by
  unfold onGrid at found
  split at found
  · next lower =>
    split at found
    · next upper =>
      rw [← Option.some.inj found]
      rcases @nearer_eq tie units grid count with equal | equal <;> rw [equal] <;> assumption
    · exact Option.some.inj found ▸ lower
  · split at found
    · next upper => exact Option.some.inj found ▸ upper
    · cases found

end Decimal

end HabitLedger.Binary64
