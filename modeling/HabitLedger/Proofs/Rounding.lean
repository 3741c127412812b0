import HabitLedger.Binary64.Basic
import Mathlib.Algebra.Order.Ring.Nat
import Mathlib.Tactic.Ring

/-!
Rounding keeps order. A larger quotient never rounds to a smaller magnitude, although the spacing of
the magnitudes changes on the way, and a magnitude that exists is its own rounding.
-/

namespace HabitLedger.Binary64

section Nearest
variable (num den count : Nat) (positive : 0 < den)
include positive

theorem nearestEven_le_of (bound : num ≤ count * den) : nearestEven num den ≤ count := by
  have split := Nat.div_add_mod num den
  have rest := Nat.mod_lt num positive
  have quotient : num / den ≤ count := Nat.div_le_of_le_mul (by rwa [Nat.mul_comm])
  by_cases whole : num / den = count
  · have exact : num % den = 0 := by
      rw [whole, Nat.mul_comm] at split
      omega
    unfold nearestEven
    rw [exact, if_pos (by omega)]
    exact quotient
  · have near := nearestEven_le num den
    omega

theorem le_nearestEven_of (bound : count * den ≤ num) : count ≤ nearestEven num den := by
  have quotient : count ≤ num / den := (Nat.le_div_iff_mul_le positive).mpr bound
  unfold nearestEven
  split
  · exact quotient
  · split <;> omega

theorem nearestEven_exact : nearestEven (count * den) den = count :=
  Nat.le_antisymm (nearestEven_le_of _ den count positive (Nat.le_refl _))
    (le_nearestEven_of _ den count positive (Nat.le_refl _))

end Nearest

theorem quotient_grows (num den num' den' : Nat) (positive : 0 < den) (positive' : 0 < den')
    (order : num * den' ≤ num' * den) : num / den ≤ num' / den' := by
  rw [Nat.le_div_iff_mul_le positive']
  refine Nat.le_of_mul_le_mul_right ?_ positive
  calc num / den * den' * den = num / den * den * den' := by ring
    _ ≤ num * den' := Nat.mul_le_mul_right den' (Nat.div_mul_le_self num den)
    _ ≤ num' * den := order

/-- Between different whole parts a whole number lies between the quotients; within one whole part
the remainders decide. -/
theorem nearestEven_grows (num den num' den' : Nat) (positive : 0 < den) (positive' : 0 < den')
    (order : num * den' ≤ num' * den) : nearestEven num den ≤ nearestEven num' den' := by
  have parts := quotient_grows num den num' den' positive positive' order
  by_cases same : num / den = num' / den'
  · have split := Nat.div_add_mod num den
    have split' := Nat.div_add_mod num' den'
    -- The whole parts cancel, so the remainders are ordered as the quotients are.
    have remainders : num % den * den' ≤ num' % den' * den := by
      have expand : num * den' = den * den' * (num / den) + num % den * den' := by
        conv_lhs => rw [← split]
        ring
      have expand' : num' * den = den * den' * (num / den) + num' % den' * den := by
        conv_lhs => rw [← split', ← same]
        ring
      omega
    have down (low : 2 * (num' % den') < den') : 2 * (num % den) < den := by
      refine Nat.lt_of_mul_lt_mul_right (a := den') ?_
      calc 2 * (num % den) * den' = 2 * (num % den * den') := Nat.mul_assoc _ _ _
        _ ≤ 2 * (num' % den' * den) := Nat.mul_le_mul_left 2 remainders
        _ = 2 * (num' % den') * den := (Nat.mul_assoc _ _ _).symm
        _ < den' * den := Nat.mul_lt_mul_of_pos_right low positive
        _ = den * den' := Nat.mul_comm _ _
    have up (high : den < 2 * (num % den)) : den' < 2 * (num' % den') := by
      refine Nat.lt_of_mul_lt_mul_right (a := den) ?_
      calc den' * den = den * den' := Nat.mul_comm _ _
        _ < 2 * (num % den) * den' := Nat.mul_lt_mul_of_pos_right high positive'
        _ = 2 * (num % den * den') := Nat.mul_assoc _ _ _
        _ ≤ 2 * (num' % den' * den) := Nat.mul_le_mul_left 2 remainders
        _ = 2 * (num' % den') * den := (Nat.mul_assoc _ _ _).symm
    unfold nearestEven
    rw [same]
    by_cases low : 2 * (num' % den') < den'
    · rw [if_pos low, if_pos (down low)]
    · by_cases high : den < 2 * (num % den)
      · rw [if_neg (by omega), if_pos high, if_neg low, if_pos (up high)]
      · rw [if_neg low, if_neg high]
        split <;> split <;> omega
  · have near := le_nearestEven_of num' den' (num' / den') positive' (Nat.div_mul_le_self num' den')
    have far := nearestEven_le num den
    omega

section Units

theorem log2_grows (units more : Nat) (order : units ≤ more) : units.log2 ≤ more.log2 := by
  by_cases zero : units = 0
  · simp [zero]
  · rw [Nat.le_log2 (by omega)]
    exact Nat.le_trans (Nat.log2_self_le zero) order

theorem spacing_pos (units : Nat) : 0 < spacing units := Nat.two_pow_pos _

/-- A magnitude that exists is its own rounding. -/
theorem roundUnits_exact (units den : Nat) (positive : 0 < den) (present : spacing units ∣ units) :
    roundUnits (units * den) den = units := by
  obtain ⟨count, multiple⟩ := present
  unfold roundUnits
  rw [Nat.mul_div_cancel _ positive]
  have grid : units * den = count * (den * spacing units) := by
    conv_lhs => rw [multiple]
    ring
  rw [grid, nearestEven_exact _ _ (Nat.mul_pos positive (spacing_pos units)), Nat.mul_comm]
  exact multiple.symm

theorem roundUnits_whole (units : Nat) (present : spacing units ∣ units) :
    roundUnits units 1 = units := by
  have exact := roundUnits_exact units 1 Nat.one_pos present
  rw [Nat.mul_one] at exact
  exact exact

theorem present_power (power : Nat) : spacing (2 ^ power) ∣ 2 ^ power := by
  rw [spacing, Nat.log2_two_pow]
  exact Nat.pow_dvd_pow 2 (by omega)

theorem roundUnits_limit : roundUnits limit 1 = limit :=
  roundUnits_whole limit (present_power (1024 + places))

theorem roundUnits_le_of (num den bound : Nat) (positive : 0 < den)
    (grid : spacing (num / den) ∣ bound) (below : num ≤ bound * den) :
    roundUnits num den ≤ bound := by
  obtain ⟨count, rfl⟩ := grid
  rw [roundUnits, Nat.mul_comm (spacing _) count]
  refine Nat.mul_le_mul_right _
    (nearestEven_le_of _ _ _ (Nat.mul_pos positive (spacing_pos _)) ?_)
  calc num ≤ spacing (num / den) * count * den := below
    _ = count * (den * spacing (num / den)) := by ring

theorem le_roundUnits_of (num den bound : Nat) (positive : 0 < den)
    (grid : spacing (num / den) ∣ bound) (above : bound * den ≤ num) :
    bound ≤ roundUnits num den := by
  obtain ⟨count, rfl⟩ := grid
  rw [roundUnits, Nat.mul_comm (spacing _) count]
  refine Nat.mul_le_mul_right _
    (le_nearestEven_of _ _ _ (Nat.mul_pos positive (spacing_pos _)) ?_)
  calc count * (den * spacing (num / den)) = spacing (num / den) * count * den := by ring
    _ ≤ num := above

/-- From one spacing to a larger one the quotients pass a power of two, which lies on both grids. -/
theorem roundUnits_passes (num den num' den' : Nat) (positive : 0 < den) (positive' : 0 < den')
    (wider : (num / den).log2 < (num' / den').log2) :
    roundUnits num den ≤ roundUnits num' den' := by
  have reached : num' / den' ≠ 0 := by
    intro zero
    rw [zero] at wider
    simp at wider
  have below : num / den < 2 ^ (num' / den').log2 :=
    Nat.lt_of_lt_of_le Nat.lt_log2_self (Nat.pow_le_pow_right (by decide) wider)
  have above : 2 ^ (num' / den').log2 ≤ num' / den' := Nat.log2_self_le reached
  calc roundUnits num den ≤ 2 ^ (num' / den').log2 := by
        refine roundUnits_le_of _ _ _ positive (Nat.pow_dvd_pow 2 (by omega)) ?_
        exact Nat.le_of_lt ((Nat.div_lt_iff_lt_mul positive).mp below)
    _ ≤ roundUnits num' den' := by
        refine le_roundUnits_of _ _ _ positive' (Nat.pow_dvd_pow 2 (by omega)) ?_
        exact (Nat.le_div_iff_mul_le positive').mp above

/-- Rounding keeps the order of quotients. -/
theorem roundUnits_grows (num den num' den' : Nat) (positive : 0 < den) (positive' : 0 < den')
    (order : num * den' ≤ num' * den) : roundUnits num den ≤ roundUnits num' den' := by
  have parts := quotient_grows num den num' den' positive positive' order
  rcases Nat.lt_or_eq_of_le (log2_grows _ _ parts) with wider | same
  · exact roundUnits_passes num den num' den' positive positive' wider
  · have spacings : spacing (num / den) = spacing (num' / den') := by
      rw [spacing, spacing, same]
    unfold roundUnits
    rw [spacings]
    refine Nat.mul_le_mul_right _ (nearestEven_grows _ _ _ _
      (Nat.mul_pos positive (spacing_pos _)) (Nat.mul_pos positive' (spacing_pos _)) ?_)
    calc num * (den' * spacing (num' / den')) = num * den' * spacing (num' / den') := by ring
      _ ≤ num' * den * spacing (num' / den') := Nat.mul_le_mul_right _ order
      _ = num' * (den * spacing (num' / den')) := by ring

end Units

end HabitLedger.Binary64
