import HabitLedger.Percentage
import HabitLedger.Proofs.Rounding

/-!
Numbers other than `nan` on one line. The rank of a number is its signed magnitude, with the
infinities at the limit; numbers are in the order of their ranks. Dividing by a number above zero
and multiplying by one act on ranks alone and keep their order, across zero and up to the
infinities, and so a larger part is never a smaller percentage.
-/

namespace HabitLedger.Binary64

def rank : Binary64 → Int
  | .nan => 0
  | .infinite negative => if negative then -(limit : Int) else limit
  | .finite negative magnitude => signed negative magnitude

/-- Numbers are ordered by their ranks; both zeros have one rank. -/
theorem lt_iff_rank (x y : Binary64) :
    x < y ↔ x.isNaN = false ∧ y.isNaN = false ∧ x.rank < y.rank := by
  have positive := limit_pos
  change x.less y = true ↔ _
  cases x with
  | nan => simp [less, isNaN]
  | infinite a =>
    cases y with
    | nan => simp [less, isNaN]
    | infinite b =>
      have apart : -(limit : Int) < limit := by omega
      cases a <;> cases b <;> simp [less, isNaN, rank, apart]
    | finite b m =>
      have small := m.sound.1
      cases a <;> cases b <;> simp [less, isNaN, rank, signed] <;> omega
  | finite a m =>
    have small := m.sound.1
    cases y with
    | nan => simp [less, isNaN]
    | infinite b => cases a <;> cases b <;> simp [less, isNaN, rank, signed] <;> omega
    | finite b n => simp [less, isNaN, rank]

theorem lt_trans (x y z : Binary64) (first : x < y) (second : y < z) : x < z := by
  rw [lt_iff_rank] at *
  exact ⟨first.1, second.2.1, Int.lt_trans first.2.2 second.2.2⟩

section Scaling

/-- What rounding `units * num / den` gives, where the limit and all beyond it stay infinite. -/
def scaled (num den units : Nat) : Nat :=
  if limit ≤ units then limit else min (roundUnits (units * num) den) limit

def mirrored (f : Nat → Nat) (value : Int) : Int :=
  if value < 0 then -(f value.natAbs : Int) else f value.natAbs

theorem scaled_grows (num den units more : Nat) (positive : 0 < den) (order : units ≤ more) :
    scaled num den units ≤ scaled num den more := by
  have rounded : roundUnits (units * num) den ≤ roundUnits (more * num) den :=
    roundUnits_grows _ _ _ _ positive positive
      (Nat.mul_le_mul_right den (Nat.mul_le_mul_right num order))
  unfold scaled
  split
  · rw [if_pos (by omega)]
  · split <;> omega

theorem scaled_zero (num den : Nat) (positive : 0 < den) : scaled num den 0 = 0 := by
  have none := roundUnits_exact 0 den positive (Nat.dvd_zero _)
  have positive := limit_pos
  simp only [Nat.zero_mul] at none
  rw [scaled, if_neg (by omega), Nat.zero_mul, none, Nat.zero_min]

theorem mirrored_grows (f : Nat → Nat)
    (grows : ∀ units more, units ≤ more → f units ≤ f more) (value more : Int)
    (order : value ≤ more) : mirrored f value ≤ mirrored f more := by
  unfold mirrored
  split
  · split
    · have larger := grows more.natAbs value.natAbs (by omega)
      omega
    · omega
  · rw [if_neg (by omega)]
    have larger := grows value.natAbs more.natAbs (by omega)
    omega

theorem mirrored_above (f : Nat → Nat) (units : Nat) : mirrored f units = f units := by
  rw [mirrored, if_neg (by omega), Int.natAbs_natCast]

theorem mirrored_below (f : Nat → Nat) (units : Nat) (zero : f 0 = 0) :
    mirrored f (-(units : Int)) = -(f units : Int) := by
  by_cases nothing : units = 0
  · subst nothing
    simp [mirrored, zero]
  · rw [mirrored, if_pos (by omega), Int.natAbs_neg, Int.natAbs_natCast]

theorem rank_ofQuotient (negative : Bool) (num den : Nat) :
    (ofQuotient negative num den).rank =
      if negative then -((min (roundUnits num den) limit : Nat) : Int)
      else (min (roundUnits num den) limit : Nat) := by
  unfold ofQuotient
  split
  · rw [Nat.min_eq_left (by omega)]
    rfl
  · rw [Nat.min_eq_right (by omega)]
    rfl

theorem number_ofQuotient (negative : Bool) (num den : Nat) :
    (ofQuotient negative num den).isNaN = false := by
  unfold ofQuotient
  split <;> rfl

variable (num den : Nat) (positive : 0 < den) (negative : Bool)
include positive

theorem rank_scaled_infinite :
    (infinite negative).rank = mirrored (scaled num den) (infinite negative).rank := by
  have full : scaled num den limit = limit := if_pos (Nat.le_refl _)
  cases negative with
  | false => exact ((mirrored_above _ limit).trans (congrArg _ full)).symm
  | true =>
    have mirror := mirrored_below (scaled num den) limit (scaled_zero num den positive)
    rw [full] at mirror
    exact mirror.symm

theorem rank_scaled_finite (magnitude : Magnitude) :
    (ofQuotient negative (magnitude.units * num) den).rank =
      mirrored (scaled num den) (finite negative magnitude).rank := by
  have small := magnitude.sound.1
  have unchanged :
      scaled num den magnitude.units = min (roundUnits (magnitude.units * num) den) limit :=
    if_neg (by omega)
  rw [rank_ofQuotient, ← unchanged]
  cases negative with
  | false => exact (mirrored_above _ magnitude.units).symm
  | true => exact (mirrored_below _ magnitude.units (scaled_zero num den positive)).symm

end Scaling

section Operations
variable (x : Binary64) (number : x.isNaN = false) (m : Magnitude) (positive : 0 < m.units)

theorem div_infinite (negative : Bool) :
    infinite negative / finite false m = infinite negative := by
  cases negative <;> rfl

include positive

theorem div_finite (negative : Bool) (n : Magnitude) :
    finite negative n / finite false m = ofQuotient negative (n.units * one) m.units := by
  change (if m.units = 0 then _ else ofQuotient (negative != false) (n.units * one) m.units) = _
  rw [if_neg (by omega), Bool.bne_false]

theorem mul_infinite (negative : Bool) :
    infinite negative * finite false m = infinite negative := by
  change (if m.units = 0 then nan else infinite (negative != false)) = _
  rw [if_neg (by omega), Bool.bne_false]

omit positive in
theorem mul_finite (negative : Bool) (n : Magnitude) :
    finite negative n * finite false m = ofQuotient negative (n.units * m.units) one := by
  change ofQuotient (negative != false) (n.units * m.units) one = _
  rw [Bool.bne_false]

include number

theorem rank_div :
    (x / finite false m).isNaN = false ∧
      (x / finite false m).rank = mirrored (scaled one m.units) x.rank := by
  cases x with
  | nan => cases number
  | infinite a =>
    rw [div_infinite]
    exact ⟨rfl, rank_scaled_infinite one m.units positive a⟩
  | finite a n =>
    rw [div_finite m positive]
    exact ⟨number_ofQuotient .., rank_scaled_finite one m.units positive a n⟩

theorem rank_mul :
    (x * finite false m).isNaN = false ∧
      (x * finite false m).rank = mirrored (scaled m.units one) x.rank := by
  cases x with
  | nan => cases number
  | infinite a =>
    rw [mul_infinite m positive]
    exact ⟨rfl, rank_scaled_infinite m.units one one_pos a⟩
  | finite a n =>
    rw [mul_finite]
    exact ⟨number_ofQuotient .., rank_scaled_finite m.units one one_pos a n⟩

end Operations

section Whole

/-- Multiples of a power of two are exact up to the one at which their spacing first exceeds it. -/
theorem present_on_grid (grid count : Nat) (few : count ≤ Nat.pow 2 53)
    (small : count * Nat.pow 2 grid < limit) : Exists (count * Nat.pow 2 grid) := by
  refine ⟨small, ?_⟩
  rcases Nat.lt_or_eq_of_le few with less | full
  · have bound : count * Nat.pow 2 grid < Nat.pow 2 (grid + 53) := by
      simp only [Nat.add_comm grid, Nat.pow_eq, Nat.pow_add]
      exact Nat.mul_lt_mul_of_pos_right less (Nat.two_pow_pos grid)
    exact Nat.dvd_trans (spacing_dvd_of_lt bound) (Nat.dvd_mul_left _ _)
  · have bound : count * Nat.pow 2 grid < Nat.pow 2 (grid + 1 + 53) := by
      simp only [full, Nat.pow_eq, ← Nat.pow_add]
      exact Nat.pow_lt_pow_right (by decide) (by omega)
    refine Nat.dvd_trans (spacing_dvd_of_lt bound) ?_
    simp only [full, Nat.pow_eq, ← Nat.pow_add]
    exact Nat.pow_dvd_pow 2 (by omega)

theorem whole_present (count : Nat) (small : count ≤ Nat.pow 2 53) : Exists (count * one) := by
  refine present_on_grid places count small ?_
  calc count * one ≤ Nat.pow 2 53 * one := Nat.mul_le_mul_right one small
    _ = Nat.pow 2 (53 + places) := (Nat.pow_add 2 53 places).symm
    _ < limit := Nat.pow_lt_pow_right (by decide) (by omega)

theorem ofNat_exact (count : Nat) (small : count ≤ Nat.pow 2 53) :
    (OfNat.ofNat count : Binary64) = finite false ⟨count * one, whole_present count small⟩ := by
  have present := whole_present count small
  have rounded := roundUnits_whole (count * one) present.2
  have positive : decide ((count : Int) < 0) = false := decide_eq_false (by omega)
  change ofInt count = _
  simp only [ofInt, ofQuotient, positive, Int.natAbs_natCast, rounded, present.1, dite_true]

theorem rank_ofNat (count : Nat) (small : count ≤ Nat.pow 2 53) :
    (OfNat.ofNat count : Binary64).isNaN = false ∧
      (OfNat.ofNat count : Binary64).rank = (count * one : Nat) := by
  rw [ofNat_exact count small]
  exact ⟨rfl, rfl⟩

theorem ofNat_lt (count more : Nat) (small : more ≤ Nat.pow 2 53) (order : count < more) :
    (OfNat.ofNat count : Binary64) < OfNat.ofNat more := by
  have lower := rank_ofNat count (by omega)
  have upper := rank_ofNat more small
  rw [lt_iff_rank, lower.2, upper.2]
  exact ⟨lower.1, upper.1, Int.ofNat_lt.mpr (Nat.mul_lt_mul_of_pos_right order one_pos)⟩

end Whole

end HabitLedger.Binary64

namespace HabitLedger

open Binary64

section Percentage
variable (part whole percent : Binary64)

theorem percentage_some (share : percentage part whole = some percent) :
    ∃ m : Magnitude, 0 < m.units ∧ whole = finite false m ∧
      percent = part / finite false m * 100 := by
  unfold percentage at share
  split at share
  · cases share
  · next usable =>
    obtain ⟨isFinite, positive⟩ := not_or.mp usable
    cases whole with
    | nan => exact absurd rfl isFinite
    | infinite negative => exact absurd rfl isFinite
    | finite negative m =>
      have zero := rank_ofNat 0 (Nat.zero_le _)
      have above : (0 : Binary64) < finite negative m := by
        by_contra below
        exact positive ⟨rfl, zero.1, Bool.eq_false_of_not_eq_true below⟩
      rw [lt_iff_rank, zero.2] at above
      cases negative with
      | true =>
        have below : (0 : Int) < -(m.units : Int) := by simpa [rank, signed] using above.2.2
        omega
      | false =>
        have units : (0 : Int) < m.units := by simpa [rank, signed] using above.2.2
        exact ⟨m, by omega, rfl, (Option.some.inj share).symm⟩

def percentRank (units : Nat) (value : Int) : Int :=
  mirrored (scaled (100 * one) one) (mirrored (scaled one units) value)

/-- The rank of a percentage is told by the rank of the part, through both roundings. -/
theorem rank_percent (m : Magnitude) (positive : 0 < m.units) (number : part.isNaN = false) :
    (part / finite false m * 100).isNaN = false ∧
      (part / finite false m * 100).rank = percentRank m.units part.rank := by
  have share := rank_div part number m positive
  have hundred : 100 ≤ Nat.pow 2 53 := by decide
  rw [ofNat_exact 100 hundred, percentRank, ← share.2]
  exact rank_mul _ share.1 _ (Nat.mul_pos (by decide) one_pos)

theorem percentRank_grows (units : Nat) (positive : 0 < units) (value larger : Int)
    (order : value ≤ larger) : percentRank units value ≤ percentRank units larger := by
  apply mirrored_grows
  · exact fun a b => scaled_grows _ _ a b one_pos
  · exact mirrored_grows _ (fun a b => scaled_grows _ _ a b positive) value larger order

theorem scaled_exact (num den units : Nat) (positive : 0 < den) (small : units < limit)
    (result : Nat) (product : units * num = result * den) (present : Exists result) :
    scaled num den units = result := by
  rw [scaled, if_neg (by omega), product, roundUnits_exact _ _ positive present.2]
  exact Nat.min_eq_left (Nat.le_of_lt present.1)

theorem percentRank_whole (m : Magnitude) (positive : 0 < m.units) :
    percentRank m.units m.units = (100 * one : Nat) := by
  have single := whole_present 1 (by decide)
  rw [Nat.one_mul] at single
  rw [percentRank, mirrored_above,
    scaled_exact one m.units m.units positive m.sound.1 one (Nat.mul_comm _ _) single,
    mirrored_above,
    scaled_exact (100 * one) one one one_pos single.1 (100 * one) (Nat.mul_comm _ _)
      (whole_present 100 (by decide))]

/-- Less than a hundred percent is less than the whole. -/
theorem part_lt_whole (share : percentage part whole = some percent)
    (below : percent < 100) : part < whole := by
  obtain ⟨m, positive, rfl, rfl⟩ := percentage_some part whole percent share
  by_cases number : part.isNaN = false
  · obtain ⟨_, place⟩ := rank_percent part m positive number
    have hundred := rank_ofNat 100 (by decide)
    rw [lt_iff_rank, place, hundred.2] at below
    rw [lt_iff_rank]
    refine ⟨number, rfl, ?_⟩
    by_contra large
    have grows := percentRank_grows m.units positive m.units part.rank (Int.not_lt.mp large)
    rw [percentRank_whole m positive] at grows
    omega
  · cases part with
    | nan => cases below
    | infinite negative => exact absurd rfl number
    | finite negative magnitude => exact absurd rfl number

end Percentage

end HabitLedger
