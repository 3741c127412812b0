import HabitLedger.Proofs.RoundingError
import HabitLedger.Proofs.Sums
import Mathlib.Data.List.Perm.Basic

/-!
What the order of addends can change in a sum of amounts: its roundings and nothing else. Whatever
the order, a finite sum lies within one rounding per addend of the exact total, and where the
amounts are multiples of one power of two that add up to no more than `2 ^ 53` of them, nothing is
rounded and every order gives the same number, down to the sign of zero and to the infinity.
-/

namespace HabitLedger.Binary64

def exactTotal (terms : List Binary64) : Nat :=
  terms.foldr (fun x total => x.rank.toNat + total) 0

/-- Whether a sum of so many addends is within their roundings of an exact total: one part in
`2 ^ 53` for each, upward, and downward as long as the sum is finite. The rank of an infinite sum is
the limit, so a sum is infinite only where the total, rounded up so often, reaches the limit. -/
structure Rounded (exact count : Nat) (sum : Binary64) : Prop where
  least : sum.isFinite = true →
    exact * 9007199254740991 ^ count ≤ sum.rank.toNat * 9007199254740992 ^ count
  most : sum.rank.toNat * 9007199254740992 ^ count ≤ exact * 9007199254740993 ^ count

/-- One settling, with whatever is still to be added to it. -/
theorem settle_error (exact others : Nat) :
    (settle exact < limit →
      (exact + others) * 9007199254740991 ≤ (settle exact + others) * 9007199254740992) ∧
      (settle exact + others) * 9007199254740992 ≤ (exact + others) * 9007199254740993 := by
  obtain ⟨low, high⟩ := round_whole_error exact
  unfold settle
  generalize roundUnits exact 1 = rounded at low high ⊢
  generalize limit = top
  omega

theorem ratios_compose (a b c x y u v : Nat) (first : a * x ≤ b * y) (second : b * u ≤ c * v) :
    a * (x * u) ≤ c * (y * v) := by
  calc a * (x * u) = a * x * u := (Nat.mul_assoc a x u).symm
    _ ≤ b * y * u := Nat.mul_le_mul_right u first
    _ = b * u * y := Nat.mul_right_comm b y u
    _ ≤ c * v * y := Nat.mul_le_mul_right y second
    _ = c * (y * v) := by rw [Nat.mul_assoc, Nat.mul_comm v y]

/-- The induction is on the addends, from any start; only a sum that was never infinite ends
finite. -/
theorem running_error (terms : List Binary64) (start : Nat) :
    (running start (terms.map fun x => x.rank.toNat) < limit →
      (start + exactTotal terms) * 9007199254740991 ^ terms.length ≤
        running start (terms.map fun x => x.rank.toNat) * 9007199254740992 ^ terms.length) ∧
      running start (terms.map fun x => x.rank.toNat) * 9007199254740992 ^ terms.length ≤
        (start + exactTotal terms) * 9007199254740993 ^ terms.length := by
  induction terms generalizing start with
  | nil => simp [running, exactTotal]
  | cons x rest ih =>
    obtain ⟨lower, upper⟩ := ih (settle (start + x.rank.toNat))
    obtain ⟨low, high⟩ := settle_error (start + x.rank.toNat) (exactTotal rest)
    have begun := running_finite (settle (start + x.rank.toNat)) (rest.map fun y => y.rank.toNat)
      (settle_le _)
    have total : start + exactTotal (x :: rest) = start + x.rank.toNat + exactTotal rest :=
      (Nat.add_assoc _ _ _).symm
    have next : running start ((x :: rest).map fun y => y.rank.toNat) =
      running (settle (start + x.rank.toNat)) (rest.map fun y => y.rank.toNat) := rfl
    rw [total, next, List.length_cons]
    constructor
    · intro finite
      rw [Nat.pow_succ', Nat.pow_succ']
      exact ratios_compose _ _ _ _ _ _ _ (low (begun finite)) (lower finite)
    · rw [Nat.pow_succ, Nat.pow_succ]
      exact ratios_compose _ _ _ _ _ _ _ upper high

/-- A sum of amounts lies within their roundings of the exact total. -/
theorem sum_rounded (terms : List Binary64) (amounts : ∀ x ∈ terms, IsAmount x) :
    Rounded (exactTotal terms) terms.length (sum terms) := by
  obtain ⟨least, most⟩ := running_error terms 0
  rw [Nat.zero_add] at least most
  obtain ⟨nonneg, rank⟩ := rank_sum terms amounts
  have units : (sum terms).rank.toNat = running 0 (terms.map fun x => x.rank.toNat) := by
    rw [rank, Int.toNat_natCast]
  rw [← units] at least most
  exact ⟨fun finite => least (rank_lt_limit _ nonneg finite), most⟩

/-- Amounts whose exact total stays below the limit even if it is rounded up for each of them. -/
def Bounded (terms : List Binary64) : Prop :=
  exactTotal terms * 9007199254740993 ^ terms.length < limit * 9007199254740992 ^ terms.length

theorem sum_finite (terms : List Binary64) (amounts : ∀ x ∈ terms, IsAmount x)
    (bounded : Bounded terms) : (sum terms).isFinite = true := by
  have upper := (sum_rounded terms amounts).most
  cases large : (sum terms).isFinite with
  | true => rfl
  | false =>
    rw [infinite_of_nonneg _ (rank_sum terms amounts).1 large] at upper
    exact absurd (Nat.lt_of_le_of_lt upper bounded) (Nat.lt_irrefl _)

section Exact

end Exact

section ZeroSign

/-- Equal ranks leave only the sign of zero open. -/
theorem eq_of_rank (x y : Binary64) (nonneg : 0 ≤ x) (nonnegY : 0 ≤ y) (same : x.rank = y.rank)
    (zeros : x = zero true ↔ y = zero true) : x = y := by
  have apart (m : Magnitude) : (finite false m).rank ≠ (infinite false).rank := by
    have small := m.sound.1
    change (m.units : Int) ≠ limit
    omega
  rcases nonneg_shape x nonneg with zeroX | rfl | ⟨m, rfl⟩
  · rw [zeroX, zeros.mp zeroX]
  · rcases nonneg_shape y nonnegY with zeroY | rfl | ⟨n, rfl⟩
    · rw [zeros.mpr zeroY, zeroY]
    · rfl
    · exact absurd same.symm (apart n)
  · rcases nonneg_shape y nonnegY with zeroY | rfl | ⟨n, rfl⟩
    · rw [zeros.mpr zeroY, zeroY]
    · exact absurd same (apart m)
    · obtain ⟨units, sound⟩ := m
      obtain ⟨others, soundOther⟩ := n
      have equal : units = others := Int.ofNat.inj same
      subst equal
      rfl

/-- A sum is `-0` only if everything in it is. -/
theorem add_eq_zero (total x : Binary64) (nonneg : 0 ≤ total) (amount : IsAmount x) :
    total + x = zero true ↔ total = zero true ∧ x = zero true := by
  have above := ((nonneg_iff total).mp nonneg).2
  have aboveX := ((nonneg_iff x).mp amount.nonneg).2
  cases x with
  | nan => cases amount.isFinite
  | infinite _ => cases amount.isFinite
  | finite b n =>
    cases total with
    | nan =>
      have number := ((nonneg_iff nan).mp nonneg).1
      cases number
    | infinite a => exact iff_of_false Binary64.noConfusion fun both => Binary64.noConfusion both.1
    | finite a m =>
      change 0 ≤ signed a m at above
      change 0 ≤ signed b n at aboveX
      rw [add_finite]
      split
      -- Neither is below zero, so both are zero, and their signs decide.
      · next nothing =>
        have first : m.units = 0 := by cases a <;> simp only [signed] at * <;> omega
        have second : n.units = 0 := by cases b <;> simp only [signed] at * <;> omega
        rw [eq_zero_of_units a m first, eq_zero_of_units b n second]
        cases a <;> cases b <;> simp [zero]
      · next something =>
        have upward : decide (signed a m + signed b n < 0) = false := decide_eq_false (by omega)
        refine iff_of_false ?_ ?_
        · rw [upward]
          unfold ofQuotient
          split <;> simp [zero]
        · rintro ⟨first, second⟩
          cases first
          cases second
          exact something rfl

theorem foldl_eq_zero (terms : List Binary64) (total : Binary64) (nonneg : 0 ≤ total)
    (amounts : ∀ x ∈ terms, IsAmount x) :
    terms.foldl (· + ·) total = zero true ↔ total = zero true ∧ ∀ x ∈ terms, x = zero true := by
  induction terms generalizing total with
  | nil => simp
  | cons x rest ih =>
    have amount := amounts x List.mem_cons_self
    have next := (rank_foldl [x] total nonneg (List.forall_mem_singleton.mpr amount)).1
    rw [List.foldl_cons, ih (total + x) next fun y member =>
      amounts y (List.mem_cons_of_mem x member), add_eq_zero total x nonneg amount,
      List.forall_mem_cons, and_assoc]

end ZeroSign

/-- Two orders of the same amounts that come to one magnitude have one sum, down to the sign of
zero. -/
theorem sum_of_ranks (terms others : List Binary64) (order : terms.Perm others)
    (amounts : ∀ x ∈ terms, IsAmount x) (same : (sum terms).rank = (sum others).rank) :
    sum terms = sum others := by
  have amountsOther : ∀ x ∈ others, IsAmount x := fun x member =>
    amounts x (order.mem_iff.mpr member)
  have start := start_nonneg.1
  refine eq_of_rank _ _ (rank_sum terms amounts).1 (rank_sum others amountsOther).1 same ?_
  rw [sum, sum, foldl_eq_zero terms _ start amounts, foldl_eq_zero others _ start amountsOther]
  simp only [order.mem_iff]

end HabitLedger.Binary64
