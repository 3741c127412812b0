import HabitLedger.Proofs.Rank

/-!
Sums of amounts. An amount is finite and not below zero, so a running sum of amounts only ever takes
the nearest magnitude to a larger exact value and stays at the limit once it is there: it is never
`nan`, it never falls, and a larger start never gives a smaller end.
-/

namespace HabitLedger.Binary64

theorem le_iff_rank (x y : Binary64) :
    x ≤ y ↔ x.isNaN = false ∧ y.isNaN = false ∧ x.rank ≤ y.rank := by
  change x.isNaN = false ∧ y.isNaN = false ∧ y.less x = false ↔ _
  rw [← Int.not_lt]
  constructor
  · rintro ⟨first, second, order⟩
    refine ⟨first, second, ?_⟩
    intro less
    have below : y < x := (lt_iff_rank y x).mpr ⟨second, first, less⟩
    exact Bool.false_ne_true (order.symm.trans below)
  · rintro ⟨first, second, order⟩
    refine ⟨first, second, Bool.eq_false_of_not_eq_true ?_⟩
    intro below
    exact order ((lt_iff_rank y x).mp below).2.2

theorem lt_of_le_of_lt (x y z : Binary64) (first : x ≤ y) (second : y < z) : x < z := by
  rw [le_iff_rank] at first
  rw [lt_iff_rank] at *
  exact ⟨first.1, second.2.1, Int.lt_of_le_of_lt first.2.2 second.2.2⟩

theorem le_trans (x y z : Binary64) (first : x ≤ y) (second : y ≤ z) : x ≤ z := by
  rw [le_iff_rank] at *
  exact ⟨first.1, second.2.1, Int.le_trans first.2.2 second.2.2⟩

theorem nonneg_iff (x : Binary64) : 0 ≤ x ↔ x.isNaN = false ∧ 0 ≤ x.rank := by
  have zero := rank_ofNat 0 (Nat.zero_le _)
  rw [Nat.zero_mul] at zero
  rw [le_iff_rank, zero.2]
  exact ⟨fun held => held.2, fun held => ⟨zero.1, held⟩⟩

structure IsAmount (x : Binary64) : Prop where
  isFinite : x.isFinite = true
  nonneg : 0 ≤ x

theorem isAmount_ofNat (count : Nat) (small : count ≤ Nat.pow 2 53) :
    IsAmount (OfNat.ofNat count) := by
  obtain ⟨number, rank⟩ := rank_ofNat count small
  refine ⟨?_, (nonneg_iff _).mpr ⟨number, ?_⟩⟩
  · rw [ofNat_exact count small]
    rfl
  · rw [rank]
    exact Int.natCast_nonneg _

/-- The magnitude that an exact sum of so many units is given; the limit stands for the infinity. -/
def settle (exact : Nat) : Nat := min (roundUnits exact 1) limit

section Settle
variable (exact more : Nat)

theorem settle_grows (order : exact ≤ more) : settle exact ≤ settle more := by
  have rounded := roundUnits_grows exact 1 more 1 Nat.one_pos Nat.one_pos
    (Nat.mul_le_mul_right 1 order)
  unfold settle
  omega

theorem settle_le : settle exact ≤ limit := Nat.min_le_right _ _

theorem settle_present (present : Exists exact) : settle exact = exact := by
  rw [settle, roundUnits_whole exact present.2]
  exact Nat.min_eq_left (Nat.le_of_lt present.1)

theorem settle_beyond (order : limit ≤ exact) : settle exact = limit := by
  have rounded := roundUnits_limit
  have grows := settle_grows limit exact order
  unfold settle at *
  omega

end Settle

theorem eq_zero_of_units (negative : Bool) (m : Magnitude) (nothing : m.units = 0) :
    finite negative m = zero negative := by
  obtain ⟨units, sound⟩ := m
  cases nothing
  rfl

theorem nonneg_shape (x : Binary64) (nonneg : 0 ≤ x) :
    x = zero true ∨ x = infinite false ∨ ∃ m, x = finite false m := by
  obtain ⟨number, above⟩ := (nonneg_iff x).mp nonneg
  have positive := limit_pos
  cases x with
  | nan => cases number
  | infinite negative =>
    cases negative with
    | false => exact Or.inr (Or.inl rfl)
    | true =>
      change (0 : Int) ≤ -(limit : Int) at above
      omega
  | finite negative m =>
    cases negative with
    | false => exact Or.inr (Or.inr ⟨m, rfl⟩)
    | true =>
      change (0 : Int) ≤ -(m.units : Int) at above
      exact Or.inl (eq_zero_of_units true m (by omega))

theorem infinite_of_nonneg (x : Binary64) (nonneg : 0 ≤ x) (large : x.isFinite = false) :
    x = infinite false := by
  rcases nonneg_shape x nonneg with rfl | rfl | ⟨m, rfl⟩
  · cases large
  · rfl
  · cases large

theorem rank_lt_limit (x : Binary64) (nonneg : 0 ≤ x) (finite : x.isFinite = true) :
    x.rank.toNat < limit := by
  rcases nonneg_shape x nonneg with rfl | rfl | ⟨m, rfl⟩
  · exact limit_pos
  · cases finite
  · exact m.sound.1

theorem infinite_of_number (x : Binary64) (number : x.isNaN = false) (large : x.isFinite = false) :
    ∃ negative, x = infinite negative := by
  cases x with
  | nan => cases number
  | infinite negative => exact ⟨negative, rfl⟩
  | finite negative m => cases large

theorem isNaN_of_isFinite (x : Binary64) (finite : x.isFinite = true) : x.isNaN = false := by
  cases x with
  | nan => cases finite
  | infinite negative => rfl
  | finite negative m => rfl

theorem isFinite_of_le (x y : Binary64) (nonneg : 0 ≤ x) (order : x ≤ y)
    (finite : y.isFinite = true) : x.isFinite = true := by
  cases large : x.isFinite with
  | true => rfl
  | false =>
    rw [infinite_of_nonneg x nonneg large] at order
    cases y with
    | nan => cases finite
    | infinite negative => cases finite
    | finite negative m => cases order.2.2

/-- A number from zero on is its own settling, the infinity included. -/
theorem settle_rank (x : Binary64) (nonneg : 0 ≤ x) : settle x.rank.toNat = x.rank.toNat := by
  rcases nonneg_shape x nonneg with rfl | rfl | ⟨m, rfl⟩
  · exact settle_present 0 ⟨limit_pos, Nat.dvd_zero _⟩
  · exact settle_beyond limit (Nat.le_refl _)
  · exact settle_present m.units m.sound

theorem add_finite (a b : Bool) (m n : Magnitude) :
    finite a m + finite b n =
      if signed a m + signed b n = 0 then zero (a && b)
      else ofQuotient (signed a m + signed b n < 0) (signed a m + signed b n).natAbs 1 := rfl

/-- Adding an amount settles the sum of the magnitudes. -/
theorem rank_add (total x : Binary64) (nonneg : 0 ≤ total) (amount : IsAmount x) :
    (total + x).isNaN = false ∧
      (total + x).rank = settle (total.rank.toNat + x.rank.toNat) := by
  obtain ⟨number, above⟩ := (nonneg_iff total).mp nonneg
  obtain ⟨_, aboveX⟩ := (nonneg_iff x).mp amount.nonneg
  have positive := limit_pos
  cases x with
  | nan => cases amount.isFinite
  | infinite _ => cases amount.isFinite
  | finite b n =>
    cases total with
    | nan => cases number
    | infinite negative =>
      -- An infinite total stays; one below zero is excluded by the order.
      cases negative with
      | false =>
        have full := settle_beyond (limit + (signed b n).toNat) (Nat.le_add_right _ _)
        exact ⟨rfl, (congrArg Int.ofNat full).symm⟩
      | true =>
        change (0 : Int) ≤ -(limit : Int) at above
        omega
    | finite a m =>
      change 0 ≤ signed a m at above
      change 0 ≤ signed b n at aboveX
      change _ ∧ _ = (settle ((signed a m).toNat + (signed b n).toNat) : Int)
      rw [add_finite]
      have units : (signed a m + signed b n).natAbs = (signed a m).toNat + (signed b n).toNat := by
        omega
      rw [← units]
      split
      · next nothing =>
        rw [nothing, Int.natAbs_zero, settle_present 0 ⟨positive, Nat.dvd_zero _⟩]
        cases a && b <;> exact ⟨rfl, rfl⟩
      · have upward : decide (signed a m + signed b n < 0) = false := decide_eq_false (by omega)
        refine ⟨number_ofQuotient .., ?_⟩
        rw [rank_ofQuotient, upward]
        rfl

section Runs

def running (start : Nat) (amounts : List Nat) : Nat :=
  amounts.foldl (fun total amount => settle (total + amount)) start

theorem running_append (start : Nat) (first second : List Nat) :
    running start (first ++ second) = running (running start first) second :=
  List.foldl_append

theorem running_grows (amounts : List Nat) (start more : Nat) (order : start ≤ more) :
    running start amounts ≤ running more amounts := by
  induction amounts generalizing start more with
  | nil => exact order
  | cons amount rest ih => exact ih _ _ (settle_grows _ _ (Nat.add_le_add_right order amount))

theorem running_full (amounts : List Nat) : running limit amounts = limit := by
  induction amounts with
  | nil => rfl
  | cons amount rest ih =>
    change running (settle (limit + amount)) rest = limit
    rw [settle_beyond _ (Nat.le_add_right _ _)]
    exact ih

theorem running_finite (start : Nat) (amounts : List Nat) (inside : start ≤ limit)
    (finite : running start amounts < limit) : start < limit := by
  by_contra full
  rw [Nat.le_antisymm inside (Nat.le_of_not_lt full), running_full] at finite
  exact Nat.lt_irrefl _ finite

theorem rank_foldl (terms : List Binary64) (total : Binary64) (nonneg : 0 ≤ total)
    (amounts : ∀ x ∈ terms, IsAmount x) :
    0 ≤ terms.foldl (· + ·) total ∧
      (terms.foldl (· + ·) total).rank =
        running total.rank.toNat (terms.map fun x => x.rank.toNat) := by
  induction terms generalizing total with
  | nil =>
    have above := ((nonneg_iff total).mp nonneg).2
    exact ⟨nonneg, (Int.toNat_of_nonneg above).symm⟩
  | cons x rest ih =>
    obtain ⟨number, settled⟩ := rank_add total x nonneg (amounts x List.mem_cons_self)
    have next : 0 ≤ total + x :=
      (nonneg_iff _).mpr ⟨number, by rw [settled]; exact Int.natCast_nonneg _⟩
    have tail := ih (total + x) next fun y member => amounts y (List.mem_cons_of_mem x member)
    rw [settled, Int.toNat_natCast] at tail
    exact tail

theorem start_zero : (-0 : Binary64) = zero true := by
  rw [ofNat_exact 0 (Nat.zero_le _)]
  exact eq_zero_of_units true _ (Nat.zero_mul one)

theorem start_nonneg : (0 : Binary64) ≤ -0 ∧ (-0 : Binary64).rank = 0 := by
  rw [start_zero]
  exact ⟨(nonneg_iff _).mpr ⟨rfl, Int.le_refl _⟩, rfl⟩

/-- A sum of amounts is a number and not below zero, and its rank is the running sum of theirs. -/
theorem rank_sum (terms : List Binary64) (amounts : ∀ x ∈ terms, IsAmount x) :
    0 ≤ sum terms ∧ (sum terms).rank = running 0 (terms.map fun x => x.rank.toNat) := by
  have start := start_nonneg
  have whole := rank_foldl terms (-0) start.1 amounts
  rw [start.2] at whole
  exact whole

/-- The sum of what comes first is its own settling, so one more addend starts the rest from no
less. -/
theorem sum_insert (before after : List Binary64) (x : Binary64)
    (amounts : ∀ y ∈ before ++ x :: after, IsAmount y) :
    sum (before ++ after) ≤ sum (before ++ x :: after) := by
  have early : ∀ y ∈ before, IsAmount y := fun y member =>
    amounts y (List.mem_append_left _ member)
  have late : ∀ y ∈ after, IsAmount y := fun y member =>
    amounts y (List.mem_append_right _ (List.mem_cons_of_mem x member))
  have all : ∀ y ∈ before ++ after, IsAmount y := fun y member =>
    (List.mem_append.mp member).elim (early y) (late y)
  obtain ⟨nonneg, first⟩ := rank_sum before early
  obtain ⟨fewer, fewerRank⟩ := rank_sum (before ++ after) all
  obtain ⟨more, moreRank⟩ := rank_sum (before ++ x :: after) amounts
  rw [le_iff_rank, fewerRank, moreRank]
  refine ⟨((nonneg_iff _).mp fewer).1, ((nonneg_iff _).mp more).1, Int.ofNat_le.mpr ?_⟩
  have own := settle_rank (sum before) nonneg
  rw [first, Int.toNat_natCast] at own
  rw [List.map_append, List.map_append, List.map_cons, running_append, running_append]
  generalize running 0 (before.map fun y => y.rank.toNat) = total at own ⊢
  apply running_grows
  calc total = settle total := own.symm
    _ ≤ settle (total + x.rank.toNat) := settle_grows _ _ (Nat.le_add_right _ _)

/-- The induction is on the sublist, behind any addends that come before. -/
theorem sum_sublist (before fewer more : List Binary64) (sublist : fewer.Sublist more)
    (amounts : ∀ x ∈ before ++ more, IsAmount x) :
    sum (before ++ fewer) ≤ sum (before ++ more) := by
  induction sublist generalizing before with
  | slnil => exact (le_iff_rank _ _).mpr (by
      have number := ((nonneg_iff _).mp (rank_sum (before ++ []) amounts).1).1
      exact ⟨number, number, Int.le_refl _⟩)
  | @cons fewer more x sublist ih =>
    have others : ∀ y ∈ before ++ more, IsAmount y := fun y member =>
      amounts y (List.mem_append.mpr
        ((List.mem_append.mp member).imp_right (List.mem_cons_of_mem x)))
    exact le_trans _ _ _ (ih before others) (sum_insert before more x amounts)
  | @cons_cons fewer more x sublist ih =>
    have moved := ih (before ++ [x]) (by simpa using amounts)
    simpa using moved

end Runs

end HabitLedger.Binary64
