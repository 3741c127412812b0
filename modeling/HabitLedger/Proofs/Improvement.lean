import HabitLedger.Proofs.Progress
import HabitLedger.Proofs.Spending

/-!
Doing better. Totals that are no worse in any respect, with more expenses, less spent, a longer
streak and a larger budget, keep every badge. For the share of the budget this goes through two
roundings, which both keep the order, below zero as well as up to the infinities.
-/

namespace HabitLedger

open Binary64

namespace Binary64

theorem lt_of_lt_of_le (x y z : Binary64) (first : x < y) (second : y ≤ z) : x < z := by
  rw [le_iff_rank] at second
  rw [lt_iff_rank] at *
  exact ⟨first.1, second.2.1, Int.lt_of_lt_of_le first.2.2 second.2.2⟩

theorem scaled_falls (num units den more : Nat) (positive : 0 < den) (order : den ≤ more) :
    scaled num more units ≤ scaled num den units := by
  have rounded : roundUnits (units * num) more ≤ roundUnits (units * num) den :=
    roundUnits_grows _ _ _ _ (Nat.lt_of_lt_of_le positive order) positive
      (Nat.mul_le_mul_left _ order)
  unfold scaled
  split
  · exact Nat.le_refl _
  · omega

end Binary64

section Percentage
variable (units more : Nat) (positive : 0 < units)
include positive

theorem percentRank_zero : percentRank units 0 = 0 := by
  have nothing (num den : Nat) (positive : 0 < den) : mirrored (scaled num den) 0 = 0 :=
    (mirrored_above _ 0).trans (congrArg _ (scaled_zero num den positive))
  rw [percentRank, nothing one units positive, nothing _ one Binary64.one_pos]

/-- Of a larger whole, a part above zero is a smaller share. -/
theorem percentRank_falls (order : units ≤ more) (value : Int) (above : 0 ≤ value) :
    percentRank more value ≤ percentRank units value := by
  obtain ⟨part, rfl⟩ := Int.eq_ofNat_of_zero_le above
  unfold percentRank
  refine mirrored_grows _ (fun a b => scaled_grows _ _ a b Binary64.one_pos) _ _ ?_
  rw [mirrored_above, mirrored_above]
  exact Int.ofNat_le.mpr (scaled_falls one part units more positive order)

end Percentage

section Share
variable (part whole : Binary64)

theorem percentage_finite (m : Magnitude) (positive : 0 < m.units) :
    percentage part (finite false m) = some (part / finite false m * 100) := by
  refine if_neg ?_
  rintro (infinite | below)
  · cases infinite
  · rw [le_iff_rank, (rank_ofNat 0 (Nat.zero_le _)).2] at below
    have none : (m.units : Int) ≤ 0 := by simpa [rank, signed] using below.2.2
    omega

theorem larger_whole (larger : Binary64) (m : Magnitude) (positive : 0 < m.units)
    (order : finite false m ≤ larger) (bounded : larger.isFinite = true) :
    ∃ n : Magnitude, larger = finite false n ∧ m.units ≤ n.units := by
  have ranks := ((le_iff_rank _ _).mp order).2.2
  cases larger with
  | nan => cases bounded
  | infinite negative => cases bounded
  | finite negative n =>
    cases negative with
    | true =>
      have below : (m.units : Int) ≤ -(n.units : Int) := by simpa [rank, signed] using ranks
      omega
    | false => exact ⟨n, rfl, by simpa [rank, signed] using ranks⟩

/-- A share below the ceiling stays below it when less is spent of a larger budget. -/
theorem share_stays_below (less larger ceiling percent : Binary64) (above : 0 < ceiling)
    (spent : less ≤ part) (budget : whole ≤ larger) (bounded : larger.isFinite = true)
    (share : percentage part whole = some percent) (below : percent < ceiling) :
    ∃ lower, percentage less larger = some lower ∧ lower < ceiling := by
  obtain ⟨m, positive, rfl, rfl⟩ := percentage_some part whole percent share
  obtain ⟨n, rfl, order⟩ := larger_whole larger m positive budget bounded
  obtain ⟨numberLess, number, ranks⟩ := (le_iff_rank less part).mp spent
  obtain ⟨_, place⟩ := rank_percent part m positive number
  obtain ⟨shown, placeLess⟩ := rank_percent less n (Nat.lt_of_lt_of_le positive order) numberLess
  rw [lt_iff_rank, (rank_ofNat 0 (Nat.zero_le _)).2, Nat.zero_mul] at above
  rw [lt_iff_rank, place] at below
  refine ⟨_, percentage_finite less n (Nat.lt_of_lt_of_le positive order), ?_⟩
  rw [lt_iff_rank, placeLess]
  refine ⟨shown, below.2.1, ?_⟩
  -- A larger budget lowers a share above zero; below zero it raises it, but no higher than zero.
  rcases Int.le_total 0 less.rank with some | none
  · calc percentRank n.units less.rank
        ≤ percentRank m.units less.rank := percentRank_falls _ _ positive order _ some
      _ ≤ percentRank m.units part.rank := percentRank_grows _ positive _ _ ranks
      _ < ceiling.rank := below.2.2
  · calc percentRank n.units less.rank
        ≤ percentRank n.units 0 := percentRank_grows _ (Nat.lt_of_lt_of_le positive order) _ _ none
      _ = 0 := percentRank_zero _ (Nat.lt_of_lt_of_le positive order)
      _ < ceiling.rank := above.2.2

end Share

/-- Totals that are no worse in any respect. The budget may be larger, but not without bound. -/
structure Totals.Improves (old new : Totals) : Prop where
  expenses : old.expenses ≤ new.expenses
  spent : new.spent ≤ old.spent
  streak : old.streak ≤ new.streak
  budget : old.budget ≤ new.budget
  bounded : new.budget.isFinite = true

namespace Badge
variable (old new : Totals) (improves : old.Improves new)
include improves

theorem earned_after (badge : Badge) (earned : Earned old badge) : Earned new badge := by
  have active (member : badge ∈ ofActivity) : Earned new badge :=
    earned_grows old new badge member improves.expenses improves.streak earned
  cases badge with
  | firstStep => exact active (by decide)
  | trackerPro => exact active (by decide)
  | streakKing => exact active (by decide)
  | streakLegend => exact active (by decide)
  | budgetMaster =>
    have under := lt_of_le_of_lt _ _ _ improves.spent earned.1
    exact ⟨lt_of_lt_of_le _ _ _ under improves.budget, Nat.le_trans earned.2 improves.expenses⟩
  | saver =>
    obtain ⟨percent, share, below⟩ := earned.1
    obtain ⟨lower, found, less⟩ := share_stays_below _ _ new.spent new.budget saverCeiling percent
      (ofNat_lt 0 80 (by decide) (by decide)) improves.spent improves.budget
        improves.bounded share below
    exact ⟨⟨lower, found, less⟩, Nat.le_trans earned.2 improves.expenses⟩

theorem earned_sublist : (earned old).Sublist (earned new) := by
  refine List.monotone_filter_right _ fun badge held => ?_
  exact decide_eq_true (earned_after old new improves badge (of_decide_eq_true held))

end Badge

namespace Totals

/-- Whoever does no worse keeps every badge, and the names of the badges keep their order. -/
theorem improvement_keeps_badges (old new : Totals) (improves : old.Improves new) :
    (∀ badge ∈ Badge.earned old, badge ∈ Badge.earned new) ∧
      (EarnedList.ofTotals old).names.Sublist (EarnedList.ofTotals new).names := by
  have sublist := Badge.earned_sublist old new improves
  exact ⟨fun _ held => sublist.mem held, sublist.map _⟩

/-- From 79 of a budget of 100 to less than nothing, by any amount, of a budget of 1000. -/
theorem improvement_keeps_badges_refunded :
    let old : Totals := ⟨5, 79, 100, 7⟩
    let new : Totals := ⟨30, .infinite true, 1000, 30⟩
    old.Improves new ∧ Badge.saver ∈ Badge.earned old ∧
      (∀ badge ∈ Badge.earned old, badge ∈ Badge.earned new) ∧
      (EarnedList.ofTotals old).names.Sublist (EarnedList.ofTotals new).names := by
  intro old new
  have improves : old.Improves new :=
    { expenses := by decide
      spent := by decide +kernel
      streak := by decide
      budget := by decide +kernel
      bounded := by decide +kernel }
  exact ⟨improves, by decide +kernel, improvement_keeps_badges old new improves⟩

end Totals

end HabitLedger
