import HabitLedger.Proofs.Earned
import HabitLedger.Proofs.Rank
import HabitLedger.Proofs.StreakOfSet

/-!
How the parts of one standing fit together. A streak of so many days needs as many different days
and so at least as many expenses, which ties the badges for streaks to those for counting; saving a
share of the budget is staying under it, however the percentage is rounded.
-/

namespace HabitLedger

namespace Streak

theorem current_le_longest (days : List Date) (today : Date) :
    (compute days today).current ≤ (compute days today).longest := by
  have streak := compute_ofSet days today
  rw [UInt32.le_iff_toNat_le]
  rcases streak.current_cases with lapsed | ⟨newest, _, _, reach⟩
  · rw [lapsed]
    exact Nat.zero_le _
  · exact streak.longest.2 ⟨newest, reach⟩

theorem longest_le_days (days : List Date) (today : Date) :
    (compute days today).longest.toNat ≤ days.toFinset.card := by
  have falling := distinctDays_falling days
  have same : (distinctDays days).toFinset = days.toFinset := by
    ext day
    simp only [List.mem_toFinset, mem_distinctDays]
  obtain ⟨last, reach⟩ := (compute_ofSet days today).longest.1
  have found : Unbroken {day | day ∈ distinctDays days} last
      (compute days today).longest.toNat := by
    intro back less
    obtain ⟨day, member, step⟩ := reach back less
    exact ⟨day, (mem_distinctDays days day).mpr member, step⟩
  calc (compute days today).longest.toNat ≤ longestRun (distinctDays days) :=
        (longestRun_reach _ _ falling).mp ⟨last, found⟩
    _ ≤ (distinctDays days).length := longestRun_le_length _
    _ = days.toFinset.card := by
        rw [← same, List.toFinset_card_of_nodup (falling_nodup _ falling)]

end Streak

namespace Badge

theorem saver_under (totals : Totals) (frugal : Frugal totals) : totals.UnderBudget := by
  obtain ⟨percent, share, below⟩ := frugal
  have ceiling : saverCeiling < 100 := Binary64.ofNat_lt 80 100 (by decide) (by decide)
  exact part_lt_whole totals.spent totals.budget percent share
    (Binary64.lt_trans percent saverCeiling 100 below ceiling)

end Badge

namespace Standing

structure Coherent (profile : Profile) (history : List Expense) (standing : Standing) : Prop where
  current_le_longest : standing.streak.current ≤ standing.streak.longest
  longest_le_days : standing.streak.longest.toNat ≤ (history.map (·.day)).toFinset.card
  days_le_expenses : (history.map (·.day)).toFinset.card ≤ standing.totals.expenses
  legend : standing.Holds .streakLegend →
    standing.Holds .streakKing ∧ standing.Holds .trackerPro ∧ standing.Holds .firstStep
  tracker : standing.Holds .trackerPro → standing.Holds .firstStep
  king : standing.Holds .streakKing → standing.Holds .firstStep ∧ 7 ≤ standing.totals.expenses
  saver : standing.Holds .saver → standing.Holds .budgetMaster
  master : standing.Holds .budgetMaster → standing.Holds .firstStep
  kingMaster : standing.Holds .streakKing →
    (standing.Holds .budgetMaster ↔ standing.totals.spent < profile.totalBudget)
  boardFlags : ∀ badge,
    (∃ entry ∈ standing.board.entries, entry.badge = badge ∧ entry.earned = true) ↔
      standing.Holds badge
  boardNames : standing.board.earned.map (·.name) = standing.badges.names
  updateNames : standing.update.badges.names = standing.badges.names

section Bounds
variable (profile : Profile) (history : List Expense) (today : Date)

theorem days_le_expenses :
    (history.map (·.day)).toFinset.card ≤ (compute profile history today).totals.expenses := by
  have count := List.toFinset_card_le (history.map (·.day))
  rwa [List.length_map] at count

/-- A streak cannot be longer than the history has expenses, since each of its days has one. -/
theorem streak_le_expenses :
    (compute profile history today).totals.streak.toNat ≤
      (compute profile history today).totals.expenses := by
  calc (compute profile history today).totals.streak.toNat
      ≤ (compute profile history today).streak.longest.toNat :=
        UInt32.le_iff_toNat_le.mp (Streak.current_le_longest (history.map Expense.day) today)
    _ ≤ (history.map (·.day)).toFinset.card :=
        Streak.longest_le_days (history.map Expense.day) today
    _ ≤ (compute profile history today).totals.expenses :=
        days_le_expenses profile history today

theorem streak_needs_expenses (least : UInt32)
    (reached : least ≤ (compute profile history today).totals.streak) :
    least.toNat ≤ (compute profile history today).totals.expenses :=
  Nat.le_trans (UInt32.le_iff_toNat_le.mp reached) (streak_le_expenses profile history today)

end Bounds

/-- Whatever the profile, the history and the day, what a standing shows fits together: the counts
are in order, a badge comes with all the badges that ask for less, and the board, the earned names
and the stored update show one set of badges. -/
theorem compute_coherent (profile : Profile) (history : List Expense) (today : Date) :
    Coherent profile history (compute profile history today) := by
  have held := holds_iff profile history today
  have needs := streak_needs_expenses profile history today
  exact
    { current_le_longest := Streak.current_le_longest _ today
      longest_le_days := Streak.longest_le_days _ today
      days_le_expenses := days_le_expenses profile history today
      legend := by
        intro shown
        have earned := (held .streakLegend).mp shown
        -- Thirty days in a row have thirty expenses.
        have many := needs 30 earned
        refine ⟨(held .streakKing).mpr ?_, (held .trackerPro).mpr many,
          (held .firstStep).mpr (Nat.le_trans (by decide) many)⟩
        exact UInt32.le_trans (by decide) earned
      tracker := by
        intro shown
        exact (held .firstStep).mpr (Nat.le_trans (by decide) ((held .trackerPro).mp shown))
      king := by
        intro shown
        have many := needs 7 ((held .streakKing).mp shown)
        exact ⟨(held .firstStep).mpr (Nat.le_trans (by decide) many), many⟩
      saver := by
        intro shown
        obtain ⟨frugal, enough⟩ := (held .saver).mp shown
        exact (held .budgetMaster).mpr ⟨Badge.saver_under _ frugal, enough⟩
      master := by
        intro shown
        exact (held .firstStep).mpr (Nat.le_trans (by decide) ((held .budgetMaster).mp shown).2)
      kingMaster := by
        intro shown
        have many := needs 7 ((held .streakKing).mp shown)
        rw [held]
        constructor
        · exact fun earned => earned.1
        · exact fun under => ⟨under, Nat.le_trans (by decide) many⟩
      boardFlags := board_entry_iff profile history today
      boardNames := Board.earned_names _
      updateNames := rfl }

end Standing

end HabitLedger
