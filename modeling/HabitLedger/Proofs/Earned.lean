import HabitLedger.Standing

/-!
Which badges a standing shows. They appear three times, as the earned names, as the flags of the
board and in what is stored with the profile, and all three say the same. Names tell badges apart,
so the names on show stand for exactly the badges that the totals have earned.
-/

namespace HabitLedger

namespace Badge

theorem name_injective (a b : Badge) (same : a.name = b.name) : a = b := by
  cases a <;> cases b <;> simp_all [name, icon, title]

theorem mem_catalog (badge : Badge) : badge ∈ catalog := by
  cases badge <;> decide

theorem mem_earned (totals : Totals) (badge : Badge) :
    badge ∈ earned totals ↔ Earned totals badge := by
  simp [earned, mem_catalog]

theorem name_mem_ofTotals (totals : Totals) (badge : Badge) :
    badge.name ∈ (EarnedList.ofTotals totals).names ↔ Earned totals badge := by
  simp only [EarnedList.ofTotals, List.mem_map]
  constructor
  · rintro ⟨shown, member, same⟩
    rw [name_injective shown badge same] at member
    exact (mem_earned totals badge).mp member
  · intro earned
    exact ⟨badge, (mem_earned totals badge).mpr earned, rfl⟩

end Badge

namespace Board

theorem earned_ofTotals (totals : Totals) :
    (ofTotals totals).earned = (Badge.earned totals).map (BoardEntry.ofBadge totals) := by
  simp only [earned, ofTotals, Badge.earned, List.filter_map]
  rfl

theorem earned_names (totals : Totals) :
    (ofTotals totals).earned.map (·.name) = (EarnedList.ofTotals totals).names := by
  rw [earned_ofTotals, List.map_map]
  rfl

end Board

namespace Standing

def Holds (standing : Standing) (badge : Badge) : Prop := badge.name ∈ standing.badges.names

theorem holds_iff (profile : Profile) (expenses : List Expense) (today : Date) (badge : Badge) :
    (compute profile expenses today).Holds badge ↔
      Badge.Earned (compute profile expenses today).totals badge :=
  Badge.name_mem_ofTotals _ badge

theorem board_entry_iff (profile : Profile) (expenses : List Expense) (today : Date)
    (badge : Badge) :
    (∃ entry ∈ (compute profile expenses today).board.entries,
      entry.badge = badge ∧ entry.earned = true) ↔
        (compute profile expenses today).Holds badge := by
  rw [holds_iff]
  constructor
  · rintro ⟨entry, member, rfl, flag⟩
    obtain ⟨shown, _, rfl⟩ := List.mem_map.mp member
    exact of_decide_eq_true flag
  · intro earned
    exact ⟨BoardEntry.ofBadge _ badge, List.mem_map_of_mem (Badge.mem_catalog badge), rfl,
      decide_eq_true earned⟩

end Standing

end HabitLedger
