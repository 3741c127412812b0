import HabitLedger.Proofs.AnyOrder

/-!
How the parts of one dashboard fit together and with the document it was made from. Expenses are
counted or set aside, each with its own place; the streak, the totals and what is stored with the
profile show one streak; the names on show are the earned entries of the board; every category has
its row.
-/

namespace HabitLedger

namespace Intake
variable (fresh : Supply) (raws : List RawExpense)

/-- Every expense uses up its place, whether or not it is set aside. -/
theorem aside_places (index : Nat) :
    ((lenientFrom fresh index raws).aside.map (·.index)).Sublist
      (List.range' index raws.length) := by
  induction raws generalizing index with
  | nil => exact .slnil
  | cons raw rest ih =>
    rw [List.length_cons, List.range'_succ]
    cases taken : raw.accept (fresh index) with
    | error cause =>
      simp only [lenientFrom, taken, List.map_cons]
      exact (ih (index + 1)).cons_cons index
    | ok expense =>
      simp only [lenientFrom, taken]
      exact (ih (index + 1)).cons index

theorem aside_increasing :
    (lenient fresh raws).aside.Pairwise fun a b => a.index < b.index :=
  List.pairwise_map.mp ((List.pairwise_lt_range' 1).sublist (aside_places fresh raws 0))

theorem aside_below (issue : SetAside) (member : issue ∈ (lenient fresh raws).aside) :
    issue.index < raws.length := by
  have place := (aside_places fresh raws 0).subset (List.mem_map_of_mem member)
  simpa using (List.mem_range'_1.mp place).2

theorem accepted_days (day : Date) :
    day ∈ (lenient fresh raws).accepted.map (·.day) ↔
      ∃ raw ∈ raws, ∃ entry ∈ entryOf raw, entry.1 = day := by
  have days : (lenient fresh raws).accepted.map (·.day) = (raws.filterMap entryOf).map (·.1) := by
    rw [← accepted_entries fresh 0, List.map_map]
    rfl
  rw [days, List.mem_map]
  constructor
  · rintro ⟨entry, member, same⟩
    obtain ⟨raw, arrived, accepted⟩ := List.mem_filterMap.mp member
    exact ⟨raw, arrived, entry, accepted, same⟩
  · rintro ⟨raw, arrived, entry, accepted, same⟩
    exact ⟨entry, List.mem_filterMap.mpr ⟨raw, arrived, accepted⟩, same⟩

end Intake

theorem Streak.lastDay_none (days : List Date) (today : Date) :
    (compute days today).lastDay = none ↔ days = [] := by
  have members := mem_distinctDays days
  rw [compute]
  cases found : distinctDays days with
  | nil =>
    simp only [found, List.not_mem_nil, false_iff] at members
    exact ⟨fun _ => List.eq_nil_iff_forall_not_mem.mpr members, fun _ => rfl⟩
  | cons newest older =>
    have held : newest ∈ days := (members newest).mp (found ▸ List.mem_cons_self)
    exact ⟨fun none => absurd none (Option.some_ne_none newest),
      fun none => absurd (none ▸ held) List.not_mem_nil⟩

namespace Badge

theorem earned_names_nodup (totals : Totals) : (EarnedList.ofTotals totals).names.Nodup := by
  have once : catalog.Nodup := by decide
  exact (once.filter _).map name_injective

end Badge

namespace Board

theorem badges (totals : Totals) : (ofTotals totals).entries.map (·.badge) = Badge.catalog := by
  rw [ofTotals, List.map_map]
  exact List.map_id _

theorem earned_and_locked (board : Board) :
    board.earnedCount + board.lockedCount = board.entries.length :=
  Nat.add_sub_of_le (List.length_filter_le _ board.entries)

end Board

namespace Dashboard

structure Consistent (snapshot : Snapshot) (dashboard : Dashboard) : Prop where
  counted : dashboard.totals.expenses + dashboard.aside.length = snapshot.expenses.length
  increasing : dashboard.aside.Pairwise fun a b => a.index < b.index
  below : ∀ issue ∈ dashboard.aside, issue.index < snapshot.expenses.length
  empty : dashboard.streak.lastDay = none ↔ dashboard.totals.expenses = 0
  newest : ∀ day, dashboard.streak.lastDay = some day ↔
    IsGreatest {day | ∃ raw ∈ snapshot.expenses, ∃ entry ∈ Intake.entryOf raw, entry.1 = day} day
  current : dashboard.totals.streak = dashboard.streak.current ∧
    dashboard.update.currentStreak = dashboard.streak.current
  longest : dashboard.update.longestStreak = dashboard.streak.longest
  lastDay : dashboard.update.lastDay = dashboard.streak.lastDay
  names : dashboard.update.badges.names =
    (dashboard.board.entries.filter (·.earned)).map (·.name)
  distinct : dashboard.update.badges.names.Nodup
  board : dashboard.board.entries.map (·.badge) = Badge.catalog
  boardCounts : dashboard.board.earnedCount + dashboard.board.lockedCount = Badge.catalog.length
  rows : dashboard.spending.map (fun row => (row.name, row.limit, row.color)) =
    snapshot.categories.map fun category => (category.name, category.limit, category.color)

theorem ofSifted_consistent (fresh : Intake.Supply) (today : Date) (snapshot : Snapshot) :
    Consistent snapshot (ofSifted snapshot today (Intake.lenient fresh snapshot.expenses)) := by
  let sifted := Intake.lenient fresh snapshot.expenses
  let days := sifted.accepted.map (·.day)
  have told := Streak.compute_ofSet days today
  -- The days counted are those of the expenses that have an entry.
  have accepted : {day | day ∈ days} =
      {day | ∃ raw ∈ snapshot.expenses, ∃ entry ∈ Intake.entryOf raw, entry.1 = day} :=
    Set.ext (Intake.accepted_days fresh snapshot.expenses)
  rw [accepted] at told
  have badges := Board.badges (Standing.compute snapshot.profile sifted.accepted today).totals
  exact
    { counted := Intake.sifted_length fresh 0 snapshot.expenses
      increasing := Intake.aside_increasing fresh snapshot.expenses
      below := Intake.aside_below fresh snapshot.expenses
      empty := by
        change (Streak.compute days today).lastDay = none ↔ sifted.accepted.length = 0
        rw [Streak.lastDay_none, List.map_eq_nil_iff, List.length_eq_zero_iff]
      newest := told.lastDay
      current := ⟨rfl, rfl⟩
      longest := rfl
      lastDay := rfl
      names := (Board.earned_names _).symm
      distinct := Badge.earned_names_nodup _
      board := badges
      boardCounts := by
        rw [Board.earned_and_locked, ← badges, List.length_map]
        rfl
      rows := by
        change (snapshot.categories.map _).map _ = _
        rw [List.map_map]
        rfl }

/-- Whatever the document, the mode and the day, a dashboard that is built is consistent. -/
theorem build_consistent (fresh : Intake.Supply) (mode : IntakeMode) (today : Date)
    (snapshot : Snapshot) (dashboard : Dashboard)
    (built : build fresh mode today snapshot = .ok dashboard) : Consistent snapshot dashboard := by
  obtain ⟨_, rfl⟩ := build_ok fresh today snapshot mode dashboard built
  exact ofSifted_consistent fresh today snapshot

/-- An expense without a date before one that is good; and the good one alone, taken in strictly. -/
theorem build_consistent_undated :
    let day : Date := ⟨2025, 3, 14, by decide⟩
    let fresh : Intake.Supply := fun _ => Uuid.zero
    let undated := { costing 6 with date := none }
    let snapshot : Snapshot :=
      ⟨Profile.plain Uuid.zero "" (tenths 8), [.plain "Food" 0], [undated, costing 6]⟩
    let clean : Snapshot := { snapshot with expenses := [costing 6] }
    (∃ dashboard, build fresh .lenient day snapshot = .ok dashboard ∧
      Consistent snapshot dashboard ∧ dashboard.totals.expenses = 1 ∧
        dashboard.aside.map (·.index) = [0]) ∧
    ∃ dashboard, build fresh .strict day clean = .ok dashboard ∧ Consistent clean dashboard := by
  intro day fresh undated snapshot clean
  have usable : ¬ Unusable (tenths 8) := not_or.mpr (by decide +kernel)
  have built := build_lenient fresh day snapshot usable
  have builtStrictly := build_strict_clean fresh fresh day clean usable (by decide +kernel)
  have count : (Intake.lenient fresh [undated, costing 6]).accepted.length = 1 := by
    decide +kernel
  have place : (Intake.lenient fresh [undated, costing 6]).aside.map (·.index) = [0] := by
    decide +kernel
  exact ⟨⟨_, built, build_consistent fresh .lenient day snapshot _ built, count, place⟩,
    _, builtStrictly, build_consistent fresh .strict day clean _ builtStrictly⟩

end Dashboard

end HabitLedger
