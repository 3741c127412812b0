import HabitLedger.Proofs.AnyOrder

/-!
What a dashboard is made from. Of the arriving expenses only the entries of those that are accepted
count: documents with the same entries get dashboards that differ in the expenses set aside at most,
however those entries are put and whatever stands between them. Where two amounts are equal as
numbers but are zeros of different signs, all numbers shown are still equal.
-/

namespace HabitLedger

namespace Binary64

/-- Equal as numbers. Both zeros are one number, and `nan` is none. -/
def Equal (x y : Binary64) : Prop := x ≤ y ∧ y ≤ x

instance (x y : Binary64) : Decidable (x.Equal y) := inferInstanceAs (Decidable (_ ∧ _))

theorem equal_iff_rank (x y : Binary64) :
    x.Equal y ↔ x.isNaN = false ∧ y.isNaN = false ∧ x.rank = y.rank := by
  rw [Equal, le_iff_rank, le_iff_rank]
  constructor
  · rintro ⟨⟨first, second, order⟩, _, _, back⟩
    exact ⟨first, second, Int.le_antisymm order back⟩
  · rintro ⟨first, second, same⟩
    exact ⟨⟨first, second, Int.le_of_eq same⟩, second, first, Int.le_of_eq same.symm⟩

theorem ranks_equal (terms others : List Binary64) (same : List.Forall₂ Equal terms others) :
    (terms.map fun x => x.rank.toNat) = others.map fun x => x.rank.toNat := by
  induction same with
  | nil => rfl
  | cons first _ ih =>
    rw [List.map_cons, List.map_cons, ih, ((equal_iff_rank _ _).mp first).2.2]

theorem sum_equal (terms others : List Binary64) (amounts : ∀ x ∈ terms, IsAmount x)
    (amountsOther : ∀ x ∈ others, IsAmount x) (same : List.Forall₂ Equal terms others) :
    (sum terms).Equal (sum others) := by
  obtain ⟨⟨_, number, _⟩, rank⟩ := rank_sum terms amounts
  obtain ⟨⟨_, numberOther, _⟩, rankOther⟩ := rank_sum others amountsOther
  refine (equal_iff_rank _ _).mpr ⟨number, numberOther, ?_⟩
  rw [rank, rankOther, ranks_equal terms others same]

end Binary64

open Binary64

theorem percentage_equal (part other whole : Binary64) (same : part.Equal other) :
    Option.Rel Equal (percentage part whole) (percentage other whole) := by
  cases share : percentage other whole with
  | none =>
    cases own : percentage part whole with
    | none => exact .none
    | some percent =>
      obtain ⟨more, found, _⟩ := percentage_grows other part whole percent same.2 own
      rw [share] at found
      cases found
  | some more =>
    obtain ⟨percent, own, order⟩ := percentage_grows part other whole more same.1 share
    obtain ⟨again, found, back⟩ := percentage_grows other part whole percent same.2 own
    rw [share] at found
    cases found
    rw [own]
    exact .some ⟨order, back⟩

namespace Badge

theorem earned_enough (totals : Totals) (badge : Badge) (budgetary : badge ∈ ofBudget)
    (earned : Earned totals badge) : budgetMinimum ≤ totals.expenses := by
  cases badge with
  | budgetMaster => exact earned.2
  | saver => exact earned.2
  | firstStep | trackerPro | streakKing | streakLegend => simp [ofBudget] at budgetary

section Equal
variable (a b : Totals) (expenses : a.expenses = b.expenses) (budget : a.budget = b.budget)
  (streak : a.streak = b.streak) (spent : a.spent.Equal b.spent)
include expenses budget streak spent

theorem earned_equal (badge : Badge) : Earned a badge ↔ Earned b badge := by
  by_cases budgetary : badge ∈ ofBudget
  · constructor
    · intro earned
      have enough := earned_enough a badge budgetary earned
      exact earned_before b a badge budgetary budget spent.2 (expenses ▸ enough) earned
    · intro earned
      have enough := earned_enough b badge budgetary earned
      exact earned_before a b badge budgetary budget.symm spent.1 (expenses ▸ enough) earned
  · exact earned_unspent a b badge budgetary expenses streak

theorem shown_equal :
    EarnedList.ofTotals a = EarnedList.ofTotals b ∧ Board.ofTotals a = Board.ofTotals b := by
  have flags (badge : Badge) : decide (Earned a badge) = decide (Earned b badge) :=
    decide_eq_decide.mpr (earned_equal a b expenses budget streak spent badge)
  constructor
  · simp only [EarnedList.ofTotals, Badge.earned, flags]
  · refine congrArg Board.mk (List.map_congr_left fun badge _ => ?_)
    simp only [BoardEntry.ofBadge, flags]

end Equal

end Badge

def SameEntry (a b : Date × Binary64 × String) : Prop :=
  a.1 = b.1 ∧ a.2.1.Equal b.2.1 ∧ a.2.2 = b.2.2

section SameEntries
variable (a b : List (Date × Binary64 × String)) (same : List.Forall₂ SameEntry a b)
include same

theorem same_days : a.map (·.1) = b.map (·.1) := by
  induction same with
  | nil => rfl
  | cons first _ ih => rw [List.map_cons, List.map_cons, first.1, ih]

theorem same_amounts : List.Forall₂ Equal (a.map (·.2.1)) (b.map (·.2.1)) := by
  induction same with
  | nil => exact .nil
  | cons first _ ih => exact .cons first.2.1 ih

theorem same_filed (category : String) :
    List.Forall₂ SameEntry (a.filter fun entry => entry.2.2 = category)
      (b.filter fun entry => entry.2.2 = category) := by
  induction same with
  | nil => exact .nil
  | @cons entry other _ _ first _ ih =>
    by_cases filed : entry.2.2 = category
    · rw [List.filter_cons_of_pos (by simpa using filed),
        List.filter_cons_of_pos (by simpa [← first.2.2] using filed)]
      exact .cons first ih
    · rw [List.filter_cons_of_neg (by simpa using filed),
        List.filter_cons_of_neg (by simpa [← first.2.2] using filed)]
      exact ih

end SameEntries

section SameExpenses
variable (first second : List Expense)
  (same : List.Forall₂ SameEntry (first.map Expense.entry) (second.map Expense.entry))
  (amounts : ∀ e ∈ first, IsAmount e.amount) (amountsOther : ∀ e ∈ second, IsAmount e.amount)
include same amounts amountsOther

theorem same_spent :
    (sum (first.map (·.amount))).Equal (sum (second.map (·.amount))) := by
  have costs : List.Forall₂ Equal (first.map (·.amount)) (second.map (·.amount)) := by
    simpa [Function.comp_def, Expense.entry] using same_amounts _ _ same
  exact sum_equal _ _ (List.forall_mem_map.mpr amounts) (List.forall_mem_map.mpr amountsOther) costs

theorem same_table (categories : List Category) :
    List.Forall₂ (fun row other => row.name = other.name ∧ row.limit = other.limit ∧
      row.spent.Equal other.spent ∧ row.color = other.color)
      (Spending.table categories first) (Spending.table categories second) := by
  rw [Spending.table, Spending.table, List.forall₂_map_left_iff, List.forall₂_map_right_iff]
  refine List.forall₂_same.mpr fun category _ => ⟨rfl, rfl, ?_, rfl⟩
  have filed := same_amounts _ _ (same_filed _ _ same category.name)
  rw [← filed_entries, ← filed_entries] at filed
  refine sum_equal _ _ ?_ ?_ filed
  · exact List.forall_mem_map.mpr fun e member => amounts e (List.mem_filter.mp member).1
  · exact List.forall_mem_map.mpr fun e member => amountsOther e (List.mem_filter.mp member).1

end SameExpenses

namespace Dashboard

def shown (dashboard : Dashboard) : Dashboard := { dashboard with aside := [] }

structure Alike (a b : Dashboard) : Prop where
  profileId : a.profileId = b.profileId
  day : a.day = b.day
  update : a.update = b.update
  streak : a.streak = b.streak
  expenses : a.totals.expenses = b.totals.expenses
  spent : a.totals.spent.Equal b.totals.spent
  budget : a.totals.budget = b.totals.budget
  current : a.totals.streak = b.totals.streak
  budgetPercent : Option.Rel Equal a.budgetPercent b.budgetPercent
  savingsPercent : a.savingsPercent = b.savingsPercent
  board : a.board = b.board
  spending : List.Forall₂ (fun row other => row.name = other.name ∧ row.limit = other.limit ∧
    row.spent.Equal other.spent ∧ row.color = other.color) a.spending b.spending

section Built
variable (fresh other : Intake.Supply) (today : Date) (a b : Snapshot)
  (profile : a.profile = b.profile) (categories : a.categories = b.categories)
include profile categories

theorem build_of_entries
    (same : a.expenses.filterMap Intake.entryOf = b.expenses.filterMap Intake.entryOf) :
    (build fresh .lenient today a).map shown = (build other .lenient today b).map shown := by
  by_cases unusable : Unusable a.profile.totalBudget
  · obtain ⟨cause, refused⟩ := checkBudget_refused _ unusable
    rw [build_refused fresh today a .lenient _ refused,
      build_refused other today b .lenient _ (profile ▸ refused)]
  · rw [build_lenient fresh today a unusable, build_lenient other today b (profile ▸ unusable)]
    have entries : (Intake.lenient fresh a.expenses).accepted.map Expense.entry =
        (Intake.lenient other b.expenses).accepted.map Expense.entry := by
      rw [Intake.lenient, Intake.lenient, Intake.accepted_entries, Intake.accepted_entries, same]
    have dashboards := dashboard_of_entries a today
      ⟨(Intake.lenient fresh a.expenses).accepted, []⟩
      ⟨(Intake.lenient other b.expenses).accepted, []⟩ entries rfl
    simp only [ofSifted, profile, categories] at dashboards
    simp only [Except.map, shown, ofSifted, profile, categories]
    exact congrArg Except.ok dashboards

/-- Entries that differ in the sign of a zero at most come to dashboards with equal numbers. -/
theorem ofSifted_alike (first second : Sifted)
    (same : List.Forall₂ SameEntry (first.accepted.map Expense.entry)
      (second.accepted.map Expense.entry))
    (amounts : ∀ e ∈ first.accepted, IsAmount e.amount)
    (amountsOther : ∀ e ∈ second.accepted, IsAmount e.amount) :
    Alike (ofSifted a today first) (ofSifted b today second) := by
  have days : first.accepted.map (·.day) = second.accepted.map (·.day) := by
    simpa [Function.comp_def, Expense.entry] using same_days _ _ same
  have length : first.accepted.length = second.accepted.length := by
    simpa using same.length_eq
  have spent := same_spent _ _ same amounts amountsOther
  have streak : (ofSifted a today first).streak = (ofSifted b today second).streak :=
    congrArg (Streak.compute · today) days
  have budget : (ofSifted a today first).totals.budget = (ofSifted b today second).totals.budget :=
    congrArg Profile.totalBudget profile
  have current := congrArg Streak.current streak
  obtain ⟨names, board⟩ := Badge.shown_equal (ofSifted a today first).totals
    (ofSifted b today second).totals length budget current spent
  exact
    { profileId := congrArg Profile.id profile
      day := rfl
      update := by
        change ProfileUpdate.mk _ _ _ _ = ProfileUpdate.mk _ _ _ _
        exact congrArg₂ (fun (badges : EarnedList) (streak : Streak) =>
          ProfileUpdate.mk badges streak.current streak.longest streak.lastDay) names streak
      streak := streak
      expenses := length
      spent := spent
      budget := budget
      current := current
      budgetPercent := by
        change Option.Rel Equal (percentage _ a.profile.totalBudget)
          (percentage _ b.profile.totalBudget)
        rw [profile]
        exact percentage_equal _ _ _ spent
      savingsPercent := congrArg Profile.savingsPercent profile
      board := board
      spending := by
        change List.Forall₂ _ (Spending.table _ _) (Spending.table _ _)
        rw [categories]
        exact same_table _ _ same amounts amountsOther b.categories }

theorem build_alike (same : List.Forall₂ SameEntry (a.expenses.filterMap Intake.entryOf)
      (b.expenses.filterMap Intake.entryOf)) (dashboard : Dashboard)
    (built : build fresh .lenient today a = .ok dashboard) :
    ∃ twin, build other .lenient today b = .ok twin ∧ Alike dashboard twin := by
  by_cases unusable : Unusable a.profile.totalBudget
  · obtain ⟨cause, refused⟩ := checkBudget_refused _ unusable
    rw [build_refused fresh today a .lenient _ refused] at built
    cases built
  · rw [build_lenient fresh today a unusable] at built
    cases built
    refine ⟨_, build_lenient other today b (profile ▸ unusable), ?_⟩
    rw [← Intake.accepted_entries fresh 0, ← Intake.accepted_entries other 0] at same
    exact ofSifted_alike today a b profile categories _ _ same
      (Intake.lenient_amounts fresh 0 a.expenses) (Intake.lenient_amounts other 0 b.expenses)

end Built

end Dashboard

namespace RawExpense

def Identified (raw : RawExpense) : Prop := ∃ id, raw.checkedId Uuid.zero = .ok id

/-- An expense in other words: another identifier, other notes or another color, or the same day or
amount spelled another way. -/
inductive Reworded (raw : RawExpense) : RawExpense → Prop where
  | id (id : Option String) :
      raw.Identified → { raw with id }.Identified → Reworded raw { raw with id }
  | date (date : Option String) :
      { raw with date }.checkedDay.toOption = raw.checkedDay.toOption →
        Reworded raw { raw with date }
  | amount (amount : Option RawAmount) :
      { raw with amount }.checkedAmount.toOption = raw.checkedAmount.toOption →
        Reworded raw { raw with amount }
  | color (color : Option String) : Reworded raw { raw with color }
  | notes (notes : Option String) : Reworded raw { raw with notes }

end RawExpense

namespace Intake

theorem entryOf_parts (raw : RawExpense) :
    entryOf raw = raw.checkedDay.toOption.bind fun day =>
      raw.checkedAmount.toOption.bind fun amount =>
        (raw.checkedId Uuid.zero).toOption.map fun _ => (day, amount, raw.category.getD "") := by
  unfold entryOf RawExpense.accept
  cases raw.checkedDay with
  | error cause => rfl
  | ok day =>
    cases raw.checkedAmount with
    | error cause => rfl
    | ok amount =>
      cases raw.checkedId Uuid.zero with
      | error cause => rfl
      | ok id => rfl

/-- An expense in other words has the same entry. -/
theorem entryOf_reworded (raw other : RawExpense) (reworded : raw.Reworded other) :
    entryOf other = entryOf raw := by
  cases reworded with
  | id id identified still =>
    obtain ⟨first, read⟩ := identified
    obtain ⟨second, readOther⟩ := still
    rw [entryOf_parts, entryOf_parts, read, readOther]
    rfl
  | date date same =>
    rw [entryOf_parts, entryOf_parts, same]
    rfl
  | amount amount same =>
    rw [entryOf_parts, entryOf_parts, same]
    rfl
  | color color =>
    rw [entryOf_parts, entryOf_parts]
    rfl
  | notes notes =>
    rw [entryOf_parts, entryOf_parts]
    rfl

/-- Lists of arriving expenses that come from one another by putting in and taking out expenses that
are not accepted and by putting expenses in other words. -/
inductive Edited (raws : List RawExpense) : List RawExpense → Prop where
  | nothing : Edited raws raws
  | inserted (before after : List RawExpense) (raw : RawExpense) :
      Edited raws (before ++ after) → entryOf raw = none → Edited raws (before ++ raw :: after)
  | removed (before after : List RawExpense) (raw : RawExpense) :
      Edited raws (before ++ raw :: after) → entryOf raw = none → Edited raws (before ++ after)
  | reworded (before after : List RawExpense) (raw other : RawExpense) :
      Edited raws (before ++ raw :: after) → raw.Reworded other →
        Edited raws (before ++ other :: after)

theorem edited_entries (raws others : List RawExpense) (edited : Edited raws others) :
    others.filterMap entryOf = raws.filterMap entryOf := by
  induction edited with
  | nothing => rfl
  | inserted before after raw _ refused ih =>
    rw [← ih, List.filterMap_append, List.filterMap_append, List.filterMap_cons_none refused]
  | removed before after raw _ refused ih =>
    rw [← ih, List.filterMap_append, List.filterMap_append, List.filterMap_cons_none refused]
  | reworded before after raw other _ reworded ih =>
    rw [← ih, List.filterMap_append, List.filterMap_append, List.filterMap_cons,
      List.filterMap_cons, entryOf_reworded raw other reworded]

end Intake

namespace Dashboard

/-- With the same profile and categories the accepted entries decide all that a dashboard shows but
the expenses set aside. Entries that are equal as numbers give equal numbers, and no edit that
leaves the entries alone, and no fresh identifier, changes anything. -/
theorem entries_decide :
    (∀ fresh other today a b, a.profile = b.profile → a.categories = b.categories →
      a.expenses.filterMap Intake.entryOf = b.expenses.filterMap Intake.entryOf →
        (build fresh .lenient today a).map shown = (build other .lenient today b).map shown) ∧
    (∀ fresh other today a b, a.profile = b.profile → a.categories = b.categories →
      List.Forall₂ SameEntry (a.expenses.filterMap Intake.entryOf)
        (b.expenses.filterMap Intake.entryOf) →
      ∀ dashboard, build fresh .lenient today a = .ok dashboard →
        ∃ twin, build other .lenient today b = .ok twin ∧ Alike dashboard twin) ∧
    ∀ fresh other today snapshot expenses, Intake.Edited snapshot.expenses expenses →
      (build fresh .lenient today snapshot).map shown =
        (build other .lenient today { snapshot with expenses }).map shown := by
  refine ⟨build_of_entries, build_alike, ?_⟩
  intro fresh other today snapshot expenses edited
  exact build_of_entries fresh other today snapshot _ rfl rfl
    (Intake.edited_entries snapshot.expenses expenses edited).symm

/-- Nothing spent, once as zero and once as negative zero with a note, the latter behind an expense
without a date. -/
theorem entries_decide_negative_zero :
    let day : Date := ⟨2025, 3, 14, by decide⟩
    let noted := { costing 0 with notes := some "nothing" }
    let negative := { noted with amount := some (.text "-0") }
    let undated := { costing 6 with date := none }
    let snapshot : Snapshot := ⟨Profile.plain Uuid.zero "" (tenths 8), [], [costing 0]⟩
    let edited : Snapshot := { snapshot with expenses := [undated, noted] }
    let signed : Snapshot := { snapshot with expenses := [undated, negative] }
    let fresh : Intake.Supply := fun _ => Uuid.zero
    (snapshot.expenses.filterMap Intake.entryOf = edited.expenses.filterMap Intake.entryOf ∧
      (build fresh .lenient day snapshot).map shown = (build fresh .lenient day edited).map shown) ∧
    (List.Forall₂ SameEntry (snapshot.expenses.filterMap Intake.entryOf)
        (signed.expenses.filterMap Intake.entryOf) ∧
      ∃ dashboard, build fresh .lenient day snapshot = .ok dashboard ∧
        ∃ twin, build fresh .lenient day signed = .ok twin ∧ Alike dashboard twin) ∧
    Intake.Edited snapshot.expenses edited.expenses ∧
      (build fresh .lenient day snapshot).map shown =
        (build fresh .lenient day edited).map shown := by
  intro day noted negative undated snapshot edited signed fresh
  have entries : snapshot.expenses.filterMap Intake.entryOf =
      edited.expenses.filterMap Intake.entryOf := by decide +kernel
  have plain : snapshot.expenses.filterMap Intake.entryOf = [(day, tenths 0, "")] := by
    decide +kernel
  have minus : signed.expenses.filterMap Intake.entryOf = [(day, zero true, "")] := by
    decide +kernel
  have same : List.Forall₂ SameEntry (snapshot.expenses.filterMap Intake.entryOf)
      (signed.expenses.filterMap Intake.entryOf) := by
    rw [plain, minus]
    exact .cons ⟨rfl, by decide +kernel, rfl⟩ .nil
  have edits : Intake.Edited snapshot.expenses edited.expenses :=
    .inserted [] [noted] undated (.reworded [] [] (costing 0) noted .nothing (.notes _))
      (by decide +kernel)
  have built := build_lenient fresh day snapshot (not_or.mpr (by decide +kernel))
  obtain ⟨fromEntries, fromEqual, fromEdits⟩ := entries_decide
  exact ⟨⟨entries, fromEntries fresh fresh day snapshot edited rfl rfl entries⟩,
    ⟨same, _, built, fromEqual fresh fresh day snapshot signed rfl rfl same _ built⟩,
    edits, fromEdits fresh fresh day snapshot edited.expenses edits⟩

end Dashboard

end HabitLedger
