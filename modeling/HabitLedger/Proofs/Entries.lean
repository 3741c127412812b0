import HabitLedger.Dashboard

/-!
What is counted of an expense. Its day, its amount and its category make an entry; the rest, such as
its identifier and its notes, is kept but enters no number and no badge. A dashboard is computed
from the entries alone.
-/

namespace HabitLedger

def Expense.entry (expense : Expense) : Date × Binary64 × String :=
  (expense.day, expense.amount, expense.category)

/-- What is filed under a category can be told from the entries. -/
theorem filed_entries (expenses : List Expense) (category : String) :
    (expenses.filter fun expense => expense.BelongsTo category).map (·.amount) =
      ((expenses.map Expense.entry).filter fun entry => entry.2.2 = category).map (·.2.1) := by
  rw [List.filter_map, List.map_map]
  rfl

section Counted
variable (a b : List Expense) (same : a.map Expense.entry = b.map Expense.entry)
include same

theorem days_of_entries : a.map (·.day) = b.map (·.day) := by
  simpa [Function.comp_def, Expense.entry] using congrArg (List.map (·.1)) same

theorem amounts_of_entries : a.map (·.amount) = b.map (·.amount) := by
  simpa [Function.comp_def, Expense.entry] using congrArg (List.map (·.2.1)) same

theorem length_of_entries : a.length = b.length := by
  simpa using congrArg List.length same

theorem filed_of_entries (category : String) :
    (a.filter fun expense => expense.BelongsTo category).map (·.amount) =
      (b.filter fun expense => expense.BelongsTo category).map (·.amount) := by
  rw [filed_entries a, filed_entries b, same]

theorem standing_of_entries (profile : Profile) (today : Date) :
    Standing.compute profile a today = Standing.compute profile b today := by
  simp only [Standing.compute, Totals.ofExpenses, Totals.spentOn, days_of_entries a b same,
    amounts_of_entries a b same, length_of_entries a b same]

theorem table_of_entries (categories : List Category) :
    Spending.table categories a = Spending.table categories b := by
  apply List.map_congr_left
  intro category _
  simp only [Spending.ofCategory, filed_of_entries a b same category.name]

end Counted

/-- A dashboard is made from the entries of the accepted expenses and from what was set aside;
nothing else of an expense enters it. -/
theorem dashboard_of_entries (snapshot : Snapshot) (today : Date) (a b : Sifted)
    (same : a.accepted.map Expense.entry = b.accepted.map Expense.entry)
    (aside : a.aside = b.aside) :
    Dashboard.ofSifted snapshot today a = Dashboard.ofSifted snapshot today b := by
  simp only [Dashboard.ofSifted, aside,
    standing_of_entries a.accepted b.accepted same snapshot.profile today,
    table_of_entries a.accepted b.accepted same snapshot.categories]

/-- A fresh identifier decides neither whether an expense is good nor what its entry is. -/
theorem accept_fresh (fresh other : Uuid) (raw : RawExpense) :
    (raw.accept fresh).map Expense.entry = (raw.accept other).map Expense.entry := by
  unfold RawExpense.accept RawExpense.checkedId
  cases raw.checkedDay with
  | error cause => rfl
  | ok day =>
    cases raw.checkedAmount with
    | error cause => rfl
    | ok amount =>
      cases raw.givenId with
      | none => rfl
      | some text => rfl

theorem accept_error_fresh (fresh other : Uuid) (raw : RawExpense) (cause : Rejection)
    (refused : raw.accept fresh = .error cause) : raw.accept other = .error cause := by
  have same := accept_fresh fresh other raw
  rw [refused] at same
  cases found : raw.accept other with
  | error reason =>
    rw [found] at same
    exact congrArg Except.error (Except.error.inj same).symm
  | ok expense =>
    rw [found] at same
    cases same

theorem accept_ok_fresh (fresh other : Uuid) (raw : RawExpense) (expense : Expense)
    (accepted : raw.accept fresh = .ok expense) :
    ∃ twin, raw.accept other = .ok twin ∧ twin.entry = expense.entry := by
  have same := accept_fresh fresh other raw
  rw [accepted] at same
  cases found : raw.accept other with
  | error reason =>
    rw [found] at same
    cases same
  | ok twin =>
    rw [found] at same
    exact ⟨twin, rfl, (Except.ok.inj same).symm⟩

end HabitLedger
