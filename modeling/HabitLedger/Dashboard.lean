import HabitLedger.Category
import HabitLedger.Intake
import HabitLedger.Standing

/-!
The dashboard: from a document with a profile, its categories and its arriving expenses to
everything there is to show about them on a day. The budget is checked before the expenses are taken
in.
-/

namespace HabitLedger

open Json

structure Snapshot where
  profile : Profile
  categories : List Category
  expenses : List RawExpense
  deriving DecidableEq

namespace Snapshot

def record : Record Snapshot where
  name := "SnapshotInput"
  fields :=
    .field (.required "profile" Profile.record.reader) <|
    .field (.withDefault "categories" (Reader.list Category.record.reader) []) <|
    .field (.withDefault "expenses" (Reader.list RawExpense.record.reader) []) .done
  build
    | (profile, categories, expenses, ()) => ⟨profile, categories, expenses⟩

def ofText (text : String) : Except Fault Snapshot := decode record.reader text

end Snapshot

inductive Refusal where
  | badBudget (cause : AmountFault)
  | badExpense (issue : SetAside)
  deriving DecidableEq

namespace Refusal

def message : Refusal → String
  | .badBudget cause => s!"Invalid budget: {cause.message}"
  | .badExpense issue => issue.message

end Refusal

structure Dashboard where
  profileId : Uuid
  day : Date
  update : ProfileUpdate
  streak : Streak
  totals : Totals
  budgetPercent : Option Binary64
  savingsPercent : Option Binary64
  board : Board
  spending : List Spending
  aside : List SetAside
  deriving DecidableEq

namespace Dashboard

def checkBudget (budget : Binary64) : Except Refusal Binary64 :=
  (Intake.nonNegative budget).mapError .badBudget

def ofSifted (snapshot : Snapshot) (today : Date) (sifted : Sifted) : Dashboard :=
  let standing := Standing.compute snapshot.profile sifted.accepted today
  { profileId := snapshot.profile.id
    day := today
    update := standing.update
    streak := standing.streak
    totals := standing.totals
    budgetPercent := standing.totals.usagePercent
    savingsPercent := snapshot.profile.savingsPercent
    board := standing.board
    spending := Spending.table snapshot.categories sifted.accepted
    aside := sifted.aside }

def build (fresh : Intake.Supply) (mode : IntakeMode) (today : Date) (snapshot : Snapshot) :
    Except Refusal Dashboard := do
  let _ ← checkBudget snapshot.profile.totalBudget
  let sifted ← (Intake.run mode fresh snapshot.expenses).mapError .badExpense
  .ok (ofSifted snapshot today sifted)

def toValue (dashboard : Dashboard) : Value :=
  .object <|
    [("profile_id", .text dashboard.profileId.text), ("evaluated_on", .text dashboard.day.text),
      ("profile_update", dashboard.update.toValue), ("streak", dashboard.streak.toValue),
      ("stats", dashboard.totals.toValue),
      ("budget_usage_percent", .optional .real dashboard.budgetPercent),
      ("savings_progress_percent", .optional .real dashboard.savingsPercent),
      ("board", dashboard.board.toValue),
      ("categories", .list (dashboard.spending.map Spending.toValue))] ++
    if dashboard.aside = [] then []
    else [("skipped_records", .list (dashboard.aside.map SetAside.toValue))]

end Dashboard

end HabitLedger
