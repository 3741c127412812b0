import HabitLedger.Expense
import HabitLedger.Percentage
import HabitLedger.Streak

/-!
What a history of expenses sums up to: how many there are, what was spent, and the budget and the
current streak that go with them.
-/

namespace HabitLedger

structure Totals where
  expenses : Nat
  spent : Binary64
  budget : Binary64
  streak : UInt32
  deriving DecidableEq

namespace Totals

open Json

def spentOn (expenses : List Expense) : Binary64 := Binary64.sum (expenses.map (·.amount))

/-- The totals of a history. Expenses are counted, not their days. -/
def ofExpenses (expenses : List Expense) (budget : Binary64) (streak : Streak) : Totals :=
  ⟨expenses.length, spentOn expenses, budget, streak.current⟩

def usagePercent (totals : Totals) : Option Binary64 := percentage totals.spent totals.budget

def UnderBudget (totals : Totals) : Prop := totals.spent < totals.budget

instance (totals : Totals) : Decidable totals.UnderBudget := inferInstanceAs (Decidable (_ < _))

def toValue (totals : Totals) : Value :=
  .object
    [("total_expenses", .natural totals.expenses), ("spent", .real totals.spent),
      ("total_budget", .real totals.budget), ("current_streak", .natural totals.streak.toNat)]

def record : Record Totals where
  name := "StatsSnapshot"
  fields :=
    .field (.required "total_expenses" fun _ => .count) <|
    .field (.required "spent" fun _ => .real) <|
    .field (.required "total_budget" fun _ => .real) <|
    .field (.required "current_streak" fun _ => .word32) .done
  build
    | (expenses, spent, budget, streak, ()) => ⟨expenses, spent, budget, streak⟩

end Totals

end HabitLedger
