import HabitLedger.Json.Record
import HabitLedger.Percentage

/-!
The profile whose budget and savings the expenses are measured against.
-/

namespace HabitLedger

structure Profile where
  id : Uuid
  email : String
  fullName : Option String
  monthlyIncome : Binary64
  totalBudget : Binary64
  savingsGoal : Binary64
  currentSavings : Binary64
  deriving DecidableEq

namespace Profile

open Json

def plain (id : Uuid) (email : String) (totalBudget : Binary64) : Profile :=
  ⟨id, email, none, 0, totalBudget, 0, 0⟩

def savingsPercent (profile : Profile) : Option Binary64 :=
  percentage profile.currentSavings profile.savingsGoal

def toValue (profile : Profile) : Value :=
  .object <|
    [("id", .text profile.id.text), ("email", .text profile.email)] ++
    Value.present "full_name" .text profile.fullName ++
    [("monthly_income", .real profile.monthlyIncome), ("total_budget", .real profile.totalBudget),
      ("savings_goal", .real profile.savingsGoal),
      ("current_savings", .real profile.currentSavings)]

def record : Record Profile where
  name := "Profile"
  fields :=
    .field (.required "id" fun _ => .uuid) <|
    .field (.withDefault "email" (fun _ => .text) "") <|
    .field (.optional "full_name" fun _ => .text) <|
    .field (.withDefault "monthly_income" (fun _ => .real) 0) <|
    .field (.withDefault "total_budget" (fun _ => .real) 0) <|
    .field (.withDefault "savings_goal" (fun _ => .real) 0) <|
    .field (.withDefault "current_savings" (fun _ => .real) 0) .done
  build
    | (id, email, fullName, monthlyIncome, totalBudget, savingsGoal, currentSavings, ()) =>
      ⟨id, email, fullName, monthlyIncome, totalBudget, savingsGoal, currentSavings⟩

end Profile

end HabitLedger
