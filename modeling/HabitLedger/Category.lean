import HabitLedger.Expense

/-!
Categories with spending limits, and what was spent in each. An expense counts for the category
whose name is exactly its own.
-/

namespace HabitLedger

open Json

structure Category where
  name : String
  limit : Binary64
  color : Option String
  deriving DecidableEq

namespace Category

def plain (name : String) (limit : Binary64) : Category := ⟨name, limit, none⟩

def toValue (category : Category) : Value :=
  .object <|
    [("name", .text category.name), ("limit", .real category.limit)] ++
    Value.present "color" .text category.color

def record : Record Category where
  name := "Category"
  fields :=
    .field (.required "name" fun _ => .text) <|
    .field (.withDefault "limit" (fun _ => .real) 0) <|
    .field (.optional "color" fun _ => .text) .done
  build
    | (name, limit, color, ()) => ⟨name, limit, color⟩

end Category

structure Spending where
  name : String
  limit : Binary64
  spent : Binary64
  color : Option String
  deriving DecidableEq

namespace Spending

def remaining (spending : Spending) : Binary64 := spending.limit - spending.spent

def OverLimit (spending : Spending) : Prop := spending.limit < spending.spent

instance (spending : Spending) : Decidable spending.OverLimit :=
  inferInstanceAs (Decidable (_ < _))

def ofCategory (expenses : List Expense) (category : Category) : Spending where
  name := category.name
  limit := category.limit
  spent :=
    Binary64.sum ((expenses.filter fun expense => expense.BelongsTo category.name).map (·.amount))
  color := category.color

def table (categories : List Category) (expenses : List Expense) : List Spending :=
  categories.map (ofCategory expenses)

def toValue (spending : Spending) : Value :=
  .object <|
    [("name", .text spending.name), ("limit", .real spending.limit),
      ("spent", .real spending.spent)] ++
    Value.present "color" .text spending.color

def record : Record Spending where
  name := "CategorySpending"
  fields :=
    .field (.required "name" fun _ => .text) <|
    .field (.required "limit" fun _ => .real) <|
    .field (.required "spent" fun _ => .real) <|
    .field (.optional "color" fun _ => .text) .done
  build
    | (name, limit, spent, color, ()) => ⟨name, limit, spent, color⟩

end Spending

end HabitLedger
