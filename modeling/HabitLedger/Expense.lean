import HabitLedger.Json.Record

/-!
Expenses as they are kept: every one has an identifier, a day and an amount. Several may fall on one
day.
-/

namespace HabitLedger

structure Expense where
  id : Uuid
  day : Date
  amount : Binary64
  category : String
  color : Option String
  notes : Option String
  deriving DecidableEq

namespace Expense

open Json

def plain (id : Uuid) (day : Date) (amount : Binary64) (category : String) : Expense :=
  ⟨id, day, amount, category, none, none⟩

def BelongsTo (expense : Expense) (category : String) : Prop := expense.category = category

instance (expense : Expense) (category : String) : Decidable (expense.BelongsTo category) :=
  inferInstanceAs (Decidable (_ = _))

def toValue (expense : Expense) : Value :=
  .object <|
    [("id", .text expense.id.text), ("date", .text expense.day.text),
      ("amount", .real expense.amount), ("category", .text expense.category)] ++
    Value.present "category_color" .text expense.color ++
    Value.present "notes" .text expense.notes

def record : Record Expense where
  name := "ExpenseRecord"
  fields :=
    .field (.required "id" fun _ => .uuid) <|
    .field (.required "date" fun _ => .date) <|
    .field (.required "amount" fun _ => .real) <|
    .field (.withDefault "category" (fun _ => .text) "") <|
    .field (.optional "category_color" fun _ => .text) <|
    .field (.optional "notes" fun _ => .text) .done
  build
    | (id, day, amount, category, color, notes, ()) => ⟨id, day, amount, category, color, notes⟩

end Expense

end HabitLedger
