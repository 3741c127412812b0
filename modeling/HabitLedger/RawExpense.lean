import HabitLedger.Json.Record

/-!
Expenses as they arrive: anything may be missing, the date is any text and the amount a number or
any text.
-/

namespace HabitLedger

open Json

inductive RawAmount where
  | number (value : Binary64)
  | text (value : String)
  deriving DecidableEq

namespace RawAmount

def toValue : RawAmount → Value
  | .number value => .real value
  | .text value => .text value

def ofValue : Value → Except Fault RawAmount
  | .number n => .ok (.number n.toBinary64)
  | .text t => .ok (.text t)
  | _ => .error (.noVariant "RawAmount")

def reader (room : Nat) : Reader RawAmount := (Reader.any room).check ofValue

end RawAmount

structure RawExpense where
  id : Option String
  date : Option String
  amount : Option RawAmount
  category : Option String
  color : Option String
  notes : Option String
  deriving DecidableEq

namespace RawExpense

def toValue (raw : RawExpense) : Value :=
  .object
    [("id", .optional .text raw.id), ("date", .optional .text raw.date),
      ("amount", .optional RawAmount.toValue raw.amount),
      ("category", .optional .text raw.category),
      ("category_color", .optional .text raw.color), ("notes", .optional .text raw.notes)]

def record : Record RawExpense where
  name := "RawExpense"
  fields :=
    .field (.optional "id" fun _ => .text) <|
    .field (.optional "date" fun _ => .text) <|
    .field (.optional "amount" RawAmount.reader) <|
    .field (.optional "category" fun _ => .text) <|
    .field (.optional "category_color" fun _ => .text) <|
    .field (.optional "notes" fun _ => .text) .done
  build
    | (id, date, amount, category, color, notes, ()) => ⟨id, date, amount, category, color, notes⟩

end RawExpense

end HabitLedger
