import HabitLedger.Expense
import HabitLedger.RawExpense

/-!
Taking in expenses. An arriving expense is accepted if its date, its amount and its identifier are
good, and is checked in this order; one without an identifier gets a fresh one. A list is taken in
strictly, where the first bad expense refuses all, or leniently, where bad expenses are set aside
with their places and reasons.
-/

namespace HabitLedger

inductive AmountFault where
  | notNumber (text : String)
  | notFinite (value : Binary64)
  | negative (value : Binary64)
  deriving DecidableEq

namespace AmountFault

def message : AmountFault → String
  | .notNumber text => s!"`{text}` is not a number"
  | .notFinite value => s!"{value.text .plain} is not finite"
  | .negative value => s!"{value.text .plain} is negative"

end AmountFault

inductive Rejection where
  | missingDate
  | missingAmount
  | badDate (text : String)
  | badAmount (cause : AmountFault)
  | badIdentifier (text : String)
  deriving DecidableEq

namespace Rejection

def message : Rejection → String
  | .missingDate => "Validation failed: missing date"
  | .missingAmount => "Validation failed: missing amount"
  | .badDate text => s!"Invalid date: `{text}`"
  | .badAmount cause => s!"Invalid amount: {cause.message}"
  | .badIdentifier text => s!"Invalid identifier: `{text}`"

end Rejection

namespace Intake

/-- A number that is finite and not below zero. Negative zero is not below zero and stays. -/
def nonNegative (value : Binary64) : Except AmountFault Binary64 :=
  if value.isFinite = false then .error (.notFinite value)
  else if value < 0 then .error (.negative value)
  else .ok value

def amountValue : RawAmount → Except AmountFault Binary64
  | .number value => .ok value
  | .text text => match Binary64.ofText? (Text.trimmed text) with
    | some value => .ok value
    | none => .error (.notNumber text)

def amount (raw : RawAmount) : Except AmountFault Binary64 := do
  nonNegative (← amountValue raw)

def day (text : String) : Except Rejection Date :=
  match Date.ofText? text with
  | some day => .ok day
  | none => .error (.badDate text)

end Intake

namespace RawExpense

def givenId (raw : RawExpense) : Option String :=
  (raw.id.map Text.trimmed).filter fun text => !text.isEmpty

def givenNotes (raw : RawExpense) : Option String :=
  raw.notes.filter fun notes => ¬ Text.AllBlank notes.toList

def checkedDay (raw : RawExpense) : Except Rejection Date :=
  match raw.date with
  | none => .error .missingDate
  | some text => Intake.day text

def checkedAmount (raw : RawExpense) : Except Rejection Binary64 :=
  match raw.amount with
  | none => .error .missingAmount
  | some given => (Intake.amount given).mapError .badAmount

def checkedId (fresh : Uuid) (raw : RawExpense) : Except Rejection Uuid :=
  match raw.givenId with
  | none => .ok fresh
  | some text => (Uuid.read text.toList).mapError fun _ => .badIdentifier text

def accept (fresh : Uuid) (raw : RawExpense) : Except Rejection Expense := do
  let day ← raw.checkedDay
  let amount ← raw.checkedAmount
  let id ← raw.checkedId fresh
  .ok ⟨id, day, amount, raw.category.getD "", raw.color, raw.givenNotes⟩

end RawExpense

inductive IntakeMode where
  | lenient
  | strict
  deriving DecidableEq

namespace IntakeMode

def names : List (String × IntakeMode) := [("lenient", .lenient), ("strict", .strict)]

def text : IntakeMode → String
  | .lenient => "lenient"
  | .strict => "strict"

end IntakeMode

structure SetAside where
  index : Nat
  cause : Rejection
  deriving DecidableEq

namespace SetAside

open Json

def toValue (issue : SetAside) : Value :=
  .object [("index", .natural issue.index), ("reason", .text issue.cause.message)]

def message (issue : SetAside) : String :=
  s!"Record {issue.index} rejected: {issue.cause.message}"

end SetAside

structure Sifted where
  accepted : List Expense
  aside : List SetAside
  deriving DecidableEq

namespace Intake

/-- Fresh identifiers, one for every place in the list. -/
abbrev Supply := Nat → Uuid

def strictFrom (fresh : Supply) (index : Nat) : List RawExpense → Except SetAside (List Expense)
  | [] => .ok []
  | raw :: rest => match raw.accept (fresh index) with
    | .error cause => .error ⟨index, cause⟩
    | .ok expense => (strictFrom fresh (index + 1) rest).map (expense :: ·)

def lenientFrom (fresh : Supply) (index : Nat) : List RawExpense → Sifted
  | [] => ⟨[], []⟩
  | raw :: rest =>
    let more := lenientFrom fresh (index + 1) rest
    match raw.accept (fresh index) with
    | .error cause => { more with aside := ⟨index, cause⟩ :: more.aside }
    | .ok expense => { more with accepted := expense :: more.accepted }

def strict (fresh : Supply) (raws : List RawExpense) : Except SetAside (List Expense) :=
  strictFrom fresh 0 raws

def lenient (fresh : Supply) (raws : List RawExpense) : Sifted := lenientFrom fresh 0 raws

def run (mode : IntakeMode) (fresh : Supply) (raws : List RawExpense) : Except SetAside Sifted :=
  match mode with
  | .strict => (strict fresh raws).map (⟨·, []⟩)
  | .lenient => .ok (lenient fresh raws)

end Intake

end HabitLedger
