import HabitLedger.Dashboard

/-!
A ledger: a profile with its categories and its history, seen on a day. Expenses are added and taken
away; everything else is computed from what is there.
-/

namespace HabitLedger

structure Ledger where
  profile : Profile
  categories : List Category
  expenses : List Expense
  today : Date
  deriving DecidableEq

namespace Ledger

def new (profile : Profile) (today : Date) : Ledger := ⟨profile, [], [], today⟩

def add (ledger : Ledger) (expenses : List Expense) : Ledger :=
  { ledger with expenses := ledger.expenses ++ expenses }

def remove? (ledger : Ledger) (index : Nat) : Option Ledger :=
  if index < ledger.expenses.length then
    some { ledger with expenses := ledger.expenses.eraseIdx index }
  else none

def streak (ledger : Ledger) : Streak :=
  Streak.compute (ledger.expenses.map (·.day)) ledger.today

def spent (ledger : Ledger) : Binary64 := Totals.spentOn ledger.expenses

def totals (ledger : Ledger) : Totals :=
  Totals.ofExpenses ledger.expenses ledger.profile.totalBudget ledger.streak

def spending (ledger : Ledger) : List Spending :=
  Spending.table ledger.categories ledger.expenses

def standing (ledger : Ledger) : Standing :=
  Standing.compute ledger.profile ledger.expenses ledger.today

end Ledger

end HabitLedger
