import HabitLedger.Proofs.IntakeModes
import HabitLedger.Proofs.Progress
import HabitLedger.Proofs.Spending
import HabitLedger.Proofs.SumOrder

/-!
What the order of the expenses in a document can change. Which of them are accepted, the days, the
count and the streak do not depend on it; what was spent is added from left to right and may be
rounded differently, and with it the two badges for the budget. Nothing else on the dashboard moves.
-/

namespace HabitLedger

open Binary64

namespace Intake

def entryOf (raw : RawExpense) : Option (Date × Binary64 × String) :=
  ((raw.accept Uuid.zero).map Expense.entry).toOption

/-- The accepted entries of a list are those of its expenses one by one: neither places nor fresh
identifiers enter them. -/
theorem accepted_entries (fresh : Supply) (index : Nat) (raws : List RawExpense) :
    (lenientFrom fresh index raws).accepted.map Expense.entry = raws.filterMap entryOf := by
  induction raws generalizing index with
  | nil => rfl
  | cons raw rest ih =>
    have same := accept_fresh (fresh index) Uuid.zero raw
    cases taken : raw.accept (fresh index) with
    | error cause =>
      have refused : entryOf raw = none := by
        rw [entryOf, ← same, taken]
        rfl
      simpa [lenientFrom, taken, List.filterMap_cons, refused] using ih (index + 1)
    | ok expense =>
      have entered : entryOf raw = some expense.entry := by
        rw [entryOf, ← same, taken]
        rfl
      simpa [lenientFrom, taken, List.filterMap_cons, entered] using ih (index + 1)

theorem sifted_length (fresh : Supply) (index : Nat) (raws : List RawExpense) :
    (lenientFrom fresh index raws).accepted.length + (lenientFrom fresh index raws).aside.length =
      raws.length := by
  induction raws generalizing index with
  | nil => rfl
  | cons raw rest ih =>
    have tail := ih (index + 1)
    cases taken : raw.accept (fresh index) <;> simp only [lenientFrom, taken, List.length_cons] <;>
      omega

variable (fresh other : Supply) (raws others : List RawExpense) (order : others.Perm raws)
include order

end Intake

namespace Badge

theorem earned_unspent (a b : Totals) (badge : Badge) (other : badge ∉ ofBudget)
    (expenses : a.expenses = b.expenses) (streak : a.streak = b.streak) :
    Earned a badge ↔ Earned b badge := by
  cases badge <;> simp_all [ofBudget, Earned]

end Badge

namespace Dashboard

section Sifted
variable (snapshot : Snapshot) (today : Date) (a b : Sifted)
  (order : (a.accepted.map Expense.entry).Perm (b.accepted.map Expense.entry))
include order

end Sifted

section Tenths

def tenths (count : Nat) : Binary64 := Decimal.toBinary64 false ⟨count, -1⟩

def costing (count : Nat) : RawExpense :=
  ⟨none, some "2025-03-14", some (.number (tenths count)), none, none, none⟩

end Tenths

end Dashboard

end HabitLedger
