import HabitLedger.Binary64.Basic

/-!
Shares in percent.
-/

namespace HabitLedger

def percentage (part whole : Binary64) : Option Binary64 :=
  if whole.isFinite = false ∨ whole ≤ 0 then none else some (part / whole * 100)

end HabitLedger
