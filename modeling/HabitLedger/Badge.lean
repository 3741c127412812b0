import HabitLedger.Totals

/-!
Badges. The catalog lists all of them in a fixed order; which are earned depends on the totals
alone. A board shows the whole catalog, an earned list only the names of the badges that are earned,
both in the order of the catalog.
-/

namespace HabitLedger

open Json

inductive Badge where
  | firstStep
  | trackerPro
  | budgetMaster
  | saver
  | streakKing
  | streakLegend
  deriving DecidableEq

namespace Badge

def catalog : List Badge :=
  [.firstStep, .trackerPro, .budgetMaster, .saver, .streakKing, .streakLegend]

def id : Badge → String
  | .firstStep => "first_step"
  | .trackerPro => "tracker_pro"
  | .budgetMaster => "budget_master"
  | .saver => "saver"
  | .streakKing => "streak_king"
  | .streakLegend => "streak_legend"

def tag : Badge → String
  | .firstStep => "FirstStep"
  | .trackerPro => "TrackerPro"
  | .budgetMaster => "BudgetMaster"
  | .saver => "Saver"
  | .streakKing => "StreakKing"
  | .streakLegend => "StreakLegend"

def icon : Badge → String
  | .firstStep => "🎯"
  | .trackerPro => "📊"
  | .budgetMaster => "💰"
  | .saver => "💎"
  | .streakKing => "🔥"
  | .streakLegend => "⚡"

def title : Badge → String
  | .firstStep => "First Step"
  | .trackerPro => "Tracker Pro"
  | .budgetMaster => "Budget Master"
  | .saver => "Saver"
  | .streakKing => "Streak King"
  | .streakLegend => "Streak Legend"

def name (badge : Badge) : String := badge.icon ++ " " ++ badge.title

def description : Badge → String
  | .firstStep => "Added your first expense"
  | .trackerPro => "Logged 30+ expenses"
  | .budgetMaster => "Stayed under budget"
  | .saver => "Used less than 80% of budget"
  | .streakKing => "7-day tracking streak"
  | .streakLegend => "30-day tracking streak"

def summary (badge : Badge) : String :=
  "BadgeDefinition \x7b id: " ++ badge.tag ++ ", name: " ++ Text.visible badge.name ++ ", .. \x7d"

def budgetMinimum : Nat := 5

def saverCeiling : Binary64 := 80

/-- Whether the budget is used below the ceiling; without a budget nothing is saved. -/
def Frugal (totals : Totals) : Prop := ∃ percent ∈ totals.usagePercent, percent < saverCeiling

instance (totals : Totals) : Decidable (Frugal totals) :=
  match usage : totals.usagePercent with
  | none => isFalse (by simp [Frugal, usage])
  | some percent => decidable_of_iff (percent < saverCeiling) (by simp [Frugal, usage])

def Earned (totals : Totals) : Badge → Prop
  | .firstStep => 1 ≤ totals.expenses
  | .trackerPro => 30 ≤ totals.expenses
  | .budgetMaster => totals.UnderBudget ∧ budgetMinimum ≤ totals.expenses
  | .saver => Frugal totals ∧ budgetMinimum ≤ totals.expenses
  | .streakKing => 7 ≤ totals.streak
  | .streakLegend => 30 ≤ totals.streak

instance (totals : Totals) : (badge : Badge) → Decidable (Earned totals badge)
  | .firstStep => inferInstanceAs (Decidable (_ ≤ _))
  | .trackerPro => inferInstanceAs (Decidable (_ ≤ _))
  | .budgetMaster => inferInstanceAs (Decidable (_ ∧ _))
  | .saver => inferInstanceAs (Decidable (_ ∧ _))
  | .streakKing => inferInstanceAs (Decidable (_ ≤ _))
  | .streakLegend => inferInstanceAs (Decidable (_ ≤ _))

def earned (totals : Totals) : List Badge := catalog.filter fun badge => Earned totals badge

def reader (room : Nat) : Reader Badge :=
  Reader.variant (catalog.map fun badge => (badge.id, badge)) room

end Badge

structure EarnedList where
  names : List String
  deriving DecidableEq

namespace EarnedList

def empty : EarnedList := ⟨[]⟩

def push (list : EarnedList) (name : String) : EarnedList := ⟨list.names ++ [name]⟩

def contains (list : EarnedList) (name : String) : Bool := list.names.contains name

def ofTotals (totals : Totals) : EarnedList := ⟨(Badge.earned totals).map (·.name)⟩

def toValue (list : EarnedList) : Value := .list (list.names.map .text)

def reader (room : Nat) : Reader EarnedList :=
  (Reader.list (fun _ => .text) room).check fun names => .ok ⟨names⟩

end EarnedList

structure BoardEntry where
  badge : Badge
  name : String
  description : String
  icon : String
  earned : Bool
  deriving DecidableEq

namespace BoardEntry

def ofBadge (totals : Totals) (badge : Badge) : BoardEntry where
  badge := badge
  name := badge.name
  description := badge.description
  icon := badge.icon
  earned := Badge.Earned totals badge

def toValue (entry : BoardEntry) : Value :=
  .object
    [("id", .text entry.badge.id), ("name", .text entry.name),
      ("description", .text entry.description), ("icon", .text entry.icon),
      ("earned", .boolean entry.earned)]

def record : Record BoardEntry where
  name := "BadgeStatus"
  fields :=
    .field (.required "id" Badge.reader) <|
    .field (.required "name" fun _ => .text) <|
    .field (.required "description" fun _ => .text) <|
    .field (.required "icon" fun _ => .text) <|
    .field (.required "earned" fun _ => .boolean) .done
  build
    | (badge, name, description, icon, earned, ()) => ⟨badge, name, description, icon, earned⟩

end BoardEntry

structure Board where
  entries : List BoardEntry
  deriving DecidableEq

namespace Board

def ofTotals (totals : Totals) : Board := ⟨Badge.catalog.map (BoardEntry.ofBadge totals)⟩

def earned (board : Board) : List BoardEntry := board.entries.filter (·.earned)

def earnedCount (board : Board) : Nat := board.earned.length

def lockedCount (board : Board) : Nat := board.entries.length - board.earnedCount

def toValue (board : Board) : Value :=
  .object [("entries", .list (board.entries.map BoardEntry.toValue))]

def record : Record Board where
  name := "BadgeBoard"
  fields := .field (.required "entries" (Reader.list BoardEntry.record.reader)) .done
  build
    | (entries, ()) => ⟨entries⟩

end Board

end HabitLedger
