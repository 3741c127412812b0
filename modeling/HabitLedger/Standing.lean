import HabitLedger.Badge
import HabitLedger.Profile

/-!
Where a profile stands: its streak, its totals and its badges, all computed anew from the whole
history.
-/

namespace HabitLedger

open Json

structure ProfileUpdate where
  badges : EarnedList
  currentStreak : UInt32
  longestStreak : UInt32
  lastDay : Option Date
  deriving DecidableEq

namespace ProfileUpdate

def toValue (update : ProfileUpdate) : Value :=
  .object
    [("badges", update.badges.toValue),
      ("current_streak", .natural update.currentStreak.toNat),
      ("longest_streak", .natural update.longestStreak.toNat),
      ("last_expense_date", .optional (fun day => .text day.text) update.lastDay)]

def record : Record ProfileUpdate where
  name := "ProfileGamificationUpdate"
  fields :=
    .field (.required "badges" EarnedList.reader) <|
    .field (.required "current_streak" fun _ => .word32) <|
    .field (.required "longest_streak" fun _ => .word32) <|
    .field (.nullable "last_expense_date" fun _ => .date) .done
  build
    | (badges, currentStreak, longestStreak, lastDay, ()) =>
      ⟨badges, currentStreak, longestStreak, lastDay⟩

end ProfileUpdate

structure Standing where
  streak : Streak
  totals : Totals
  badges : EarnedList
  board : Board
  deriving DecidableEq

namespace Standing

def compute (profile : Profile) (expenses : List Expense) (today : Date) : Standing :=
  let streak := Streak.compute (expenses.map (·.day)) today
  let totals := Totals.ofExpenses expenses profile.totalBudget streak
  ⟨streak, totals, EarnedList.ofTotals totals, Board.ofTotals totals⟩

def update (standing : Standing) : ProfileUpdate :=
  ⟨standing.badges, standing.streak.current, standing.streak.longest, standing.streak.lastDay⟩

def toValue (standing : Standing) : Value :=
  .object
    [("streak", standing.streak.toValue), ("stats", standing.totals.toValue),
      ("badges", standing.badges.toValue), ("board", standing.board.toValue)]

end Standing

end HabitLedger
