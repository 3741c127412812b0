import HabitLedger.Json.Record

/-!
Logging streaks. Days on which something was logged are brought in order, newest first, each once,
and cut into runs of days without a gap. The longest streak is the longest run; the current streak
is the newest run, as long as it reaches the day before today.
-/

namespace HabitLedger

/-- How many days may lie between the newest day and today for the newest run to go on. -/
def graceDays : Int := 1

structure Streak where
  current : UInt32
  longest : UInt32
  lastDay : Option Date
  deriving DecidableEq

namespace Streak

open Json

def distinctDays (days : List Date) : List Date :=
  (days.mergeSort fun a b => decide (b ≤ a)).eraseReps

def follows (newer older : Date) : Bool := newer.dayNumber - older.dayNumber = 1

def runs (days : List Date) : List (List Date) := days.splitBy follows

def runLengths (days : List Date) : List Nat := (runs days).map List.length

/-- Whether a history whose newest day is this one still counts today. A day to come counts too. -/
def Alive (newest today : Date) : Prop := today.dayNumber - newest.dayNumber ≤ graceDays

instance (newest today : Date) : Decidable (Alive newest today) :=
  inferInstanceAs (Decidable (_ ≤ _))

def empty : Streak := ⟨0, 0, none⟩

def ofDistinct (today : Date) : List Date → Streak
  | [] => empty
  | newest :: older =>
    let lengths := runLengths (newest :: older)
    { current := if Alive newest today then UInt32.ofNat (lengths.headD 0) else 0
      longest := UInt32.ofNat (lengths.foldl max 0)
      lastDay := some newest }

def compute (days : List Date) (today : Date) : Streak := ofDistinct today (distinctDays days)

def Active (streak : Streak) : Prop := 0 < streak.current

instance (streak : Streak) : Decidable streak.Active := inferInstanceAs (Decidable (_ < _))

def toValue (streak : Streak) : Value :=
  .object
    [("current_streak", .natural streak.current.toNat),
      ("longest_streak", .natural streak.longest.toNat),
      ("last_expense_date", .optional (fun day => .text day.text) streak.lastDay)]

def record : Record Streak where
  name := "StreakResult"
  fields :=
    .field (.required "current_streak" fun _ => .word32) <|
    .field (.required "longest_streak" fun _ => .word32) <|
    .field (.nullable "last_expense_date" fun _ => .date) .done
  build
    | (current, longest, lastDay, ()) => ⟨current, longest, lastDay⟩

end Streak

end HabitLedger
