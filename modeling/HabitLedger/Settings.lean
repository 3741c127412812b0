import HabitLedger.Intake

/-!
Settings. Each has a value of its own for when a document does not give one.
-/

namespace HabitLedger

open Json

inductive DayBoundary where
  | localDay
  | utcDay
  deriving DecidableEq

namespace DayBoundary

def names : List (String × DayBoundary) := [("local", .localDay), ("utc", .utcDay)]

def text : DayBoundary → String
  | .localDay => "local"
  | .utcDay => "utc"

end DayBoundary

structure Settings where
  dayBoundary : DayBoundary
  intakeMode : IntakeMode
  logFilter : String
  pretty : Bool
  deriving DecidableEq

namespace Settings

def standard : Settings := ⟨.localDay, .lenient, "fintrack=info", true⟩

def toValue (settings : Settings) : Value :=
  .object
    [("day_boundary", .text settings.dayBoundary.text),
      ("ingest_mode", .text settings.intakeMode.text), ("log_filter", .text settings.logFilter),
      ("pretty_output", .boolean settings.pretty)]

def record : Record Settings where
  name := "Config"
  fields :=
    .field (.withDefault "day_boundary" (Reader.variant DayBoundary.names) standard.dayBoundary) <|
    .field (.withDefault "ingest_mode" (Reader.variant IntakeMode.names) standard.intakeMode) <|
    .field (.withDefault "log_filter" (fun _ => .text) standard.logFilter) <|
    .field (.withDefault "pretty_output" (fun _ => .boolean) standard.pretty) .done
  build
    | (dayBoundary, intakeMode, logFilter, pretty, ()) =>
      ⟨dayBoundary, intakeMode, logFilter, pretty⟩

def ofText (text : String) : Except Fault Settings := decode record.reader text

end Settings

end HabitLedger
