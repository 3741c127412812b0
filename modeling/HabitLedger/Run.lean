import HabitLedger.BuildInfo
import HabitLedger.Command
import HabitLedger.Dashboard
import HabitLedger.SettingsFile

/-!
One run of the program: the settings are loaded, then the document is read, then the dashboard is
built and written. What surrounds the run, such as files, today and fresh identifiers, comes as
data.
-/

namespace HabitLedger

open Json

structure Surroundings where
  settings : String → Option (Except DiskFault String)
  document : String → Except DiskFault String
  settingsPath : String
  today : DayBoundary → Date
  fresh : Intake.Supply

inductive RunFault where
  | command (cause : CommandFault)
  | settings (cause : SettingsFault)
  | disk (cause : DiskFault)
  | document (cause : Fault)
  | refused (cause : Refusal)
  deriving DecidableEq

namespace RunFault

def message : RunFault → String
  | .command cause => cause.message
  | .settings cause => s!"Configuration error: {cause.message}"
  | .disk cause => s!"IO error: {cause.message}"
  | .document cause => s!"Serialization error: {cause.message}"
  | .refused cause => cause.message

end RunFault

structure Outcome where
  code : UInt32
  output : String
  errors : String
  deriving DecidableEq

namespace Run

def dashboardText (fresh : Intake.Supply) (settings : Settings) (today : Date)
    (text : String) : Except RunFault String := do
  let snapshot ← (Snapshot.ofText text).mapError .document
  let dashboard ← (Dashboard.build fresh settings.intakeMode today snapshot).mapError .refused
  .ok (if settings.pretty then dashboard.toValue.toPretty else dashboard.toValue.toCompact)

def report (around : Surroundings) (request : ReportRequest) : Except RunFault String := do
  let path := request.settings.getD around.settingsPath
  let settings ← (SettingsFile.ofReading (around.settings path)).mapError .settings
  let text ← (around.document request.input).mapError .disk
  dashboardText around.fresh settings
    (request.today.getD (around.today settings.dayBoundary)) text

def answer (around : Surroundings) : Command → Except RunFault String
  | .version => .ok BuildInfo.current.text
  | .help => .ok Command.usage
  | .report request => report around request

def outcome (around : Surroundings) (arguments : List String) : Outcome :=
  match (Command.parse arguments).mapError RunFault.command >>= answer around with
  | .ok text => ⟨0, text ++ "\n", ""⟩
  | .error fault => ⟨1, "", "Error: " ++ fault.message ++ "\n"⟩

def onDisk (disk : Disk) (directory settingsPath : String) (today : DayBoundary → Date)
    (fresh : Intake.Supply) : Surroundings where
  settings path := disk.read? (Path.fromDirectory directory path)
  document path := disk.read (Path.fromDirectory directory path)
  settingsPath := settingsPath
  today := today
  fresh := fresh

end Run

end HabitLedger
