import HabitLedger.Disk
import HabitLedger.Settings

/-!
Settings kept in a file. Where nothing is there, the standard settings hold. Saving writes a file
beside the settings and then moves it over them, so that the settings file always holds what one
save has written as a whole.
-/

namespace HabitLedger

open Json

inductive SettingsFault where
  | disk (cause : DiskFault)
  | text (cause : Fault)
  deriving DecidableEq

namespace SettingsFault

def message : SettingsFault → String
  | .disk cause => s!"I/O error: {cause.message}"
  | .text cause => s!"Serialization error: {cause.message}"

end SettingsFault

namespace SettingsFile

/-- The directory that the user's system keeps for settings: the one that is set for it, if it is
given from the root, or else one in the user's home. -/
def userDirectory (configured home : Option String) : String :=
  match configured.filter Path.isAbsolute, home.filter (· ≠ "") with
  | some directory, _ => directory
  | none, some directory => Path.below directory ".config"
  | none, none => "."

def standardPath (settingsDirectory : String) : String :=
  Path.below (Path.below settingsDirectory "fintrack") "config.json"

def directoryIn (base : String) : String := Path.below base "config"

def pathIn (base : String) : String := Path.below (directoryIn base) "config.json"

def prepare (disk : Disk) (base : String) : Disk × Option DiskFault :=
  disk.makeDirectories (directoryIn base)

/-- The file that is written beside the settings: the name at the end of the path, with an ending
of its own. A path without such a name stays as it is. -/
def temporary (path : String) : String :=
  match Path.name? path with
  | none => path
  -- `dir/settings.json/` and `dir/settings.json/.` both end in the name `settings.json`.
  | some _ => Path.ofPieces (Path.settled (Path.pieces path)) ++ ".tmp"

def ofReading : Option (Except DiskFault String) → Except SettingsFault Settings
  | none => .ok .standard
  | some (.error cause) => .error (.disk cause)
  | some (.ok text) => (Settings.ofText text).mapError .text

def load (disk : Disk) (path : String) : Except SettingsFault Settings :=
  ofReading (disk.read? path)

def saveSteps (path : String) (settings : Settings) : List Disk.Step :=
  [.makeDirectories (Path.parent path), .clear (temporary path),
    .fill (temporary path) settings.toValue.toPretty, .rename (temporary path) path]

def save (disk : Disk) (path : String) (settings : Settings) : Disk × Option DiskFault :=
  disk.performAll (saveSteps path settings)

end SettingsFile

end HabitLedger
