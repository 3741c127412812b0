import HabitLedger.Run
import Std.Time.Zoned

/-!
The program on a command line. It gathers what surrounds a run, from the files that were named, the
clock and the system's random bytes, and shows how the run ends.
-/

namespace HabitLedger.Program

/-- A reason by the number and the wording that the system gives; some of its numbers come with
their sign turned. -/
def systemFault (code : UInt32) (details : String) : DiskFault :=
  let number := if code < 0x80000000 then code else 0 - code
  if number = 2 then .notFound
  else if number = 20 then .notDirectory
  else if number = 21 then .isDirectory
  else if number = 36 then .nameTooLong
  else .other details.capitalize number

def diskFault : IO.Error → DiskFault
  | .alreadyExists _ code details | .otherError code details | .resourceBusy code details
  | .resourceVanished code details | .unsupportedOperation code details
  | .hardwareFault code details | .unsatisfiedConstraints code details
  | .illegalOperation code details | .protocolError code details | .timeExpired code details
  | .interrupted _ code details | .noFileOrDirectory _ code details
  | .invalidArgument _ code details | .permissionDenied _ code details
  | .resourceExhausted _ code details | .inappropriateType _ code details
  | .noSuchThing _ code details => systemFault code details
  | .unexpectedEof => .other "Unexpected end of file" 0
  | .userError details => .other details 0

def readText (path : String) : IO (Except DiskFault String) := do
  try
    match String.fromUTF8? (← IO.FS.readBinFile path) with
    | some text => return .ok text
    | none => return .error .notText
  catch fault => return .error (diskFault fault)

def readText? (path : String) : IO (Option (Except DiskFault String)) := do
  match ← readText path with
  | .error .notFound | .error .notDirectory => return none
  | reading => return some reading

def firstDay : Date := ⟨1970, 1, 1, by decide⟩

def utcToday : IO Date := do
  let now ← Std.Time.Timestamp.now
  return (firstDay.plusDays? now.toDaysSinceUnixEpoch.val).getD firstDay

/-- Today in the local time zone, or by universal time if the system does not know its zone. -/
def localToday : IO Date := do
  try
    let now ← Std.Time.PlainDate.now
    return (firstDay.plusDays? now.toEpochDay.val).getD firstDay
  catch _ => utcToday

def supply : IO Intake.Supply := do
  let bytes ← IO.getRandomBytes 16
  let start := bytes.toList.foldl (fun bits byte => 256 * bits + byte.toNat) 0
  return fun place => Uuid.ofRandom (BitVec.ofNat 128 (start + place))

def surroundings (command : Except CommandFault Command) : IO Surroundings := do
  let settingsPath := SettingsFile.standardPath
    (SettingsFile.userDirectory (← IO.getEnv "XDG_CONFIG_HOME") (← IO.getEnv "HOME"))
  let (settings, document) ← match command with
    | .ok (.report request) =>
      pure (← readText? (request.settings.getD settingsPath), ← readText request.input)
    | _ => pure (none, .error .notFound)
  let (localDay, utcDay) := (← localToday, ← utcToday)
  return {
    settings := fun _ => settings
    document := fun _ => document
    settingsPath := settingsPath
    today := fun
      | .localDay => localDay
      | .utcDay => utcDay
    fresh := ← supply }

end HabitLedger.Program

def main (arguments : List String) : IO UInt32 := do
  let surroundings ← HabitLedger.Program.surroundings (HabitLedger.Command.parse arguments)
  let outcome := HabitLedger.Run.outcome surroundings arguments
  (← IO.getStdout).putStr outcome.output
  (← IO.getStderr).putStr outcome.errors
  return outcome.code
