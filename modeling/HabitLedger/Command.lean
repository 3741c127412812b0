import HabitLedger.Calendar.DateText

/-!
The command line. Arguments are taken from left to right: the first one that breaks the grammar, or
asks for help or for the version, decides, and of a flag that is given twice the last value counts.
The bare words `version` and `help` are commands only in front, so that files may have these names.
-/

namespace HabitLedger

structure ReportRequest where
  input : String
  settings : Option String
  today : Option Date
  deriving DecidableEq

inductive Command where
  | report (request : ReportRequest)
  | version
  | help
  deriving DecidableEq

inductive CommandFault where
  | unknownFlag (flag : String)
  | unexpected (argument : String)
  | missingValue (flag : String)
  | missingInput
  | badDay (text : String)
  deriving DecidableEq

namespace CommandFault

def message : CommandFault → String
  | .unknownFlag flag => s!"Invalid input: unknown flag `{flag}`"
  | .unexpected argument => s!"Invalid input: unexpected argument `{argument}`"
  | .missingValue flag => s!"Invalid input: `{flag}` needs a value"
  | .missingInput => "Invalid input: missing input file"
  | .badDay text => s!"Invalid date: `{text}`"

end CommandFault

namespace Command

structure Given where
  input : Option String
  settings : Option String
  today : Option Date

def isFlag (argument : String) : Bool := argument.toList.take 2 = ['-', '-']

def parseFrom (given : Given) : List String → Except CommandFault Command
  | [] => match given.input with
    | none => .error .missingInput
    | some input => .ok (.report ⟨input, given.settings, given.today⟩)
  | argument :: rest =>
    if argument = "--version" ∨ argument = "-V" then .ok .version
    else if argument = "--help" ∨ argument = "-h" then .ok .help
    else if argument = "--config" then
      match rest with
      | [] => .error (.missingValue argument)
      | value :: rest => parseFrom { given with settings := some value } rest
    else if argument = "--today" then
      match rest with
      | [] => .error (.missingValue argument)
      | value :: rest => match Date.ofText? value with
        | some today => parseFrom { given with today := some today } rest
        | none => .error (.badDay value)
    else if isFlag argument then .error (.unknownFlag argument)
    else if given.input.isSome then .error (.unexpected argument)
    else parseFrom { given with input := some argument } rest

def parse (arguments : List String) : Except CommandFault Command :=
  if arguments.head? = some "version" then .ok .version
  else if arguments.head? = some "help" then .ok .help
  else parseFrom ⟨none, none, none⟩ arguments

def usage : String :=
  "Usage: fintrack_cli <input.json> [--config <path>] [--today YYYY-MM-DD]\n" ++
    "       fintrack_cli version"

end Command

end HabitLedger
