import HabitLedger.Calendar.Date
import HabitLedger.Text.Blank

/-!
Reading days from text. A record's date may be written in four forms: a day alone, a time stamp with
an offset, and a time stamp without one in two spellings; whatever time follows the day is checked
and dropped. The strict form used in stored documents is a day alone and says what is wrong with a
text that is not one.
-/

namespace HabitLedger

inductive DateFault where
  | tooShort
  | invalid
  | tooLong
  | outOfRange
  deriving DecidableEq

namespace DateFault

def message : DateFault → String
  | .tooShort => "premature end of input"
  | .invalid => "input contains invalid characters"
  | .tooLong => "trailing input"
  | .outOfRange => "input is out of range"

end DateFault

namespace DateText

def number (least most : Nat) (s : List Char) : Except DateFault (Nat × List Char) :=
  let row := (s.take most).takeWhile Char.isDigit
  if s.length < least then .error .tooShort
  else if row.length < least then .error .invalid
  else if Text.numeral row < 0x8000000000000000 then .ok (Text.numeral row, s.drop row.length)
  else .error .outOfRange

def part (least most : Nat) (s : List Char) : Except DateFault (Nat × List Char) := do
  let (value, rest) ← number 1 2 (Text.trimStart s)
  if least ≤ value ∧ value ≤ most then .ok (value, rest) else .error .outOfRange

def mark (c : Char) : List Char → Except DateFault (List Char)
  | [] => .error .tooShort
  | first :: rest => if first = c then .ok rest else .error .invalid

/-- A year with a sign has any number of digits, a year without one at most four. -/
def signedYear : List Char → Except DateFault (Int × List Char)
  | '-' :: rest => do
    let (value, rest) ← number 1 rest.length rest
    .ok (-(value : Int), rest)
  | '+' :: rest => do
    let (value, rest) ← number 1 rest.length rest
    .ok (value, rest)
  | s => do
    let (value, rest) ← number 1 4 s
    .ok (value, rest)

def year (s : List Char) : Except DateFault (Int × List Char) := do
  let (value, rest) ← signedYear (Text.trimStart s)
  if -0x80000000 ≤ value ∧ value < 0x80000000 then .ok (value, rest) else .error .outOfRange

def parts (gap : List Char → List Char) (s : List Char) :
    Except DateFault ((Int × Nat × Nat) × List Char) := do
  let (year, rest) ← year s
  let rest ← mark '-' (gap rest)
  let (month, rest) ← part 1 12 rest
  let rest ← mark '-' (gap rest)
  let (day, rest) ← part 1 31 rest
  .ok ((year, month, day), rest)

def finish (parts : Int × Nat × Nat) : List Char → Except DateFault Date
  | [] => match Date.ofParts? parts.1 parts.2.1 parts.2.2 with
    | some date => .ok date
    | none => .error .outOfRange
  | _ :: _ => .error .tooLong

def strict (s : List Char) : Except DateFault Date := do
  let (parts, rest) ← parts Text.trimStart s
  finish parts (Text.trimStart rest)

def fraction : List Char → Except DateFault (List Char)
  | '.' :: rest => do
    let (_, rest) ← number 1 9 rest
    .ok (rest.dropWhile Char.isDigit)
  | s => .ok s

/-- Hour, minute, second and a fraction of a second; a leap second counts 60. -/
def clock (s : List Char) : Except DateFault (List Char) := do
  let (_, rest) ← part 0 23 s
  let rest ← mark ':' rest
  let (_, rest) ← part 0 59 rest
  let rest ← mark ':' rest
  let (_, rest) ← part 0 60 rest
  fraction rest

def pair (least most : Nat) (s : List Char) : Except DateFault (Nat × List Char) := do
  let (value, rest) ← number 2 2 s
  if least ≤ value ∧ value ≤ most then .ok (value, rest) else .error .outOfRange

def offset : List Char → Except DateFault (List Char)
  | [] => .error .tooShort
  | first :: rest =>
    if first = 'Z' ∨ first = 'z' then .ok rest
    else if first = '+' ∨ first = '-' ∨ first = '−' then do
      let (_, rest) ← pair 0 23 rest
      let rest ← mark ':' rest
      let (_, rest) ← pair 0 59 rest
      .ok rest
    else .error .invalid

def divider : List Char → Except DateFault (List Char)
  | [] => .error .tooShort
  | first :: rest =>
    if first = 'T' ∨ first = 't' ∨ first = ' ' then .ok rest else .error .invalid

/-- A stamp with an offset: every number has its full width and no blank may be added. -/
def offsetStamp (s : List Char) : Except DateFault Date := do
  let (year, rest) ← number 4 4 s
  let rest ← mark '-' rest
  let (month, rest) ← pair 1 12 rest
  let rest ← mark '-' rest
  let (day, rest) ← pair 1 31 rest
  let rest ← divider rest
  let (_, rest) ← pair 0 23 rest
  let rest ← mark ':' rest
  let (_, rest) ← pair 0 59 rest
  let rest ← mark ':' rest
  let (_, rest) ← pair 0 60 rest
  let rest ← fraction rest
  let rest ← offset rest
  finish (year, month, day) rest

end DateText

inductive DateForm where
  /-- A day alone, `2025-03-14`. -/
  | day
  /-- A stamp with an offset, `2025-03-14T08:15:00+01:00`. -/
  | offsetStamp
  /-- A stamp with the letter `T`, `2025-03-14T08:15:00`. -/
  | letterStamp
  /-- A stamp with blanks, `2025-03-14 08:15:00`. -/
  | blankStamp
  deriving DecidableEq

namespace DateForm

open DateText

def all : List DateForm := [.day, .offsetStamp, .letterStamp, .blankStamp]

def read : DateForm → List Char → Except DateFault Date
  | .day, s => do
    let (parts, rest) ← parts id s
    finish parts rest
  | .offsetStamp, s => DateText.offsetStamp s
  | .letterStamp, s => do
    let (parts, rest) ← parts id s
    let rest ← clock (← mark 'T' rest)
    finish parts rest
  | .blankStamp, s => do
    let (parts, rest) ← parts id s
    let rest ← clock (Text.trimStart rest)
    finish parts rest

end DateForm

namespace Date

/-- The day of a record, from the first form that the text has when its outer blanks are gone. -/
def ofText? (text : String) : Option Date :=
  DateForm.all.findSome? fun form => (form.read (Text.trim text.toList)).toOption

end Date

end HabitLedger
