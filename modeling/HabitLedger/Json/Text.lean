import HabitLedger.Binary64.Text
import HabitLedger.Json.Value
import HabitLedger.Text.Hex

/-!
The texts of JSON values. The compact text has no blanks outside strings; the pretty text puts every
item and member on a line of its own, two spaces deeper than what encloses it. Both write the same
tokens in the same order.
-/

namespace HabitLedger.Json

def escaped (c : Char) : List Char :=
  if c = '"' ∨ c = '\\' then ['\\', c]
  else if c = '\x08' then ['\\', 'b']
  else if c = '\t' then ['\\', 't']
  else if c = '\n' then ['\\', 'n']
  else if c = '\x0c' then ['\\', 'f']
  else if c = '\r' then ['\\', 'r']
  else if c.toNat < 0x20 then ['\\', 'u'] ++ Text.hexFixed 4 c.toNat
  else [c]

def quoted (text : String) : List Char := '"' :: text.toList.flatMap escaped ++ ['"']

def integerText (value : Int) : List Char :=
  Binary64.signText (value < 0) ++ Text.digits value.natAbs

def Number.chars : Number → List Char
  | .whole value => integerText value
  | .real value => value.chars .json

namespace Value

mutual

def compact : Value → List Char
  | .null => ['n', 'u', 'l', 'l']
  | .boolean true => ['t', 'r', 'u', 'e']
  | .boolean false => ['f', 'a', 'l', 's', 'e']
  | .number n => n.chars
  | .text t => quoted t
  | .list [] => ['[', ']']
  | .list (item :: items) => '[' :: compact item ++ compactItems items ++ [']']
  | .object [] => ['\x7b', '\x7d']
  | .object ((name, value) :: members) =>
    '\x7b' :: quoted name ++ ':' :: compact value ++ compactMembers members ++ ['\x7d']

def compactItems : List Value → List Char
  | [] => []
  | item :: items => ',' :: compact item ++ compactItems items

def compactMembers : List (String × Value) → List Char
  | [] => []
  | (name, value) :: members => ',' :: quoted name ++ ':' :: compact value ++ compactMembers members

end

def newLine (depth : Nat) : List Char := '\n' :: List.replicate (2 * depth) ' '

mutual

def prettyAt (depth : Nat) : Value → List Char
  | .null => ['n', 'u', 'l', 'l']
  | .boolean true => ['t', 'r', 'u', 'e']
  | .boolean false => ['f', 'a', 'l', 's', 'e']
  | .number n => n.chars
  | .text t => quoted t
  | .list [] => ['[', ']']
  | .list (item :: items) =>
    '[' :: newLine (depth + 1) ++ prettyAt (depth + 1) item ++ prettyItems (depth + 1) items ++
      newLine depth ++ [']']
  | .object [] => ['\x7b', '\x7d']
  | .object ((name, value) :: members) =>
    '\x7b' :: newLine (depth + 1) ++ quoted name ++ ':' :: ' ' :: prettyAt (depth + 1) value ++
      prettyMembers (depth + 1) members ++ newLine depth ++ ['\x7d']

def prettyItems (depth : Nat) : List Value → List Char
  | [] => []
  | item :: items => ',' :: newLine depth ++ prettyAt depth item ++ prettyItems depth items

def prettyMembers (depth : Nat) : List (String × Value) → List Char
  | [] => []
  | (name, value) :: members =>
    ',' :: newLine depth ++ quoted name ++ ':' :: ' ' :: prettyAt depth value ++
      prettyMembers depth members

end

def toCompact (value : Value) : String := String.ofList value.compact

def toPretty (value : Value) : String := String.ofList (value.prettyAt 0)

end Value

end HabitLedger.Json
