import HabitLedger.Binary64.Basic

/-!
JSON values. The members of an object keep their order, and a name may occur more than once. A
number is a whole number or a double; a double that is not finite has no JSON form and stands as
`null`.
-/

namespace HabitLedger.Json

inductive Number where
  | whole (value : Int)
  | real (value : Binary64)
  deriving DecidableEq

def Number.toBinary64 : Number → Binary64
  | .whole value => .ofInt value
  | .real value => value

inductive Value where
  | null
  | boolean (value : Bool)
  | number (value : Number)
  | text (value : String)
  | list (items : List Value)
  | object (members : List (String × Value))

namespace Value

def real (x : Binary64) : Value := if x.isFinite then .number (.real x) else .null

def natural (n : Nat) : Value := .number (.whole n)

def optional {α : Type} (write : α → Value) : Option α → Value
  | none => .null
  | some value => write value

def present {α : Type} (name : String) (write : α → Value) : Option α → List (String × Value)
  | none => []
  | some value => [(name, write value)]

end Value

end HabitLedger.Json
