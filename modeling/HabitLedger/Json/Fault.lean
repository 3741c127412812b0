import HabitLedger.Calendar.DateText
import HabitLedger.Json.Text
import HabitLedger.Text.Visible
import HabitLedger.Uuid

/-!
What can be wrong with a JSON document, as a text or as a description of the thing that is read from
it, and the words in which each fault is reported.
-/

namespace HabitLedger.Json

inductive Found where
  | null
  | boolean (value : Bool)
  | number (value : Number)
  | text (value : String)
  | list
  | object
  deriving DecidableEq

inductive Fault where
  | endOfValue
  | endOfText
  | endOfObject
  | endOfList
  | expectedValue
  | expectedWord
  | expectedColon
  | expectedMember
  | expectedItem
  | trailingComma
  | trailingCharacters
  | keyNotText
  | invalidNumber
  | numberOutOfRange
  | invalidEscape
  | loneSurrogate
  | unpairedSurrogate
  | controlCharacter
  | tooDeep
  | wrongType (found : Found) (wanted : String)
  | wrongValue (found : Int) (wanted : String)
  | duplicateField (name : String)
  | missingField (name : String)
  | wrongLength (found : Nat) (record : String) (fields : Nat)
  | unknownVariant (found : String) (known : List String)
  | noVariant (kind : String)
  | badUuid (cause : UuidFault)
  | badDate (cause : DateFault)
  deriving DecidableEq

namespace Found

def message : Found → String
  | .null => "null"
  | .boolean value => s!"boolean `{value}`"
  | .number (.whole value) => s!"integer `{value}`"
  | .number (.real value) => s!"floating point `{value.text .json}`"
  | .text value => s!"string {Text.visible value}"
  | .list => "sequence"
  | .object => "map"

end Found

namespace Fault

def variantList : List String → String
  | [] => "there are no variants"
  | [only] => s!"expected `{only}`"
  | [first, second] => s!"expected `{first}` or `{second}`"
  | known => "expected one of " ++ ", ".intercalate (known.map fun name => s!"`{name}`")

def message : Fault → String
  | .endOfValue => "EOF while parsing a value"
  | .endOfText => "EOF while parsing a string"
  | .endOfObject => "EOF while parsing an object"
  | .endOfList => "EOF while parsing a list"
  | .expectedValue => "expected value"
  | .expectedWord => "expected ident"
  | .expectedColon => "expected `:`"
  | .expectedMember => "expected `,` or `\x7d`"
  | .expectedItem => "expected `,` or `]`"
  | .trailingComma => "trailing comma"
  | .trailingCharacters => "trailing characters"
  | .keyNotText => "key must be a string"
  | .invalidNumber => "invalid number"
  | .numberOutOfRange => "number out of range"
  | .invalidEscape => "invalid escape"
  | .loneSurrogate => "lone leading surrogate in hex escape"
  | .unpairedSurrogate => "unexpected end of hex escape"
  | .controlCharacter => "control character (\\u0000-\\u001F) found while parsing a string"
  | .tooDeep => "recursion limit exceeded"
  | .wrongType found wanted => s!"invalid type: {found.message}, expected {wanted}"
  | .wrongValue found wanted => s!"invalid value: integer `{found}`, expected {wanted}"
  | .duplicateField name => s!"duplicate field `{name}`"
  | .missingField name => s!"missing field `{name}`"
  | .wrongLength found record fields =>
    s!"invalid length {found}, expected struct {record} with {fields} element" ++
      if fields = 1 then "" else "s"
  | .unknownVariant found known => s!"unknown variant `{found}`, {variantList known}"
  | .noVariant kind => s!"data did not match any variant of untagged enum {kind}"
  | .badUuid cause => s!"UUID parsing failed: {cause.message}"
  | .badDate cause => cause.message

end Fault

end HabitLedger.Json
