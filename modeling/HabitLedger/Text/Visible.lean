import HabitLedger.Text.Hex
import HabitLedger.Text.Hidden

/-!
Texts as messages show them: between quotation marks, with every character that cannot be seen, and
every mark that would end the text, written as an escape.
-/

namespace HabitLedger.Text

def visibleChar (c : Char) : List Char :=
  if c = '\x00' then ['\\', '0']
  else if c = '\t' then ['\\', 't']
  else if c = '\r' then ['\\', 'r']
  else if c = '\n' then ['\\', 'n']
  else if c = '"' ∨ c = '\\' then ['\\', c]
  else if isHidden c then ['\\', 'u', '\x7b'] ++ hexDigits c.toNat ++ ['\x7d']
  else [c]

def visible (text : String) : String :=
  String.ofList ('"' :: text.toList.flatMap visibleChar ++ ['"'])

end HabitLedger.Text
