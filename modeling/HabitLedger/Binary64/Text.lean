import HabitLedger.Binary64.Decimal

/-!
The texts of doubles. Two styles write one: JSON numbers, which turn to scientific notation outside
`10 ^ -5 … 10 ^ 16` and mark a whole number with `.0`, and plain numbers, which do neither. Both use
the shortest decimal. The reader takes a sign, then `inf`, `infinity` or `nan` in any case or a
numeral with an optional point and exponent, and returns the nearest double.
-/

namespace HabitLedger.Binary64

structure Style where
  /-- Whether a number whose first digit stands for this power of ten is written without one. -/
  positional : Int → Bool
  /-- Whether a whole number ends in `.0`. -/
  pointed : Bool
  tie : Decimal.Tie

namespace Style

def json : Style where
  positional power := -5 ≤ power && power < 16
  pointed := true
  tie := .even

def plain : Style where
  positional _ := true
  pointed := false
  tie := .up

end Style

def signText (negative : Bool) : List Char := if negative then ['-'] else []

def positionalText (pointed : Bool) (row : List Char) (power : Int) : List Char :=
  if power < 0 then '0' :: '.' :: List.replicate (-power - 1).toNat '0' ++ row
  else
    let whole := power.toNat + 1
    if row.length ≤ whole then
      row ++ List.replicate (whole - row.length) '0' ++ if pointed then ['.', '0'] else []
    else row.take whole ++ '.' :: row.drop whole

def scientificText (row : List Char) (power : Int) : List Char :=
  let fraction := row.drop 1
  row.take 1 ++ (if fraction.isEmpty then [] else '.' :: fraction) ++
    'e' :: (if power < 0 then '-' else '+') :: Text.digits power.natAbs

def magnitudeText (style : Style) (units : Nat) : List Char :=
  let d := Decimal.shortest style.tie units
  let row := Text.digits d.digits
  let power := row.length - 1 + d.exponent
  if style.positional power then positionalText style.pointed row power
  else scientificText row power

def chars (style : Style) : Binary64 → List Char
  | .nan => ['N', 'a', 'N']
  | .infinite negative => signText negative ++ ['i', 'n', 'f']
  | .finite negative magnitude =>
    signText negative ++
      if magnitude.units = 0 then positionalText style.pointed ['0'] 0
      else magnitudeText style magnitude.units

def text (style : Style) (x : Binary64) : String := String.ofList (x.chars style)

def splitSign : List Char → Bool × List Char
  | '-' :: rest => (true, rest)
  | '+' :: rest => (false, rest)
  | rest => (false, rest)

/-- The number that an exponent's digits stand for; it stays at the first value past `65535`. -/
def exponentNumeral (row : List Char) : Nat :=
  row.foldl (fun value c => if value < 65536 then 10 * value + Text.digitValue c else value) 0

def exponent? : List Char → Option Int
  | [] => some 0
  | mark :: rest =>
    let (negative, row) := splitSign rest
    if (mark = 'e' ∨ mark = 'E') ∧ row ≠ [] ∧ row.all Char.isDigit then
      some (if negative then -(exponentNumeral row : Int) else exponentNumeral row)
    else none

def decimal? (body : List Char) : Option Decimal :=
  let whole := body.takeWhile Char.isDigit
  let afterWhole := body.dropWhile Char.isDigit
  let (fraction, rest) := match afterWhole with
    | '.' :: tail => (tail.takeWhile Char.isDigit, tail.dropWhile Char.isDigit)
    | other => ([], other)
  if whole = [] ∧ fraction = [] then none
  else (exponent? rest).map fun power =>
    ⟨Text.numeral (whole ++ fraction), power - fraction.length⟩

def ofChars? (chars : List Char) : Option Binary64 :=
  let (negative, body) := splitSign chars
  let word := String.ofList (body.map Char.toLower)
  if word = "inf" ∨ word = "infinity" then some (.infinite negative)
  else if word = "nan" then some .nan
  else (decimal? body).map (Decimal.toBinary64 negative)

def ofText? (text : String) : Option Binary64 := ofChars? text.toList

end HabitLedger.Binary64
