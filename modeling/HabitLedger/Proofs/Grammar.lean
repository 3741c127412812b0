import HabitLedger.Proofs.Tokens

/-!
The grammar of JSON, apart from any reader. A text denotes a datum: numbers as they are written and
strings as the characters they stand for, with the members of an object in their order and any
blanks between the tokens. What may be read from a text depends on its datum alone.
-/

namespace HabitLedger.Json

/-! ## Strings -/

inductive Piece where
  | plain (c : Char)
  | letter (c : Char)
  | code (digits : List Char)

namespace Piece

def letters : List (Char × Char) :=
  [('"', '"'), ('\\', '\\'), ('/', '/'), ('b', '\x08'), ('f', '\x0c'), ('n', '\n'), ('r', '\r'),
    ('t', '\t')]

def chars : Piece → List Char
  | plain c => [c]
  | letter c => ['\\', c]
  | code digits => '\\' :: 'u' :: digits

def Sound : Piece → Prop
  | plain c => c ≠ '"' ∧ c ≠ '\\' ∧ ¬ c.toNat < 0x20
  | letter c => (letters.lookup c).isSome
  | code digits => digits.length = 4 ∧ (Text.hexNumeral? digits).isSome

def unit (digits : List Char) : Nat := (Text.hexNumeral? digits).getD 0

end Piece

/-- The characters that pieces stand for. A character beyond the first plane is written as two
surrogates; a surrogate alone stands for nothing. -/
def spelled : List Piece → Option (List Char)
  | [] => some []
  | .plain c :: rest => (spelled rest).map (c :: ·)
  | .letter c :: rest => (spelled rest).map ((Piece.letters.lookup c).getD c :: ·)
  | .code digits :: rest =>
    if isLowSurrogate (Piece.unit digits) then none
    else if isHighSurrogate (Piece.unit digits) then
      match rest with
      | .code second :: rest =>
        if isLowSurrogate (Piece.unit second) then
          (spelled rest).map (joinSurrogates (Piece.unit digits) (Piece.unit second) :: ·)
        else none
      | _ => none
    else (spelled rest).map (Char.ofNat (Piece.unit digits) :: ·)

def written (pieces : List Piece) : List Char := '"' :: (pieces.flatMap Piece.chars ++ ['"'])

/-! ## Texts -/

inductive Datum where
  | null
  | boolean (value : Bool)
  | number (parts : Numeral)
  /-- A string, unless one of its surrogates is alone. -/
  | text (value : Option String)
  | list (items : List Datum)
  | object (members : List (Option String × Datum))

def meaning (pieces : List Piece) : Option String := (spelled pieces).map String.ofList

inductive Joined : Bool → List (List Char) → List Char → Prop where
  | done (first : Bool) (gap : List Char) (blank : Blank gap) : Joined first [] gap
  | first (gap entry : List Char) (entries : List (List Char)) (more : List Char)
      (blank : Blank gap) (rest : Joined false entries more) :
      Joined true (entry :: entries) (gap ++ (entry ++ more))
  | next (before gap entry : List Char) (entries : List (List Char)) (more : List Char)
      (blank : Blank before) (spaced : Blank gap) (rest : Joined false entries more) :
      Joined false (entry :: entries) (before ++ ',' :: (gap ++ (entry ++ more)))

theorem Joined.stops (entries : List (List Char)) (inside rest : List Char)
    (joined : Joined false entries inside) (stop : Stops rest) : Stops (inside ++ rest) := by
  cases joined with
  | done _ gap blank => exact stops_blank inside rest blank stop
  | next before gap entry entries more blank =>
    rw [List.append_assoc]
    exact stops_blank before _ blank (stops_of ',' _ (by decide) (by decide))

structure Member where
  name : List Piece
  before : List Char
  after : List Char
  text : List Char
  datum : Datum

namespace Member

def chars (member : Member) : List Char :=
  written member.name ++ (member.before ++ ':' :: (member.after ++ member.text))

structure Sound (member : Member) : Prop where
  name : ∀ piece ∈ member.name, piece.Sound
  before : Blank member.before
  after : Blank member.after

def said (member : Member) : Option String × Datum := (meaning member.name, member.datum)

end Member

inductive Denotes : List Char → Datum → Prop where
  | null : Denotes ['n', 'u', 'l', 'l'] .null
  | yes : Denotes ['t', 'r', 'u', 'e'] (.boolean true)
  | no : Denotes ['f', 'a', 'l', 's', 'e'] (.boolean false)
  | number (parts : Numeral) (capital plus : Bool) (sound : parts.Sound) :
      Denotes (parts.written capital plus) (.number parts)
  | text (pieces : List Piece) (sound : ∀ piece ∈ pieces, piece.Sound) :
      Denotes (written pieces) (.text (meaning pieces))
  | list (items : List (List Char × Datum)) (inside : List Char)
      (joined : Joined true (items.map (·.1)) inside)
      (each : ∀ item ∈ items, Denotes item.1 item.2) :
      Denotes ('[' :: (inside ++ [']'])) (.list (items.map (·.2)))
  | object (members : List Member) (inside : List Char)
      (joined : Joined true (members.map Member.chars) inside)
      (sound : ∀ member ∈ members, member.Sound)
      (each : ∀ member ∈ members, Denotes member.text member.datum) :
      Denotes ('\x7b' :: (inside ++ ['\x7d'])) (.object (members.map Member.said))

def Says (text : String) (datum : Datum) : Prop :=
  ∃ front body back, Blank front ∧ Blank back ∧ text.toList = front ++ (body ++ back) ∧
    Denotes body datum

/-! ## The first character -/

def Datum.Starts : Datum → Char → Prop
  | .null, c => c = 'n'
  | .boolean true, c => c = 't'
  | .boolean false, c => c = 'f'
  | .number _, c => c = '-' ∨ c.isDigit = true
  | .text _, c => c = '"'
  | .list _, c => c = '['
  | .object _, c => c = '\x7b'

/-- The first character of a text tells the kind of its datum. -/
theorem Denotes.front (text : List Char) (datum : Datum) (denotes : Denotes text datum) :
    ∃ c tail, text = c :: tail ∧ datum.Starts c := by
  cases denotes with
  | null => exact ⟨_, _, rfl, rfl⟩
  | yes => exact ⟨_, _, rfl, rfl⟩
  | no => exact ⟨_, _, rfl, rfl⟩
  | number parts capital plus sound => exact parts.written_front capital plus sound
  | text => exact ⟨_, _, rfl, rfl⟩
  | list => exact ⟨_, _, rfl, rfl⟩
  | object => exact ⟨_, _, rfl, rfl⟩

theorem Datum.Starts.dark (datum : Datum) (c : Char) (starts : datum.Starts c) :
    isGap c = false ∧ c ≠ ']' := by
  match datum with
  | .null => exact starts ▸ by decide
  | .boolean true => exact starts ▸ by decide
  | .boolean false => exact starts ▸ by decide
  | .number _ =>
    rcases starts with rfl | digit
    · decide
    · exact (opens_digit c digit).imp_right And.left
  | .text _ => exact starts ▸ by decide
  | .list _ => exact starts ▸ by decide
  | .object _ => exact starts ▸ by decide

theorem Datum.null_of_starts (datum : Datum) (starts : datum.Starts 'n') : datum = .null := by
  match datum with
  | .null => rfl
  | .boolean true => cases starts
  | .boolean false => cases starts
  | .number _ =>
    rcases starts with same | digit
    · cases same
    · exact absurd digit (by decide)
  | .text _ => cases starts
  | .list _ => cases starts
  | .object _ => cases starts

end HabitLedger.Json
