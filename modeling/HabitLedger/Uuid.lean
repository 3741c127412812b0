import HabitLedger.Text.Digits
import HabitLedger.Text.Hex

/-!
Identifiers of 128 bits. One is written as 32 hexadecimal digits in groups of 8, 4, 4, 4 and 12 with
hyphens between them. It is also read without hyphens, and, in groups, between braces or after
`urn:uuid:`. A text that is none of these is refused with the first thing that is wrong with it.
-/

namespace HabitLedger

structure Uuid where
  bits : BitVec 128
  deriving DecidableEq

/-- Why a text is not an identifier; lengths and places count bytes. -/
inductive UuidFault where
  | length (found : Nat)
  | character (found : Char) (place : Nat)
  | groupCount (found : Nat)
  | groupLength (group expected found : Nat)
  deriving DecidableEq

namespace UuidFault

def message : UuidFault → String
  | .length found => s!"invalid length: found {found}"
  | .character found place => s!"invalid character: found `{found}` at {place}"
  | .groupCount found => s!"invalid group count: expected 5, found {found}"
  | .groupLength group expected found =>
    s!"invalid group length in group {group}: expected {expected}, found {found}"

end UuidFault

namespace Uuid

def zero : Uuid := ⟨0⟩

/-- A random identifier: its version is 4 and its variant 2, all other bits are as given. -/
def ofRandom (bits : BitVec 128) : Uuid :=
  let cleared := bits &&& ~~~(0xF000#128 <<< 64 ||| 0xC000#128 <<< 48)
  ⟨cleared ||| 0x4000#128 <<< 64 ||| 0x8000#128 <<< 48⟩

def grouped (row : List Char) : List Char :=
  row.take 8 ++ '-' :: (row.drop 8).take 4 ++ '-' :: (row.drop 12).take 4 ++
    '-' :: (row.drop 16).take 4 ++ '-' :: row.drop 20

def chars (id : Uuid) : List Char := grouped (Text.hexFixed 32 id.bits.toNat)

def text (id : Uuid) : String := String.ofList id.chars

def ofDigits? (row : List Char) : Option Uuid :=
  if row.length = 32 then (Text.hexNumeral? row).map fun n => ⟨BitVec.ofNat 128 n⟩ else none

def ofGroups? (s : List Char) : Option Uuid :=
  let row := s.filter (· ≠ '-')
  if s = grouped row then ofDigits? row else none

/-- What an identifier may stand after, in any case. -/
def urn : List Char := ['u', 'r', 'n', ':', 'u', 'u', 'i', 'd', ':']

def braced? (s : List Char) : Option (List Char) :=
  match s with
  | '\x7b' :: rest => if rest.getLast? = some '\x7d' then some rest.dropLast else none
  | _ => none

def afterUrn? (s : List Char) : Option (List Char) :=
  if (s.take urn.length).map Char.toLower = urn then some (s.drop urn.length) else none

def byteLength (s : List Char) : Nat := s.foldr (fun c bytes => c.utf8Size + bytes) 0

def groups? (s : List Char) : Option (List Char) :=
  if byteLength s = 36 then some s
  else if byteLength s = 38 then braced? s
  else if byteLength s = 45 then afterUrn? s
  else none

def firstStranger : Nat → List Char → Option UuidFault
  | _, [] => none
  | place, c :: rest =>
    if c = '-' ∨ (Text.hexValue? c).isSome then firstStranger (place + c.utf8Size) rest
    else some (.character c place)

def hyphens (body : List Char) : List Nat := (body.zipIdx.filter (·.1 = '-')).map (·.2)

def wrongGroup (hyphens : List Nat) (length : Nat) : UuidFault :=
  match (hyphens.zip [(0, 0, 8), (1, 9, 4), (2, 14, 4), (3, 19, 4)]).find?
      fun (place, _, start, size) => place ≠ start + size with
  | some (place, group, start, size) => .groupLength group size (place - start)
  | none => .groupLength 4 12 (length - 24)

/-- What is wrong with the body of a text; `text` is the text it was taken from, `skipped` counts
the bytes before it, and `alone` says that nothing was taken away. -/
def bodyFault (text body : List Char) (skipped : Nat) (alone : Bool) : UuidFault :=
  match firstStranger skipped body with
  | some fault => fault
  | none =>
    if alone ∧ hyphens body = [] then .length (byteLength text)
    else if (hyphens body).length ≠ 4 then .groupCount ((hyphens body).length + 1)
    else wrongGroup (hyphens body) (byteLength text)

def fault (s : List Char) : UuidFault :=
  if byteLength s = 0 ∨ 45 < byteLength s then .length (byteLength s)
  else match groups? s with
    | some groups => bodyFault groups groups 0 false
    | none => match braced? s with
      | some body => bodyFault s body 1 false
      | none => match afterUrn? s with
        | some body => bodyFault s body urn.length false
        | none => bodyFault s s 0 true

def read (s : List Char) : Except UuidFault Uuid :=
  match (ofDigits? s).or ((groups? s).bind ofGroups?) with
  | some id => .ok id
  | none => .error (fault s)

end Uuid

end HabitLedger
