import HabitLedger.Json.Scalar

/-!
Readers of values that hold others: lists of one kind of item, and values of any kind.
-/

namespace HabitLedger.Json.Reader

def takeList {α : Type} (item : Nat → Reader α) (room : Nat) (s : List Char) :
    Except Fault (List α × List Char) :=
  match skipGap s with
  | [] => .error .endOfValue
  | c :: rest =>
    if c = '[' then
      match room with
      | 0 => .error .tooDeep
      | room + 1 => items (item room) true rest
    else .error (mismatch "a sequence" (c :: rest))

theorem takeList_length {α : Type} {item : Nat → Reader α} {room : Nat} {s rest : List Char}
    {as : List α} (read : takeList item room s = .ok (as, rest)) : rest.length < s.length := by
  have blanks := skipGap_length_le s
  unfold takeList at read
  split at read
  · cases read
  · next c tail equal =>
    rw [equal, List.length_cons] at blanks
    split at read
    · split at read
      · cases read
      · have := items_length read
        omega
    · cases read

/-- A list; every item may open one container fewer. -/
def list {α : Type} (item : Nat → Reader α) (room : Nat) : Reader (List α) :=
  ⟨takeList item room, takeList_length⟩

def takeMember (value : Reader Value) (state : List (String × Value)) (name : String)
    (s : List Char) : Except Fault (List (String × Value) × List Char) := do
  let (v, rest) ← value.run (← colon s)
  .ok ((name, v) :: state, rest)

theorem takeMember_length {value : Reader Value} {state after : List (String × Value)}
    {name : String} {s rest : List Char}
    (read : takeMember value state name s = .ok (after, rest)) : rest.length < s.length := by
  obtain ⟨afterColon, mark, read⟩ := bind_eq_ok.mp read
  obtain ⟨⟨v, last⟩, part, read⟩ := bind_eq_ok.mp read
  cases read
  exact Nat.lt_trans (value.shorter part) (colon_length mark)

def anyMember (value : Reader Value) : MemberReader (List (String × Value)) :=
  ⟨takeMember value, takeMember_length⟩

def takeAny (inner : Option (Reader Value)) (s : List Char) : Except Fault (Value × List Char) :=
  match skipGap s with
  | [] => .error .endOfValue
  | c :: rest =>
    if c = 'n' then (word ['u', 'l', 'l'] rest).map (.null, ·)
    else if c = 't' then (word ['r', 'u', 'e'] rest).map (.boolean true, ·)
    else if c = 'f' then (word ['a', 'l', 's', 'e'] rest).map (.boolean false, ·)
    else if c = '"' then (textBody c rest).map fun read => (.text read.1, read.2)
    else if c = '-' ∨ c.isDigit then
      (number (c :: rest)).map fun read => (.number read.1, read.2)
    else if c = '[' then
      match inner with
      | none => .error .tooDeep
      | some value => (items value true rest).map fun read => (.list read.1, read.2)
    else if c = '\x7b' then
      match inner with
      | none => .error .tooDeep
      | some value =>
        (members (anyMember value) true [] rest).map fun read => (.object read.1.reverse, read.2)
    else .error .expectedValue

theorem takeAny_length {inner : Option (Reader Value)} {s rest : List Char} {v : Value}
    (read : takeAny inner s = .ok (v, rest)) : rest.length < s.length := by
  have blanks := skipGap_length_le s
  unfold takeAny at read
  split at read
  · cases read
  · next c tail equal =>
    rw [equal, List.length_cons] at blanks
    refine Nat.lt_of_lt_of_le (Nat.lt_succ_of_le ?_) blanks
    repeat' split at read
    · obtain ⟨after, part, last⟩ := map_eq_ok.mp read
      cases last
      exact word_length_le part
    · obtain ⟨after, part, last⟩ := map_eq_ok.mp read
      cases last
      exact word_length_le part
    · obtain ⟨after, part, last⟩ := map_eq_ok.mp read
      cases last
      exact word_length_le part
    · obtain ⟨⟨row, after⟩, part, last⟩ := map_eq_ok.mp read
      cases last
      exact textBody_length_le part
    · obtain ⟨⟨n, after⟩, part, last⟩ := map_eq_ok.mp read
      cases last
      exact Nat.le_of_lt_succ (number_length part)
    · cases read
    · obtain ⟨⟨as, after⟩, part, last⟩ := map_eq_ok.mp read
      cases last
      exact Nat.le_of_lt (items_length part)
    · cases read
    · obtain ⟨⟨as, after⟩, part, last⟩ := map_eq_ok.mp read
      cases last
      exact Nat.le_of_lt (members_length part)
    · cases read

def anyWith (inner : Option (Reader Value)) : Reader Value := ⟨takeAny inner, takeAny_length⟩

def any : Nat → Reader Value
  | 0 => anyWith none
  | room + 1 => anyWith (some (any room))

end HabitLedger.Json.Reader
