import HabitLedger.Json.Leaf

/-!
Passing over a value that nobody asked for. It must be a JSON value, of any depth, but its numbers
may be of any size and its surrogates need no partner. The containers that are still open lie on a
stack; every round takes the start of one value and then closes what ends after it.
-/

namespace HabitLedger.Json

inductive Container where
  | list
  | object
  deriving DecidableEq

namespace Container

def closer : Container → Char
  | .list => ']'
  | .object => '\x7d'

def ended : Container → Fault
  | .list => .endOfList
  | .object => .endOfObject

def unfinished : Container → Fault
  | .list => .expectedItem
  | .object => .expectedMember

end Container

def colon (s : List Char) : Except Fault (List Char) :=
  match skipGap s with
  | [] => .error .endOfObject
  | c :: rest => if c = ':' then .ok rest else .error .expectedColon

theorem colon_length {s rest : List Char} (read : colon s = .ok rest) : rest.length < s.length := by
  have blanks := skipGap_length_le s
  unfold colon at read
  split at read
  · cases read
  · next c tail equal =>
    split at read
    · cases read
      rw [equal, List.length_cons] at blanks
      omega
    · cases read

def skipName : Container → List Char → Except Fault (List Char)
  | .list, s => .ok s
  | .object, s => match skipGap s with
    | [] => .error .endOfObject
    | c :: rest =>
      if c = '"' then do
        let (_, rest) ← stringBody false rest
        colon rest
      else .error .keyNotText

theorem skipName_length_le {container : Container} {s rest : List Char}
    (read : skipName container s = .ok rest) : rest.length ≤ s.length := by
  have blanks := skipGap_length_le s
  cases container with
  | list =>
    cases read
    exact Nat.le_refl _
  | object =>
    unfold skipName at read
    dsimp only at read
    split at read
    · cases read
    · next c tail equal =>
      split at read
      · obtain ⟨⟨row, after⟩, body, last⟩ := bind_eq_ok.mp read
        have := stringBody_length body
        have close := colon_length last
        dsimp only at close
        rw [equal, List.length_cons] at blanks
        omega
      · cases read

/-- From the end of a value, or from an opening bracket if no comma may come yet, to the start of
the next value; with nothing left open the walk is over. -/
def advance (comma : Bool) :
    List Container → List Char → Except Fault (List Container × List Char)
  | [], s => .ok ([], s)
  | top :: below, s => match skipGap s with
    | [] => .error top.ended
    | c :: rest =>
      if comma ∧ c = ',' then (skipName top rest).map (top :: below, ·)
      else if c = top.closer then advance true below rest
      else if comma then .error top.unfinished
      else (skipName top (c :: rest)).map (top :: below, ·)

theorem advance_length_le {comma : Bool} {stack open_ : List Container} {s rest : List Char}
    (walk : advance comma stack s = .ok (open_, rest)) : rest.length ≤ s.length := by
  fun_induction advance comma stack s with
  | case1 =>
    cases walk
    exact Nat.le_refl _
  | case2 => cases walk
  | case3 comma top below s c tail equal _ =>
    have blanks := skipGap_length_le s
    obtain ⟨after, name, last⟩ := map_eq_ok.mp walk
    cases last
    have := skipName_length_le name
    rw [equal, List.length_cons] at blanks
    omega
  | case4 comma top below s tail equal _ ih =>
    have blanks := skipGap_length_le s
    have := ih walk
    rw [equal, List.length_cons] at blanks
    omega
  | case5 => cases walk
  | case6 comma top below s c tail equal _ _ _ =>
    have blanks := skipGap_length_le s
    obtain ⟨after, name, last⟩ := map_eq_ok.mp walk
    cases last
    have := skipName_length_le name
    rw [equal] at blanks
    omega

/-- The start of a value: all of it, or its opening bracket. The first part of the result says
whether a value has ended. -/
def enter (stack : List Container) (s : List Char) :
    Except Fault (Bool × List Container × List Char) :=
  match skipGap s with
  | [] => .error .endOfValue
  | c :: rest =>
    if c = '[' then .ok (false, .list :: stack, rest)
    else if c = '\x7b' then .ok (false, .object :: stack, rest)
    else if c = '"' then (stringBody false rest).map (true, stack, ·.2)
    else if c = 'n' then (word ['u', 'l', 'l'] rest).map (true, stack, ·)
    else if c = 't' then (word ['r', 'u', 'e'] rest).map (true, stack, ·)
    else if c = 'f' then (word ['a', 'l', 's', 'e'] rest).map (true, stack, ·)
    else if c = '-' ∨ c.isDigit then (numeral .invalidNumber (c :: rest)).map (true, stack, ·.2)
    else .error .expectedValue

theorem enter_length {stack open_ : List Container} {s rest : List Char} {ended : Bool}
    (read : enter stack s = .ok (ended, open_, rest)) : rest.length < s.length := by
  have blanks := skipGap_length_le s
  unfold enter at read
  split at read
  · cases read
  · next c tail equal =>
    rw [equal, List.length_cons] at blanks
    refine Nat.lt_of_lt_of_le (m := tail.length + 1) ?_ blanks
    repeat' split at read
    · cases read
      exact Nat.lt_succ_self _
    · cases read
      exact Nat.lt_succ_self _
    · obtain ⟨⟨row, after⟩, part, last⟩ := map_eq_ok.mp read
      cases last
      exact Nat.lt_succ_of_lt (stringBody_length part)
    · obtain ⟨after, part, last⟩ := map_eq_ok.mp read
      cases last
      exact Nat.lt_succ_of_le (word_length_le part)
    · obtain ⟨after, part, last⟩ := map_eq_ok.mp read
      cases last
      exact Nat.lt_succ_of_le (word_length_le part)
    · obtain ⟨after, part, last⟩ := map_eq_ok.mp read
      cases last
      exact Nat.lt_succ_of_le (word_length_le part)
    · obtain ⟨⟨parts, after⟩, part, last⟩ := map_eq_ok.mp read
      cases last
      exact numeral_length part
    · cases read

def skipOpen (stack : List Container) (s : List Char) : Except Fault (List Char) :=
  match _entered : enter stack s with
  | .error fault => .error fault
  | .ok (ended, opened, after) =>
    match _advanced : advance ended opened after with
    | .error fault => .error fault
    | .ok ([], rest) => .ok rest
    | .ok (top :: below, rest) => skipOpen (top :: below) rest
termination_by s.length
decreasing_by exact Nat.lt_of_le_of_lt (advance_length_le _advanced) (enter_length _entered)

def skip (s : List Char) : Except Fault (List Char) := skipOpen [] s

theorem skipOpen_length {stack : List Container} {s rest : List Char}
    (read : skipOpen stack s = .ok rest) : rest.length < s.length := by
  fun_induction skipOpen stack s with
  | case1 => cases read
  | case2 => cases read
  | case3 _ _ _ _ _ entered _ advanced =>
    cases read
    exact Nat.lt_of_le_of_lt (advance_length_le advanced) (enter_length entered)
  | case4 _ _ _ _ _ entered _ _ _ advanced ih =>
    have := ih read
    have := advance_length_le advanced
    have := enter_length entered
    omega

theorem skip_length {s rest : List Char} (read : skip s = .ok rest) : rest.length < s.length :=
  skipOpen_length read

end HabitLedger.Json
