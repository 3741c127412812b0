import HabitLedger.Json.Skip

/-!
Readers of JSON values. A reader takes a value of its kind from the front of a text and returns what
is left, which is always shorter; by this the loops over items and members end. A reader of
something that may hold other values also takes the number of containers that may still be opened.
-/

namespace HabitLedger.Json

structure Reader (α : Type) where
  run : List Char → Except Fault (α × List Char)
  shorter : ∀ {s rest : List Char} {a : α}, run s = .ok (a, rest) → rest.length < s.length

def deepest : Nat := 127

def decode {α : Type} (reader : Nat → Reader α) (text : String) : Except Fault α := do
  let (a, rest) ← (reader deepest).run text.toList
  if skipGap rest = [] then .ok a else .error .trailingCharacters

namespace Reader

variable {α β : Type}

def takeChecked (reader : Reader α) (accept : α → Except Fault β) (s : List Char) :
    Except Fault (β × List Char) := do
  let (a, rest) ← reader.run s
  let b ← accept a
  .ok (b, rest)

theorem takeChecked_length {reader : Reader α} {accept : α → Except Fault β}
    {s rest : List Char} {b : β} (read : reader.takeChecked accept s = .ok (b, rest)) :
    rest.length < s.length := by
  obtain ⟨⟨a, after⟩, first, read⟩ := bind_eq_ok.mp read
  obtain ⟨b, _, read⟩ := bind_eq_ok.mp read
  cases read
  exact reader.shorter first

def check (reader : Reader α) (accept : α → Except Fault β) : Reader β :=
  ⟨reader.takeChecked accept, takeChecked_length⟩

end Reader

/-! ## Items of a list -/

inductive Turn where
  | closed (rest : List Char)
  | entry (rest : List Char)

def listTurn (first : Bool) (s : List Char) : Except Fault Turn :=
  match skipGap s with
  | [] => .error .endOfList
  | c :: rest =>
    if c = ']' then .ok (.closed rest)
    else if first then .ok (.entry (c :: rest))
    else if c = ',' then
      match skipGap rest with
      | [] => .error .endOfValue
      | d :: rest => if d = ']' then .error .trailingComma else .ok (.entry (d :: rest))
    else .error .expectedItem

def listEnd (s : List Char) : Except Fault (List Char) :=
  match skipGap s with
  | [] => .error .endOfList
  | c :: rest =>
    if c = ']' then .ok rest
    else if c = ',' ∧ (skipGap rest).head? = some ']' then .error .trailingComma
    else .error .trailingCharacters

theorem listTurn_entry_length_le {first : Bool} {s rest : List Char}
    (turn : listTurn first s = .ok (.entry rest)) : rest.length ≤ s.length := by
  have blanks := skipGap_length_le s
  unfold listTurn at turn
  split at turn
  · cases turn
  · next c tail equal =>
    rw [equal, List.length_cons] at blanks
    split at turn
    · cases turn
    · split at turn
      · cases turn
        rw [List.length_cons]
        exact blanks
      · split at turn
        · have more := skipGap_length_le tail
          split at turn
          · cases turn
          · next d last found =>
            rw [found, List.length_cons] at more
            split at turn
            · cases turn
            · cases turn
              rw [List.length_cons]
              omega
        · cases turn

theorem listTurn_closed_length {first : Bool} {s rest : List Char}
    (turn : listTurn first s = .ok (.closed rest)) : rest.length < s.length := by
  have blanks := skipGap_length_le s
  unfold listTurn at turn
  split at turn
  · cases turn
  · next c tail equal =>
    rw [equal, List.length_cons] at blanks
    split at turn
    · cases turn
      omega
    · split at turn
      · cases turn
      · split at turn
        · split at turn
          · cases turn
          · split at turn <;> cases turn
        · cases turn

theorem listEnd_length {s rest : List Char} (read : listEnd s = .ok rest) :
    rest.length < s.length := by
  have blanks := skipGap_length_le s
  unfold listEnd at read
  split at read
  · cases read
  · next c tail equal =>
    rw [equal, List.length_cons] at blanks
    split at read
    · cases read
      omega
    · split at read <;> cases read

def items {α : Type} (item : Reader α) (first : Bool) (s : List Char) :
    Except Fault (List α × List Char) :=
  match _turned : listTurn first s with
  | .error fault => .error fault
  | .ok (.closed rest) => .ok ([], rest)
  | .ok (.entry start) =>
    match _taken : item.run start with
    | .error fault => .error fault
    | .ok (a, after) => do
      let (as, rest) ← items item false after
      .ok (a :: as, rest)
termination_by s.length
decreasing_by exact Nat.lt_of_lt_of_le (item.shorter _taken) (listTurn_entry_length_le _turned)

theorem items_length {α : Type} {item : Reader α} {first : Bool} {s rest : List Char} {as : List α}
    (read : items item first s = .ok (as, rest)) : rest.length < s.length := by
  fun_induction items item first s generalizing as with
  | case1 => cases read
  | case2 _ _ _ turned =>
    cases read
    exact listTurn_closed_length turned
  | case3 => cases read
  | case4 _ _ _ turned _ _ taken ih =>
    obtain ⟨⟨more, last⟩, tail, read⟩ := bind_eq_ok.mp read
    cases read
    have := ih tail
    have := item.shorter taken
    have := listTurn_entry_length_le turned
    omega

/-! ## Members of an object -/

def objectTurn (first : Bool) (s : List Char) : Except Fault Turn :=
  match skipGap s with
  | [] => .error .endOfObject
  | c :: rest =>
    if c = '\x7d' then .ok (.closed rest)
    else if first then
      if c = '"' then .ok (.entry rest) else .error .keyNotText
    else if c = ',' then
      match skipGap rest with
      | [] => .error .endOfValue
      | d :: rest =>
        if d = '"' then .ok (.entry rest)
        else if d = '\x7d' then .error .trailingComma
        else .error .keyNotText
    else .error .expectedMember

theorem objectTurn_length {first : Bool} {s rest : List Char}
    (turn : objectTurn first s = .ok (.closed rest) ∨ objectTurn first s = .ok (.entry rest)) :
    rest.length < s.length := by
  have blanks := skipGap_length_le s
  unfold objectTurn at turn
  split at turn
  · rcases turn with turn | turn <;> cases turn
  · next c tail equal =>
    rw [equal, List.length_cons] at blanks
    split at turn
    · rcases turn with turn | turn <;> cases turn
      omega
    · split at turn
      · split at turn
        · rcases turn with turn | turn <;> cases turn
          omega
        · rcases turn with turn | turn <;> cases turn
      · split at turn
        · have more := skipGap_length_le tail
          split at turn
          · rcases turn with turn | turn <;> cases turn
          · next d last found =>
            rw [found, List.length_cons] at more
            split at turn
            · rcases turn with turn | turn <;> cases turn
              omega
            · split at turn <;> rcases turn with turn | turn <;> cases turn
        · rcases turn with turn | turn <;> cases turn

/-- What to do with a member: from what was read so far and the name, the new state and the rest of
the text, which is taken up at the colon. -/
structure MemberReader (σ : Type) where
  run : σ → String → List Char → Except Fault (σ × List Char)
  shorter : ∀ {state after : σ} {name : String} {s rest : List Char},
    run state name s = .ok (after, rest) → rest.length < s.length

def members {σ : Type} (member : MemberReader σ) (first : Bool) (state : σ) (s : List Char) :
    Except Fault (σ × List Char) :=
  match _turned : objectTurn first s with
  | .error fault => .error fault
  | .ok (.closed rest) => .ok (state, rest)
  | .ok (.entry start) =>
    match _named : stringBody true start with
    | .error fault => .error fault
    | .ok (name, body) =>
      match _taken : member.run state (String.ofList name) body with
      | .error fault => .error fault
      | .ok (state, after) => members member false state after
termination_by s.length
decreasing_by
  have := objectTurn_length (Or.inr _turned)
  have := stringBody_length _named
  have := member.shorter _taken
  omega

theorem members_length {σ : Type} {member : MemberReader σ} {first : Bool} {state after : σ}
    {s rest : List Char} (read : members member first state s = .ok (after, rest)) :
    rest.length < s.length := by
  fun_induction members member first state s with
  | case1 => cases read
  | case2 _ _ _ _ turned =>
    cases read
    exact objectTurn_length (Or.inl turned)
  | case3 => cases read
  | case4 => cases read
  | case5 _ _ _ _ turned _ _ named _ _ taken ih =>
    have := ih read
    have := objectTurn_length (Or.inr turned)
    have := stringBody_length named
    have := member.shorter taken
    omega

end HabitLedger.Json
