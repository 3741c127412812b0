import HabitLedger.Json.Reader

/-!
Readers of the values that hold no others: strings, truth values, numbers, identifiers, days and
names out of a fixed list. Where something else stands, it is read as far as needed to say what it
is, so that a fault inside it comes first.
-/

namespace HabitLedger.Json

def mismatch (wanted : String) (s : List Char) : Fault :=
  let found (read : Except Fault Found) : Fault := match read with
    | .ok found => .wrongType found wanted
    | .error fault => fault
  match s with
  | [] => .endOfValue
  | c :: rest =>
    if c = 'n' then found ((word ['u', 'l', 'l'] rest).map fun _ => .null)
    else if c = 't' then found ((word ['r', 'u', 'e'] rest).map fun _ => .boolean true)
    else if c = 'f' then found ((word ['a', 'l', 's', 'e'] rest).map fun _ => .boolean false)
    else if c = '"' then
      found ((stringBody true rest).map fun read => .text (String.ofList read.1))
    else if c = '[' then found (.ok .list)
    else if c = '\x7b' then found (.ok .object)
    else if c = '-' ∨ c.isDigit then found ((number (c :: rest)).map fun read => .number read.1)
    else .expectedValue

namespace Reader

def takeLeaf {α : Type} (wanted : String) (starts : Char → Bool)
    (body : Char → List Char → Except Fault (α × List Char)) (s : List Char) :
    Except Fault (α × List Char) :=
  match skipGap s with
  | [] => .error .endOfValue
  | c :: rest => if starts c then body c rest else .error (mismatch wanted (c :: rest))

theorem takeLeaf_length {α : Type} {wanted : String} {starts : Char → Bool}
    {body : Char → List Char → Except Fault (α × List Char)}
    (shrinks : ∀ {c : Char} {s rest : List Char} {a : α},
      body c s = .ok (a, rest) → rest.length ≤ s.length)
    {s rest : List Char} {a : α} (read : takeLeaf wanted starts body s = .ok (a, rest)) :
    rest.length < s.length := by
  have blanks := skipGap_length_le s
  unfold takeLeaf at read
  split at read
  · cases read
  · next c tail equal =>
    rw [equal, List.length_cons] at blanks
    split at read
    · have := shrinks read
      omega
    · cases read

def textBody (_ : Char) (s : List Char) : Except Fault (String × List Char) := do
  let (row, rest) ← stringBody true s
  .ok (String.ofList row, rest)

theorem textBody_length_le {c : Char} {s rest : List Char} {t : String}
    (read : textBody c s = .ok (t, rest)) : rest.length ≤ s.length := by
  obtain ⟨⟨row, after⟩, body, read⟩ := bind_eq_ok.mp read
  cases read
  exact Nat.le_of_lt (stringBody_length body)

def textFor (wanted : String) : Reader String :=
  ⟨takeLeaf wanted (· = '"') textBody, takeLeaf_length textBody_length_le⟩

def text : Reader String := textFor "a string"

def booleanBody (c : Char) (s : List Char) : Except Fault (Bool × List Char) :=
  if c = 't' then (word ['r', 'u', 'e'] s).map (true, ·)
  else (word ['a', 'l', 's', 'e'] s).map (false, ·)

theorem booleanBody_length_le {c : Char} {s rest : List Char} {b : Bool}
    (read : booleanBody c s = .ok (b, rest)) : rest.length ≤ s.length := by
  unfold booleanBody at read
  split at read <;>
    · obtain ⟨after, part, last⟩ := map_eq_ok.mp read
      cases last
      exact word_length_le part

def boolean : Reader Bool :=
  ⟨takeLeaf "a boolean" (fun c => c = 't' || c = 'f') booleanBody,
    takeLeaf_length booleanBody_length_le⟩

def takeNumber (wanted : String) (s : List Char) : Except Fault (Number × List Char) :=
  match skipGap s with
  | [] => .error .endOfValue
  | c :: rest =>
    if c = '-' ∨ c.isDigit then number (c :: rest) else .error (mismatch wanted (c :: rest))

theorem takeNumber_length {wanted : String} {s rest : List Char} {n : Number}
    (read : takeNumber wanted s = .ok (n, rest)) : rest.length < s.length := by
  have blanks := skipGap_length_le s
  unfold takeNumber at read
  split at read
  · cases read
  · next c tail equal =>
    rw [equal] at blanks
    split at read
    · have := number_length read
      omega
    · cases read

def numberFor (wanted : String) : Reader Number := ⟨takeNumber wanted, takeNumber_length⟩

def real : Reader Binary64 := (numberFor "f64").check fun n => .ok n.toBinary64

def natural (bound : Nat) (wanted : String) : Reader Nat :=
  (numberFor wanted).check fun
    | .whole value =>
      if 0 ≤ value ∧ value < bound then .ok value.toNat else .error (.wrongValue value wanted)
    | .real value => .error (.wrongType (.number (.real value)) wanted)

def word32 : Reader UInt32 := (natural UInt32.size "u32").check fun n => .ok (UInt32.ofNat n)

def count : Reader Nat := natural UInt64.size "usize"

def uuid : Reader Uuid :=
  (textFor "a formatted UUID string").check fun t => (Uuid.read t.toList).mapError .badUuid

def date : Reader Date :=
  (textFor "a formatted date string").check fun t => (DateText.strict t.toList).mapError .badDate

def takeOptional {α : Type} (reader : Reader α) (s : List Char) :
    Except Fault (Option α × List Char) :=
  match skipGap s with
  | 'n' :: rest => (word ['u', 'l', 'l'] rest).map (none, ·)
  | start => (reader.run start).map fun read => (some read.1, read.2)

theorem takeOptional_length {α : Type} {reader : Reader α} {s rest : List Char} {a : Option α}
    (read : reader.takeOptional s = .ok (a, rest)) : rest.length < s.length := by
  have blanks := skipGap_length_le s
  unfold takeOptional at read
  split at read
  · next tail equal =>
    obtain ⟨after, part, last⟩ := map_eq_ok.mp read
    cases last
    have := word_length_le part
    rw [equal, List.length_cons] at blanks
    omega
  · obtain ⟨⟨a, after⟩, part, last⟩ := map_eq_ok.mp read
    cases last
    have := reader.shorter part
    show after.length < s.length
    omega

def optional {α : Type} (reader : Reader α) : Reader (Option α) :=
  ⟨reader.takeOptional, takeOptional_length⟩

/-! ## Names out of a list -/

def named {α : Type} (known : List (String × α)) (name : String) : Except Fault α :=
  match known.lookup name with
  | some a => .ok a
  | none => .error (.unknownVariant name (known.map (·.1)))

def memberName (s : List Char) : Except Fault (String × List Char) :=
  match skipGap s with
  | [] => .error .endOfObject
  | c :: rest =>
    if c = '"' then textBody c rest
    else if c = '\x7d' then .error .expectedValue
    else .error .keyNotText

theorem memberName_length {s rest : List Char} {name : String}
    (read : memberName s = .ok (name, rest)) : rest.length < s.length := by
  have blanks := skipGap_length_le s
  unfold memberName at read
  split at read
  · cases read
  · next c tail equal =>
    rw [equal, List.length_cons] at blanks
    split at read
    · have := textBody_length_le read
      omega
    · split at read <;> cases read

def unitValue (s : List Char) : Except Fault (List Char) :=
  match skipGap s with
  | 'n' :: rest => word ['u', 'l', 'l'] rest
  | start => .error (mismatch "unit" start)

def namingEnd (s : List Char) : Except Fault (List Char) :=
  match skipGap s with
  | [] => .error .endOfObject
  | c :: rest => if c = '\x7d' then .ok rest else .error .expectedValue

theorem unitValue_length_le {s rest : List Char} (read : unitValue s = .ok rest) :
    rest.length ≤ s.length := by
  have blanks := skipGap_length_le s
  unfold unitValue at read
  split at read
  · next tail equal =>
    rw [equal, List.length_cons] at blanks
    have := word_length_le read
    omega
  · cases read

theorem namingEnd_length_le {s rest : List Char} (read : namingEnd s = .ok rest) :
    rest.length ≤ s.length := by
  have blanks := skipGap_length_le s
  unfold namingEnd at read
  split at read
  · cases read
  · next c tail equal =>
    rw [equal, List.length_cons] at blanks
    split at read
    · cases read
      omega
    · cases read

def namingObject {α : Type} (known : List (String × α)) (s : List Char) :
    Except Fault (α × List Char) := do
  let (name, rest) ← memberName s
  let a ← named known name
  let rest ← namingEnd (← unitValue (← colon rest))
  .ok (a, rest)

theorem namingObject_length {α : Type} {known : List (String × α)} {s rest : List Char} {a : α}
    (read : namingObject known s = .ok (a, rest)) : rest.length < s.length := by
  obtain ⟨⟨name, afterName⟩, front, read⟩ := bind_eq_ok.mp read
  obtain ⟨a, _, read⟩ := bind_eq_ok.mp read
  obtain ⟨afterColon, mark, read⟩ := bind_eq_ok.mp read
  obtain ⟨afterUnit, unit, read⟩ := bind_eq_ok.mp read
  obtain ⟨afterEnd, last, read⟩ := bind_eq_ok.mp read
  cases read
  have := memberName_length front
  have := colon_length mark
  have := unitValue_length_le unit
  have := namingEnd_length_le last
  omega

def takeVariant {α : Type} (known : List (String × α)) (room : Nat) (s : List Char) :
    Except Fault (α × List Char) :=
  match skipGap s with
  | [] => .error .endOfValue
  | c :: rest =>
    if c = '"' then do
      let (name, rest) ← textBody c rest
      let a ← named known name
      .ok (a, rest)
    else if c = '\x7b' then
      if room = 0 then .error .tooDeep else namingObject known rest
    else .error .expectedValue

theorem takeVariant_length {α : Type} {known : List (String × α)} {room : Nat}
    {s rest : List Char} {a : α} (read : takeVariant known room s = .ok (a, rest)) :
    rest.length < s.length := by
  have blanks := skipGap_length_le s
  unfold takeVariant at read
  split at read
  · cases read
  · next c tail equal =>
    rw [equal, List.length_cons] at blanks
    split at read
    · obtain ⟨⟨name, after⟩, front, read⟩ := bind_eq_ok.mp read
      obtain ⟨a, _, read⟩ := bind_eq_ok.mp read
      cases read
      have := textBody_length_le front
      omega
    · split at read
      · split at read
        · cases read
        · have := namingObject_length read
          omega
      · cases read

/-- A value given by its name, either alone or as the name of the only member of an object whose
value is `null`. -/
def variant {α : Type} (known : List (String × α)) (room : Nat) : Reader α :=
  ⟨takeVariant known room, takeVariant_length⟩

end Reader

end HabitLedger.Json
