import HabitLedger.Json.Nested

/-!
Readers of records. A record is written as an object, whose members come in any order, or as a list
of its fields in their own order. In an object, members of other names are passed over and no field
may come twice; a field that does not come takes the value it has when absent. In a list, the fields
that are cut off at the end take the value they have for that.
-/

namespace HabitLedger.Json

structure Field (α : Type) where
  name : String
  value : Nat → Reader α
  /-- The value when an object lacks the field. -/
  absent : Option α
  /-- The value when a list ends before the field. -/
  cut : Option α

namespace Field

def required {α : Type} (name : String) (value : Nat → Reader α) : Field α :=
  ⟨name, value, none, none⟩

def withDefault {α : Type} (name : String) (value : Nat → Reader α) (default : α) : Field α :=
  ⟨name, value, some default, some default⟩

def optional {α : Type} (name : String) (value : Nat → Reader α) : Field (Option α) :=
  withDefault name (fun room => (value room).optional) none

def nullable {α : Type} (name : String) (value : Nat → Reader α) : Field (Option α) :=
  ⟨name, fun room => (value room).optional, some none, none⟩

end Field

inductive Fields : List Type → Type 1 where
  | done : Fields []
  | field {α : Type} {rest : List Type} (first : Field α) (more : Fields rest) :
      Fields (α :: rest)

@[reducible] def Values : List Type → Type
  | [] => Unit
  | α :: rest => α × Values rest

@[reducible] def Slots : List Type → Type
  | [] => Unit
  | α :: rest => Option α × Slots rest

namespace Fields

def size {types : List Type} : Fields types → Nat
  | .done => 0
  | .field _ more => more.size + 1

def empty : (types : List Type) → Slots types
  | [] => ()
  | _ :: rest => (none, empty rest)

/-- The member of this name: it fills its slot, or is passed over if no field has the name. -/
def fill {types : List Type} (room : Nat) (fields : Fields types) (slots : Slots types)
    (name : String) (s : List Char) : Except Fault (Slots types × List Char) :=
  match fields, slots with
  | .done, () => do
    let rest ← colon s
    let rest ← skip rest
    .ok ((), rest)
  | .field first more, (slot, slots) =>
    if first.name = name then
      if slot.isSome then .error (.duplicateField name)
      else do
        let rest ← colon s
        let (a, rest) ← (first.value room).run rest
        .ok ((some a, slots), rest)
    else (more.fill room slots name s).map fun read => ((slot, read.1), read.2)

theorem fill_length {types : List Type} {room : Nat} {fields : Fields types}
    {slots after : Slots types} {name : String} {s rest : List Char}
    (read : fields.fill room slots name s = .ok (after, rest)) : rest.length < s.length := by
  induction fields with
  | done =>
    obtain ⟨afterColon, mark, read⟩ := bind_eq_ok.mp read
    obtain ⟨afterValue, value, read⟩ := bind_eq_ok.mp read
    cases read
    exact Nat.lt_trans (skip_length value) (colon_length mark)
  | field first more ih =>
    unfold fill at read
    dsimp only at read
    split at read
    · split at read
      · cases read
      · obtain ⟨afterColon, mark, read⟩ := bind_eq_ok.mp read
        obtain ⟨⟨a, last⟩, value, read⟩ := bind_eq_ok.mp read
        cases read
        exact Nat.lt_trans ((first.value room).shorter value) (colon_length mark)
    · obtain ⟨⟨inner, last⟩, deeper, read⟩ := map_eq_ok.mp read
      cases read
      exact ih deeper

def member {types : List Type} (fields : Fields types) (room : Nat) :
    MemberReader (Slots types) := ⟨fields.fill room, fill_length⟩

def complete {types : List Type} (fields : Fields types) (slots : Slots types) :
    Except Fault (Values types) :=
  match fields, slots with
  | .done, () => .ok ()
  | .field first more, (slot, slots) =>
    match slot.or first.absent with
    | none => .error (.missingField first.name)
    | some a => (more.complete slots).map (a, ·)

def cutOff {types : List Type} (fields : Fields types) (tooShort : Fault) :
    Except Fault (Values types) :=
  match fields with
  | .done => .ok ()
  | .field first more =>
    match first.cut with
    | none => .error tooShort
    | some a => (more.cutOff tooShort).map (a, ·)

/-- The fields of a record written as a list, of which `found` have been read; `tooShort` is the
fault of a list that ends too soon. -/
def inOrder {types : List Type} (room : Nat) (tooShort : Nat → Fault) (found : Nat)
    (fields : Fields types) (s : List Char) : Except Fault (Values types × List Char) :=
  match fields with
  | .done => (listEnd s).map ((), ·)
  | .field first more =>
    match listTurn (found = 0) s with
    | .error fault => .error fault
    | .ok (.closed rest) => ((Fields.field first more).cutOff (tooShort found)).map (·, rest)
    | .ok (.entry start) =>
      match (first.value room).run start with
      | .error fault => .error fault
      | .ok (a, after) =>
        (more.inOrder room tooShort (found + 1) after).map fun read => ((a, read.1), read.2)

theorem inOrder_length {types : List Type} {room : Nat} {tooShort : Nat → Fault} {found : Nat}
    {fields : Fields types} {values : Values types} {s rest : List Char}
    (read : fields.inOrder room tooShort found s = .ok (values, rest)) :
    rest.length < s.length := by
  induction fields generalizing found s with
  | done =>
    obtain ⟨after, part, last⟩ := map_eq_ok.mp read
    cases last
    exact listEnd_length part
  | field first more ih =>
    unfold inOrder at read
    split at read
    · cases read
    · next turn =>
      obtain ⟨after, part, last⟩ := map_eq_ok.mp read
      cases last
      exact listTurn_closed_length turn
    · next start turn =>
      split at read
      · cases read
      · next a after value =>
        obtain ⟨⟨inner, last⟩, deeper, read⟩ := map_eq_ok.mp read
        cases read
        have := ih deeper
        have := (first.value room).shorter value
        have := listTurn_entry_length_le turn
        omega

end Fields

structure Record (α : Type) where
  name : String
  {types : List Type}
  fields : Fields types
  build : Values types → α

namespace Record

variable {α : Type}

def tooShort (record : Record α) (found : Nat) : Fault :=
  .wrongLength found record.name record.fields.size

def readObject (record : Record α) (room : Nat) (s : List Char) :
    Except Fault (α × List Char) := do
  let (slots, rest) ← members (record.fields.member room) true (Fields.empty record.types) s
  let values ← record.fields.complete slots
  .ok (record.build values, rest)

def readList (record : Record α) (room : Nat) (s : List Char) : Except Fault (α × List Char) := do
  let (values, rest) ← record.fields.inOrder room record.tooShort 0 s
  .ok (record.build values, rest)

def take (record : Record α) (room : Nat) (s : List Char) : Except Fault (α × List Char) :=
  match skipGap s with
  | [] => .error .endOfValue
  | c :: rest =>
    if c = '\x7b' then
      match room with
      | 0 => .error .tooDeep
      | room + 1 => record.readObject room rest
    else if c = '[' then
      match room with
      | 0 => .error .tooDeep
      | room + 1 => record.readList room rest
    else .error (mismatch ("struct " ++ record.name) (c :: rest))

theorem readObject_length {record : Record α} {room : Nat} {s rest : List Char} {a : α}
    (read : record.readObject room s = .ok (a, rest)) : rest.length < s.length := by
  obtain ⟨⟨slots, after⟩, part, read⟩ := bind_eq_ok.mp read
  obtain ⟨values, _, read⟩ := bind_eq_ok.mp read
  cases read
  exact members_length part

theorem readList_length {record : Record α} {room : Nat} {s rest : List Char} {a : α}
    (read : record.readList room s = .ok (a, rest)) : rest.length < s.length := by
  obtain ⟨⟨values, after⟩, part, read⟩ := bind_eq_ok.mp read
  cases read
  exact Fields.inOrder_length part

theorem take_length {record : Record α} {room : Nat} {s rest : List Char} {a : α}
    (read : record.take room s = .ok (a, rest)) : rest.length < s.length := by
  have blanks := skipGap_length_le s
  unfold take at read
  split at read
  · cases read
  · next c tail equal =>
    rw [equal, List.length_cons] at blanks
    split at read
    · split at read
      · cases read
      · have := readObject_length read
        omega
    · split at read
      · split at read
        · cases read
        · have := readList_length read
          omega
      · cases read

def reader (record : Record α) (room : Nat) : Reader α := ⟨record.take room, take_length⟩

end Record

end HabitLedger.Json
