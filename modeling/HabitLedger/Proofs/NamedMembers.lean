import HabitLedger.Proofs.ReadingRecords

/-!
The members of an object by their names. A record takes from an object what stands under the name of
each of its fields, once at most; the order of the members and members of other names make no
difference, as long as every name can be read.
-/

namespace HabitLedger.Json

def named (name : String) (members : List (Option String × Datum)) : List Datum :=
  members.filterMap fun member => if member.1 = some name then some member.2 else none

def NamesRead (members : List (Option String × Datum)) : Prop := ∀ member ∈ members, member.1 ≠ none

theorem named_same (name : String) (datum : Datum) (members : List (Option String × Datum)) :
    named name ((some name, datum) :: members) = datum :: named name members := by
  simp [named]

theorem named_other (name other : String) (datum : Datum) (members : List (Option String × Datum))
    (unlike : other ≠ name) : named name ((some other, datum) :: members) = named name members := by
  simp [named, unlike]

/-- Where no name is repeated, nothing stands under a name twice. -/
theorem named_once (name : String) (members : List (Option String × Datum))
    (distinct : (members.filterMap (·.1)).Nodup) :
    named name members = [] ∨ ∃ datum, named name members = [datum] := by
  induction members with
  | nil => exact .inl rfl
  | cons member members ih =>
    obtain ⟨given, datum⟩ := member
    cases given with
    | none => exact ih distinct
    | some other =>
      obtain ⟨fresh, distinct⟩ := List.nodup_cons.mp distinct
      by_cases same : other = name
      · subst same
        refine .inr ⟨datum, ?_⟩
        rw [named_same, List.cons_eq_cons]
        refine ⟨rfl, List.filterMap_eq_nil_iff.mpr fun member found => ?_⟩
        have unlike : member.1 ≠ some other := fun same =>
          fresh (List.mem_filterMap.mpr ⟨member, found, same⟩)
        rw [if_neg unlike]
      · rw [named_other name other datum members same]
        exact ih distinct

/-- What a slot holds after what stands under its name, unless that is more than one. -/
def held {α : Type} (meaning : Datum → Option α) : Option α → List Datum → Option (Option α)
  | slot, [] => some slot
  | some _, _ :: _ => none
  | none, datum :: more => (meaning datum).bind fun a => held meaning (some a) more

namespace Field
variable {α : Type}

def share (field : Field α) (meaning : Datum → Option α) (members : List (Option String × Datum)) :
    Option α :=
  (held meaning none (named field.name members)).bind fun slot => slot.or field.absent

theorem share_missing (field : Field α) (meaning : Datum → Option α)
    (members : List (Option String × Datum)) (missing : named field.name members = []) :
    field.share meaning members = field.absent := by
  rw [share, missing]
  rfl

theorem share_single (field : Field α) (meaning : Datum → Option α)
    (members : List (Option String × Datum)) (datum : Datum)
    (single : named field.name members = [datum]) :
    field.share meaning members = meaning datum := by
  rw [share, single, held]
  cases meaning datum <;> rfl

/-- What is `null` counts as nothing; anything else must have a meaning. -/
theorem share_optional (name : String) (value : Nat → Reader α) (meaning : Datum → Option α)
    (members : List (Option String × Datum)) (found : Option α) (nothing : meaning .null = none)
    (single : named name members = [] ∨ ∃ datum, named name members = [datum]) :
    (Field.optional name value).share (Datum.optional meaning) members = some found ↔
      (∀ datum ∈ named name members, datum = .null ∨ ∃ a, meaning datum = some a) ∧
        found = (named name members).findSome? meaning := by
  obtain none | ⟨datum, one⟩ := single
  · rw [share_missing _ _ members none, none]
    simp [optional, withDefault, eq_comm]
  · rw [share_single _ _ members datum one, one]
    simp only [List.forall_mem_singleton, List.findSome?_singleton]
    by_cases null : datum = .null
    · subst null
      simp [nothing, Datum.optional, eq_comm]
    · rw [Datum.optional_more meaning datum null]
      cases meaning datum <;> simp [null, eq_comm]

end Field

namespace Fields
variable {types : List Type} (fields : Fields types)

def taken {types : List Type} (fields : Fields types) (meanings : Meanings types)
    (slots : Slots types) (members : List (Option String × Datum)) : Option (Slots types) :=
  match fields, meanings, slots with
  | .done, (), () => some ()
  | .field first more, (meaning, meanings), (slot, slots) =>
    (held meaning slot (named first.name members)).bind fun slot =>
      (more.taken meanings slots members).map (slot, ·)

theorem taken_nil (meanings : Meanings types) (slots : Slots types) :
    fields.taken meanings slots [] = some slots := by
  induction fields with
  | done => rfl
  | field first more ih => simp [taken, named, held, ih]

theorem taken_other (meanings : Meanings types) (slots : Slots types)
    (name : String) (datum : Datum) (members : List (Option String × Datum))
    (other : name ∉ fields.names) : fields.taken meanings slots ((some name, datum) :: members) =
      fields.taken meanings slots members := by
  induction fields with
  | done => rfl
  | field first more ih =>
    obtain ⟨unlike, others⟩ := not_or.mp (mt List.mem_cons.mpr other)
    rw [taken, taken, named_other first.name name datum members unlike, ih _ _ others]

theorem taken_cons (meanings : Meanings types) (slots : Slots types) (name : String) (datum : Datum)
    (members : List (Option String × Datum)) (distinct : fields.names.Nodup) :
    fields.taken meanings slots ((some name, datum) :: members) =
      (fields.slotted meanings slots name datum).bind fun slots =>
        fields.taken meanings slots members := by
  induction fields with
  | done => rfl
  | field first more ih =>
    obtain ⟨fresh, distinct⟩ := List.nodup_cons.mp distinct
    obtain ⟨meaning, meanings⟩ := meanings
    obtain ⟨slot, slots⟩ := slots
    by_cases same : first.name = name
    · subst same
      rw [taken, named_same, taken_other more meanings slots first.name datum members fresh]
      cases slot with
      | some a => simp [slotted, held]
      | none =>
        simp only [slotted, if_true, Option.isSome_none, Bool.false_eq_true, if_false, held]
        cases meaning datum <;> rfl
    · rw [taken, named_other first.name name datum members (Ne.symm same),
        ih meanings slots distinct]
      simp only [slotted, same, if_false]
      cases more.slotted meanings slots name datum with
      | none =>
        cases held meaning slot (named first.name members) <;> rfl
      | some slots => rfl

/-- The order of the members makes no difference, nor do those that no field has the name of. -/
theorem gathered_taken (meanings : Meanings types) (slots : Slots types)
    (members : List (Option String × Datum)) (distinct : fields.names.Nodup)
    (read : NamesRead members) :
    gathered (fields.slotted meanings) slots members = fields.taken meanings slots members := by
  induction members generalizing slots with
  | nil => exact (fields.taken_nil meanings slots).symm
  | cons member members ih =>
    obtain ⟨name, datum⟩ := member
    obtain ⟨here, later⟩ := List.forall_mem_cons.mp read
    cases name with
    | none => exact absurd rfl here
    | some name =>
      rw [taken_cons fields meanings slots name datum members distinct, gathered, Option.bind_some]
      exact Option.bind_congr fun slots _ => ih slots later

def shares {types : List Type} (fields : Fields types) (meanings : Meanings types)
    (members : List (Option String × Datum)) : Option (Values types) :=
  match fields, meanings with
  | .done, () => some ()
  | .field first more, (meaning, meanings) =>
    (first.share meaning members).bind fun a => (more.shares meanings members).map (a, ·)

theorem shares_iff {α : Type} (first : Field α) (meaning : Datum → Option α)
    (meanings : Meanings types) (members : List (Option String × Datum)) (a : α)
    (values : Values types) :
    (field first fields).shares (meaning, meanings) members = some (a, values) ↔
      first.share meaning members = some a ∧ fields.shares meanings members = some values := by
  rw [shares]
  cases first.share meaning members <;> cases fields.shares meanings members <;> simp

/-- What the fields take from an object, one member after the other, comes to the share of each. -/
theorem taken_complete (meanings : Meanings types) (members : List (Option String × Datum)) :
    ((fields.taken meanings (empty types) members).bind fun slots =>
      (fields.complete slots).toOption) = fields.shares meanings members := by
  induction fields with
  | done => rfl
  | field first more ih =>
    obtain ⟨meaning, meanings⟩ := meanings
    rw [shares, Field.share, ← ih meanings, empty, taken]
    cases held meaning none (named first.name members) with
    | none => rfl
    | some slot =>
      simp only [Option.bind_some]
      cases more.taken meanings (empty _) members with
      | none => cases slot.or first.absent <;> rfl
      | some slots =>
        simp only [Option.map_some, Option.bind_some, complete]
        cases slot.or first.absent with
        | none => rfl
        | some a => simp [toOption_map]

theorem gathered_unread (meaning : σ → String → Datum → Option σ) (state : σ)
    (members : List (Option String × Datum)) (unread : ¬ NamesRead members) :
    gathered meaning state members = none := by
  induction members generalizing state with
  | nil => exact absurd (fun _ none => absurd none List.not_mem_nil) unread
  | cons member members ih =>
    obtain ⟨name, datum⟩ := member
    cases name with
    | none => rfl
    | some name =>
      have later : ¬ NamesRead members := fun read =>
        unread (List.forall_mem_cons.mpr ⟨Option.some_ne_none name, read⟩)
      rw [gathered, Option.bind_some]
      refine Option.bind_eq_none_iff.mpr fun state _ => ih state later

end Fields

namespace Record
variable {α : Type} (record : Record α) (meanings : Meanings record.types)
  (members : List (Option String × Datum))

theorem said_read (distinct : record.fields.names.Nodup) (read : NamesRead members) :
    record.said meanings (.object members) =
      (record.fields.shares meanings members).map record.build := by
  rw [said, Fields.gathered_taken record.fields meanings _ members distinct read,
    ← record.fields.taken_complete meanings members, Option.map_bind]
  refine Option.bind_congr fun slots _ => ?_
  dsimp only [Function.comp_apply]
  cases record.fields.complete slots <;> rfl

theorem said_unread (unread : ¬ NamesRead members) :
    record.said meanings (.object members) = none := by
  rw [said, Fields.gathered_unread _ _ members unread]
  rfl

/-- An object is a record if its names can be read and its members give every field a value. -/
theorem said_iff (distinct : record.fields.names.Nodup) (a : α) :
    record.said meanings (.object members) = some a ↔ NamesRead members ∧
      ∃ values, record.fields.shares meanings members = some values ∧ record.build values = a := by
  by_cases read : NamesRead members
  · rw [said_read record meanings members distinct read, Option.map_eq_some_iff, and_iff_right read]
  · rw [said_unread record meanings members read]
    exact ⟨fun none => absurd none.symm (Option.some_ne_none a), fun all => absurd all.1 read⟩

end Record

end HabitLedger.Json
