import HabitLedger.Proofs.Skipping
import HabitLedger.Proofs.Writing

/-!
Values that nobody asked for. Whatever is written is passed over as a whole, in every layout and
inside any open containers, so a record can be read out of an object that holds other members as
well; and where the value of a field is refused, so is the record.
-/

namespace HabitLedger.Json

theorem skip_laid (value : Value) (writable : value.Writable) (layout : Layout) (depth : Nat)
    (gap rest : List Char) (blank : Blank gap) (stops : Stops rest) :
    skip (gap ++ (value.laid layout depth ++ rest)) = .ok rest :=
  (writable.denotes value layout depth).skipped _ _ gap rest blank stops

/-! ## Records among other members -/

section Members
variable {σ : Type} (member : MemberReader σ)

theorem reaches_append (state middle after : σ) (first second : List (String × Value))
    (front : Reaches member state first middle) (back : Reaches member middle second after) :
    Reaches member state (first ++ second) after := by
  induction front with
  | done => exact back
  | next takes _ ih => exact .next takes (ih back)

def Rejects (state : σ) (name : String) (value : Value) (fault : Fault) : Prop :=
  ∀ layout depth rest, Stops rest →
    member.run state name (':' :: (Layout.space layout ++ (value.laid layout depth ++ rest))) =
      .error fault

theorem members_rejected (first : Bool) (state : σ) (name : String) (s start : List Char)
    (fault : Fault)
    (turn : objectTurn first s = .ok (.entry (name.toList.flatMap escaped ++ '"' :: start)))
    (rejected : member.run state name start = .error fault) :
    members member first state s = .error fault := by
  have named := stringBody_flatMap true name.toList start
  rw [members]
  split
  · next failed => rw [turn] at failed; cases failed
  · next closed => rw [turn] at closed; cases closed
  · next entry =>
    rw [turn] at entry
    cases entry
    split
    · next failed => rw [named] at failed; cases failed
    · next body =>
      rw [named] at body
      cases body
      rw [String.ofList_toList]
      split
      · next failed => rw [rejected] at failed; exact failed.symm
      · next read => rw [rejected] at read; cases read

theorem next_refused (layout : Layout) (depth : Nat) (state : σ) (name : String) (value : Value)
    (back : List (String × Value)) (fault : Fault) (gap rest : List Char) (blank : Blank gap)
    (rejects : Rejects member state name value fault) :
    members member false state
      (Value.laidMembers layout depth ((name, value) :: back) ++ (gap ++ '\x7d' :: rest)) =
        .error fault := by
  have stops := members_stop layout depth back gap rest '\x7d' blank
    (stops_of _ _ (by decide) (by decide))
  have turn := objectTurn_next (layout.line depth) (name.toList.flatMap escaped ++ '"' :: ':' ::
    (layout.space ++ (value.laid layout depth ++ (Value.laidMembers layout depth back ++
      (gap ++ '\x7d' :: rest))))) (layout.line_blank depth)
  simp only [Value.laidMembers, quoted, List.cons_append, List.append_assoc, List.nil_append]
  exact members_rejected member false state name _ _ fault turn (rejects layout depth _ stops)

/-- One member that is refused has the whole object refused, with the same fault. -/
theorem object_refused (layout : Layout) (depth : Nat) (state middle : σ)
    (front back : List (String × Value)) (name : String) (value : Value) (fault : Fault)
    (rest : List Char) (reaches : Reaches member state front middle)
    (rejects : Rejects member middle name value fault) :
    ∃ body, (Value.object (front ++ (name, value) :: back)).laid layout depth = '\x7b' :: body ∧
      members member true state (body ++ rest) = .error fault := by
  cases reaches with
  | done =>
    have stops := members_stop layout (depth + 1) back (layout.line depth) rest '\x7d'
      (layout.line_blank depth) (stops_of _ _ (by decide) (by decide))
    have turn := objectTurn_first (layout.line (depth + 1)) (name.toList.flatMap escaped ++ '"' ::
      ':' :: (layout.space ++ (value.laid layout (depth + 1) ++
        (Value.laidMembers layout (depth + 1) back ++ (layout.line depth ++ '\x7d' :: rest)))))
      (layout.line_blank (depth + 1))
    refine ⟨_, rfl, ?_⟩
    simp only [quoted, List.append_eq, List.cons_append, List.append_assoc, List.nil_append]
    exact members_rejected member true _ name _ _ fault turn (rejects layout (depth + 1) _ stops)
  | next takes last =>
    obtain ⟨body, text, read⟩ :=
      object_front member layout depth _ _ _ _ _ _ ((name, value) :: back) rest takes last
    exact ⟨body, text, read.trans (next_refused member layout (depth + 1) middle name value back
      fault _ rest (layout.line_blank depth) rejects)⟩

end Members

namespace Fields
variable {types : List Type} (fields : Fields types) (room : Nat)

theorem takes_over (slots : Slots types) (name : String) (value : Value)
    (unknown : name ∉ fields.names) (writable : value.Writable) :
    Takes (fields.member room) slots name value slots := by
  induction fields with
  | done =>
    intro layout depth rest stops
    have passed := skip_laid value writable layout depth layout.space rest layout.space_blank stops
    change fill room .done () name _ = .ok ((), rest)
    simp [fill, colon_before, passed, bind, Except.bind]
  | field first more ih =>
    obtain ⟨other, unknown⟩ := not_or.mp (mt List.mem_cons.mpr unknown)
    exact takes_later room first more slots.1 slots.2 _ name value (Ne.symm other)
      (ih slots.2 unknown)

theorem reaches_over (slots : Slots types) (members : List (String × Value))
    (unknown : ∀ member ∈ members, member.1 ∉ fields.names ∧ member.2.Writable) :
    Reaches (fields.member room) slots members slots := by
  induction members with
  | nil => exact .done slots
  | cons member members ih =>
    obtain ⟨name, value⟩ := member
    obtain ⟨other, writable⟩ := unknown _ List.mem_cons_self
    exact .next (fields.takes_over room slots name value other writable)
      (ih fun later found => unknown later (List.mem_cons_of_mem _ found))

end Fields

def Reader.Refuses {α : Type} (reader : Reader α) (value : Value) (fault : Fault) : Prop :=
  ∀ layout depth gap rest, Blank gap → Stops rest →
    reader.run (gap ++ (value.laid layout depth ++ rest)) = .error fault

theorem Reader.refuses_null : real.Refuses .null (.wrongType .null "f64") := by
  intro layout depth gap rest blank stops
  have read := word_append ['u', 'l', 'l'] rest
  have refused : takeNumber "f64" (gap ++ (Value.null.laid layout depth ++ rest)) =
      .error (.wrongType .null "f64") := by
    simp only [List.cons_append, List.nil_append] at read
    simp [Value.laid, takeNumber, skipGap_before gap _ 'n' blank rfl, mismatch, read, Except.map]
  simp only [real, check, takeChecked, numberFor, refused]
  rfl

namespace Record
variable {α : Type} (record : Record α) (room : Nat)

theorem refuses (slots : Slots record.types) (front back : List (String × Value)) (name : String)
    (value : Value) (fault : Fault)
    (reaches : Reaches (record.fields.member room) (Fields.empty record.types) front slots)
    (rejects : Rejects (record.fields.member room) slots name value fault) :
    (record.reader (room + 1)).Refuses (.object (front ++ (name, value) :: back)) fault := by
  intro layout depth gap rest blank stops
  obtain ⟨body, text, read⟩ :=
    object_refused _ layout depth _ slots front back name value fault rest reaches rejects
  change record.take (room + 1) _ = _
  rw [text]
  simp [Record.take, skipGap_before gap _ '\x7b' blank rfl, Record.readObject, read, bind,
    Except.bind]

end Record

theorem Fields.rejects_first {α : Type} {types : List Type} (first : Field α) (more : Fields types)
    (room : Nat) (slots : Slots types) (value : Value) (fault : Fault)
    (refuses : (first.value room).Refuses value fault) :
    Rejects ((Fields.field first more).member room) (none, slots) first.name value fault := by
  intro layout depth rest stops
  have refused := refuses layout depth layout.space rest layout.space_blank stops
  change fill room (.field first more) (none, slots) first.name _ = _
  simp [fill, colon_before, refused, bind, Except.bind]

theorem Fields.rejects_later {α : Type} {types : List Type} (first : Field α) (more : Fields types)
    (room : Nat) (slot : Option α) (slots : Slots types) (name : String) (value : Value)
    (fault : Fault) (other : first.name ≠ name)
    (rejects : Rejects (more.member room) slots name value fault) :
    Rejects ((Fields.field first more).member room) (slot, slots) name value fault := by
  intro layout depth rest stops
  have inner := rejects layout depth rest stops
  change more.fill room slots name _ = _ at inner
  change fill room (.field first more) (slot, slots) name _ = _
  simp [fill, other, inner, Except.map]

def Record.single {α : Type} (name field : String) (value : Nat → Reader α) : Record α where
  name := name
  fields := .field (.required field value) .done
  build
    | (a, ()) => a

section Single
variable {α : Type} (name field : String) (reader : Nat → Reader α) (room : Nat)
  (front back : List (String × Value)) (value : Value)

theorem Record.restores_single (a : α) (restores : (reader room).Restores value a)
    (unknown : ∀ member ∈ front ++ back, member.1 ≠ field ∧ member.2.Writable) :
    ((single name field reader).reader (room + 1)).Restores
      (.object (front ++ (field, value) :: back)) a := by
  have others (member : String × Value) (found : member ∈ front ++ back) :
      member.1 ∉ (single name field reader).fields.names ∧ member.2.Writable := by
    obtain ⟨other, writable⟩ := unknown member found
    exact ⟨fun same => other (List.mem_singleton.mp same), writable⟩
  refine (single name field reader).restores_reached room (some a, ()) (a, ()) _ ?_ rfl
  refine reaches_append _ _ _ _ _ _ (Fields.reaches_over _ room _ front fun member found =>
    others member (List.mem_append_left back found)) ?_
  exact .next (Fields.takes_first room (.required field reader) .done () value a restores)
    (Fields.reaches_over _ room _ back fun member found =>
      others member (List.mem_append_right front found))

theorem Record.refuses_single (fault : Fault) (refuses : (reader room).Refuses value fault)
    (unknown : ∀ member ∈ front, member.1 ≠ field ∧ member.2.Writable) :
    ((single name field reader).reader (room + 1)).Refuses
      (.object (front ++ (field, value) :: back)) fault := by
  refine (single name field reader).refuses room (none, ()) front back field value fault ?_ ?_
  · refine Fields.reaches_over _ room _ front fun member found => ?_
    obtain ⟨other, writable⟩ := unknown member found
    exact ⟨fun same => other (List.mem_singleton.mp same), writable⟩
  · exact Fields.rejects_first (.required field reader) .done room () value fault refuses

end Single

theorem decode_refused {α : Type} (reader : Nat → Reader α) (value : Value) (fault : Fault)
    (refuses : (reader deepest).Refuses value fault) :
    decode reader value.toCompact = .error fault ∧ decode reader value.toPretty = .error fault := by
  have refused (layout : Layout) : decode reader (String.ofList (value.laid layout 0)) =
      .error fault := by
    have failed := refuses layout 0 [] [] (fun _ none => nomatch none) (fun _ none => nomatch none)
    rw [List.nil_append, List.append_nil] at failed
    simp [decode, String.toList_ofList, failed, bind, Except.bind]
  have compact := refused .compact
  have pretty := refused .pretty
  rw [Value.laid_compact] at compact
  rw [Value.laid_pretty] at pretty
  exact ⟨compact, pretty⟩

end HabitLedger.Json
