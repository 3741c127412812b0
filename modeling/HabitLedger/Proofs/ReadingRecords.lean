import HabitLedger.Json.Record
import HabitLedger.Proofs.Skipping

/-!
What the readers of lists and records make of a datum: of a list what they make of its items, and of
an object what the fields make of the members that have their names, whatever else it holds and in
whatever order. Blanks make no difference.
-/

namespace HabitLedger.Json

/-! ## Lists -/

theorem listTurn_closed (first : Bool) (gap rest : List Char) (blank : Blank gap) :
    listTurn first (gap ++ ']' :: rest) = .ok (.closed rest) := by
  simp [listTurn, skipGap_before gap _ ']' blank rfl]

theorem listTurn_first (gap rest : List Char) (c : Char) (blank : Blank gap)
    (dark : isGap c = false) (unclosed : c ≠ ']') :
    listTurn true (gap ++ c :: rest) = .ok (.entry (c :: rest)) := by
  simp [listTurn, skipGap_before gap _ c blank dark, unclosed]

theorem listTurn_comma (before gap rest : List Char) (c : Char) (blank : Blank before)
    (spaced : Blank gap) (dark : isGap c = false) (unclosed : c ≠ ']') :
    listTurn false (before ++ ',' :: (gap ++ c :: rest)) = .ok (.entry (c :: rest)) := by
  simp [listTurn, skipGap_before before _ ',' blank rfl,
    skipGap_before gap _ c spaced dark, unclosed]

theorem items_closed {α : Type} (item : Reader α) (first : Bool) (s rest : List Char)
    (turn : listTurn first s = .ok (.closed rest)) : items item first s = .ok ([], rest) := by
  rw [items]
  split
  · next failed => rw [turn] at failed; cases failed
  · next done => rw [turn] at done; cases done; rfl
  · next entry => rw [turn] at entry; cases entry

theorem items_entered {α : Type} (item : Reader α) (first : Bool) (s start : List Char)
    (turn : listTurn first s = .ok (.entry start)) :
    (items item first s).toOption = (item.run start).toOption.bind fun read =>
      (items item false read.2).toOption.map fun more => (read.1 :: more.1, more.2) := by
  rw [items]
  split
  · next failed => rw [turn] at failed; cases failed
  · next closed => rw [turn] at closed; cases closed
  · next begun entry =>
    rw [turn] at entry
    cases entry
    split
    · next failed => rw [failed]; rfl
    · next a after read =>
      rw [read]
      change (items item false after >>= fun more => Except.ok (a :: more.1, more.2)).toOption =
        (items item false after).toOption.map fun more => (a :: more.1, more.2)
      cases items item false after <;> rfl

/-- Whatever blanks stand around it, an item of a datum is what comes next. -/
theorem Joined.listTurn (first : Bool) (entry : List Char) (entries : List (List Char))
    (inside rest : List Char) (datum : Datum) (denotes : Denotes entry datum)
    (joined : Joined first (entry :: entries) inside) :
    ∃ more, Joined false entries more ∧
      listTurn first (inside ++ ']' :: rest) = .ok (.entry (entry ++ (more ++ ']' :: rest))) := by
  obtain ⟨c, tail, front, starts⟩ := denotes.front
  obtain ⟨dark, unclosed⟩ := starts.dark
  cases joined with
  | first gap entry entries more blank joined =>
    refine ⟨more, joined, ?_⟩
    rw [List.append_assoc, List.append_assoc, front, List.cons_append]
    exact listTurn_first gap _ c blank dark unclosed
  | next before gap entry entries more blank spaced joined =>
    refine ⟨more, joined, ?_⟩
    rw [List.append_assoc, List.cons_append, List.append_assoc, List.append_assoc, front,
      List.cons_append]
    exact listTurn_comma before gap _ c blank spaced dark unclosed

theorem Joined.blank (first : Bool) (inside : List Char) (joined : Joined first [] inside) :
    Blank inside := by
  cases joined with
  | done _ gap blank => exact blank

def Datum.list? {α : Type} (meaning : Datum → Option α) : Datum → Option (List α)
  | .list items => items.mapM meaning
  | _ => none

/-- A list is read if every item is; one item that is nothing makes it nothing. -/
theorem Datum.list_iff {α β : Type} (meaning : Datum → Option α) (datum : β → Datum)
    (good : β → Prop) (read : β → α) (items : List β) (found : List α)
    (each : ∀ item ∈ items, ∀ a, meaning (datum item) = some a ↔ good item ∧ a = read item) :
    list? meaning (.list (items.map datum)) = some found ↔
      (∀ item ∈ items, good item) ∧ found = items.map read := by
  rw [list?]
  induction items generalizing found with
  | nil => simp [eq_comm]
  | cons item items ih =>
    obtain ⟨here, later⟩ := List.forall_mem_cons.mp each
    rw [List.map_cons, List.mapM_cons, List.forall_mem_cons]
    constructor
    · intro whole
      obtain ⟨a, made, whole⟩ := Option.bind_eq_some_iff.mp whole
      obtain ⟨more, rest, whole⟩ := Option.bind_eq_some_iff.mp whole
      obtain ⟨fits, rfl⟩ := (here a).mp made
      obtain ⟨others, rfl⟩ := (ih more later).mp rest
      cases whole
      exact ⟨⟨fits, others⟩, rfl⟩
    · rintro ⟨⟨fits, others⟩, rfl⟩
      rw [(here (read item)).mpr ⟨fits, rfl⟩, (ih (items.map read) later).mpr ⟨others, rfl⟩]
      rfl

namespace Reader
variable {α : Type}

theorem items_mean (item : Reader α) (meaning : Datum → Option α) (means : item.Means meaning)
    (first : Bool) (entries : List (List Char × Datum)) (inside rest : List Char)
    (joined : Joined first (entries.map (·.1)) inside)
    (each : ∀ entry ∈ entries, Denotes entry.1 entry.2) :
    (items item first (inside ++ ']' :: rest)).toOption =
      ((entries.map (·.2)).mapM meaning).map (·, rest) := by
  induction entries generalizing first inside with
  | nil =>
    rw [items_closed item first _ rest (listTurn_closed first inside rest joined.blank)]
    rfl
  | cons entry entries ih =>
    obtain ⟨denotes, later⟩ := List.forall_mem_cons.mp each
    obtain ⟨more, joined, turn⟩ := joined.listTurn _ _ _ _ rest entry.2 denotes
    have stops := joined.stops _ _ (']' :: rest) (stops_of _ _ (by decide) (by decide))
    have read := means entry.2 entry.1 [] _ denotes blank_nil stops
    rw [List.nil_append] at read
    rw [items_entered item first _ _ turn, read, List.map_cons, List.mapM_cons]
    cases meaning entry.2 with
    | none => rfl
    | some a =>
      change (items item false (more ++ ']' :: rest)).toOption.map _ = _
      rw [ih false more joined later]
      change _ = ((((entries.map (·.2)).mapM meaning).bind fun as => some (a :: as))).map _
      cases (entries.map (·.2)).mapM meaning <;> rfl

theorem means_list (item : Nat → Reader α) (room : Nat) (meaning : Datum → Option α)
    (means : (item room).Means meaning) : (list item (room + 1)).Means (Datum.list? meaning) := by
  intro datum text gap rest denotes blank stops
  obtain ⟨c, tail, front, starts⟩ := denotes.front
  obtain ⟨dark, _⟩ := starts.dark
  have missed (s : List Char) (c : Char) (dark : isGap c = false) (other : c ≠ '[') :
      (takeList item (room + 1) (gap ++ c :: s)).toOption = none := by
    simp [takeList, skipGap_before gap s c blank dark, other, Except.toOption]
  change (takeList item (room + 1) (gap ++ (text ++ rest))).toOption = _
  cases denotes with
  | list entries inside joined each =>
    have read := items_mean (item room) meaning means true entries inside rest joined each
    rw [List.cons_append, List.append_assoc, List.singleton_append]
    simp only [takeList, skipGap_before gap _ '[' blank rfl, if_true]
    exact read
  | number =>
    rw [front, List.cons_append]
    exact missed _ c dark (signs_number c starts).2.1
  | _ => exact missed _ _ rfl (by decide)

end Reader

/-! ## Objects -/

theorem objectTurn_closed (first : Bool) (gap rest : List Char) (blank : Blank gap) :
    objectTurn first (gap ++ '\x7d' :: rest) = .ok (.closed rest) := by
  simp [objectTurn, skipGap_before gap _ '\x7d' blank rfl]

theorem objectTurn_first (gap rest : List Char) (blank : Blank gap) :
    objectTurn true (gap ++ '"' :: rest) = .ok (.entry rest) := by
  simp [objectTurn, skipGap_before gap _ '"' blank rfl]

theorem objectTurn_comma (before gap rest : List Char) (blank : Blank before) (spaced : Blank gap) :
    objectTurn false (before ++ ',' :: (gap ++ '"' :: rest)) = .ok (.entry rest) := by
  simp [objectTurn, skipGap_before before _ ',' blank rfl, skipGap_before gap _ '"' spaced rfl]

def Member.body (member : Member) (rest : List Char) : List Char :=
  member.name.flatMap Piece.chars ++ '"' :: (member.before ++ ':' :: (member.after ++
    (member.text ++ rest)))

theorem Member.chars_body (member : Member) (rest : List Char) :
    member.chars ++ rest = '"' :: member.body rest := by
  simp [chars, body, written]

theorem Joined.objectTurn (first : Bool) (member : Member) (entries : List (List Char))
    (inside rest : List Char) (joined : Joined first (member.chars :: entries) inside) :
    ∃ more, Joined false entries more ∧ objectTurn first (inside ++ '\x7d' :: rest) =
      .ok (.entry (member.body (more ++ '\x7d' :: rest))) := by
  cases joined with
  | first gap entry entries more blank joined =>
    refine ⟨more, joined, ?_⟩
    rw [List.append_assoc, List.append_assoc, Member.chars_body]
    exact objectTurn_first gap _ blank
  | next before gap entry entries more blank spaced joined =>
    refine ⟨more, joined, ?_⟩
    rw [List.append_assoc, List.cons_append, List.append_assoc, List.append_assoc,
      Member.chars_body]
    exact objectTurn_comma before gap _ blank spaced

section Members
variable {σ : Type} (member : MemberReader σ)

theorem members_closed (first : Bool) (state : σ) (s rest : List Char)
    (turn : objectTurn first s = .ok (.closed rest)) :
    members member first state s = .ok (state, rest) := by
  rw [members]
  split
  · next failed => rw [turn] at failed; cases failed
  · next done => rw [turn] at done; cases done; rfl
  · next entry => rw [turn] at entry; cases entry

theorem members_entered (first : Bool) (state : σ) (s start : List Char)
    (turn : objectTurn first s = .ok (.entry start)) :
    (members member first state s).toOption = (stringBody true start).toOption.bind fun name =>
      (member.run state (String.ofList name.1) name.2).toOption.bind fun read =>
        (members member false read.1 read.2).toOption := by
  rw [members]
  split
  · next failed => rw [turn] at failed; cases failed
  · next closed => rw [turn] at closed; cases closed
  · next begun entry =>
    rw [turn] at entry
    cases entry
    split
    · next failed => rw [failed]; rfl
    · next name body named =>
      rw [named]
      change _ = (member.run state (String.ofList name) body).toOption.bind fun read =>
        (members member false read.1 read.2).toOption
      split
      · next failed => rw [failed]; rfl
      · next read => rw [read]; rfl

def MemberReader.Means (meaning : σ → String → Datum → Option σ) : Prop :=
  ∀ state name datum text before after rest, Denotes text datum → Blank before → Blank after →
    Stops rest → (member.run state name (before ++ ':' :: (after ++ (text ++ rest)))).toOption =
      (meaning state name datum).map (·, rest)

def gathered (meaning : σ → String → Datum → Option σ) (state : σ) :
    List (Option String × Datum) → Option σ
  | [] => some state
  | (name, datum) :: more => name.bind fun name =>
    (meaning state name datum).bind fun state => gathered meaning state more

/-- An object is gathered member by member, in the order of the text. -/
theorem members_mean (meaning : σ → String → Datum → Option σ) (means : member.Means meaning)
    (first : Bool) (state : σ) (parts : List Member) (inside rest : List Char)
    (joined : Joined first (parts.map Member.chars) inside) (sound : ∀ part ∈ parts, part.Sound)
    (each : ∀ part ∈ parts, Denotes part.text part.datum) :
    (members member first state (inside ++ '\x7d' :: rest)).toOption =
      (gathered meaning state (parts.map Member.said)).map (·, rest) := by
  induction parts generalizing first state inside with
  | nil =>
    rw [members_closed member first state _ rest (objectTurn_closed first inside rest joined.blank)]
    rfl
  | cons part parts ih =>
    obtain ⟨denotes, denoted⟩ := List.forall_mem_cons.mp each
    obtain ⟨⟨name, before, after⟩, later⟩ := List.forall_mem_cons.mp sound
    obtain ⟨more, joined, turn⟩ := joined.objectTurn _ _ _ _ rest
    have stops := joined.stops _ _ ('\x7d' :: rest) (stops_of _ _ (by decide) (by decide))
    have named := stringBody_spelled (part.before ++ ':' :: (part.after ++
      (part.text ++ (more ++ '\x7d' :: rest)))) part.name name
    rw [members_entered member first state _ _ turn, Member.body, named]
    rw [List.map_cons, Member.said, gathered, Json.meaning]
    cases spelled part.name with
    | none => rfl
    | some row =>
      have read := means state (String.ofList row) part.datum part.text part.before part.after _
        denotes before after stops
      simp only [Option.map_some, Option.bind_some, read]
      cases meaning state (String.ofList row) part.datum with
      | none => rfl
      | some state => exact ih false state more joined later denoted

end Members

/-! ## Records -/

@[reducible] def Meanings : List Type → Type
  | [] => Unit
  | α :: rest => (Datum → Option α) × Meanings rest

namespace Fields

def names {types : List Type} : Fields types → List String
  | .done => []
  | .field first more => first.name :: more.names

def Mean (room : Nat) : {types : List Type} → Fields types → Meanings types → Prop
  | _, .done, () => True
  | _, .field first more, (meaning, meanings) =>
    (first.value room).Means meaning ∧ more.Mean room meanings

def slotted {types : List Type} (fields : Fields types) (meanings : Meanings types)
    (slots : Slots types) (name : String) (datum : Datum) : Option (Slots types) :=
  match fields, meanings, slots with
  | .done, (), () => some ()
  | .field first more, (meaning, meanings), (slot, slots) =>
    if first.name = name then
      if slot.isSome then none else (meaning datum).map fun a => (some a, slots)
    else (more.slotted meanings slots name datum).map (slot, ·)

def placed {types : List Type} (fields : Fields types) (meanings : Meanings types)
    (items : List Datum) : Option (Values types) :=
  match fields, meanings, items with
  | .done, (), [] => some ()
  | .done, (), _ :: _ => none
  | .field first more, _, [] => ((Fields.field first more).cutOff .endOfList).toOption
  | .field _ more, (meaning, meanings), item :: items =>
    (meaning item).bind fun a => (more.placed meanings items).map (a, ·)

variable {types : List Type} (fields : Fields types) (room : Nat) (meanings : Meanings types)
  (mean : fields.Mean room meanings)

theorem colon_after (before rest : List Char) (blank : Blank before) :
    colon (before ++ ':' :: rest) = .ok rest := by
  simp [colon, skipGap_before before rest ':' blank rfl]

include mean in
theorem member_means : (fields.member room).Means (fields.slotted meanings) := by
  intro slots name datum text before after rest denotes blank spaced stops
  change (fields.fill room slots name _).toOption = _
  induction fields with
  | done =>
    have skipped := denotes.skipped text datum after rest spaced stops
    simp [fill, colon_after before _ blank, skipped, bind, Except.bind, slotted, Except.toOption]
  | field first more ih =>
    obtain ⟨here, later⟩ := mean
    obtain ⟨slot, slots⟩ := slots
    by_cases same : first.name = name
    · cases slot with
      | some a => simp [fill, slotted, same, Except.toOption]
      | none =>
        have read := here datum text after rest denotes spaced stops
        simp only [fill, same, Option.isSome_none, Bool.false_eq_true, if_true, if_false,
          colon_after before _ blank, slotted]
        change ((first.value room).run _ >>= fun read =>
          Except.ok ((some read.1, slots), read.2)).toOption = _
        rw [toOption_bind, read]
        cases meanings.1 datum <;> rfl
    · have inner := ih meanings.2 later slots
      simp only [fill, slotted, same, if_false, toOption_map, inner]
      cases more.slotted meanings.2 slots name datum <;> rfl

theorem cutOff_option (fault other : Fault) :
    (fields.cutOff fault).toOption = (fields.cutOff other).toOption := by
  induction fields with
  | done => rfl
  | field first more ih =>
    simp only [cutOff]
    cases first.cut with
    | none => rfl
    | some a => rw [toOption_map, toOption_map, ih]

theorem listEnd_more (first : Bool) (entry : List Char) (entries : List (List Char))
    (inside rest : List Char) (datum : Datum) (denotes : Denotes entry datum)
    (joined : Joined first (entry :: entries) inside) :
    (listEnd (inside ++ ']' :: rest)).toOption = none := by
  obtain ⟨c, tail, front, starts⟩ := denotes.front
  obtain ⟨dark, unclosed⟩ := starts.dark
  cases joined with
  | first gap entry entries more blank joined =>
    rw [List.append_assoc, List.append_assoc, front, List.cons_append, listEnd,
      skipGap_before gap _ c blank dark]
    simp only [unclosed, if_false]
    split <;> rfl
  | next before gap entry entries more blank spaced joined =>
    rw [List.append_assoc, List.cons_append, listEnd, skipGap_before before _ ',' blank rfl]
    simp only [Char.reduceEq, if_false]
    split <;> rfl

include mean in
theorem inOrder_means (tooShort : Nat → Fault) (found : Nat) (entries : List (List Char × Datum))
    (inside rest : List Char) (joined : Joined (found = 0) (entries.map (·.1)) inside)
    (each : ∀ entry ∈ entries, Denotes entry.1 entry.2) :
    (fields.inOrder room tooShort found (inside ++ ']' :: rest)).toOption =
      (fields.placed meanings (entries.map (·.2))).map (·, rest) := by
  induction fields generalizing found entries inside with
  | done =>
    rw [inOrder, toOption_map]
    cases entries with
    | nil =>
      have closed : listEnd (inside ++ ']' :: rest) = .ok rest := by
        simp [listEnd, skipGap_before inside rest ']' joined.blank rfl]
      rw [closed]
      rfl
    | cons entry entries =>
      rw [listEnd_more _ _ _ _ rest entry.2 (each entry List.mem_cons_self) joined]
      rfl
  | field first more ih =>
    cases entries with
    | nil =>
      have turn := listTurn_closed (decide (found = 0)) inside rest joined.blank
      simp only [inOrder, turn, toOption_map]
      rw [cutOff_option _ _ .endOfList]
      rfl
    | cons entry entries =>
      obtain ⟨here, later⟩ := mean
      obtain ⟨denotes, denoted⟩ := List.forall_mem_cons.mp each
      obtain ⟨behind, joined, turn⟩ := joined.listTurn _ _ _ _ rest entry.2 denotes
      have stops := joined.stops _ _ (']' :: rest) (stops_of _ _ (by decide) (by decide))
      have read := here entry.2 entry.1 [] _ denotes blank_nil stops
      rw [List.nil_append] at read
      simp only [inOrder, turn, List.map_cons, placed]
      -- The field's reader and its meaning give the same part or fail together.
      cases taken : (first.value room).run (entry.1 ++ (behind ++ ']' :: rest)) with
      | error fault =>
        rw [taken] at read
        cases made : meanings.1 entry.2 with
        | none => rfl
        | some a => rw [made] at read; cases read
      | ok part =>
        obtain ⟨a, after⟩ := part
        rw [taken] at read
        cases made : meanings.1 entry.2 with
        | none => rw [made] at read; cases read
        | some b =>
          rw [made] at read
          cases read
          have tail := ih meanings.2 later (found + 1) entries behind
            (by simpa using joined) denoted
          dsimp only
          rw [toOption_map, tail]
          simp only [Option.bind_some]
          cases more.placed meanings.2 (entries.map (·.2)) <;> rfl

end Fields

namespace Record
variable {α : Type} (record : Record α)

def said (meanings : Meanings record.types) : Datum → Option α
  | .object members => do
    let slots ← gathered (record.fields.slotted meanings) (Fields.empty record.types) members
    let values ← (record.fields.complete slots).toOption
    some (record.build values)
  | .list items => (record.fields.placed meanings items).map record.build
  | _ => none

/-- A record is read from a text exactly as what the text says is a record. -/
theorem means (room : Nat) (meanings : Meanings record.types)
    (mean : record.fields.Mean room meanings) :
    (record.reader (room + 1)).Means (record.said meanings) := by
  intro datum text gap rest denotes blank stops
  obtain ⟨c, tail, front, starts⟩ := denotes.front
  obtain ⟨dark, _⟩ := starts.dark
  -- What begins neither as an object nor as a list is no record.
  have missed (s : List Char) (c : Char) (dark : isGap c = false) (notObject : c ≠ '\x7b')
      (notList : c ≠ '[') : (record.take (room + 1) (gap ++ c :: s)).toOption = none := by
    simp [take, skipGap_before gap s c blank dark, notObject, notList, Except.toOption]
  change (record.take (room + 1) (gap ++ (text ++ rest))).toOption = _
  cases denotes with
  | object parts inside joined sound each =>
    have read := members_mean _ _ (record.fields.member_means room meanings mean) true
      (Fields.empty record.types) parts inside rest joined sound each
    rw [List.cons_append, List.append_assoc, List.singleton_append]
    simp only [take, skipGap_before gap _ '\x7b' blank rfl, if_true,
      readObject, toOption_bind, read, said]
    cases gathered (record.fields.slotted meanings) (Fields.empty record.types)
        (parts.map Member.said) with
    | none => rfl
    | some slots =>
      cases completed : record.fields.complete slots <;> simp [completed, Except.toOption]
  | list entries inside joined each =>
    have read := record.fields.inOrder_means room meanings mean
      record.tooShort 0 entries inside rest joined each
    rw [List.cons_append, List.append_assoc, List.singleton_append]
    simp only [take, skipGap_before gap _ '[' blank rfl, Char.reduceEq, if_true, if_false, readList,
      toOption_bind, read, said]
    cases record.fields.placed meanings (entries.map (·.2)) <;> rfl
  | number =>
    obtain ⟨_, notList, notObject, _⟩ := signs_number c starts
    rw [front, List.cons_append]
    exact missed _ c dark notObject notList
  | _ => exact missed _ _ rfl (by decide) (by decide)

end Record

/-- What a text is read as depends on what it says alone. -/
theorem decode_stated {α : Type} (reader : Nat → Reader α) (meaning : Datum → Option α)
    (means : (reader deepest).Means meaning) (text : String) (datum : Datum)
    (stated : Says text datum) : (decode reader text).toOption = meaning datum := by
  obtain ⟨front, body, back, blank, spaced, whole, denotes⟩ := stated
  have stops : Stops back := stops_gap back spaced
  have read := means datum body front back denotes blank stops
  have nothing : skipGap back = [] := by
    have passed := skipGap_append back [] spaced
    rwa [List.append_nil] at passed
  rw [decode, toOption_bind, whole, read]
  cases meaning datum with
  | none => rfl
  | some a => simp [nothing, Except.toOption]

def ReadAs {α : Type} (reader : Nat → Reader α) (datum : Datum) (a : α) : Prop :=
  ∃ text, Says text datum ∧ decode reader text = .ok a

theorem ReadAs.meaning {α : Type} (reader : Nat → Reader α) (meaning : Datum → Option α)
    (means : (reader deepest).Means meaning) (datum : Datum) (a : α)
    (read : ReadAs reader datum a) : meaning datum = some a := by
  obtain ⟨text, stated, decoded⟩ := read
  rw [← decode_stated reader meaning means text datum stated, decoded]
  rfl

end HabitLedger.Json
