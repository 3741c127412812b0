import HabitLedger.Proofs.ReadBack
import HabitLedger.Proofs.ReadingRecords

/-!
Lists and records read back. What the reader of a container does at each of its turns is said once;
a list is then restored item by item, and a record member by member, where a member that was not
written leaves its field to the value it has when absent.
-/

namespace HabitLedger.Json

/-! ## Lists -/

theorem listTurn_next (gap rest : List Char) (c : Char) (blank : Blank gap)
    (dark : isGap c = false) (unclosed : c ≠ ']') :
    listTurn false (',' :: (gap ++ c :: rest)) = .ok (.entry (c :: rest)) :=
  listTurn_comma [] gap rest c (fun _ none => nomatch none) blank dark unclosed

theorem items_entry {α : Type} (item : Reader α) (first : Bool) (s start after rest : List Char)
    (a : α) (as : List α) (turn : listTurn first s = .ok (.entry start))
    (taken : item.run start = .ok (a, after)) (more : items item false after = .ok (as, rest)) :
    items item first s = .ok (a :: as, rest) := by
  rw [items]
  split
  · next failed => rw [turn] at failed; cases failed
  · next closed => rw [turn] at closed; cases closed
  · next begun entry =>
    rw [turn] at entry
    cases entry
    split
    · next failed => rw [taken] at failed; cases failed
    · next read => rw [taken] at read; cases read; rw [more]; rfl

theorem items_stop (layout : Layout) (depth : Nat) (items : List Value) (gap rest : List Char)
    (c : Char) (blank : Blank gap) (stop : Stops (c :: rest)) :
    Stops (Value.laidItems layout depth items ++ (gap ++ c :: rest)) := by
  cases items with
  | nil => exact stops_blank gap _ blank stop
  | cons item items => exact stops_of ',' _ (by decide) (by decide)

theorem items_laid {α : Type} (item : Reader α) (write : α → Value) (layout : Layout) (depth : Nat)
    (as : List α) (gap rest : List Char) (blank : Blank gap)
    (restores : ∀ a ∈ as, item.Restores (write a) a) :
    items item false (Value.laidItems layout depth (as.map write) ++ (gap ++ ']' :: rest)) =
      .ok (as, rest) := by
  induction as with
  | nil => exact items_closed item false _ rest (listTurn_closed false gap rest blank)
  | cons a as ih =>
    obtain ⟨c, tail, front, dark, unclosed⟩ := (write a).laid_dark layout depth
    have stops := items_stop layout depth (as.map write) gap rest ']' blank
      (stops_of _ _ (by decide) (by decide))
    have read := restores a List.mem_cons_self layout depth [] _ (fun _ none => nomatch none) stops
    have more := ih fun b member => restores b (List.mem_cons_of_mem a member)
    simp only [List.map_cons, Value.laidItems, front, List.cons_append, List.append_assoc,
      List.nil_append] at read ⊢
    exact items_entry item false _ _ _ rest a as
      (listTurn_next _ _ c (layout.line_blank depth) dark unclosed) read more

theorem Reader.restores_list {α : Type} (item : Nat → Reader α) (write : α → Value) (room : Nat)
    (as : List α) (restores : ∀ a ∈ as, (item room).Restores (write a) a) :
    (Reader.list item (room + 1)).Restores (.list (as.map write)) as := by
  intro layout depth gap rest blank stops
  change takeList item (room + 1) _ = _
  cases as with
  | nil =>
    have closed := items_closed (item room) true _ rest
      (listTurn_closed true [] rest (fun _ none => nomatch none))
    rw [List.nil_append] at closed
    simp [Value.laid, takeList, skipGap_before gap _ '[' blank rfl, closed]
  | cons a as =>
    obtain ⟨c, tail, front, dark, unclosed⟩ := (write a).laid_dark layout (depth + 1)
    have stops := items_stop layout (depth + 1) (as.map write) _ rest ']'
      (layout.line_blank depth) (stops_of _ _ (by decide) (by decide))
    have read := restores a List.mem_cons_self layout (depth + 1) [] _
      (fun _ none => nomatch none) stops
    have more := items_laid (item room) write layout (depth + 1) as _ rest
      (layout.line_blank depth) fun b member => restores b (List.mem_cons_of_mem a member)
    simp only [List.map_cons, Value.laid, front, List.cons_append, List.append_assoc,
      List.nil_append] at read ⊢
    have all := items_entry (item room) true _ _ _ rest a as
      (listTurn_first _ _ c (layout.line_blank (depth + 1)) dark unclosed) read more
    simp only [takeList, skipGap_before gap _ '[' blank rfl, if_true, all]

/-! ## Objects -/

theorem objectTurn_next (gap rest : List Char) (blank : Blank gap) :
    objectTurn false (',' :: (gap ++ '"' :: rest)) = .ok (.entry rest) :=
  objectTurn_comma [] gap rest (fun _ none => nomatch none) blank

section Members
variable {σ : Type} (member : MemberReader σ)

theorem members_entry (first : Bool) (state middle : σ) (name : String) (s start after : List Char)
    (turn : objectTurn first s = .ok (.entry (name.toList.flatMap escaped ++ '"' :: start)))
    (taken : member.run state name start = .ok (middle, after)) :
    members member first state s = members member false middle after := by
  have named := stringBody_flatMap true name.toList start
  rw [members]
  split
  · next failed => rw [turn] at failed; cases failed
  · next closed => rw [turn] at closed; cases closed
  · next begun entry =>
    rw [turn] at entry
    cases entry
    split
    · next failed => rw [named] at failed; cases failed
    · next body =>
      rw [named] at body
      cases body
      rw [String.ofList_toList]
      split
      · next failed => rw [taken] at failed; cases failed
      · next read => rw [taken] at read; cases read; rfl

def Takes (state : σ) (name : String) (value : Value) (after : σ) : Prop :=
  ∀ layout depth rest, Stops rest →
    member.run state name (':' :: (Layout.space layout ++ (value.laid layout depth ++ rest))) =
      .ok (after, rest)

inductive Reaches : σ → List (String × Value) → σ → Prop where
  | done (state : σ) : Reaches state [] state
  | next {state middle after : σ} {name : String} {value : Value} {more : List (String × Value)}
      (first : Takes member state name value middle) (rest : Reaches middle more after) :
      Reaches state ((name, value) :: more) after

theorem members_stop (layout : Layout) (depth : Nat) (members : List (String × Value))
    (gap rest : List Char) (c : Char) (blank : Blank gap) (stop : Stops (c :: rest)) :
    Stops (Value.laidMembers layout depth members ++ (gap ++ c :: rest)) := by
  cases members with
  | nil => exact stops_blank gap _ blank stop
  | cons member members => exact stops_of ',' _ (by decide) (by decide)

/-- The members in front are read and the reader goes on with those behind them. -/
theorem members_front (layout : Layout) (depth : Nat) (state after : σ)
    (front back : List (String × Value)) (gap rest : List Char) (blank : Blank gap)
    (reaches : Reaches member state front after) :
    members member false state
      (Value.laidMembers layout depth (front ++ back) ++ (gap ++ '\x7d' :: rest)) =
        members member false after
          (Value.laidMembers layout depth back ++ (gap ++ '\x7d' :: rest)) := by
  induction reaches with
  | done state => rfl
  | @next state middle after name value more first _ ih =>
    have stops := members_stop layout depth (more ++ back) gap rest '\x7d' blank
      (stops_of _ _ (by decide) (by decide))
    have turn := objectTurn_next (layout.line depth) (name.toList.flatMap escaped ++ '"' :: ':' ::
      (layout.space ++ (value.laid layout depth ++ (Value.laidMembers layout depth (more ++ back) ++
        (gap ++ '\x7d' :: rest))))) (layout.line_blank depth)
    have entry := members_entry member false state middle name _ _ _ turn
      (first layout depth _ stops)
    simp only [Value.laidMembers, quoted, List.cons_append, List.append_assoc, List.nil_append]
    rw [entry]
    exact ih

theorem object_front (layout : Layout) (depth : Nat) (state middle after : σ) (name : String)
    (value : Value) (front back : List (String × Value)) (rest : List Char)
    (first : Takes member state name value middle) (reaches : Reaches member middle front after) :
    ∃ body, (Value.object ((name, value) :: front ++ back)).laid layout depth = '\x7b' :: body ∧
      members member true state (body ++ rest) =
        members member false after
          (Value.laidMembers layout (depth + 1) back ++ (layout.line depth ++ '\x7d' :: rest)) := by
  have stops := members_stop layout (depth + 1) (front ++ back) (layout.line depth) rest '\x7d'
    (layout.line_blank depth) (stops_of _ _ (by decide) (by decide))
  have turn := objectTurn_first (layout.line (depth + 1)) (name.toList.flatMap escaped ++ '"' ::
    ':' :: (layout.space ++ (value.laid layout (depth + 1) ++
      (Value.laidMembers layout (depth + 1) (front ++ back) ++
        (layout.line depth ++ '\x7d' :: rest))))) (layout.line_blank (depth + 1))
  have entry := members_entry member true state middle name _ _ _ turn
    (first layout (depth + 1) _ stops)
  refine ⟨_, rfl, ?_⟩
  simp only [quoted, List.append_eq, List.cons_append, List.append_assoc, List.nil_append]
  rw [entry]
  exact members_front member layout (depth + 1) middle after front back _ rest
    (layout.line_blank depth) reaches

theorem members_object (layout : Layout) (depth : Nat) (state after : σ)
    (written : List (String × Value)) (rest : List Char)
    (reaches : Reaches member state written after) :
    ∃ body, (Value.object written).laid layout depth = '\x7b' :: body ∧
      members member true state (body ++ rest) = .ok (after, rest) := by
  cases reaches with
  | done =>
    refine ⟨['\x7d'], rfl, members_closed member true state _ rest ?_⟩
    exact objectTurn_closed true [] rest (fun _ none => nomatch none)
  | next first last =>
    obtain ⟨body, text, read⟩ := object_front member layout depth _ _ _ _ _ _ [] rest first last
    rw [List.append_nil] at text
    exact ⟨body, text, read.trans (members_closed member false after _ rest
      (objectTurn_closed false (layout.line depth) rest (layout.line_blank depth)))⟩

end Members

/-! ## Records -/

namespace Fields

inductive Written (room : Nat) : {types : List Type} → Fields types → Values types →
    List (String × Value) → Prop where
  | done : Written room .done () []
  | kept {α : Type} {types : List Type} {first : Field α} {more : Fields types} {a : α}
      {values : Values types} {value : Value} {members : List (String × Value)}
      (restores : (first.value room).Restores value a) (rest : Written room more values members) :
      Written room (.field first more) (a, values) ((first.name, value) :: members)
  | left {α : Type} {types : List Type} {first : Field α} {more : Fields types} {a : α}
      {values : Values types} {members : List (String × Value)}
      (absent : first.absent = some a) (rest : Written room more values members) :
      Written room (.field first more) (a, values) members

theorem names_of_written {room : Nat} {types : List Type} (fields : Fields types)
    (values : Values types) (members : List (String × Value))
    (written : Written room fields values members) :
    ∀ member ∈ members, member.1 ∈ fields.names := by
  induction written with
  | done => exact fun _ none => nomatch none
  | kept restores rest ih =>
    intro member found
    rcases List.mem_cons.mp found with rfl | later
    · exact List.mem_cons_self
    · exact List.mem_cons_of_mem _ (ih member later)
  | left absent rest ih => exact fun member found => List.mem_cons_of_mem _ (ih member found)

variable (room : Nat) {α : Type} {types : List Type} (first : Field α) (more : Fields types)

theorem colon_before (s : List Char) : colon (':' :: s) = .ok s := by
  have front := skipGap_before [] s ':' (fun _ none => nomatch none) rfl
  rw [List.nil_append] at front
  simp [colon, front]

theorem takes_first (slots : Slots types) (value : Value) (a : α)
    (restores : (first.value room).Restores value a) :
    Takes ((Fields.field first more).member room) (none, slots) first.name value
      (some a, slots) := by
  intro layout depth rest stops
  have read := restores layout depth layout.space rest layout.space_blank stops
  change fill room (.field first more) (none, slots) first.name _ = _
  simp [fill, colon_before, read, bind, Except.bind]

theorem takes_later (slot : Option α) (slots after : Slots types) (name : String) (value : Value)
    (other : first.name ≠ name) (takes : Takes (more.member room) slots name value after) :
    Takes ((Fields.field first more).member room) (slot, slots) name value (slot, after) := by
  intro layout depth rest stops
  have inner := takes layout depth rest stops
  change more.fill room slots name _ = _ at inner
  change fill room (.field first more) (slot, slots) name _ = _
  simp [fill, other, inner, Except.map]

theorem reaches_later (slot : Option α) (slots after : Slots types)
    (members : List (String × Value)) (others : ∀ member ∈ members, first.name ≠ member.1)
    (reaches : Reaches (more.member room) slots members after) :
    Reaches ((Fields.field first more).member room) (slot, slots) members (slot, after) := by
  induction reaches with
  | done slots => exact .done _
  | next takes rest ih =>
    refine .next (takes_later room first more slot _ _ _ _ (others _ List.mem_cons_self) takes) ?_
    exact ih fun member later => others member (List.mem_cons_of_mem _ later)

end Fields

theorem Fields.written_reaches {room : Nat} {types : List Type} (fields : Fields types)
    (values : Values types) (members : List (String × Value)) (distinct : fields.names.Nodup)
    (written : Written room fields values members) :
    ∃ slots, Reaches (fields.member room) (Fields.empty types) members slots ∧
      fields.complete slots = .ok values := by
  induction written with
  | done => exact ⟨(), .done _, rfl⟩
  | @kept α types first more a values value members restores rest ih =>
    obtain ⟨fresh, distinct⟩ := List.nodup_cons.mp distinct
    obtain ⟨slots, reaches, complete⟩ := ih distinct
    have others (member : String × Value) (found : member ∈ members) : first.name ≠ member.1 := by
      intro same
      exact fresh (same ▸ names_of_written more values members rest member found)
    refine ⟨(some a, slots), .next (takes_first room first more _ value a restores) ?_, ?_⟩
    · exact reaches_later room first more (some a) _ slots members others reaches
    · simp [Fields.complete, complete, Except.map]
  | @left α types first more a values members absent rest ih =>
    obtain ⟨fresh, distinct⟩ := List.nodup_cons.mp distinct
    obtain ⟨slots, reaches, complete⟩ := ih distinct
    have others (member : String × Value) (found : member ∈ members) : first.name ≠ member.1 := by
      intro same
      exact fresh (same ▸ names_of_written more values members rest member found)
    refine ⟨(none, slots), reaches_later room first more none _ slots members others reaches, ?_⟩
    simp [Fields.complete, complete, absent, Except.map]

theorem Record.restores_reached {α : Type} (record : Record α) (room : Nat)
    (slots : Slots record.types) (values : Values record.types) (members : List (String × Value))
    (reaches : Reaches (record.fields.member room) (Fields.empty record.types) members slots)
    (complete : record.fields.complete slots = .ok values) :
    (record.reader (room + 1)).Restores (.object members) (record.build values) := by
  intro layout depth gap rest blank stops
  obtain ⟨body, text, read⟩ := members_object _ layout depth _ slots members rest reaches
  change record.take (room + 1) _ = _
  rw [text]
  simp [Record.take, skipGap_before gap _ '\x7b' blank rfl, Record.readObject, read, complete, bind,
    Except.bind]

/-- A record is read back from its members, each as it was written or left out where its absence
stands for its value. -/
theorem Record.restores {α : Type} (record : Record α) (room : Nat) (values : Values record.types)
    (members : List (String × Value)) (distinct : record.fields.names.Nodup)
    (written : Fields.Written room record.fields values members) :
    (record.reader (room + 1)).Restores (.object members) (record.build values) := by
  obtain ⟨slots, reaches, complete⟩ :=
    Fields.written_reaches record.fields values members distinct written
  exact record.restores_reached room slots values members reaches complete

end HabitLedger.Json
