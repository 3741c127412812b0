import HabitLedger.Proofs.ExpenseText
import HabitLedger.Proofs.Grammar

/-!
What is written says what the value is. Every value that has a text is one datum, which its text
says in every layout.
-/

namespace HabitLedger.Json

/-! ## Numbers -/

def Number.Writable : Number → Prop
  | .whole _ => True
  | .real x => x.isFinite = true

namespace Numeral

def ofWhole (value : Int) : Numeral := { ofNatural value.natAbs with negative := value < 0 }

theorem ofWhole_sound (value : Int) : (ofWhole value).Sound :=
  let natural := ofNatural_sound value.natAbs
  ⟨natural.whole, natural.zero_alone, natural.fraction, natural.exponent⟩

theorem ofWhole_chars (value : Int) : (ofWhole value).chars = (Number.whole value).chars := by
  simp [ofWhole, ofNatural, chars, fractionText, exponentText, Number.chars, integerText]

end Numeral

def Number.parts : Number → Numeral
  | .whole value => .ofWhole value
  | .real (.finite negative m) =>
    if m.units = 0 then .zero negative
    else .ofDecimal negative (Binary64.Decimal.shortest .even m.units)
  | .real _ => .zero false

theorem Number.parts_sound (n : Number) : n.parts.Sound := by
  rcases n with value | _ | negative | ⟨negative, m⟩
  · exact Numeral.ofWhole_sound value
  · exact Numeral.zero_sound false
  · exact Numeral.zero_sound false
  · rw [Number.parts]
    split
    · exact Numeral.zero_sound negative
    · next some =>
      have positive := Nat.pos_of_ne_zero some
      exact Numeral.ofDecimal_sound negative _
        (Binary64.Decimal.digits_of_readsAs m.units _ positive
        (Binary64.Decimal.shortest_reads .even m.units positive m.sound.2))

theorem Number.parts_chars (n : Number) (writable : n.Writable) : n.parts.chars = n.chars := by
  rcases n with value | _ | negative | ⟨negative, m⟩
  · exact Numeral.ofWhole_chars value
  · cases writable
  · cases writable
  · rw [Number.parts]
    split
    · next nothing =>
      obtain ⟨units, sound⟩ := m
      subst nothing
      cases negative <;> rfl
    · next some => exact Numeral.ofDecimal_text negative m some

/-! ## Strings -/

def Piece.of (c : Char) : Piece :=
  if c = '"' ∨ c = '\\' then .letter c
  else if c = '\x08' then .letter 'b'
  else if c = '\t' then .letter 't'
  else if c = '\n' then .letter 'n'
  else if c = '\x0c' then .letter 'f'
  else if c = '\r' then .letter 'r'
  else if c.toNat < 0x20 then .code (Text.hexFixed 4 c.toNat)
  else .plain c

theorem Piece.chars_of (c : Char) : (of c).chars = escaped c := by
  unfold of escaped
  repeat' split
  all_goals rfl

theorem Piece.control_hex (c : Char) (control : c.toNat < 0x20) :
    Text.hexNumeral? (Text.hexFixed 4 c.toNat) = some c.toNat :=
  Text.hexNumeral?_hexFixed (Nat.lt_trans control (by decide))

theorem Piece.sound_of (c : Char) : (of c).Sound := by
  unfold of
  split
  · next marked => rcases marked with rfl | rfl <;> rfl
  split
  · rfl
  split
  · rfl
  split
  · rfl
  split
  · rfl
  split
  · rfl
  split
  · next control =>
    exact ⟨Text.length_hexFixed 4 c.toNat, by rw [control_hex c control]; rfl⟩
  · next unmarked _ _ _ _ _ visible => exact ⟨(unmarked <| .inl ·), (unmarked <| .inr ·), visible⟩

theorem spelled_control (c : Char) (rest : List Piece) (control : c.toNat < 0x20) :
    spelled (.code (Text.hexFixed 4 c.toNat) :: rest) = (spelled rest).map (c :: ·) := by
  have unit : Piece.unit (Text.hexFixed 4 c.toNat) = c.toNat := by
    rw [Piece.unit, Piece.control_hex c control]
    rfl
  have low : isLowSurrogate c.toNat = false := by
    simp only [isLowSurrogate, Bool.and_eq_false_iff, decide_eq_false_iff_not]
    omega
  have high : isHighSurrogate c.toNat = false := by
    simp only [isHighSurrogate, Bool.and_eq_false_iff, decide_eq_false_iff_not]
    omega
  conv_lhs => unfold spelled
  simp [unit, low, high, Char.ofNat_toNat]

theorem spelled_step (c : Char) (rest : List Piece) :
    spelled (Piece.of c :: rest) = (spelled rest).map (c :: ·) := by
  unfold Piece.of
  split
  · next marked => rcases marked with rfl | rfl <;> rfl
  split
  · next same => exact same ▸ rfl
  split
  · next same => exact same ▸ rfl
  split
  · next same => exact same ▸ rfl
  split
  · next same => exact same ▸ rfl
  split
  · next same => exact same ▸ rfl
  split
  · next control => exact spelled_control c rest control
  · rfl

theorem spelled_of (row : List Char) : spelled (row.map Piece.of) = some row := by
  induction row with
  | nil => rfl
  | cons c row ih =>
    rw [List.map_cons, spelled_step, ih]
    rfl

theorem written_of (text : String) : written (text.toList.map Piece.of) = quoted text := by
  rw [written, quoted, List.flatMap_map]
  simp only [Piece.chars_of]
  rfl

theorem quoted_denotes (text : String) : Denotes (quoted text) (.text (some text)) := by
  have sound : ∀ piece ∈ text.toList.map Piece.of, piece.Sound := by
    intro piece member
    obtain ⟨c, _, rfl⟩ := List.mem_map.mp member
    exact Piece.sound_of c
  have denotes := Denotes.text _ sound
  rw [written_of, meaning, spelled_of, Option.map_some, String.ofList_toList] at denotes
  exact denotes

/-! ## Values -/

inductive Value.Writable : Value → Prop where
  | null : Writable .null
  | boolean (b : Bool) : Writable (.boolean b)
  | number (n : Number) : n.Writable → Writable (.number n)
  | text (t : String) : Writable (.text t)
  | list (items : List Value) : (∀ item ∈ items, Writable item) → Writable (.list items)
  | object (members : List (String × Value)) :
      (∀ member ∈ members, Writable member.2) → Writable (.object members)

namespace Value

@[simp] theorem writable_text (t : String) : Writable (.text t) := .text t

@[simp] theorem writable_boolean (b : Bool) : Writable (.boolean b) := .boolean b

@[simp] theorem writable_natural (n : Nat) : Writable (.natural n) := .number _ trivial

@[simp] theorem writable_real (x : Binary64) : Writable (.real x) := by
  unfold real
  split
  · next finite => exact .number _ finite
  · exact .null

@[simp] theorem writable_optional {α : Type} (write : α → Value) (o : Option α) :
    Writable (.optional write o) ↔ ∀ a ∈ o, Writable (write a) := by
  cases o with
  | none => simp [optional, Writable.null]
  | some a => simp [optional]

@[simp] theorem writable_list (items : List Value) :
    Writable (.list items) ↔ ∀ item ∈ items, Writable item :=
  ⟨fun | .list _ writable => writable, .list items⟩

@[simp] theorem writable_object (members : List (String × Value)) :
    Writable (.object members) ↔ ∀ member ∈ members, Writable member.2 :=
  ⟨fun | .object _ writable => writable, .object members⟩

end Value

namespace Value

mutual

def datum : Value → Datum
  | .null => .null
  | .boolean b => .boolean b
  | .number n => .number n.parts
  | .text t => .text (some t)
  | .list items => .list (data items)
  | .object members => .object (said members)

def data : List Value → List Datum
  | [] => []
  | item :: items => item.datum :: data items

def said : List (String × Value) → List (Option String × Datum)
  | [] => []
  | (name, value) :: members => (some name, value.datum) :: said members

end

theorem data_eq (items : List Value) : data items = items.map datum := by
  induction items with
  | nil => rfl
  | cons item items ih => rw [data, ih, List.map_cons]

theorem said_eq (members : List (String × Value)) :
    said members = members.map fun member => (some member.1, member.2.datum) := by
  induction members with
  | nil => rfl
  | cons member members ih => rw [said, ih, List.map_cons]

section Laid
variable (layout : Layout) (depth : Nat) (gap : List Char) (blank : Blank gap)
include blank

theorem joined_items (items : List Value) :
    Joined false (items.map fun item => item.laid layout depth)
      (laidItems layout depth items ++ gap) := by
  induction items with
  | nil => exact .done false gap blank
  | cons item items ih =>
    have next := Joined.next [] (layout.line depth) (item.laid layout depth) _ _
      blank_nil (layout.line_blank depth) ih
    simpa [laidItems] using next

def member (layout : Layout) (depth : Nat) (member : String × Value) : Member where
  name := member.1.toList.map Piece.of
  before := []
  after := layout.space
  text := member.2.laid layout depth
  datum := member.2.datum

theorem joined_members (members : List (String × Value)) :
    Joined false (members.map fun pair => (member layout depth pair).chars)
      (laidMembers layout depth members ++ gap) := by
  induction members with
  | nil => exact .done false gap blank
  | cons pair members ih =>
    have next := Joined.next [] (layout.line depth) (member layout depth pair).chars _ _
      blank_nil (layout.line_blank depth) ih
    simpa [laidMembers, member, Member.chars, written_of] using next

end Laid

section Containers
variable (layout : Layout) (depth : Nat)

theorem member_sound (pair : String × Value) : (member layout depth pair).Sound := by
  refine ⟨?_, blank_nil, layout.space_blank⟩
  intro piece inside
  obtain ⟨c, _, rfl⟩ := List.mem_map.mp inside
  exact Piece.sound_of c

theorem list_denotes (items : List Value)
    (meant : ∀ item ∈ items, Denotes (item.laid layout (depth + 1)) item.datum) :
    Denotes ((Value.list items).laid layout depth) (datum (.list items)) := by
  have each : ∀ entry ∈ items.map fun item => (item.laid layout (depth + 1), item.datum),
      Denotes entry.1 entry.2 := by
    intro entry found
    obtain ⟨item, inside, rfl⟩ := List.mem_map.mp found
    exact meant item inside
  have data : datum (.list items) =
      .list ((items.map fun item => (item.laid layout (depth + 1), item.datum)).map (·.2)) := by
    rw [datum, data_eq, List.map_map]
    rfl
  rw [data]
  cases items with
  | nil => exact .list _ [] (.done true [] blank_nil) each
  | cons item items =>
    have joined := Joined.first (layout.line (depth + 1)) (item.laid layout (depth + 1)) _ _
      (layout.line_blank (depth + 1))
      (joined_items layout (depth + 1) (layout.line depth) (layout.line_blank depth) items)
    have denotes := Denotes.list _ _ (by simpa [Function.comp_def] using joined) each
    simpa [laid] using denotes

theorem object_denotes (members : List (String × Value))
    (meant : ∀ pair ∈ members, Denotes (pair.2.laid layout (depth + 1)) pair.2.datum) :
    Denotes ((Value.object members).laid layout depth) (datum (.object members)) := by
  have sound : ∀ part ∈ members.map (member layout (depth + 1)), part.Sound := by
    intro part found
    obtain ⟨pair, _, rfl⟩ := List.mem_map.mp found
    exact member_sound layout (depth + 1) pair
  have each : ∀ part ∈ members.map (member layout (depth + 1)), Denotes part.text part.datum := by
    intro part found
    obtain ⟨pair, inside, rfl⟩ := List.mem_map.mp found
    exact meant pair inside
  have said : datum (.object members) =
      .object ((members.map (member layout (depth + 1))).map Member.said) := by
    rw [datum, said_eq, List.map_map]
    congr 1
    refine List.map_congr_left fun pair _ => ?_
    simp [member, Member.said, meaning, spelled_of, String.ofList_toList]
  rw [said]
  cases members with
  | nil => exact .object _ [] (.done true [] blank_nil) sound each
  | cons pair members =>
    obtain ⟨name, value⟩ := pair
    have joined := Joined.first (layout.line (depth + 1))
      (member layout (depth + 1) (name, value)).chars _ _ (layout.line_blank (depth + 1))
      (joined_members layout (depth + 1) (layout.line depth) (layout.line_blank depth) members)
    have denotes := Denotes.object _ _ (by simpa [Function.comp_def] using joined) sound each
    simpa [laid, member, Member.chars, written_of] using denotes

end Containers

/-- A value that has a text is what its text says, in every layout and at every depth. -/
theorem Writable.denotes (value : Value) (writable : value.Writable) (layout : Layout)
    (depth : Nat) : Denotes (value.laid layout depth) value.datum := by
  induction writable generalizing depth with
  | null => exact .null
  | boolean b =>
    cases b with
    | true => exact .yes
    | false => exact .no
  | number n writable =>
    have denotes := Denotes.number n.parts false true n.parts_sound
    rw [← Numeral.chars_written, n.parts_chars writable] at denotes
    exact denotes
  | text t => exact quoted_denotes t
  | list items _ ih =>
    exact list_denotes layout depth items fun item inside => ih item inside (depth + 1)
  | object members _ ih =>
    exact object_denotes layout depth members fun pair inside => ih pair inside (depth + 1)

theorem Writable.compact_stated (value : Value) (writable : value.Writable) :
    Says value.toCompact value.datum := by
  have denotes := writable.denotes value .compact 0
  rw [laid_compact] at denotes
  exact ⟨[], _, [], blank_nil, blank_nil, by simp [toCompact], denotes⟩

theorem Writable.pretty_stated (value : Value) (writable : value.Writable) :
    Says value.toPretty value.datum := by
  have denotes := writable.denotes value .pretty 0
  rw [laid_pretty] at denotes
  exact ⟨[], _, [], blank_nil, blank_nil, by simp [toPretty], denotes⟩

end Value

end HabitLedger.Json
