import HabitLedger.Proofs.DayText
import HabitLedger.Proofs.UuidText
import HabitLedger.Proofs.Writing

/-!
Texts without the blanks outside their strings. Where a string ends can only be told by following
its escapes. Every layout of a value squeezes to its compact text.
-/

namespace HabitLedger.Json

inductive Quoting where
  | outside
  | inside
  | escape
  deriving DecidableEq

def Quoting.after : Quoting → Char → Quoting
  | .outside, c => if c = '"' then .inside else .outside
  | .inside, c => if c = '"' then .outside else if c = '\\' then .escape else .inside
  | .escape, _ => .inside

def squeezed : Quoting → List Char → List Char
  | _, [] => []
  | quoting, c :: rest =>
    if quoting = .outside ∧ Text.isBlank c = true then squeezed .outside rest
    else c :: squeezed (quoting.after c) rest

def squeeze (text : String) : String := String.ofList (squeezed .outside text.toList)

/-! ## Tokens -/

theorem squeezed_blank (gap rest : List Char) (blank : Blank gap) :
    squeezed .outside (gap ++ rest) = squeezed .outside rest := by
  induction gap with
  | nil => rfl
  | cons c gap ih =>
    obtain ⟨here, later⟩ := List.forall_mem_cons.mp blank
    have dropped : Text.isBlank c = true := by
      simp only [isGap, Bool.or_eq_true, decide_eq_true_eq] at here
      rcases here with ((rfl | rfl) | rfl) | rfl <;> decide
    rw [List.cons_append, squeezed, if_pos ⟨rfl, dropped⟩, ih later]

def Solid (row : List Char) : Prop := ∀ c ∈ row, Text.isBlank c = false ∧ c ≠ '"'

instance (row : List Char) : Decidable (Solid row) := List.decidableBAll _ row

theorem squeezed_row (row rest : List Char) (solid : Solid row) :
    squeezed .outside (row ++ rest) = row ++ squeezed .outside rest := by
  induction row with
  | nil => rfl
  | cons c row ih =>
    obtain ⟨⟨dark, unquoted⟩, later⟩ := List.forall_mem_cons.mp solid
    rw [List.cons_append, squeezed, if_neg (by simp [dark]), Quoting.after,
      if_neg unquoted, ih later, List.cons_append]

theorem squeezed_mark (c : Char) (rest : List Char) (solid : Solid [c]) :
    squeezed .outside (c :: rest) = c :: squeezed .outside rest :=
  squeezed_row [c] rest solid

theorem squeezed_plain (row rest : List Char) (plain : ∀ c ∈ row, c ≠ '"' ∧ c ≠ '\\') :
    squeezed .inside (row ++ rest) = row ++ squeezed .inside rest := by
  induction row with
  | nil => rfl
  | cons c row ih =>
    obtain ⟨⟨unquoted, unescaped⟩, later⟩ := List.forall_mem_cons.mp plain
    rw [List.cons_append, squeezed, if_neg (by simp), Quoting.after,
      if_neg unquoted, if_neg unescaped, ih later, List.cons_append]

theorem squeezed_letter (c : Char) (rest : List Char) :
    squeezed .inside ('\\' :: c :: rest) = '\\' :: c :: squeezed .inside rest := by
  simp [squeezed, Quoting.after]

theorem squeezed_escaped (c : Char) (rest : List Char) :
    squeezed .inside (escaped c ++ rest) = escaped c ++ squeezed .inside rest := by
  unfold escaped
  split
  · exact squeezed_letter c rest
  split
  · exact squeezed_letter 'b' rest
  split
  · exact squeezed_letter 't' rest
  split
  · exact squeezed_letter 'n' rest
  split
  · exact squeezed_letter 'f' rest
  split
  · exact squeezed_letter 'r' rest
  split
  · have plain : ∀ d ∈ Text.hexFixed 4 c.toNat, d ≠ '"' ∧ d ≠ '\\' := by
      intro d member
      obtain ⟨value, small, rfl⟩ := Text.hexChar_of_mem 4 c.toNat d member
      exact (by decide : ∀ v < 16, Text.hexChar v ≠ '"' ∧ Text.hexChar v ≠ '\\') value small
    rw [List.append_assoc, List.append_assoc, ← squeezed_plain _ rest plain]
    exact squeezed_letter 'u' _
  · next unmarked _ _ _ _ _ _ =>
    obtain ⟨unquoted, unescaped⟩ := not_or.mp unmarked
    exact squeezed_plain [c] rest (by simp [unquoted, unescaped])

theorem squeezed_quoted (text : String) (rest : List Char) :
    squeezed .outside (quoted text ++ rest) = quoted text ++ squeezed .outside rest := by
  have body (row : List Char) : squeezed .inside (row.flatMap escaped ++ '"' :: rest) =
      row.flatMap escaped ++ '"' :: squeezed .outside rest := by
    induction row with
    | nil => simp [squeezed, Quoting.after]
    | cons c row ih =>
      rw [List.flatMap_cons, List.append_assoc, squeezed_escaped, ih, List.append_assoc]
  simp [quoted, squeezed, Quoting.after, Text.isBlank, Text.blankRanges, body]

example : squeeze "[ \"a \\\" b\" ,\n 1 ]" = "[\"a \\\" b\",1]" := by decide

theorem IsRow.solid (row : List Char) (digits : IsRow row) : Solid row := by
  intro c member
  have digit := digits.2 c member
  refine ⟨Text.digit_not_blank c digit, ?_⟩
  rintro rfl
  exact absurd digit (by decide)

theorem Solid.append (row other : List Char) (solid : Solid row) (solidToo : Solid other) :
    Solid (row ++ other) :=
  List.forall_mem_append.mpr ⟨solid, solidToo⟩

theorem Numeral.chars_solid (parts : Numeral) (sound : parts.Sound) : Solid parts.chars := by
  have sign : Solid (Binary64.signText parts.negative) := by
    cases parts.negative <;> decide
  have fraction : Solid (fractionText parts.fraction) := by
    cases given : parts.fraction with
    | none => decide
    | some row =>
      have point : Solid ['.'] := by decide
      exact point.append _ _ (sound.fraction row given).solid
  have exponent : Solid (exponentText parts.exponent) := by
    cases given : parts.exponent with
    | none => decide
    | some part =>
      have mark : Solid ['e', if part.1 then '-' else '+'] := by
        cases part.1 <;> decide
      exact mark.append _ _ (sound.exponent part given).solid
  exact ((sign.append _ _ sound.whole.solid).append _ _ fraction).append _ _ exponent

theorem squeezed_number (n : Number) (rest : List Char) (writable : n.Writable) :
    squeezed .outside (n.chars ++ rest) = n.chars ++ squeezed .outside rest := by
  have solid := n.parts.chars_solid n.parts_sound
  rw [n.parts_chars writable] at solid
  exact squeezed_row n.chars rest solid

/-! ## Values -/

namespace Value

def Squeezes (layout : Layout) (value : Value) : Prop :=
  ∀ depth rest, squeezed .outside (value.laid layout depth ++ rest) =
    value.compact ++ squeezed .outside rest

theorem squeezed_items (layout : Layout) (depth : Nat) (items : List Value) (rest : List Char)
    (each : ∀ item ∈ items, Squeezes layout item) :
    squeezed .outside (laidItems layout depth items ++ rest) =
      compactItems items ++ squeezed .outside rest := by
  induction items with
  | nil => rfl
  | cons item items ih =>
    obtain ⟨here, later⟩ := List.forall_mem_cons.mp each
    simp only [laidItems, compactItems, List.cons_append, List.append_assoc]
    rw [squeezed_mark ',' _ (by decide), squeezed_blank _ _ (layout.line_blank depth), here depth,
      ih later]

theorem squeezed_members (layout : Layout) (depth : Nat) (members : List (String × Value))
    (rest : List Char) (each : ∀ member ∈ members, Squeezes layout member.2) :
    squeezed .outside (laidMembers layout depth members ++ rest) =
      compactMembers members ++ squeezed .outside rest := by
  induction members with
  | nil => rfl
  | cons member members ih =>
    obtain ⟨name, value⟩ := member
    obtain ⟨here, later⟩ := List.forall_mem_cons.mp each
    simp only [laidMembers, compactMembers, List.cons_append, List.append_assoc]
    rw [squeezed_mark ',' _ (by decide), squeezed_blank _ _ (layout.line_blank depth),
      squeezed_quoted, squeezed_mark ':' _ (by decide), squeezed_blank _ _ layout.space_blank,
      here depth, ih later]

/-- Strings are the only tokens with blanks, and brackets, commas and colons stand outside them. -/
theorem Writable.squeezes (value : Value) (writable : value.Writable) (layout : Layout) :
    Squeezes layout value := by
  induction writable with
  | null => exact fun _ rest => squeezed_row ['n', 'u', 'l', 'l'] rest (by decide)
  | boolean b =>
    cases b with
    | true => exact fun _ rest => squeezed_row ['t', 'r', 'u', 'e'] rest (by decide)
    | false => exact fun _ rest => squeezed_row ['f', 'a', 'l', 's', 'e'] rest (by decide)
  | number n writable => exact fun _ rest => squeezed_number n rest writable
  | text t => exact fun _ rest => squeezed_quoted t rest
  | list items _ ih =>
    intro depth rest
    cases items with
    | nil => exact squeezed_row ['[', ']'] rest (by decide)
    | cons item items =>
      obtain ⟨here, later⟩ := List.forall_mem_cons.mp ih
      simp only [laid, compact, List.cons_append, List.append_assoc, List.nil_append]
      rw [squeezed_mark '[' _ (by decide), squeezed_blank _ _ (layout.line_blank _), here,
        squeezed_items layout _ items _ later, squeezed_blank _ _ (layout.line_blank _),
        squeezed_mark ']' _ (by decide)]
  | object members _ ih =>
    intro depth rest
    cases members with
    | nil => exact squeezed_row ['\x7b', '\x7d'] rest (by decide)
    | cons member members =>
      obtain ⟨name, value⟩ := member
      obtain ⟨here, later⟩ := List.forall_mem_cons.mp ih
      simp only [laid, compact, List.cons_append, List.append_assoc, List.nil_append]
      rw [squeezed_mark '\x7b' _ (by decide), squeezed_blank _ _ (layout.line_blank _),
        squeezed_quoted, squeezed_mark ':' _ (by decide), squeezed_blank _ _ layout.space_blank,
        here, squeezed_members layout _ members _ later, squeezed_blank _ _ (layout.line_blank _),
        squeezed_mark '\x7d' _ (by decide)]

theorem Writable.squeeze_pretty (value : Value) (writable : value.Writable) :
    squeeze value.toPretty = value.toCompact := by
  have same := writable.squeezes value .pretty 0 []
  rw [List.append_nil, laid_pretty] at same
  rw [squeeze, toPretty, String.toList_ofList, same]
  simp [squeezed, toCompact]

theorem Writable.squeeze_compact (value : Value) (writable : value.Writable) :
    squeeze value.toCompact = value.toCompact := by
  have same := writable.squeezes value .compact 0 []
  rw [List.append_nil, laid_compact] at same
  rw [squeeze, toCompact, String.toList_ofList, same]
  simp [squeezed]

end Value

end HabitLedger.Json
