import HabitLedger.Json.Leaf
import HabitLedger.Json.Text

/-!
Layouts. The compact and the pretty text of a value hold the same tokens in the same order and
differ only in the blanks between them. A layout says which blanks these are, so that what is true
of the text in every layout is true of both.
-/

namespace HabitLedger.Json

def Blank (gap : List Char) : Prop := ∀ c ∈ gap, isGap c = true

theorem blank_nil : Blank [] := List.forall_mem_nil _

structure Layout where
  line : Nat → List Char
  space : List Char
  line_blank : ∀ depth, Blank (line depth)
  space_blank : Blank space

namespace Layout

def compact : Layout where
  line _ := []
  space := []
  line_blank _ := blank_nil
  space_blank := blank_nil

theorem newLine_blank (depth : Nat) : Blank (Value.newLine depth) := by
  intro c member
  rcases List.mem_cons.mp member with rfl | blank
  · rfl
  · rw [List.eq_of_mem_replicate blank]
    rfl

def pretty : Layout where
  line := Value.newLine
  space := [' ']
  line_blank := newLine_blank
  space_blank := by simp [Blank, isGap]

@[simp] theorem compact_line (depth : Nat) : compact.line depth = [] := rfl

@[simp] theorem compact_space : compact.space = [] := rfl

@[simp] theorem pretty_line (depth : Nat) : pretty.line depth = Value.newLine depth := rfl

@[simp] theorem pretty_space : pretty.space = [' '] := rfl

end Layout

namespace Value

mutual

def laid (layout : Layout) (depth : Nat) : Value → List Char
  | .null => ['n', 'u', 'l', 'l']
  | .boolean true => ['t', 'r', 'u', 'e']
  | .boolean false => ['f', 'a', 'l', 's', 'e']
  | .number n => n.chars
  | .text t => quoted t
  | .list [] => ['[', ']']
  | .list (item :: items) =>
    '[' :: layout.line (depth + 1) ++ laid layout (depth + 1) item ++
      laidItems layout (depth + 1) items ++ layout.line depth ++ [']']
  | .object [] => ['\x7b', '\x7d']
  | .object ((name, value) :: members) =>
    '\x7b' :: layout.line (depth + 1) ++ quoted name ++ ':' :: layout.space ++
      laid layout (depth + 1) value ++ laidMembers layout (depth + 1) members ++
      layout.line depth ++ ['\x7d']

def laidItems (layout : Layout) (depth : Nat) : List Value → List Char
  | [] => []
  | item :: items =>
    ',' :: layout.line depth ++ laid layout depth item ++ laidItems layout depth items

def laidMembers (layout : Layout) (depth : Nat) : List (String × Value) → List Char
  | [] => []
  | (name, value) :: members =>
    ',' :: layout.line depth ++ quoted name ++ ':' :: layout.space ++ laid layout depth value ++
      laidMembers layout depth members

end

mutual

theorem laid_compact (depth : Nat) : (value : Value) → laid .compact depth value = value.compact
  | .null => rfl
  | .boolean true => rfl
  | .boolean false => rfl
  | .number _ => rfl
  | .text _ => rfl
  | .list [] => rfl
  | .list (item :: items) => by
    simp [laid, compact, laid_compact (depth + 1) item,
      laidItems_compact (depth + 1) items]
  | .object [] => rfl
  | .object ((name, value) :: members) => by
    simp [laid, compact, laid_compact (depth + 1) value,
      laidMembers_compact (depth + 1) members]

theorem laidItems_compact (depth : Nat) :
    (items : List Value) → laidItems .compact depth items = compactItems items
  | [] => rfl
  | item :: items => by
    simp [laidItems, compactItems, laid_compact depth item,
      laidItems_compact depth items]

theorem laidMembers_compact (depth : Nat) :
    (members : List (String × Value)) → laidMembers .compact depth members = compactMembers members
  | [] => rfl
  | (name, value) :: members => by
    simp [laidMembers, compactMembers, laid_compact depth value,
      laidMembers_compact depth members]

end

mutual

theorem laid_pretty (depth : Nat) :
    (value : Value) → laid .pretty depth value = prettyAt depth value
  | .null => rfl
  | .boolean true => rfl
  | .boolean false => rfl
  | .number _ => rfl
  | .text _ => rfl
  | .list [] => rfl
  | .list (item :: items) => by
    simp [laid, prettyAt, laid_pretty (depth + 1) item,
      laidItems_pretty (depth + 1) items]
  | .object [] => rfl
  | .object ((name, value) :: members) => by
    simp [laid, prettyAt, laid_pretty (depth + 1) value,
      laidMembers_pretty (depth + 1) members]

theorem laidItems_pretty (depth : Nat) :
    (items : List Value) → laidItems .pretty depth items = prettyItems depth items
  | [] => rfl
  | item :: items => by
    simp [laidItems, prettyItems, laid_pretty depth item,
      laidItems_pretty depth items]

theorem laidMembers_pretty (depth : Nat) :
    (members : List (String × Value)) →
      laidMembers .pretty depth members = prettyMembers depth members
  | [] => rfl
  | (name, value) :: members => by
    simp [laidMembers, prettyMembers, laid_pretty depth value,
      laidMembers_pretty depth members]

end

end Value

end HabitLedger.Json
