/-!
Blank characters, those with the Unicode property `White_Space`, and the texts without them at
their ends.
-/

namespace HabitLedger.Text

def blankRanges : List (Nat × Nat) :=
  [(0x09, 0x0D), (0x20, 0x20), (0x85, 0x85), (0xA0, 0xA0), (0x1680, 0x1680), (0x2000, 0x200A),
    (0x2028, 0x2029), (0x202F, 0x202F), (0x205F, 0x205F), (0x3000, 0x3000)]

def isBlank (c : Char) : Bool :=
  blankRanges.any fun range => range.1 ≤ c.toNat && c.toNat ≤ range.2

def trimStart (text : List Char) : List Char := text.dropWhile isBlank

def trim (text : List Char) : List Char := (trimStart (trimStart text).reverse).reverse

def trimmed (text : String) : String := String.ofList (trim text.toList)

def AllBlank (text : List Char) : Prop := trim text = []

instance (text : List Char) : Decidable (AllBlank text) := inferInstanceAs (Decidable (_ = _))

theorem trimStart_eq_nil {text : List Char} :
    trimStart text = [] ↔ ∀ c ∈ text, isBlank c = true := by
  induction text with
  | nil => simp [trimStart]
  | cons c rest ih =>
    unfold trimStart at ih ⊢
    by_cases blank : isBlank c = true <;> simp [blank, ih]

theorem allBlank_iff {text : List Char} : AllBlank text ↔ ∀ c ∈ text, isBlank c = true := by
  simp only [AllBlank, trim, List.reverse_eq_nil_iff, trimStart_eq_nil, List.mem_reverse]
  constructor
  · intro late c member
    rw [← List.takeWhile_append_dropWhile (p := isBlank) (l := text)] at member
    rcases List.mem_append.mp member with front | rest
    · exact List.all_eq_true.mp List.all_takeWhile c front
    · exact late c rest
  · intro blank c member
    exact blank c ((List.dropWhile_sublist _).mem member)

end HabitLedger.Text
