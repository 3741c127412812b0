import HabitLedger.Proofs.Layout

/-!
The parts of a text read back. Blanks are passed over, an escaped string gives its characters, and a
numeral gives its parts as long as nothing follows that could belong to it.
-/

namespace HabitLedger.Json

theorem skipGap_append (gap s : List Char) (blank : Blank gap) :
    skipGap (gap ++ s) = skipGap s :=
  List.dropWhile_append_of_pos blank

theorem skipGap_before (gap s : List Char) (c : Char) (blank : Blank gap)
    (dark : isGap c = false) : skipGap (gap ++ c :: s) = c :: s := by
  rw [skipGap_append gap _ blank]
  exact List.dropWhile_cons_of_neg (by simp [dark])

theorem word_append (letters rest : List Char) : word letters (letters ++ rest) = .ok rest := by
  induction letters with
  | nil => cases rest <;> rfl
  | cons letter letters ih => simp [word, ih]

/-! ## Strings -/

theorem stringBody_quote (paired : Bool) (rest : List Char) :
    stringBody paired ('"' :: rest) = .ok ([], rest) := by
  rw [stringBody]
  simp

theorem stringBody_escape (paired : Bool) (s after : List Char) (c : Char)
    (read : escape paired s = .ok (c, after)) :
    stringBody paired ('\\' :: s) =
      (stringBody paired after).map fun read => (c :: read.1, read.2) := by
  rw [stringBody]
  simp only [if_false, if_true, Char.reduceEq]
  split
  · next fault failed =>
    rw [read] at failed
    cases failed
  · next e last done =>
    rw [read] at done
    cases done
    cases stringBody paired after <;> rfl

theorem stringBody_plain (paired : Bool) (c : Char) (s : List Char) (unquoted : c ≠ '"')
    (unescaped : c ≠ '\\') (visible : ¬ c.toNat < 0x20) :
    stringBody paired (c :: s) =
      (stringBody paired s).map fun read => (c :: read.1, read.2) := by
  rw [stringBody]
  simp only [unquoted, unescaped, visible, if_false]
  cases stringBody paired s <;> rfl

theorem fourHex_fixed (n : Nat) (rest : List Char) (small : n < Nat.pow 16 4) :
    fourHex (Text.hexFixed 4 n ++ rest) = .ok (n, rest) := by
  have value := Text.hexNumeral?_hexFixed small
  simp only [Text.hexFixed, List.nil_append, List.cons_append] at value ⊢
  simp only [fourHex, value]

theorem codeEscape_control (paired : Bool) (c : Char) (rest : List Char)
    (control : c.toNat < 0x20) :
    codeEscape paired (Text.hexFixed 4 c.toNat ++ rest) = .ok (c, rest) := by
  have low : isLowSurrogate c.toNat = false := by
    simp only [isLowSurrogate, Bool.and_eq_false_iff, decide_eq_false_iff_not]
    omega
  have high : isHighSurrogate c.toNat = false := by
    simp only [isHighSurrogate, Bool.and_eq_false_iff, decide_eq_false_iff_not]
    omega
  have digits := fourHex_fixed c.toNat rest (Nat.lt_trans control (by decide))
  simp [codeEscape, digits, low, high, bind, Except.bind, Char.ofNat_toNat]

/-- Every escape the writer has is one the reader takes back. -/
theorem stringBody_escaped (paired : Bool) (c : Char) (s : List Char) :
    stringBody paired (escaped c ++ s) =
      (stringBody paired s).map fun read => (c :: read.1, read.2) := by
  unfold escaped
  split
  · next marked =>
    rcases marked with rfl | rfl <;> exact stringBody_escape paired _ s _ rfl
  split
  · next equal => exact equal ▸ stringBody_escape paired _ s _ rfl
  split
  · next equal => exact equal ▸ stringBody_escape paired _ s _ rfl
  split
  · next equal => exact equal ▸ stringBody_escape paired _ s _ rfl
  split
  · next equal => exact equal ▸ stringBody_escape paired _ s _ rfl
  split
  · next equal => exact equal ▸ stringBody_escape paired _ s _ rfl
  split
  · next control => exact stringBody_escape paired _ s c (codeEscape_control paired c s control)
  · next unmarked _ _ _ _ _ visible =>
    exact stringBody_plain paired c s (fun equal => unmarked (Or.inl equal))
      (fun equal => unmarked (Or.inr equal)) visible

/-- A string is read back from its escaped characters. -/
theorem stringBody_flatMap (paired : Bool) (row rest : List Char) :
    stringBody paired (row.flatMap escaped ++ '"' :: rest) = .ok (row, rest) := by
  induction row with
  | nil => exact stringBody_quote paired rest
  | cons c row ih =>
    rw [List.flatMap_cons, List.append_assoc, stringBody_escaped, ih]
    rfl

/-! ## Numerals -/

def Stops (rest : List Char) : Prop :=
  ∀ c ∈ rest.head?, c.isDigit = false ∧ c ≠ '.' ∧ c ≠ 'e' ∧ c ≠ 'E'

theorem stops_of (c : Char) (rest : List Char) (stop : c.isDigit = false)
    (unlike : c ≠ '.' ∧ c ≠ 'e' ∧ c ≠ 'E') : Stops (c :: rest) := by
  rintro d next
  cases next
  exact ⟨stop, unlike⟩

theorem stops_space (c : Char) (rest : List Char) (gap : isGap c = true) : Stops (c :: rest) := by
  simp only [isGap, Bool.or_eq_true, decide_eq_true_eq] at gap
  rcases gap with ((rfl | rfl) | rfl) | rfl <;> exact stops_of _ _ (by decide) (by decide)

theorem stops_gap (gap : List Char) (blank : Blank gap) : Stops gap := by
  cases gap with
  | nil => exact fun _ none => absurd none (by simp)
  | cons c gap => exact stops_space c gap (blank c List.mem_cons_self)

theorem stops_nil : Stops [] := stops_gap [] blank_nil

theorem stops_blank (gap rest : List Char) (blank : Blank gap) (stop : Stops rest) :
    Stops (gap ++ rest) := by
  cases gap with
  | nil => exact stop
  | cons d gap => exact stops_space d _ (blank d List.mem_cons_self)

def Opens (c : Char) : Prop := isGap c = false ∧ c ≠ ']' ∧ c ≠ 'n'

instance (c : Char) : Decidable (Opens c) := inferInstanceAs (Decidable (_ ∧ _ ∧ _))

theorem opens_digit (c : Char) (digit : c.isDigit = true) : Opens c := by
  refine ⟨?_, ?_, ?_⟩
  · cases gap : isGap c with
    | false => rfl
    | true =>
      simp only [isGap, Bool.or_eq_true, decide_eq_true_eq] at gap
      rcases gap with ((rfl | rfl) | rfl) | rfl <;> exact absurd digit (by decide)
  · rintro rfl
    exact absurd digit (by decide)
  · rintro rfl
    exact absurd digit (by decide)

/-- What a number starts with is no blank and starts no other value. -/
theorem signs_number (c : Char) (signed : c = '-' ∨ c.isDigit = true) :
    isGap c = false ∧
      c ≠ '[' ∧ c ≠ '\x7b' ∧ c ≠ '"' ∧ c ≠ 'n' ∧ c ≠ 't' ∧ c ≠ 'f' := by
  rcases signed with rfl | digit
  · decide
  · refine ⟨(opens_digit c digit).1, ?_, ?_, ?_, ?_, ?_, ?_⟩ <;>
      · rintro rfl
        exact absurd digit (by decide)

def IsRow (row : List Char) : Prop := row ≠ [] ∧ ∀ c ∈ row, c.isDigit = true

theorem digitRun_row (ended : Fault) (row rest : List Char) (digits : IsRow row)
    (stops : ∀ c ∈ rest.head?, c.isDigit = false) :
    digitRun ended (row ++ rest) = .ok (row, rest) := by
  have taken : (row ++ rest).takeWhile Char.isDigit = row := by
    rw [List.takeWhile_append_of_pos digits.2]
    cases rest with
    | nil => simp
    | cons c rest => simp [stops c rfl]
  have left : (row ++ rest).dropWhile Char.isDigit = rest := by
    rw [List.dropWhile_append_of_pos digits.2]
    cases rest with
    | nil => simp
    | cons c rest => simp [stops c rfl]
  simp [digitRun, taken, left, digits.1]

namespace Numeral

def fractionText : Option (List Char) → List Char
  | none => []
  | some row => '.' :: row

def exponentText : Option (Bool × List Char) → List Char
  | none => []
  | some (negative, row) => 'e' :: (if negative then '-' else '+') :: row

def chars (n : Numeral) : List Char :=
  Binary64.signText n.negative ++ n.whole ++ fractionText n.fraction ++ exponentText n.exponent

def exponentWritten (capital plus : Bool) : Option (Bool × List Char) → List Char
  | none => []
  | some (negative, row) =>
    (if capital then 'E' else 'e') ::
      ((if negative then ['-'] else if plus then ['+'] else []) ++ row)

def written (capital plus : Bool) (n : Numeral) : List Char :=
  Binary64.signText n.negative ++ n.whole ++ fractionText n.fraction ++
    exponentWritten capital plus n.exponent

theorem chars_written (n : Numeral) : n.chars = n.written false true := by
  obtain ⟨negative, whole, fraction, exponent⟩ := n
  rcases exponent with none | ⟨_ | _, row⟩ <;> rfl

structure Sound (n : Numeral) : Prop where
  whole : IsRow n.whole
  zero_alone : n.whole.head? = some '0' → n.whole.length = 1
  fraction : ∀ row ∈ n.fraction, IsRow row
  exponent : ∀ part ∈ n.exponent, IsRow part.2

theorem splitSign_row (row rest : List Char) (digits : IsRow row) :
    Binary64.splitSign (row ++ rest) = (false, row ++ rest) := by
  obtain ⟨some, digits⟩ := digits
  cases row with
  | nil => exact absurd rfl some
  | cons c row =>
    have digit := digits c List.mem_cons_self
    rw [List.cons_append, Binary64.splitSign]
    · rintro _ ⟨⟩
      exact absurd digit (by decide)
    · rintro _ ⟨⟩
      exact absurd digit (by decide)

theorem exponentPart_written (ended : Fault) (capital plus : Bool)
    (part : Option (Bool × List Char)) (rest : List Char) (digits : ∀ p ∈ part, IsRow p.2)
    (stops : Stops rest) :
    exponentPart ended (exponentWritten capital plus part ++ rest) = .ok (part, rest) := by
  cases part with
  | none =>
    cases rest with
    | nil => rfl
    | cons c rest => simp [exponentWritten, exponentPart, (stops c rfl).2.2.1, (stops c rfl).2.2.2]
  | some part =>
    obtain ⟨negative, row⟩ := part
    have run := digitRun_row ended row rest (digits _ rfl) fun c next => (stops c next).1
    have mark : (if capital then 'E' else 'e') = 'e' ∨ (if capital then 'E' else 'e') = 'E' := by
      cases capital <;> simp
    have sign : Binary64.splitSign
        ((if negative then ['-'] else if plus then ['+'] else []) ++ (row ++ rest)) =
          (negative, row ++ rest) := by
      cases negative with
      | true => rfl
      | false =>
        cases plus with
        | true => rfl
        | false => exact splitSign_row row rest (digits _ rfl)
    simp only [exponentWritten, List.cons_append, List.append_assoc, exponentPart, mark,
      if_true, sign, run, bind, Except.bind]

/-- What follows the fraction is neither a digit nor a point. -/
theorem exponentWritten_stops (capital plus : Bool) (part : Option (Bool × List Char))
    (rest : List Char) (stops : Stops rest) :
    ∀ c ∈ (exponentWritten capital plus part ++ rest).head?, c.isDigit = false ∧ c ≠ '.' := by
  cases part with
  | none => exact fun c next => ⟨(stops c next).1, (stops c next).2.1⟩
  | some part =>
    intro c next
    cases next
    cases capital <;> decide

theorem fractionPart_text (ended : Fault) (part : Option (List Char)) (rest : List Char)
    (digits : ∀ row ∈ part, IsRow row)
    (stops : ∀ c ∈ rest.head?, c.isDigit = false ∧ c ≠ '.') :
    fractionPart ended (fractionText part ++ rest) = .ok (part, rest) := by
  cases part with
  | none =>
    cases rest with
    | nil => rfl
    | cons c rest =>
      have pointless := (stops c rfl).2
      simp only [fractionText, List.nil_append, fractionPart]
      split
      · next equal =>
        cases equal
        exact absurd rfl pointless
      · rfl
  | some row =>
    have run := digitRun_row ended row rest (digits _ rfl) fun c next => (stops c next).1
    simp [fractionText, fractionPart, run, bind, Except.bind]

theorem fractionText_stops (part : Option (List Char)) (rest : List Char)
    (stops : ∀ c ∈ rest.head?, c.isDigit = false ∧ c ≠ '.') :
    ∀ c ∈ (fractionText part ++ rest).head?, c.isDigit = false := by
  cases part with
  | none => exact fun c next => (stops c next).1
  | some row =>
    intro c next
    cases next
    decide

theorem whole_not_signed (n : Numeral) (rest : List Char) (sound : n.Sound) :
    (n.whole ++ rest).head? ≠ some '-' := by
  intro signed
  obtain ⟨some, digits⟩ := sound.whole
  cases front : n.whole with
  | nil => exact some front
  | cons c row =>
    rw [front] at signed digits
    have digit := digits c List.mem_cons_self
    cases signed
    exact absurd digit (by decide)

theorem wholePart_text (ended : Fault) (n : Numeral) (rest : List Char) (sound : n.Sound)
    (stops : ∀ c ∈ rest.head?, c.isDigit = false) :
    wholePart ended (n.whole ++ rest) = .ok (n.whole, rest) := by
  have alone : ¬ (n.whole.head? = some '0' ∧ n.whole.length ≠ 1) := fun zero =>
    zero.2 (sound.zero_alone zero.1)
  simp only [wholePart, digitRun_row ended n.whole rest sound.whole stops, bind, Except.bind, alone,
    if_false]

/-- A numeral is read from its text, in whichever way it may be written. -/
theorem numeral_written (ended : Fault) (capital plus : Bool) (n : Numeral) (rest : List Char)
    (sound : n.Sound) (stops : Stops rest) :
    numeral ended (n.written capital plus ++ rest) = .ok (n, rest) := by
  have pointless := exponentWritten_stops capital plus n.exponent rest stops
  have whole := wholePart_text ended n _ sound (fractionText_stops n.fraction _ pointless)
  have fraction := fractionPart_text ended n.fraction _ sound.fraction pointless
  have exponent := exponentPart_written ended capital plus n.exponent rest sound.exponent stops
  have unsigned := n.whole_not_signed
    (fractionText n.fraction ++ (exponentWritten capital plus n.exponent ++ rest)) sound
  have parts : n.written capital plus ++ rest = Binary64.signText n.negative ++ (n.whole ++
      (fractionText n.fraction ++ (exponentWritten capital plus n.exponent ++ rest))) := by
    simp only [written, List.append_assoc]
  rw [parts]
  obtain ⟨negative, _, _, _⟩ := n
  cases negative with
  | true =>
    simp [numeral, Binary64.signText, whole, fraction, exponent, bind, Except.bind]
  | false =>
    simp only [numeral, Binary64.signText, Bool.false_eq_true, if_false, List.nil_append, unsigned,
      decide_false, whole, fraction, exponent, bind, Except.bind]

theorem numeral_chars (ended : Fault) (n : Numeral) (rest : List Char) (sound : n.Sound)
    (stops : Stops rest) : numeral ended (n.chars ++ rest) = .ok (n, rest) := by
  rw [chars_written]
  exact numeral_written ended false true n rest sound stops

theorem written_front (capital plus : Bool) (n : Numeral) (sound : n.Sound) :
    ∃ c tail, n.written capital plus = c :: tail ∧ (c = '-' ∨ c.isDigit = true) := by
  obtain ⟨negative, whole, fraction, exponent⟩ := n
  obtain ⟨some, digits⟩ := sound.whole
  cases negative with
  | true => exact ⟨'-', _, rfl, Or.inl rfl⟩
  | false =>
    cases whole with
    | nil => exact absurd rfl some
    | cons c row => exact ⟨c, _, rfl, Or.inr (digits c List.mem_cons_self)⟩

theorem chars_front (n : Numeral) (sound : n.Sound) :
    ∃ c tail, n.chars = c :: tail ∧ (c = '-' ∨ c.isDigit = true) := by
  rw [chars_written]
  exact written_front false true n sound

end Numeral

end HabitLedger.Json
