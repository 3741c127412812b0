import HabitLedger.Json.Fault

/-!
The smallest parts of a JSON text: blanks, words, strings and numbers. A part is taken from the
front of a list of characters and the rest is returned with it; strings and numbers always take at
least one character.

A number keeps as many leading digits as fit 64 bits. Without point, exponent and lost digits it is
a whole number; otherwise the kept digits become a double, which is then multiplied or divided by a
power of ten, so that the double may be a neighbour of the nearest one.
-/

namespace HabitLedger.Json

theorem bind_eq_ok {ε α β : Type} {x : Except ε α} {f : α → Except ε β} {b : β} :
    (x >>= f) = .ok b ↔ ∃ a, x = .ok a ∧ f a = .ok b := by
  cases x <;> simp [bind, Except.bind]

theorem toOption_some {ε α : Type} (x : Except ε α) (a : α) : x.toOption = some a ↔ x = .ok a := by
  cases x <;> simp [Except.toOption]

theorem map_eq_ok {ε α β : Type} {x : Except ε α} {f : α → β} {b : β} :
    x.map f = .ok b ↔ ∃ a, x = .ok a ∧ f a = b := by
  cases x <;> simp [Except.map]

theorem rest_eq {α : Type} {a b : α} {r s : List Char}
    (read : (.ok (a, r) : Except Fault (α × List Char)) = .ok (b, s)) : r = s :=
  (Prod.mk.inj (Except.ok.inj read)).2

/-! ## Blanks and words -/

def isGap (c : Char) : Bool := c = ' ' || c = '\n' || c = '\t' || c = '\r'

def skipGap (s : List Char) : List Char := s.dropWhile isGap

theorem skipGap_length_le (s : List Char) : (skipGap s).length ≤ s.length :=
  (List.dropWhile_sublist _).length_le

def word : List Char → List Char → Except Fault (List Char)
  | [], s => .ok s
  | _ :: _, [] => .error .endOfValue
  | letter :: letters, c :: rest => if c = letter then word letters rest else .error .expectedWord

theorem word_length_le {letters s rest : List Char} (read : word letters s = .ok rest) :
    rest.length ≤ s.length := by
  fun_induction word letters s with
  | case1 s => cases read; exact Nat.le_refl _
  | case2 => cases read
  | case3 letters c s ih => exact Nat.le_succ_of_le (ih read)
  | case4 => cases read

/-! ## Strings -/

/-- The number of four hexadecimal digits. A text with fewer than four bytes left has ended. -/
def fourHex : List Char → Except Fault (Nat × List Char)
  | a :: b :: c :: d :: rest => match Text.hexNumeral? [a, b, c, d] with
    | some n => .ok (n, rest)
    | none => .error .invalidEscape
  | short => if Uuid.byteLength short < 4 then .error .endOfText else .error .invalidEscape

theorem fourHex_length {s rest : List Char} {n : Nat} (read : fourHex s = .ok (n, rest)) :
    rest.length < s.length := by
  unfold fourHex at read
  split at read
  · split at read
    · cases read
      simp only [List.length_cons]
      omega
    · cases read
  · split at read <;> cases read

def isHighSurrogate (n : Nat) : Bool := 0xD800 ≤ n && n ≤ 0xDBFF

def isLowSurrogate (n : Nat) : Bool := 0xDC00 ≤ n && n ≤ 0xDFFF

def joinSurrogates (high low : Nat) : Char :=
  Char.ofNat (0x10000 + (high - 0xD800) * 0x400 + (low - 0xDC00))

def lowHalf (high : Nat) : List Char → Except Fault (Char × List Char)
  | [] => .error .endOfText
  | '\\' :: [] => .error .endOfText
  | '\\' :: 'u' :: rest => do
    let (low, rest) ← fourHex rest
    if isLowSurrogate low then .ok (joinSurrogates high low, rest) else .error .loneSurrogate
  | _ => .error .unpairedSurrogate

theorem lowHalf_length {high : Nat} {s rest : List Char} {c : Char}
    (read : lowHalf high s = .ok (c, rest)) : rest.length < s.length := by
  unfold lowHalf at read
  split at read
  · cases read
  · cases read
  · obtain ⟨⟨low, after⟩, hex, read⟩ := bind_eq_ok.mp read
    have := fourHex_length hex
    dsimp only at read
    split at read
    · rw [← rest_eq read]
      simp only [List.length_cons]
      omega
    · cases read
  · cases read

/-- What an escape with four digits stands for. Where the string is only passed over, surrogates
need no partner. -/
def codeEscape (paired : Bool) (s : List Char) : Except Fault (Char × List Char) := do
  let (n, rest) ← fourHex s
  if paired && isLowSurrogate n then .error .loneSurrogate
  else if paired && isHighSurrogate n then lowHalf n rest
  else .ok (Char.ofNat n, rest)

def escape (paired : Bool) : List Char → Except Fault (Char × List Char)
  | [] => .error .endOfText
  | c :: rest => match c with
    | '"' => .ok ('"', rest)
    | '\\' => .ok ('\\', rest)
    | '/' => .ok ('/', rest)
    | 'b' => .ok ('\x08', rest)
    | 'f' => .ok ('\x0c', rest)
    | 'n' => .ok ('\n', rest)
    | 'r' => .ok ('\r', rest)
    | 't' => .ok ('\t', rest)
    | 'u' => codeEscape paired rest
    | _ => .error .invalidEscape

theorem codeEscape_length {paired : Bool} {s rest : List Char} {c : Char}
    (read : codeEscape paired s = .ok (c, rest)) : rest.length < s.length := by
  obtain ⟨⟨n, after⟩, hex, read⟩ := bind_eq_ok.mp read
  have first := fourHex_length hex
  dsimp only at read
  split at read
  · cases read
  · split at read
    · exact Nat.lt_trans (lowHalf_length read) first
    · cases read
      exact first

theorem escape_length {paired : Bool} {s rest : List Char} {c : Char}
    (read : escape paired s = .ok (c, rest)) : rest.length < s.length := by
  unfold escape at read
  split at read
  · cases read
  · split at read
    all_goals first
      | (cases read; exact Nat.lt_succ_self _)
      | exact Nat.lt_succ_of_lt (codeEscape_length read)
      | cases read

def stringBody (paired : Bool) (s : List Char) : Except Fault (List Char × List Char) :=
  match s with
  | [] => .error .endOfText
  | c :: rest =>
    if c = '"' then .ok ([], rest)
    else if c = '\\' then
      match _escaped : escape paired rest with
      | .error fault => .error fault
      | .ok (e, after) => do
        let (row, after) ← stringBody paired after
        .ok (e :: row, after)
    else if c.toNat < 0x20 then .error .controlCharacter
    else do
      let (row, after) ← stringBody paired rest
      .ok (c :: row, after)
termination_by s.length
decreasing_by
  · have := escape_length _escaped
    simp only [List.length_cons]
    omega
  · exact Nat.lt_succ_self _

theorem stringBody_length {paired : Bool} {s row rest : List Char}
    (read : stringBody paired s = .ok (row, rest)) : rest.length < s.length := by
  fun_induction stringBody paired s generalizing row with
  | case1 => cases read
  | case2 =>
    cases read
    exact Nat.lt_succ_self _
  | case3 => cases read
  | case4 _ _ after escaped _ ih =>
    obtain ⟨⟨inner, last⟩, body, read⟩ := bind_eq_ok.mp read
    cases read
    have := escape_length escaped
    have := ih body
    simp only [List.length_cons]
    omega
  | case5 => cases read
  | case6 _ _ _ _ _ ih =>
    obtain ⟨⟨inner, last⟩, body, read⟩ := bind_eq_ok.mp read
    cases read
    exact Nat.lt_succ_of_lt (ih body)

/-! ## Numbers -/

structure Numeral where
  negative : Bool
  whole : List Char
  fraction : Option (List Char)
  exponent : Option (Bool × List Char)

def digitRun (ended : Fault) (s : List Char) : Except Fault (List Char × List Char) :=
  if s = [] then .error ended
  else if s.takeWhile Char.isDigit = [] then .error .invalidNumber
  else .ok (s.takeWhile Char.isDigit, s.dropWhile Char.isDigit)

def wholePart (ended : Fault) (s : List Char) : Except Fault (List Char × List Char) := do
  let (row, rest) ← digitRun ended s
  if row.head? = some '0' ∧ row.length ≠ 1 then .error .invalidNumber else .ok (row, rest)

def fractionPart (ended : Fault) : List Char → Except Fault (Option (List Char) × List Char)
  | '.' :: rest => do
    let (row, rest) ← digitRun ended rest
    .ok (some row, rest)
  | s => .ok (none, s)

def exponentPart (ended : Fault) :
    List Char → Except Fault (Option (Bool × List Char) × List Char)
  | [] => .ok (none, [])
  | c :: rest =>
    if c = 'e' ∨ c = 'E' then do
      let (row, after) ← digitRun ended (Binary64.splitSign rest).2
      .ok (some ((Binary64.splitSign rest).1, row), after)
    else .ok (none, c :: rest)

def numeral (ended : Fault) (s : List Char) : Except Fault (Numeral × List Char) := do
  let negative := s.head? = some '-'
  let (whole, rest) ← wholePart ended (if negative then s.drop 1 else s)
  let (fraction, rest) ← fractionPart ended rest
  let (exponent, rest) ← exponentPart ended rest
  .ok (⟨negative, whole, fraction, exponent⟩, rest)

theorem digitRun_length {ended : Fault} {s row rest : List Char}
    (read : digitRun ended s = .ok (row, rest)) : rest.length < s.length := by
  unfold digitRun at read
  split at read
  · cases read
  · split at read
    · cases read
    · next some =>
      cases read
      have whole := congrArg List.length
        (List.takeWhile_append_dropWhile (p := Char.isDigit) (l := s))
      have := List.length_pos_iff.mpr some
      rw [List.length_append] at whole
      omega

theorem wholePart_length {ended : Fault} {s row rest : List Char}
    (read : wholePart ended s = .ok (row, rest)) : rest.length < s.length := by
  obtain ⟨⟨row, after⟩, run, last⟩ := bind_eq_ok.mp read
  have shorter := digitRun_length run
  dsimp only at last
  split at last
  · cases last
  · cases last
    exact shorter

theorem fractionPart_length {ended : Fault} {s rest : List Char} {row : Option (List Char)}
    (read : fractionPart ended s = .ok (row, rest)) : rest.length ≤ s.length := by
  unfold fractionPart at read
  split at read
  · obtain ⟨⟨row, after⟩, run, last⟩ := bind_eq_ok.mp read
    cases last
    exact Nat.le_succ_of_le (Nat.le_of_lt (digitRun_length run))
  · cases read
    exact Nat.le_refl _

theorem splitSign_length (s : List Char) : (Binary64.splitSign s).2.length ≤ s.length := by
  unfold Binary64.splitSign
  split
  · exact Nat.le_succ _
  · exact Nat.le_succ _
  · exact Nat.le_refl _

theorem exponentPart_length {ended : Fault} {s rest : List Char}
    {exponent : Option (Bool × List Char)}
    (read : exponentPart ended s = .ok (exponent, rest)) : rest.length ≤ s.length := by
  unfold exponentPart at read
  split at read
  · cases read
    exact Nat.le_refl _
  · next c tail =>
    split at read
    · obtain ⟨⟨row, after⟩, run, last⟩ := bind_eq_ok.mp read
      cases last
      exact Nat.le_succ_of_le
        (Nat.le_trans (Nat.le_of_lt (digitRun_length run)) (splitSign_length tail))
    · cases read
      exact Nat.le_refl _

/-- A number takes at least one character, so what follows it is shorter; so the readers of lists
and objects come to an end. -/
theorem numeral_length {ended : Fault} {s rest : List Char} {n : Numeral}
    (read : numeral ended s = .ok (n, rest)) : rest.length < s.length := by
  obtain ⟨⟨whole, afterWhole⟩, wholeRead, read⟩ := bind_eq_ok.mp read
  obtain ⟨⟨fraction, afterFraction⟩, fractionRead, read⟩ := bind_eq_ok.mp read
  obtain ⟨⟨exponent, afterExponent⟩, exponentRead, read⟩ := bind_eq_ok.mp read
  cases read
  have unsigned : (if s.head? = some '-' then s.drop 1 else s).length ≤ s.length := by
    split <;> simp
  calc rest.length ≤ afterFraction.length := exponentPart_length exponentRead
    _ ≤ afterWhole.length := fractionPart_length fractionRead
    _ < (if s.head? = some '-' then s.drop 1 else s).length := wholePart_length wholeRead
    _ ≤ s.length := unsigned

structure Kept where
  value : Nat
  lost : Nat

/-- One more digit of the whole part; once a digit is lost, all that follow are. -/
def Kept.push (kept : Kept) (c : Char) : Kept :=
  -- A later digit could fit again; it must not, or digits would change places.
  if kept.lost = 0 ∧ 10 * kept.value + Text.digitValue c < UInt64.size then
    ⟨10 * kept.value + Text.digitValue c, 0⟩
  else ⟨kept.value, kept.lost + 1⟩

def keepFraction (value : Nat) : List Char → Nat × Nat
  | [] => (value, 0)
  | c :: rest =>
    if 10 * value + Text.digitValue c < UInt64.size then
      let (value, count) := keepFraction (10 * value + Text.digitValue c) rest
      (value, count + 1)
    else (value, 0)

def powerOfTen (n : Nat) : Binary64 := Binary64.Decimal.toBinary64 false ⟨1, n⟩

def scale (x : Binary64) (power : Int) : Except Fault Binary64 :=
  -- `10 ^ 308` is the largest finite power of ten, so going further down takes several steps.
  if power < -308 then
    if x = Binary64.zero false then .ok x else scale (x / powerOfTen 308) (power + 308)
  else if power < 0 then .ok (x / powerOfTen power.natAbs)
  else if power ≤ 308 then
    if (x * powerOfTen power.natAbs).isFinite then .ok (x * powerOfTen power.natAbs)
    else .error .numberOutOfRange
  else if x = Binary64.zero false then .ok x
  else .error .numberOutOfRange
termination_by (-power).toNat
decreasing_by omega

def withSign (negative : Bool) (x : Binary64) : Binary64 := if negative then -x else x

def realNumber (negative : Bool) (kept : Nat) (power : Int) : Except Fault Number := do
  let x ← scale (.ofInt kept) power
  .ok (.real (withSign negative x))

/-- Kept digits times a power of ten with a written exponent; an exponent of more than 31 bits gives
zero or no number. -/
def exponentNumber (negative : Bool) (kept : Nat) (power : Int) (exponent : Bool × List Char) :
    Except Fault Number :=
  if Text.numeral exponent.2 < 0x80000000 then
    realNumber negative kept
      (if exponent.1 then power - Text.numeral exponent.2 else power + Text.numeral exponent.2)
  else if kept = 0 ∨ exponent.1 then .ok (.real (Binary64.zero negative))
  else .error .numberOutOfRange

/-- A number without point and exponent. A negative one that is zero or does not fit 64 bits is a
double. -/
def wholeNumber (negative : Bool) (kept : Nat) : Number :=
  if negative then
    if kept = 0 ∨ 0x8000000000000000 < kept then .real (-(.ofInt kept)) else .whole (-(kept : Int))
  else .whole kept

def Numeral.number (n : Numeral) : Except Fault Number :=
  let kept := n.whole.foldl Kept.push ⟨0, 0⟩
  match n.fraction, n.exponent with
  | none, none =>
    if kept.lost = 0 then .ok (wholeNumber n.negative kept.value)
    else realNumber n.negative kept.value kept.lost
  | none, some exponent => exponentNumber n.negative kept.value kept.lost exponent
  | some row, none =>
    let (value, count) := keepFraction kept.value row
    realNumber n.negative value (kept.lost - count)
  | some row, some exponent =>
    let (value, count) := keepFraction kept.value row
    exponentNumber n.negative value (kept.lost - count) exponent

def number (s : List Char) : Except Fault (Number × List Char) := do
  let (parts, rest) ← numeral .endOfValue s
  let value ← parts.number
  .ok (value, rest)

theorem number_length {s rest : List Char} {n : Number} (read : number s = .ok (n, rest)) :
    rest.length < s.length := by
  obtain ⟨⟨parts, after⟩, lexed, read⟩ := bind_eq_ok.mp read
  obtain ⟨value, _, read⟩ := bind_eq_ok.mp read
  cases read
  exact numeral_length lexed

end HabitLedger.Json
