import HabitLedger.Json.Nested
import HabitLedger.Proofs.DayText
import HabitLedger.Proofs.Numerals
import HabitLedger.Proofs.UuidText

/-!
Readers that take back what was written. A reader restores a value as a thing if it reads the thing
from the text of the value in every layout, with any blanks before it and whatever may follow.
-/

namespace HabitLedger.Json

def Reader.Restores {α : Type} (reader : Reader α) (value : Value) (a : α) : Prop :=
  ∀ layout depth gap rest, Blank gap → Stops rest →
    reader.run (gap ++ (value.laid layout depth ++ rest)) = .ok (a, rest)

/-! ## The first character of a value -/

theorem isRow_append_left (row more : List Char) (digits : IsRow row) :
    ∃ c tail, row ++ more = c :: tail ∧ c.isDigit = true := by
  obtain ⟨some, digits⟩ := digits
  cases row with
  | nil => exact absurd rfl some
  | cons c tail => exact ⟨c, tail ++ more, rfl, digits c List.mem_cons_self⟩

theorem positionalText_front (pointed : Bool) (row : List Char) (power : Int) (digits : IsRow row) :
    ∃ c tail, Binary64.positionalText pointed row power = c :: tail ∧ c.isDigit = true := by
  unfold Binary64.positionalText
  split
  · exact ⟨'0', _, rfl, rfl⟩
  · obtain ⟨c, tail, front, digit⟩ := isRow_append_left row [] digits
    rw [List.append_nil] at front
    subst front
    dsimp only
    split
    · exact ⟨c, _, rfl, digit⟩
    · exact ⟨c, _, rfl, digit⟩

theorem magnitudeText_front (style : Binary64.Style) (units : Nat) :
    ∃ c tail, Binary64.magnitudeText style units = c :: tail ∧ c.isDigit = true := by
  have digits := isRow_digits (Binary64.Decimal.shortest style.tie units).digits
  unfold Binary64.magnitudeText
  dsimp only
  split
  · exact positionalText_front _ _ _ digits
  · obtain ⟨c, tail, front, digit⟩ := isRow_append_left _ [] digits
    rw [List.append_nil] at front
    rw [front]
    exact ⟨c, _, rfl, digit⟩

theorem number_front (n : Number) : ∃ c tail, n.chars = c :: tail ∧ Opens c := by
  have signed (negative : Bool) (s : List Char) (c : Char) (tail : List Char)
      (front : s = c :: tail) (opens : Opens c) :
      ∃ c tail, Binary64.signText negative ++ s = c :: tail ∧ Opens c := by
    cases negative with
    | true => exact ⟨'-', s, rfl, by decide⟩
    | false => exact ⟨c, tail, front, opens⟩
  rcases n with value | x | negative | ⟨negative, magnitude⟩
  · obtain ⟨c, tail, front, digit⟩ := isRow_append_left _ [] (isRow_digits value.natAbs)
    rw [List.append_nil] at front
    exact signed _ _ c tail front (opens_digit c digit)
  · exact ⟨'N', _, rfl, by decide⟩
  · exact signed _ _ 'i' _ rfl (by decide)
  · change ∃ c tail, Binary64.signText negative ++ ite _ _ _ = c :: tail ∧ _
    split
    · obtain ⟨c, tail, front, digit⟩ := positionalText_front Binary64.Style.json.pointed ['0'] 0
        ⟨by simp, by simp⟩
      exact signed _ _ c tail front (opens_digit c digit)
    · obtain ⟨c, tail, front, digit⟩ := magnitudeText_front Binary64.Style.json magnitude.units
      exact signed _ _ c tail front (opens_digit c digit)

namespace Value

theorem laid_front (layout : Layout) (depth : Nat) (value : Value) (some : value ≠ .null) :
    ∃ c tail, value.laid layout depth = c :: tail ∧ Opens c := by
  match value with
  | .null => exact absurd rfl some
  | .boolean true => exact ⟨'t', _, rfl, by decide⟩
  | .boolean false => exact ⟨'f', _, rfl, by decide⟩
  | .number n => exact number_front n
  | .text t => exact ⟨'"', _, rfl, by decide⟩
  | .list [] => exact ⟨'[', _, rfl, by decide⟩
  | .list (_ :: _) => exact ⟨'[', _, rfl, by decide⟩
  | .object [] => exact ⟨'\x7b', _, rfl, by decide⟩
  | .object ((_, _) :: _) => exact ⟨'\x7b', _, rfl, by decide⟩

theorem laid_dark (layout : Layout) (depth : Nat) (value : Value) :
    ∃ c tail, value.laid layout depth = c :: tail ∧ isGap c = false ∧ c ≠ ']' := by
  by_cases none : value = .null
  · subst none
    exact ⟨'n', _, rfl, by decide⟩
  · obtain ⟨c, tail, front, dark, unclosed, _⟩ := laid_front layout depth value none
    exact ⟨c, tail, front, dark, unclosed⟩

end Value

namespace Reader
variable {α β : Type}

theorem restores_check (reader : Reader α) (accept : α → Except Fault β) (value : Value) (a : α)
    (b : β) (restores : reader.Restores value a) (accepted : accept a = .ok b) :
    (reader.check accept).Restores value b := by
  intro layout depth gap rest blank stops
  have read := restores layout depth gap rest blank stops
  change reader.takeChecked accept _ = _
  simp [takeChecked, read, accepted, bind, Except.bind]

/-! ## Values that hold no others -/

theorem takeLeaf_front (wanted : String) (starts : Char → Bool)
    (body : Char → List Char → Except Fault (α × List Char)) (gap s : List Char) (c : Char)
    (blank : Blank gap) (dark : isGap c = false) (start : starts c = true) :
    takeLeaf wanted starts body (gap ++ c :: s) = body c s := by
  simp [takeLeaf, skipGap_before gap s c blank dark, start]

theorem textBody_quoted (c : Char) (t : String) (rest : List Char) :
    textBody c (t.toList.flatMap escaped ++ '"' :: rest) = .ok (t, rest) := by
  simp [textBody, stringBody_flatMap, bind, Except.bind, String.ofList_toList]

theorem restores_text (wanted : String) (t : String) :
    (textFor wanted).Restores (.text t) t := by
  intro layout depth gap rest blank stops
  have inside := textBody_quoted '"' t rest
  change takeLeaf wanted _ textBody _ = _
  simp only [Value.laid, quoted, List.cons_append, List.append_assoc, List.nil_append]
  rw [takeLeaf_front wanted _ textBody gap _ '"' blank rfl rfl]
  exact inside

theorem restores_boolean (b : Bool) : boolean.Restores (.boolean b) b := by
  intro layout depth gap rest blank stops
  change takeLeaf "a boolean" _ booleanBody _ = _
  cases b with
  | true =>
    refine (takeLeaf_front _ _ booleanBody gap _ 't' blank rfl rfl).trans ?_
    exact congrArg (Except.map (true, ·)) (word_append ['r', 'u', 'e'] rest)
  | false =>
    refine (takeLeaf_front _ _ booleanBody gap _ 'f' blank rfl rfl).trans ?_
    exact congrArg (Except.map (false, ·)) (word_append ['a', 'l', 's', 'e'] rest)

theorem number_chars (n : Numeral) (value : Number) (rest : List Char) (sound : n.Sound)
    (means : n.number = .ok value) (stops : Stops rest) :
    Json.number (n.chars ++ rest) = .ok (value, rest) := by
  simp [Json.number, Numeral.numeral_chars .endOfValue n rest sound stops, means, bind, Except.bind]

theorem restores_number (wanted : String) (n : Numeral) (number : Number) (value : Number)
    (sound : n.Sound) (text : n.chars = number.chars) (means : n.number = .ok value) :
    (numberFor wanted).Restores (.number number) value := by
  intro layout depth gap rest blank stops
  obtain ⟨c, tail, front, signed⟩ := n.chars_front sound
  obtain ⟨dark, _⟩ := signs_number c signed
  have read := number_chars n value rest sound means stops
  rw [front, List.cons_append] at read
  change takeNumber wanted (gap ++ (number.chars ++ rest)) = _
  simp [← text, front, takeNumber, skipGap_before gap _ c blank dark, signed, read]

theorem restores_natural (bound n : Nat) (wanted : String) (small : n < bound)
    (fits : n < UInt64.size) : (natural bound wanted).Restores (Value.natural n) n := by
  refine restores_check _ _ _ (.whole n) n ?_ ?_
  · exact restores_number wanted (.ofNatural n) _ _ (Numeral.ofNatural_sound n)
      (Numeral.ofNatural_chars n) (Numeral.ofNatural_number n fits)
  · simp [small]

theorem restores_word32 (n : UInt32) : word32.Restores (Value.natural n.toNat) n := by
  have small : n.toNat < UInt32.size := n.toNat_lt
  refine restores_check _ _ _ n.toNat n ?_ ?_
  · exact restores_natural _ _ _ small (Nat.lt_trans small (by decide))
  · simp

theorem restores_uuid (id : Uuid) : uuid.Restores (.text id.text) id := by
  refine restores_check _ _ _ id.text id (restores_text _ _) ?_
  simp [Uuid.text, String.toList_ofList, Uuid.read_chars, Except.mapError]

theorem restores_date (day : Date) : date.Restores (.text day.text) day := by
  refine restores_check _ _ _ day.text day (restores_text _ _) ?_
  simp [Date.text, String.toList_ofList, DateText.strict_chars, Except.mapError]

/-! ## Values that may be absent, and names -/

theorem restores_null (reader : Reader α) : reader.optional.Restores .null none := by
  intro layout depth gap rest blank stops
  change reader.takeOptional (gap ++ 'n' :: (['u', 'l', 'l'] ++ rest)) = _
  simp only [takeOptional, skipGap_before gap _ 'n' blank rfl]
  exact congrArg (Except.map (none, ·)) (word_append ['u', 'l', 'l'] rest)

theorem restores_some (reader : Reader α) (value : Value) (a : α) (present : value ≠ .null)
    (restores : reader.Restores value a) : reader.optional.Restores value (some a) := by
  intro layout depth gap rest blank stops
  obtain ⟨c, tail, front, dark, _, unlike⟩ := value.laid_front layout depth present
  have read := restores layout depth [] rest (fun _ none => nomatch none) stops
  change reader.takeOptional _ = _
  simp only [front, List.cons_append, List.nil_append] at read ⊢
  simp only [takeOptional, skipGap_before gap _ c blank dark]
  split
  · next equal =>
    cases equal
    exact absurd rfl unlike
  · simp [read, Except.map]

theorem restores_optional (reader : Reader α) (write : α → Value) (option : Option α)
    (present : ∀ a, write a ≠ .null) (restores : ∀ a, reader.Restores (write a) a) :
    reader.optional.Restores (Value.optional write option) option := by
  cases option with
  | none => exact restores_null reader
  | some a => exact restores_some reader _ a (present a) (restores a)

theorem restores_variant (known : List (String × α)) (room : Nat) (name : String) (a : α)
    (found : known.lookup name = some a) : (variant known room).Restores (.text name) a := by
  intro layout depth gap rest blank stops
  have inside := textBody_quoted '"' name rest
  change takeVariant known room _ = _
  simp only [Value.laid, quoted, List.cons_append, List.append_assoc, List.nil_append]
  simp [takeVariant, skipGap_before gap _ '"' blank rfl, inside, named, found, bind, Except.bind]

end Reader

end HabitLedger.Json
