import HabitLedger.Json.Record
import HabitLedger.Proofs.Grammar

/-!
What a reader makes of a datum. A reader reads a datum as a thing if it reads the thing from every
text that says the datum, with any blanks before it and whatever may follow, and it fails on the
datum if it fails on every such text. Every reader here decides: it does one or the other, so
blanks, the spelling of strings and what follows make no difference.
-/

namespace HabitLedger.Json

/-! ## Strings -/

theorem escape_letter (paired : Bool) (c : Char) (rest : List Char)
    (known : (Piece.letters.lookup c).isSome) :
    escape paired (c :: rest) = .ok ((Piece.letters.lookup c).getD c, rest) := by
  have member : c ∈ Piece.letters.map (·.1) := by
    simpa [Piece.letters, List.lookup_isSome_iff] using known
  simp only [Piece.letters, List.map_cons, List.map_nil, List.mem_cons, List.not_mem_nil,
    or_false] at member
  rcases member with rfl | rfl | rfl | rfl | rfl | rfl | rfl | rfl <;> rfl

theorem fourHex_unit (digits rest : List Char) (four : digits.length = 4)
    (hex : (Text.hexNumeral? digits).isSome) :
    fourHex (digits ++ rest) = .ok (Piece.unit digits, rest) := by
  obtain ⟨n, value⟩ := Option.isSome_iff_exists.mp hex
  match digits, four with
  | [a, b, c, d], _ => simp [fourHex, value, Piece.unit]

theorem toOption_map {α β : Type} (x : Except Fault α) (f : α → β) :
    (x.map f).toOption = x.toOption.map f := by
  cases x <;> rfl

theorem toOption_bind {α β : Type} (x : Except Fault α) (f : α → Except Fault β) :
    (x >>= f).toOption = x.toOption.bind fun a => (f a).toOption := by
  cases x <;> rfl

theorem stringBody_refused (paired : Bool) (s : List Char) (fault : Fault)
    (refused : escape paired s = .error fault) : stringBody paired ('\\' :: s) = .error fault := by
  rw [stringBody]
  simp only [if_false, if_true, Char.reduceEq]
  split
  · next failed =>
    rw [refused] at failed
    cases failed
    rfl
  · next read =>
    rw [refused] at read
    cases read

theorem escape_code (paired : Bool) (digits s : List Char) (sound : (Piece.code digits).Sound) :
    escape paired ('u' :: (digits ++ s)) =
      if paired && isLowSurrogate (Piece.unit digits) then .error .loneSurrogate
      else if paired && isHighSurrogate (Piece.unit digits) then lowHalf (Piece.unit digits) s
      else .ok (Char.ofNat (Piece.unit digits), s) := by
  change codeEscape paired (digits ++ s) = _
  simp [codeEscape, fourHex_unit digits s sound.1 sound.2, bind, Except.bind]

theorem lowHalf_code (high : Nat) (digits s : List Char) (sound : (Piece.code digits).Sound) :
    lowHalf high ('\\' :: 'u' :: (digits ++ s)) =
      if isLowSurrogate (Piece.unit digits) then
        .ok (joinSurrogates high (Piece.unit digits), s)
      else .error .loneSurrogate := by
  simp [lowHalf, fourHex_unit digits s sound.1 sound.2, bind, Except.bind]

/-- Two codes in a row, the first one a high half. -/
theorem escape_halves (digits second s : List Char) (sound : (Piece.code digits).Sound)
    (follows : (Piece.code second).Sound) (low : ¬ isLowSurrogate (Piece.unit digits))
    (high : isHighSurrogate (Piece.unit digits)) :
    escape true ('u' :: (digits ++ '\\' :: 'u' :: (second ++ s))) =
      if isLowSurrogate (Piece.unit second) then
        .ok (joinSurrogates (Piece.unit digits) (Piece.unit second), s)
      else .error .loneSurrogate := by
  rw [escape_code true digits _ sound, ← lowHalf_code (Piece.unit digits) second s follows]
  simp [low, high]

theorem lowHalf_missed (high : Nat) (pieces : List Piece) (rest : List Char)
    (sound : ∀ piece ∈ pieces, piece.Sound)
    (other : ∀ digits more, pieces ≠ .code digits :: more) :
    lowHalf high (pieces.flatMap Piece.chars ++ '"' :: rest) = .error .unpairedSurrogate := by
  cases pieces with
  | nil => rfl
  | cons piece more =>
    have sound := sound piece List.mem_cons_self
    cases piece with
    | plain c =>
      rw [List.flatMap_cons, Piece.chars, List.append_assoc, List.singleton_append, lowHalf]
      all_goals simp_all [Piece.Sound]
    | letter c =>
      have known : (Piece.letters.lookup c).isSome := sound
      have unlike : c ≠ 'u' := by
        rintro rfl
        exact absurd known (by decide)
      rw [List.flatMap_cons, Piece.chars, List.append_assoc, List.cons_append,
        List.singleton_append, lowHalf]
      all_goals simp_all
    | code digits => exact absurd rfl (other digits more)

section Body
variable (rest : List Char)

theorem body_step (c : Char) (read : Except Fault (List Char × List Char))
    (row : Option (List Char)) (same : read.toOption = row.map (·, rest)) :
    (read.map fun read => (c :: read.1, read.2)).toOption = (row.map (c :: ·)).map (·, rest) := by
  rw [toOption_map, same]
  cases row <;> rfl

theorem code_chars (digits s : List Char) (more : List Piece) :
    (Piece.code digits :: more).flatMap Piece.chars ++ s =
      '\\' :: 'u' :: (digits ++ (more.flatMap Piece.chars ++ s)) := by
  rw [List.flatMap_cons, Piece.chars, List.append_assoc]
  rfl

/-- A string is read as the characters its pieces stand for. -/
theorem stringBody_spelled (pieces : List Piece) (sound : ∀ piece ∈ pieces, piece.Sound) :
    (stringBody true (pieces.flatMap Piece.chars ++ '"' :: rest)).toOption =
      (spelled pieces).map (·, rest) := by
  fun_induction spelled pieces with
  | case1 =>
    rw [List.flatMap_nil, List.nil_append, stringBody_quote]
    rfl
  | case2 c more ih =>
    obtain ⟨⟨unquoted, unescaped, visible⟩, later⟩ := List.forall_mem_cons.mp sound
    have plain := stringBody_plain true c (more.flatMap Piece.chars ++ '"' :: rest)
      unquoted unescaped visible
    change (stringBody true (c :: (more.flatMap Piece.chars ++ '"' :: rest))).toOption = _
    rw [plain]
    exact body_step rest c _ _ (ih later)
  | case3 c more ih =>
    obtain ⟨known, later⟩ := List.forall_mem_cons.mp sound
    have letter := stringBody_escape true _ _ _
      (escape_letter true c (more.flatMap Piece.chars ++ '"' :: rest) known)
    change (stringBody true ('\\' :: c :: (more.flatMap Piece.chars ++ '"' :: rest))).toOption = _
    rw [letter]
    exact body_step rest _ _ _ (ih later)
  -- A low half has no partner before it, so it is refused; a high half needs one after it.
  | case4 digits more low =>
    obtain ⟨code, later⟩ := List.forall_mem_cons.mp sound
    have refused := escape_code true digits (more.flatMap Piece.chars ++ '"' :: rest) code
    rw [code_chars, stringBody_refused true _ .loneSurrogate (by simp [refused, low])]
    rfl
  | case5 digits low high second more pair ih =>
    obtain ⟨code, follows, later⟩ :=
      List.forall_mem_cons.mp sound |>.imp_right List.forall_mem_cons.mp
    have joined := escape_halves digits second (more.flatMap Piece.chars ++ '"' :: rest) code
      follows low high
    rw [if_pos pair] at joined
    rw [code_chars, code_chars, stringBody_escape true _ _ _ joined]
    exact body_step rest _ _ _ (ih later)
  | case6 digits low high second more alone =>
    obtain ⟨code, follows, _⟩ := List.forall_mem_cons.mp sound |>.imp_right List.forall_mem_cons.mp
    have refused := escape_halves digits second (more.flatMap Piece.chars ++ '"' :: rest) code
      follows low high
    rw [if_neg alone] at refused
    rw [code_chars, code_chars, stringBody_refused true _ _ refused]
    rfl
  | case7 digits more low high other =>
    obtain ⟨code, later⟩ := List.forall_mem_cons.mp sound
    have refused := escape_code true digits (more.flatMap Piece.chars ++ '"' :: rest) code
    rw [lowHalf_missed (Piece.unit digits) more rest later other] at refused
    rw [code_chars, stringBody_refused true _ .unpairedSurrogate
      (by simpa [low, high] using refused)]
    rfl
  | case8 digits more low high ih =>
    obtain ⟨code, later⟩ := List.forall_mem_cons.mp sound
    have single := escape_code true digits (more.flatMap Piece.chars ++ '"' :: rest) code
    rw [code_chars, stringBody_escape true _ _ _ (by simpa [low, high] using single)]
    exact body_step rest _ _ _ (ih later)

/-- Where a string is passed over, surrogates need no partner. -/
theorem stringBody_over (pieces : List Piece) (sound : ∀ piece ∈ pieces, piece.Sound) :
    ∃ row, stringBody false (pieces.flatMap Piece.chars ++ '"' :: rest) = .ok (row, rest) := by
  induction pieces with
  | nil => exact ⟨[], stringBody_quote false rest⟩
  | cons piece more ih =>
    obtain ⟨here, later⟩ := List.forall_mem_cons.mp sound
    obtain ⟨row, passed⟩ := ih later
    have escaped (s : List Char) (c : Char)
        (read : escape false s = .ok (c, more.flatMap Piece.chars ++ '"' :: rest)) :
        stringBody false ('\\' :: s) = .ok (c :: row, rest) := by
      rw [stringBody_escape false _ _ _ read, passed]
      rfl
    cases piece with
    | plain c =>
      have plain := stringBody_plain false c (more.flatMap Piece.chars ++ '"' :: rest)
        here.1 here.2.1 here.2.2
      rw [passed] at plain
      exact ⟨c :: row, plain⟩
    | letter c => exact ⟨_, escaped _ _ (escape_letter false c _ here)⟩
    | code digits =>
      have code := escape_code false digits (more.flatMap Piece.chars ++ '"' :: rest) here
      rw [code_chars]
      exact ⟨_, escaped _ _ code⟩

end Body

/-! ## Values that hold no others -/

def Reader.Means {α : Type} (reader : Reader α) (meaning : Datum → Option α) : Prop :=
  ∀ datum text gap rest, Denotes text datum → Blank gap → Stops rest →
    (reader.run (gap ++ (text ++ rest))).toOption = (meaning datum).map (·, rest)

namespace Datum

def text? : Datum → Option String
  | text value => value
  | _ => none

def number? : Datum → Option Number
  | number parts => parts.number.toOption
  | _ => none

def real? (datum : Datum) : Option Binary64 := datum.number?.map Number.toBinary64

def uuid? (datum : Datum) : Option Uuid := datum.text?.bind fun t => (Uuid.read t.toList).toOption

def optional {α : Type} (meaning : Datum → Option α) : Datum → Option (Option α)
  | null => some none
  | datum => (meaning datum).map some

theorem optional_more {α : Type} (meaning : Datum → Option α) (datum : Datum)
    (more : datum ≠ .null) : optional meaning datum = (meaning datum).map some := by
  cases datum <;> first | rfl | exact absurd rfl more

end Datum

namespace Reader
variable {α β : Type}

theorem takeLeaf_missed (wanted : String) (starts : Char → Bool)
    (body : Char → List Char → Except Fault (α × List Char)) (gap s : List Char) (c : Char)
    (blank : Blank gap) (dark : isGap c = false) (other : starts c = false) :
    (takeLeaf wanted starts body (gap ++ c :: s)).toOption = none := by
  simp [takeLeaf, skipGap_before gap s c blank dark, other, Except.toOption]

theorem means_text (wanted : String) : (textFor wanted).Means Datum.text? := by
  intro datum text gap rest denotes blank stops
  obtain ⟨c, tail, front, starts⟩ := denotes.front
  obtain ⟨dark, _⟩ := starts.dark
  change (takeLeaf wanted (· = '"') textBody (gap ++ (text ++ rest))).toOption = _
  cases denotes with
  | text pieces sound =>
    have body := stringBody_spelled rest pieces sound
    simp only [written, List.cons_append, List.append_assoc, List.nil_append, takeLeaf,
      skipGap_before gap _ '"' blank rfl, decide_true, if_true, textBody, toOption_bind, body,
      Datum.text?, meaning]
    cases spelled pieces <;> rfl
  | number =>
    obtain ⟨_, _, _, unlike, _⟩ := signs_number c starts
    rw [front, List.cons_append, takeLeaf_missed wanted _ _ gap _ c blank dark
      (by simpa using unlike)]
    rfl
  | _ => exact takeLeaf_missed wanted _ _ gap _ _ blank rfl rfl

theorem number_written (capital plus : Bool) (parts : Numeral) (rest : List Char)
    (sound : parts.Sound) (stops : Stops rest) :
    (Json.number (parts.written capital plus ++ rest)).toOption =
      parts.number.toOption.map (·, rest) := by
  rw [Json.number, Numeral.numeral_written .endOfValue capital plus parts rest sound stops]
  change (parts.number >>= fun value => Except.ok (value, rest)).toOption = _
  cases parts.number <;> rfl

theorem means_number (wanted : String) : (numberFor wanted).Means Datum.number? := by
  intro datum text gap rest denotes blank stops
  obtain ⟨c, tail, front, starts⟩ := denotes.front
  obtain ⟨dark, _⟩ := starts.dark
  have missed (s : List Char) (c : Char) (dark : isGap c = false)
      (other : ¬ (c = '-' ∨ c.isDigit)) : (takeNumber wanted (gap ++ c :: s)).toOption = none := by
    simp [takeNumber, skipGap_before gap s c blank dark, other, Except.toOption]
  change (takeNumber wanted (gap ++ (text ++ rest))).toOption = _
  cases denotes with
  | number parts capital plus sound =>
    have signed : c = '-' ∨ c.isDigit = true := starts
    have read := number_written capital plus parts rest sound stops
    rw [front, List.cons_append] at read ⊢
    simp only [takeNumber, skipGap_before gap _ c blank dark, signed, if_true]
    exact read
  | _ => exact missed _ _ rfl (by decide)

theorem means_check (reader : Reader α) (meaning : Datum → Option α)
    (accept : α → Except Fault β) (means : reader.Means meaning) :
    (reader.check accept).Means fun datum => (meaning datum).bind fun a => (accept a).toOption := by
  intro datum text gap rest denotes blank stops
  have read := means datum text gap rest denotes blank stops
  change (reader.takeChecked accept (gap ++ (text ++ rest))).toOption = _
  rw [takeChecked, toOption_bind, read]
  dsimp only
  cases meaning datum with
  | none => rfl
  | some a =>
    change (accept a >>= fun b => Except.ok (b, rest)).toOption = (accept a).toOption.map _
    cases accept a <;> rfl

theorem means_real : real.Means Datum.real? := by
  have checked := means_check (numberFor "f64") Datum.number? (fun n => Except.ok n.toBinary64)
    (means_number _)
  have same : Datum.real? = fun datum => datum.number?.bind fun n =>
      (Except.ok n.toBinary64 : Except Fault Binary64).toOption := by
    funext datum
    exact Option.map_eq_bind
  rw [same]
  exact checked

theorem means_uuid : uuid.Means Datum.uuid? := by
  have checked := means_check (textFor "a formatted UUID string") Datum.text?
    (fun t => (Uuid.read t.toList).mapError Fault.badUuid) (means_text _)
  have same : Datum.uuid? = fun datum => datum.text?.bind fun t =>
      ((Uuid.read t.toList).mapError Fault.badUuid).toOption := by
    funext datum
    refine Option.bind_congr fun t _ => ?_
    cases Uuid.read t.toList <;> rfl
  rw [same]
  exact checked

theorem means_optional (reader : Reader α) (meaning : Datum → Option α)
    (means : reader.Means meaning) : reader.optional.Means (Datum.optional meaning) := by
  intro datum text gap rest denotes blank stops
  obtain ⟨c, tail, front, starts⟩ := denotes.front
  obtain ⟨dark, _⟩ := starts.dark
  change (reader.takeOptional (gap ++ (text ++ rest))).toOption = _
  by_cases nothing : datum = .null
  · subst nothing
    cases denotes
    simp only [takeOptional, List.cons_append, skipGap_before gap _ 'n' blank rfl]
    exact congrArg (fun read => (Except.map _ read).toOption) (word_append ['u', 'l', 'l'] rest)
  · have read := means datum text [] rest denotes blank_nil stops
    have unlike : c ≠ 'n' := by
      rintro rfl
      exact nothing (datum.null_of_starts starts)
    rw [List.nil_append, front, List.cons_append] at read
    rw [front, List.cons_append]
    simp only [takeOptional, skipGap_before gap _ c blank dark]
    split
    · next same =>
      cases same
      exact absurd rfl unlike
    · rw [toOption_map, read, Datum.optional_more meaning datum nothing]
      cases meaning datum <;> rfl

end Reader

end HabitLedger.Json
