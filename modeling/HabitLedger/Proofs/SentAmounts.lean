import HabitLedger.Proofs.ExpenseText
import HabitLedger.Proofs.FiniteReading
import HabitLedger.Proofs.LooseDocuments
import HabitLedger.Proofs.StampText

/-!
Amounts sent as numbers and amounts sent as texts. A number is read by scaling its digits, a text by
rounding the decimal that it spells. Up to fifteen digits and without an exponent, digits and power
of ten are exact doubles, so that both readers return the double nearest to what is written.
-/

namespace HabitLedger

namespace Json.Numeral

open Binary64

variable (n : Numeral)

def row : List Char := n.whole ++ n.fraction.getD []

def places : Nat := (n.fraction.getD []).length

structure Short : Prop where
  sound : n.Sound
  plain : n.exponent = none
  few : n.row.length ≤ 15

def nearest : Binary64 := ofQuotient n.negative (Text.numeral n.row * one) (Nat.pow 10 n.places)

/-! ## Rounded quotients and their signs -/

theorem withSign_quotient (negative : Bool) (num den : Nat) :
    withSign negative (ofQuotient false num den) = ofQuotient negative num den := by
  cases negative with
  | false => rfl
  | true =>
    change -ofQuotient false num den = ofQuotient true num den
    unfold ofQuotient
    split <;> rfl

theorem holds_quotient (x : Binary64) (num den : Nat) (small : roundUnits num den < limit)
    (holds : Holds x (roundUnits num den)) : x = ofQuotient false num den := by
  obtain ⟨⟨units, present⟩, rfl, same⟩ := holds
  dsimp only at same
  subst same
  rw [ofQuotient, dif_pos small]

/-- A negative zero becomes a double, and so does what does not fit 64 bits with its sign. -/
theorem wholeNumber_nearest (negative : Bool) (kept : Nat) :
    (wholeNumber negative kept).toBinary64 = ofQuotient negative (kept * one) 1 := by
  have above : ofInt kept = ofQuotient false (kept * one) 1 := by
    rw [ofInt, Int.natAbs_natCast, decide_eq_false (by omega)]
  cases negative with
  | false => rw [wholeNumber, if_neg Bool.false_ne_true, Number.toBinary64, above]
  | true =>
    simp only [wholeNumber, if_true]
    split
    · have signed := withSign_quotient true (kept * one) 1
      rw [Number.toBinary64, above, ← signed, withSign, if_pos rfl]
    · next within =>
      have some : 0 < kept := Nat.pos_of_ne_zero fun nothing => within (Or.inl nothing)
      have below : -(kept : Int) < 0 := Int.neg_neg_of_pos (Int.natCast_pos.mpr some)
      simp only [Number.toBinary64, ofInt, Int.natAbs_neg, Int.natAbs_natCast, below, decide_true]

/-- Digits and power are exact, so the one division is all that is rounded. -/
theorem realNumber_nearest (negative : Bool) (kept n : Nat) (few : kept ≤ 9007199254740992)
    (some : 0 < n) (near : n ≤ 22) (small : roundUnits (kept * one) (Nat.pow 10 n) < limit) :
    realNumber negative kept (-n) =
      .ok (.real (ofQuotient negative (kept * one) (Nat.pow 10 n))) := by
  have fits : kept < UInt64.size := Nat.lt_of_le_of_lt few (by decide)
  obtain ⟨x, scaled, holds⟩ := scale_down kept (word_small kept fits) n some (by omega)
  have quotient : Decimal.quotient ⟨kept, -(n : Int)⟩ = (kept * one, Nat.pow 10 n) := by
    simp [Decimal.quotient]
  have exact := rescaled_exact kept _ (-(n : Int)) few (by omega) rfl
  rw [exact, quotient] at holds
  rw [realNumber, scaled, holds_quotient x _ _ small holds, ← withSign_quotient negative]
  rfl

/-! ## Few digits -/

section Short
variable (short : n.Short)
include short

theorem row_digits : ∀ c ∈ n.row, c.isDigit = true := by
  refine List.forall_mem_append.mpr ⟨short.sound.whole.2, ?_⟩
  cases part : n.fraction with
  | none => exact List.forall_mem_nil _
  | some row => exact (short.sound.fraction row part).2

theorem numeral_few : Text.numeral n.row < Nat.pow 10 15 :=
  Nat.lt_of_lt_of_le (Text.numeral_lt_pow n.row (n.row_digits short))
    (Nat.pow_le_pow_right (by decide) short.few)

theorem places_few : n.places ≤ 15 := by
  have few := short.few
  rw [row, List.length_append] at few
  exact Nat.le_trans (Nat.le_add_left _ _) few

theorem nearest_small : roundUnits (Text.numeral n.row * one) (Nat.pow 10 n.places) < limit := by
  have digits := Nat.le_of_lt (n.numeral_few short)
  have top : wholeUnits (Nat.pow 10 15) < limit := power_small 15 (by decide)
  have positive : 0 < Nat.pow 10 n.places := Nat.pow_pos (by decide)
  refine Nat.lt_of_le_of_lt (roundUnits_grows _ _ _ _ positive Nat.one_pos ?_) top
  rw [Nat.mul_one]
  exact Nat.le_trans (Nat.mul_le_mul_right one digits) (Nat.le_mul_of_pos_right _ positive)

omit short in
theorem units_zero (nothing : Text.numeral n.row = 0) :
    roundUnits (Text.numeral n.row * one) (Nat.pow 10 n.places) = 0 := by
  simp [nothing, roundUnits, nearestEven]

/-! ## Spelled -/

theorem nearest_zero (nothing : Text.numeral n.row = 0) : n.nearest = Binary64.zero n.negative := by
  rw [nearest, ofQuotient, dif_pos (n.nearest_small short), Binary64.zero]
  simp only [n.units_zero nothing]

theorem toBinary64_short :
    Decimal.toBinary64 n.negative ⟨Text.numeral n.row, -(n.places : Int)⟩ = n.nearest := by
  by_cases nothing : Text.numeral n.row = 0
  · rw [Decimal.toBinary64, if_pos (Or.inl nothing), n.nearest_zero short nothing]
  · have quotient : Decimal.quotient ⟨Text.numeral n.row, -(n.places : Int)⟩ =
        (Text.numeral n.row * one, Nat.pow 10 n.places) := by
      simp [Decimal.quotient]
    have count := Text.digitCount_le 15 _ (by decide) (n.numeral_few short)
    have order : Decimal.order ⟨Text.numeral n.row, -(n.places : Int)⟩ =
        Text.digitCount (Text.numeral n.row) - n.places := rfl
    have places := n.places_few short
    have near : ¬ (Text.numeral n.row = 0 ∨
        Decimal.order ⟨Text.numeral n.row, -(n.places : Int)⟩ < -330) := by omega
    rw [Decimal.toBinary64, if_neg near, if_neg (by omega), quotient, nearest]

omit short in
theorem row_split (row rest : List Char) (digits : IsRow row)
    (stops : ∀ c ∈ rest.head?, c.isDigit = false) :
    (row ++ rest).takeWhile Char.isDigit = row ∧ (row ++ rest).dropWhile Char.isDigit = rest := by
  have run := digitRun_row .endOfValue row rest digits stops
  unfold digitRun at run
  split at run
  · cases run
  split at run
  · cases run
  exact Prod.mk.inj (Except.ok.inj run)

omit short in
theorem splitSign_text (body : List Char) (digits : IsRow n.whole) :
    splitSign (signText n.negative ++ (n.whole ++ body)) = (n.negative, n.whole ++ body) := by
  cases n.negative with
  | true => rfl
  | false => exact splitSign_row n.whole body digits

/-- A digit starts none of the words that a text may be instead of a numeral. -/
theorem not_word (body rest : List Char) (initial : Char) (letter : initial.isDigit = false) :
    String.ofList ((n.whole ++ body).map Char.toLower) ≠ String.ofList (initial :: rest) := by
  intro equal
  obtain ⟨c, tail, front, digit⟩ := isRow_append_left n.whole body short.sound.whole
  have row := String.ofList_injective equal
  rw [front, List.map_cons, Text.digit_lower c digit] at row
  rw [← (List.cons.inj row).1, digit] at letter
  cases letter

theorem decimal_body :
    decimal? (n.whole ++ fractionText n.fraction) =
      some ⟨Text.numeral n.row, -(n.places : Int)⟩ := by
  have ended : ∀ c ∈ ([] : List Char).head?, c.isDigit = false ∧ c ≠ '.' :=
    fun _ none => nomatch none
  have stops := fractionText_stops n.fraction [] ended
  rw [List.append_nil] at stops
  obtain ⟨whole, rest⟩ := row_split n.whole _ short.sound.whole stops
  have some := short.sound.whole.1
  rw [decimal?, whole, rest, row, places]
  cases part : n.fraction with
  | none => simp [fractionText, some, exponent?]
  | some digits =>
    have sound := short.sound.fraction digits part
    obtain ⟨row, nothing⟩ := row_split digits [] sound fun c next => (ended c next).1
    rw [List.append_nil] at row nothing
    simp [fractionText, some, row, nothing, exponent?]

theorem ofChars_nearest : ofChars? n.chars = some n.nearest := by
  have text : n.chars = signText n.negative ++ (n.whole ++ fractionText n.fraction) := by
    simp only [chars, short.plain, exponentText, List.append_nil, List.append_assoc]
  have unnamed := n.not_word short (fractionText n.fraction)
  rw [text, ofChars?, n.splitSign_text _ short.sound.whole]
  dsimp only
  rw [if_neg, if_neg, n.decimal_body short, Option.map_some, n.toBinary64_short short]
  · exact unnamed ['a', 'n'] 'n' rfl
  · rintro (infinite | infinite)
    · exact unnamed ['n', 'f'] 'i' rfl infinite
    · exact unnamed ['n', 'f', 'i', 'n', 'i', 't', 'y'] 'i' rfl infinite

/-! ## Scaled -/

theorem row_fits : Text.numeral n.row < UInt64.size :=
  Nat.lt_trans (n.numeral_few short) (by decide)

theorem whole_nearest (pointless : n.fraction = none) :
    ∃ read, n.number = .ok read ∧ read.toBinary64 = n.nearest := by
  have fits := n.row_fits short
  have plain := short.plain
  obtain ⟨negative, whole, fraction, exponent⟩ := n
  subst pointless plain
  have kept := keep_whole whole [] fits
  have same : row ⟨negative, whole, none, none⟩ = whole := List.append_nil whole
  refine ⟨wholeNumber negative (Text.numeral whole), ?_, ?_⟩
  · simp [number, kept]
  · rw [wholeNumber_nearest, nearest, same]
    rfl

theorem pointed_nearest (digits : List Char) (part : n.fraction = some digits) :
    ∃ read, n.number = .ok read ∧ read.toBinary64 = n.nearest := by
  have fits := n.row_fits short
  have few : Text.numeral n.row ≤ 9007199254740992 :=
    Nat.le_trans (Nat.le_of_lt (n.numeral_few short)) (by decide)
  have near : n.places ≤ 22 := Nat.le_trans (n.places_few short) (by decide)
  have small := n.nearest_small short
  have some := List.length_pos_iff.mpr (short.sound.fraction digits part).1
  have plain := short.plain
  obtain ⟨negative, whole, fraction, exponent⟩ := n
  subst part plain
  have read := number_pointed negative whole digits fits
  have real := realNumber_nearest negative (Text.numeral (whole ++ digits))
    digits.length few some near small
  exact ⟨_, read.trans real, rfl⟩

theorem number_nearest : ∃ read, n.number = .ok read ∧ read.toBinary64 = n.nearest := by
  cases part : n.fraction with
  | none => exact n.whole_nearest short part
  | some digits => exact n.pointed_nearest short digits part

/-! ## Below zero -/

theorem units_pos (some : 0 < Text.numeral n.row) :
    0 < roundUnits (Text.numeral n.row * one) (Nat.pow 10 n.places) := by
  have unit : roundUnits 1 1 = 1 := roundUnits_whole 1 (present_power 0)
  have positive : 0 < Nat.pow 10 n.places := Nat.pow_pos (by decide)
  have order := roundUnits_grows 1 1 (Text.numeral n.row * one) _ Nat.one_pos positive ?_
  · omega
  calc 1 * Nat.pow 10 n.places ≤ 1 * Nat.pow 10 15 :=
        Nat.mul_le_mul_left 1 (Nat.pow_le_pow_right (by decide) (n.places_few short))
    _ ≤ one := by decide +kernel
    _ ≤ Text.numeral n.row * one * 1 := by
        rw [Nat.mul_one]
        exact Nat.le_mul_of_pos_left one some

theorem nearest_below : n.nearest < 0 ↔ n.negative = true ∧ Text.numeral n.row ≠ 0 := by
  have small := n.nearest_small short
  have zero := rank_ofNat 0 (by decide)
  have number := number_ofQuotient n.negative (Text.numeral n.row * one) (Nat.pow 10 n.places)
  rw [lt_iff_rank, zero.2, nearest, rank_ofQuotient, Nat.min_eq_left (Nat.le_of_lt small)]
  simp only [number, zero.1, true_and, Nat.zero_mul]
  by_cases nothing : Text.numeral n.row = 0
  · rw [n.units_zero nothing]
    simp [nothing]
  · have some := n.units_pos short (Nat.pos_of_ne_zero nothing)
    cases n.negative with
    | false => simp
    | true => simpa [nothing] using some

theorem nearest_checked :
    Intake.nonNegative n.nearest =
      if n.negative = true ∧ Text.numeral n.row ≠ 0 then .error (.negative n.nearest)
      else .ok n.nearest := by
  have finite : n.nearest.isFinite = true :=
    ofQuotient_finite n.negative _ _ (n.nearest_small short)
  rw [Intake.nonNegative, if_neg (by rw [finite]; decide)]
  simp only [n.nearest_below short]

/-! ## Between blanks -/

theorem chars_dark : Text.DarkEnd n.chars := by
  have whole := Text.darkEnd_digits n.whole short.sound.whole.2
    (List.length_pos_iff.mpr short.sound.whole.1)
  rw [chars, short.plain, exponentText, List.append_nil]
  cases part : n.fraction with
  | none =>
    rw [fractionText, List.append_nil]
    exact whole.after _ _
  | some row =>
    have digits := short.sound.fraction row part
    have last := Text.darkEnd_digits row digits.2 (List.length_pos_iff.mpr digits.1)
    exact (last.after _ ['.']).after _ _

theorem trim_chars (front back : List Char) (blank : ∀ c ∈ front, Text.isBlank c = true)
    (blankToo : ∀ c ∈ back, Text.isBlank c = true) :
    Text.trim (front ++ (n.chars ++ back)) = n.chars := by
  obtain ⟨c, tail, head, signed⟩ := n.chars_front short.sound
  refine Text.trim_around front n.chars back blank blankToo ?_ (n.chars_dark short)
  rw [head]
  rintro _ ⟨⟩
  rcases signed with rfl | digit
  · decide
  · exact Text.digit_not_blank c digit

theorem amount_typed (front back : List Char) (blank : ∀ c ∈ front, Text.isBlank c = true)
    (blankToo : ∀ c ∈ back, Text.isBlank c = true) :
    Intake.amount (.text (String.ofList (front ++ (n.chars ++ back)))) =
      Intake.nonNegative n.nearest := by
  have trimmed : Text.trimmed (String.ofList (front ++ (n.chars ++ back))) =
      String.ofList n.chars := by
    rw [Text.trimmed, String.toList_ofList, n.trim_chars short front back blank blankToo]
  have read : ofText? (String.ofList n.chars) = some n.nearest := by
    rw [ofText?, String.toList_ofList, n.ofChars_nearest short]
  simp only [Intake.amount, Intake.amountValue, trimmed, read, bind, Except.bind]

end Short

end Json.Numeral

namespace Intake

open Json

theorem amount_number (value : Binary64) : amount (.number value) = nonNegative value := rfl

/-- A number of few digits is one amount, or is refused with one fault, however it is sent: as a
number, or in a string, with any blanks around it. -/
theorem number_or_text (n : Numeral) (short : n.Short) (front back : List Char)
    (blank : ∀ c ∈ front, Text.isBlank c = true) (blankToo : ∀ c ∈ back, Text.isBlank c = true)
    (number text : String) (asNumber : Says number (.number n))
    (asText : Says text (.text (some (String.ofList (front ++ (n.chars ++ back)))))) :
    ∃ sent typed, decode RawAmount.reader number = .ok sent ∧
      decode RawAmount.reader text = .ok typed ∧ amount sent = amount typed ∧
      amount typed =
        if n.negative = true ∧ Text.numeral n.row ≠ 0 then .error (.negative n.nearest)
        else .ok n.nearest := by
  obtain ⟨read, scaled, nearest⟩ := n.number_nearest short
  have sent := decode_stated RawAmount.reader _ (RawAmount.means deepest) number _ asNumber
  have typed := decode_stated RawAmount.reader _ (RawAmount.means deepest) text _ asText
  rw [RawAmount.said, scaled, Except.toOption, Option.map_some, nearest, toOption_some] at sent
  rw [RawAmount.said, toOption_some] at typed
  have text := n.amount_typed short front back blank blankToo
  refine ⟨_, _, sent, typed, ?_, ?_⟩
  · rw [text, amount_number]
  · rw [text, n.nearest_checked short]

/-- An amount below zero, after a blank or inside a string after an em space, is refused as one
number. -/
theorem number_or_text_owed :
    ∃ sent typed, decode RawAmount.reader " -0.30\n" = .ok sent ∧
      decode RawAmount.reader "\"\u2003-0.30 \"" = .ok typed ∧ amount sent = amount typed ∧
      amount typed = .error (.negative (Numeral.nearest ⟨true, ['0'], some ['3', '0'], none⟩)) := by
  have sound : (Numeral.mk true ['0'] (some ['3', '0']) none).Sound :=
    Numeral.small_sound true ['3', '0'] 0 ⟨List.cons_ne_nil _ _, List.all_eq_true.mp rfl⟩
  have asNumber : Says " -0.30\n" (.number ⟨true, ['0'], some ['3', '0'], none⟩) :=
    ⟨[' '], _, ['\n'], by simp [Blank, isGap], by simp [Blank, isGap], rfl,
      .number _ false false sound⟩
  have asText : Says "\"\u2003-0.30 \"" (.text (some "\u2003-0.30 ")) :=
    ⟨[], _, [], blank_nil, blank_nil, rfl, quoted_denotes "\u2003-0.30 "⟩
  have both := number_or_text _ ⟨sound, rfl, by decide⟩ ['\u2003'] [' '] (List.all_eq_true.mp rfl)
    (List.all_eq_true.mp rfl) _ _ asNumber asText
  rwa [if_pos (by decide)] at both

end Intake

end HabitLedger
