import HabitLedger.Proofs.DateShapes

/-!
Days written out and taken in again. A day alone, and a day with a time and perhaps an offset, is a
date in one of the documented shapes, so its text gives back the day that was written, whatever time
and offset follow it and whatever blanks stand around it.
-/

namespace HabitLedger

open DateText

/-! ## Blanks around a text -/

namespace Text

def DarkEnd (s : List Char) : Prop := ∃ front c, s = front ++ [c] ∧ isBlank c = false

theorem DarkEnd.after (s front : List Char) (dark : DarkEnd s) : DarkEnd (front ++ s) := by
  obtain ⟨inner, c, rfl, last⟩ := dark
  exact ⟨front ++ inner, c, (List.append_assoc ..).symm, last⟩

theorem darkEnd_digits (row : List Char) (digits : ∀ c ∈ row, c.isDigit = true)
    (some : 1 ≤ row.length) : DarkEnd row := by
  have full : row ≠ [] := List.ne_nil_of_length_pos some
  exact ⟨row.dropLast, row.getLast full, (List.dropLast_append_getLast full).symm,
    digit_not_blank _ (digits _ (List.getLast_mem full))⟩

theorem trim_around (before s after : List Char) (blank : ∀ c ∈ before, isBlank c = true)
    (blankToo : ∀ c ∈ after, isBlank c = true) (front : ∀ c ∈ s.head?, isBlank c = false)
    (back : DarkEnd s) : trim (before ++ (s ++ after)) = s := by
  obtain ⟨inner, last, rfl, dark⟩ := back
  have start : trimStart (before ++ ((inner ++ [last]) ++ after)) = (inner ++ [last]) ++ after := by
    refine trimStart_over before _ blank fun c next => front c ?_
    cases inner with
    | nil => exact next
    | cons d inner => exact next
  have stop : trimStart (after.reverse ++ (inner ++ [last]).reverse) =
      (inner ++ [last]).reverse := by
    refine trimStart_over _ _ (by simpa using blankToo) ?_
    rw [List.reverse_append, List.reverse_singleton]
    rintro c ⟨⟩
    exact dark
  rw [trim, start, List.reverse_append, stop, List.reverse_reverse]

end Text

/-! ## Times and offsets -/

structure TimeOfDay where
  hour : Fin 24
  minute : Fin 60
  second : Fin 61
  fraction : List Char
  digits : ∀ c ∈ fraction, c.isDigit = true

def TimeOfDay.chars (time : TimeOfDay) : List Char :=
  Text.padded 2 time.hour ++ ':' :: (Text.padded 2 time.minute ++ ':' ::
    (Text.padded 2 time.second ++ ClockFigures.point time.fraction))

inductive ZoneOffset where
  | zulu
  | ahead (hour : Fin 24) (minute : Fin 60)
  | behind (hour : Fin 24) (minute : Fin 60)

def ZoneOffset.chars : ZoneOffset → List Char
  | zulu => ['Z']
  | ahead hour minute => '+' :: (Text.padded 2 hour ++ ':' :: Text.padded 2 minute)
  | behind hour minute => '-' :: (Text.padded 2 hour ++ ':' :: Text.padded 2 minute)

namespace DateText

/-! ## Figures of full width -/

def Figure.two (gap : List Char) (n : Nat) : Figure := ⟨gap, Text.padded 2 n⟩

section Two
variable (gap : List Char) (blank : ∀ c ∈ gap, Text.isBlank c = true) (n : Nat) (small : n < 100)
include small

theorem Figure.two_full : (two gap n).Full gap :=
  ⟨rfl, Text.length_padded 2 n (Text.digitCount_le 2 n (by decide) small)⟩

include blank

theorem Figure.two_sound : (two gap n).Sound := by
  have width := (two_full gap n small).2
  exact ⟨blank, Text.isDigit_padded 2 n, by omega, by omega⟩

end Two

theorem Figure.two_value (gap : List Char) (n : Nat) : (two gap n).value = n :=
  Text.numeral_padded 2 n

def Sign.ofYear (year : Int) : Sign :=
  if 0 ≤ year ∧ year ≤ 9999 then .none else if year < 0 then .minus else .plus

def YearFigure.ofYear (year : Int) : YearFigure :=
  ⟨[], Sign.ofYear year, Text.padded 4 year.natAbs⟩

theorem YearFigure.ofYear_chars (year : Int) : (ofYear year).chars = Date.yearText year := by
  simp only [chars, ofYear, Sign.ofYear, Date.yearText]
  split
  · next plain =>
    have same : year.natAbs = year.toNat := by omega
    rw [same]
    rfl
  · split <;> rfl

theorem YearFigure.ofYear_value (year : Int) : (ofYear year).value = year := by
  simp only [value, ofYear, Text.numeral_padded, Sign.ofYear]
  split
  · simp only [Sign.year]
    omega
  · split
    · simp only [Sign.year]
      omega
    · simp only [Sign.year]
      omega

theorem YearFigure.ofYear_full (year : Int) : (ofYear year).Full := by
  refine ⟨rfl, ?_⟩
  simp only [ofYear, Text.padded, List.length_append, List.length_replicate, Text.length_digits]
  omega

theorem YearFigure.ofYear_sound (year : Int) : (ofYear year).Sound where
  blank := List.forall_mem_nil _
  digits := Text.isDigit_padded 4 _
  some := Nat.le_trans (by decide) (ofYear_full year).2
  short plain := by
    simp only [ofYear, Sign.ofYear] at plain ⊢
    split at plain
    · exact Nat.le_of_eq (Text.length_padded 4 _ (Text.digitCount_le 4 _ (by decide) (by omega)))
    · split at plain <;> cases plain

def DayFigures.ofDate (date : Date) : DayFigures :=
  ⟨.ofYear date.year, .two [] date.month, .two [] date.day⟩

theorem DayFigures.ofDate_chars (date : Date) : (ofDate date).chars = date.chars := by
  simp [chars, ofDate, YearFigure.ofYear_chars, Figure.chars, Figure.two, Date.chars]

section Day
variable (date : Date)

theorem DayFigures.two_digits : date.month < 100 ∧ date.day < 100 := by
  have month := date.sound.2.1.2
  have day := Nat.le_trans date.sound.2.2.2 (monthLength_le date.year date.month)
  omega

theorem DayFigures.ofDate_sound : (ofDate date).Sound where
  year := YearFigure.ofYear_sound _
  month := Figure.two_sound [] (List.forall_mem_nil _) _ (two_digits date).1
  day := Figure.two_sound [] (List.forall_mem_nil _) _ (two_digits date).2

theorem DayFigures.ofDate_full : (ofDate date).Full where
  year := YearFigure.ofYear_full _
  month := Figure.two_full [] _ (two_digits date).1
  day := Figure.two_full [] _ (two_digits date).2

theorem DayFigures.ofDate_shows : (ofDate date).Shows date where
  year := (YearFigure.ofYear_value _).symm
  month := (Figure.two_value [] _).symm
  day := (Figure.two_value [] _).symm

end Day

def ClockFigures.ofTime (gap : List Char) (time : TimeOfDay) : ClockFigures :=
  ⟨.two gap time.hour, .two [] time.minute, .two [] time.second, time.fraction⟩

section Time
variable (gap : List Char) (blank : ∀ c ∈ gap, Text.isBlank c = true) (time : TimeOfDay)

theorem ClockFigures.ofTime_chars : (ofTime gap time).chars = gap ++ time.chars := by
  simp [chars, ofTime, Figure.chars, Figure.two, TimeOfDay.chars]

theorem ClockFigures.ofTime_full : (ofTime gap time).Full gap where
  hour := Figure.two_full gap _ (by omega)
  minute := Figure.two_full [] _ (by omega)
  second := Figure.two_full [] _ (by omega)

include blank

theorem ClockFigures.ofTime_sound : (ofTime gap time).Sound where
  hour := Figure.two_sound gap blank _ (by omega)
  minute := Figure.two_sound [] (List.forall_mem_nil _) _ (by omega)
  second := Figure.two_sound [] (List.forall_mem_nil _) _ (by omega)
  fraction := time.digits
  hours := by
    simp only [ofTime, Figure.two_value]
    omega
  minutes := by
    simp only [ofTime, Figure.two_value]
    omega
  seconds := by
    simp only [ofTime, Figure.two_value]
    omega

end Time

def OffsetFigures.ofZone : ZoneOffset → OffsetFigures
  | .zulu => .letter 'Z'
  | .ahead hour minute => .shift '+' (.two [] hour) (.two [] minute)
  | .behind hour minute => .shift '-' (.two [] hour) (.two [] minute)

theorem OffsetFigures.ofZone_chars (zone : ZoneOffset) : (ofZone zone).chars = zone.chars := by
  cases zone <;> rfl

theorem OffsetFigures.shift_sound (sign : Char) (known : sign = '+' ∨ sign = '-' ∨ sign = '−')
    (hour : Fin 24) (minute : Fin 60) : (shift sign (.two [] hour) (.two [] minute)).Sound := by
  have hours : (Figure.two [] hour).value ≤ 23 := by
    rw [Figure.two_value]
    omega
  have minutes : (Figure.two [] minute).value ≤ 59 := by
    rw [Figure.two_value]
    omega
  exact .shift sign _ _ known (Figure.two_sound [] (List.forall_mem_nil _) _ (by omega))
    (Figure.two_full [] _ (by omega)) hours
    (Figure.two_sound [] (List.forall_mem_nil _) _ (by omega)) (Figure.two_full [] _ (by omega))
    minutes

theorem OffsetFigures.ofZone_sound (zone : ZoneOffset) : (ofZone zone).Sound := by
  cases zone with
  | zulu => exact .letter 'Z' (.inl rfl)
  | ahead hour minute => exact shift_sound '+' (.inl rfl) hour minute
  | behind hour minute => exact shift_sound '-' (.inr (.inl rfl)) hour minute

end DateText

/-! ## What stands at the ends -/

theorem Text.darkEnd_two (n : Nat) : DarkEnd (padded 2 n) := by
  obtain ⟨c, row, front, _⟩ := padded_front 2 n
  exact darkEnd_digits _ (isDigit_padded 2 n) (by rw [front]; exact Nat.succ_pos _)

theorem Date.darkEnd (date : Date) : Text.DarkEnd date.chars :=
  (Text.darkEnd_two date.day).after _ ['-'] |>.after _ _

theorem TimeOfDay.darkEnd (time : TimeOfDay) : Text.DarkEnd time.chars := by
  have last : Text.DarkEnd (Text.padded 2 time.second ++ ClockFigures.point time.fraction) := by
    cases digits : time.fraction with
    | nil =>
      rw [ClockFigures.point, List.append_nil]
      exact Text.darkEnd_two _
    | cons c row =>
      have dark := Text.darkEnd_digits (c :: row) (digits ▸ time.digits) (Nat.succ_pos _)
      exact (dark.after _ ['.']).after _ _
  exact ((((last.after _ [':']).after _ _).after _ [':'])).after _ _

theorem ZoneOffset.darkEnd (zone : ZoneOffset) : Text.DarkEnd zone.chars := by
  have minutes (sign : Char) (hour : Fin 24) (minute : Fin 60) :
      Text.DarkEnd (sign :: (Text.padded 2 hour ++ ':' :: Text.padded 2 minute)) :=
    (((Text.darkEnd_two minute).after _ [':']).after _ _).after _ [sign]
  cases zone with
  | zulu => exact ⟨[], 'Z', rfl, by decide⟩
  | ahead hour minute => exact minutes '+' hour minute
  | behind hour minute => exact minutes '-' hour minute

namespace Intake

def Taken (s : List Char) (date : Date) : Prop :=
  ∀ before after : List Char, (∀ c ∈ before ++ after, Text.isBlank c = true) →
    day (String.ofList (before ++ (s ++ after))) = .ok date

theorem taken_of_tail (date : Date) (tail : Tail) (sound : tail.Sound (.ofDate date))
    (dark : Text.DarkEnd (date.chars ++ tail.chars)) : Taken (date.chars ++ tail.chars) date := by
  intro before after blank
  obtain ⟨blank, blankToo⟩ := List.forall_mem_append.mp blank
  have front : ∀ c ∈ (date.chars ++ tail.chars).head?, Text.isBlank c = false := by
    rw [← DayFigures.ofDate_chars, DayFigures.chars, YearFigure.chars]
    simp only [List.append_assoc]
    exact YearFigure.dark _ _ (YearFigure.ofYear_sound date.year)
  rw [← dayBy_all, dayBy_ok_iff _ all_complete, String.toList_ofList,
    Text.trim_around before _ after blank blankToo front dark]
  exact ⟨⟨.ofDate date, tail⟩, ⟨DayFigures.ofDate_sound date, sound⟩,
    congrArg (· ++ tail.chars) (DayFigures.ofDate_chars date), DayFigures.ofDate_shows date⟩

variable (date : Date) (time : TimeOfDay)

theorem taken_day : Taken date.chars date := by
  have taken := taken_of_tail date .nothing .nothing
  rw [Tail.chars, List.append_nil] at taken
  exact taken date.darkEnd

theorem taken_letter : Taken (date.chars ++ 'T' :: time.chars) date := by
  have sound := ClockFigures.ofTime_sound [] (List.forall_mem_nil _) time
  have taken := taken_of_tail date _ (.letter _ sound)
  rw [Tail.chars, ClockFigures.ofTime_chars] at taken
  exact taken ((time.darkEnd.after _ ['T']).after _ _)

theorem taken_blank : Taken (date.chars ++ ' ' :: time.chars) date := by
  have space : ∀ c ∈ [' '], Text.isBlank c = true := List.forall_mem_singleton.mpr rfl
  have sound := ClockFigures.ofTime_sound [' '] space time
  have taken := taken_of_tail date _ (.blank _ sound (.inr (List.cons_ne_nil _ _)))
  rw [Tail.chars, ClockFigures.ofTime_chars] at taken
  exact taken ((time.darkEnd.after _ [' ']).after _ _)

theorem taken_offset (plain : 0 ≤ date.year ∧ date.year ≤ 9999) (divider : Char)
    (known : divider = 'T' ∨ divider = 't' ∨ divider = ' ') (zone : ZoneOffset) :
    Taken (date.chars ++ divider :: (time.chars ++ zone.chars)) date := by
  have sound := ClockFigures.ofTime_sound [] (List.forall_mem_nil _) time
  have taken := taken_of_tail date _
    (.offset divider _ _ (DayFigures.ofDate_full date) (if_pos plain) known sound
      (ClockFigures.ofTime_full [] time) (OffsetFigures.ofZone_sound zone))
  rw [Tail.chars, ClockFigures.ofTime_chars, OffsetFigures.ofZone_chars] at taken
  exact taken (((zone.darkEnd.after _ _).after _ [divider]).after _ _)

/-- The text of every day is taken in as that day, and so is the text of a day with any time behind
it. In the years of four digits the time may have any offset: the day is the one on the local
calendar, never the one that it is at the prime meridian. -/
theorem written_day_taken (date : Date) :
    Taken date.chars date ∧
    ∀ time : TimeOfDay,
      Taken (date.chars ++ 'T' :: time.chars) date ∧ Taken (date.chars ++ ' ' :: time.chars) date ∧
      (0 ≤ date.year ∧ date.year ≤ 9999 →
        ∀ (divider : Char) (zone : ZoneOffset), divider = 'T' ∨ divider = 't' ∨ divider = ' ' →
          Taken (date.chars ++ divider :: (time.chars ++ zone.chars)) date) :=
  ⟨taken_day date, fun time => ⟨taken_letter date time, taken_blank date time,
    fun plain divider zone known => taken_offset date time plain divider known zone⟩⟩

/-- The last second of the last of these years, which at the prime meridian falls into the next
one. -/
theorem written_day_taken_last_second :
    let date : Date := ⟨9999, 12, 31, by decide⟩
    (0 ≤ date.year ∧ date.year ≤ 9999) ∧
      day "\u2003\t9999-12-31T23:59:60.005-23:59\n" = .ok date := by
  intro date
  have plain : 0 ≤ date.year ∧ date.year ≤ 9999 := by decide
  let time : TimeOfDay := ⟨23, 59, 60, ['0', '0', '5'], List.all_eq_true.mp rfl⟩
  have taken := ((written_day_taken date).2 time).2.2 plain 'T' (.behind 23 59) (.inl rfl)
    ['\u2003', '\t'] ['\n'] (List.all_eq_true.mp rfl)
  have text : String.ofList (['\u2003', '\t'] ++ ((date.chars ++ 'T' :: (time.chars ++
      (ZoneOffset.behind 23 59).chars)) ++ ['\n'])) =
        "\u2003\t9999-12-31T23:59:60.005-23:59\n" := by
    decide +kernel
  rw [text] at taken
  exact ⟨plain, taken⟩

end Intake

end HabitLedger
