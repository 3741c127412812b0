import HabitLedger.Proofs.DayText

/-!
Dates as they are written, apart from any reader. A date is made of figures, numbers with blanks
before them, and of fixed characters between the figures; what follows the day tells the form. The
text alone decides how it splits into figures, so no text is written in two ways.
-/

namespace HabitLedger.DateText

/-! ## Figures -/

structure Figure where
  gap : List Char
  row : List Char

namespace Figure

def chars (figure : Figure) : List Char := figure.gap ++ figure.row

def value (figure : Figure) : Nat := Text.numeral figure.row

structure Sound (figure : Figure) : Prop where
  blank : ∀ c ∈ figure.gap, Text.isBlank c = true
  digits : ∀ c ∈ figure.row, c.isDigit = true
  some : 1 ≤ figure.row.length
  short : figure.row.length ≤ 2

def Full (gap : List Char) (figure : Figure) : Prop :=
  figure.gap = gap ∧ figure.row.length = 2

end Figure

inductive Sign where
  | none
  | plus
  | minus

namespace Sign

def chars : Sign → List Char
  | none => []
  | plus => ['+']
  | minus => ['-']

def year : Sign → Nat → Int
  | none, number => number
  | plus, number => number
  | minus, number => -number

theorem natAbs_year (sign : Sign) (number : Nat) : (sign.year number).natAbs = number := by
  cases sign <;> simp [year]

end Sign

structure YearFigure where
  gap : List Char
  sign : Sign
  row : List Char

namespace YearFigure

def chars (figure : YearFigure) : List Char := figure.gap ++ (figure.sign.chars ++ figure.row)

def value (figure : YearFigure) : Int := figure.sign.year (Text.numeral figure.row)

structure Sound (figure : YearFigure) : Prop where
  blank : ∀ c ∈ figure.gap, Text.isBlank c = true
  digits : ∀ c ∈ figure.row, c.isDigit = true
  some : 1 ≤ figure.row.length
  short : figure.sign = .none → figure.row.length ≤ 4

def Full (figure : YearFigure) : Prop := figure.gap = [] ∧ 4 ≤ figure.row.length

end YearFigure

structure DayFigures where
  year : YearFigure
  month : Figure
  day : Figure

namespace DayFigures

def chars (figures : DayFigures) : List Char :=
  figures.year.chars ++ '-' :: (figures.month.chars ++ '-' :: figures.day.chars)

structure Sound (figures : DayFigures) : Prop where
  year : figures.year.Sound
  month : figures.month.Sound
  day : figures.day.Sound

structure Full (figures : DayFigures) : Prop where
  year : figures.year.Full
  month : figures.month.Full []
  day : figures.day.Full []

structure Shows (figures : DayFigures) (date : Date) : Prop where
  year : date.year = figures.year.value
  month : date.month = figures.month.value
  day : date.day = figures.day.value

end DayFigures

structure ClockFigures where
  hour : Figure
  minute : Figure
  second : Figure
  fraction : List Char

namespace ClockFigures

def point : List Char → List Char
  | [] => []
  | row => '.' :: row

def chars (figures : ClockFigures) : List Char :=
  figures.hour.chars ++
    ':' :: (figures.minute.chars ++ ':' :: (figures.second.chars ++ point figures.fraction))

structure Sound (figures : ClockFigures) : Prop where
  hour : figures.hour.Sound
  minute : figures.minute.Sound
  second : figures.second.Sound
  fraction : ∀ c ∈ figures.fraction, c.isDigit = true
  hours : figures.hour.value ≤ 23
  minutes : figures.minute.value ≤ 59
  seconds : figures.second.value ≤ 60

structure Full (gap : List Char) (figures : ClockFigures) : Prop where
  hour : figures.hour.Full gap
  minute : figures.minute.Full []
  second : figures.second.Full []

end ClockFigures

inductive OffsetFigures where
  | letter (c : Char)
  | shift (sign : Char) (hour minute : Figure)

namespace OffsetFigures

def chars : OffsetFigures → List Char
  | letter c => [c]
  | shift sign hour minute => sign :: (hour.chars ++ ':' :: minute.chars)

inductive Sound : OffsetFigures → Prop where
  | letter (c : Char) (known : c = 'Z' ∨ c = 'z') : Sound (letter c)
  | shift (sign : Char) (hour minute : Figure) (known : sign = '+' ∨ sign = '-' ∨ sign = '−')
      (hourSound : hour.Sound) (hourFull : hour.Full []) (hours : hour.value ≤ 23)
      (minuteSound : minute.Sound) (minuteFull : minute.Full []) (minutes : minute.value ≤ 59) :
      Sound (shift sign hour minute)

end OffsetFigures

/-! ## Dates -/

/-- What follows the day. -/
inductive Tail where
  | nothing
  | offset (divider : Char) (clock : ClockFigures) (offset : OffsetFigures)
  | letter (clock : ClockFigures)
  | blank (clock : ClockFigures)

namespace Tail

def chars : Tail → List Char
  | nothing => []
  | offset divider clock zone => divider :: (clock.chars ++ zone.chars)
  | letter clock => 'T' :: clock.chars
  | blank clock => clock.chars

def form : Tail → DateForm
  | nothing => .day
  | offset .. => .offsetStamp
  | letter _ => .letterStamp
  | blank _ => .blankStamp

inductive Sound (day : DayFigures) : Tail → Prop where
  | nothing : Sound day nothing
  | offset (divider : Char) (clock : ClockFigures) (zone : OffsetFigures) (full : day.Full)
      (plain : day.year.sign = .none) (known : divider = 'T' ∨ divider = 't' ∨ divider = ' ')
      (sound : clock.Sound) (clockFull : clock.Full []) (zoneSound : zone.Sound) :
      Sound day (offset divider clock zone)
  | letter (clock : ClockFigures) (sound : clock.Sound) : Sound day (letter clock)
  | blank (clock : ClockFigures) (sound : clock.Sound)
      (parted : day.day.row.length = 2 ∨ clock.hour.gap ≠ []) : Sound day (blank clock)

def Full : Tail → Prop
  | nothing => True
  | offset _ clock _ => clock.Full []
  | letter clock => clock.Full []
  | blank clock => clock.Full [' ']

end Tail

structure WrittenDate where
  day : DayFigures
  tail : Tail

namespace WrittenDate

def chars (date : WrittenDate) : List Char := date.day.chars ++ date.tail.chars

structure Sound (date : WrittenDate) : Prop where
  day : date.day.Sound
  tail : date.tail.Sound date.day

/-- The dates in the shapes `YYYY-MM-DD`, `YYYY-MM-DDTHH:MM:SS[.f]` and `YYYY-MM-DD HH:MM:SS[.f]`,
and the stamps with an offset. -/
structure Documented (date : WrittenDate) : Prop where
  sound : date.Sound
  day : date.day.Full
  tail : date.tail.Full

end WrittenDate

/-! ## Where figures end -/

def Ended (most : Nat) (row rest : List Char) : Prop :=
  row.length = most ∨ ∀ c ∈ rest.head?, c.isDigit = false

def Closed (rest : List Char) : Prop := ∀ c ∈ rest.head?, c.isDigit = false ∧ c ≠ '.'

theorem trimStart_over (gap s : List Char) (blank : ∀ c ∈ gap, Text.isBlank c = true)
    (dark : ∀ c ∈ s.head?, Text.isBlank c = false) : Text.trimStart (gap ++ s) = s := by
  rw [Text.trimStart, List.dropWhile_append_of_pos blank]
  cases s with
  | nil => rfl
  | cons c s => exact Text.trimStart_dark c s (dark c rfl)

theorem digits_dark (row rest : List Char) (digits : ∀ c ∈ row, c.isDigit = true)
    (some : 1 ≤ row.length) : ∀ c ∈ (row ++ rest).head?, Text.isBlank c = false := by
  cases row with
  | nil => cases some
  | cons d row =>
    rintro c ⟨⟩
    exact Text.digit_not_blank d (digits d List.mem_cons_self)

theorem row_cancel (most : Nat) (row other rest behind : List Char)
    (digits : ∀ c ∈ row, c.isDigit = true) (digitsToo : ∀ c ∈ other, c.isDigit = true)
    (short : row.length ≤ most) (shortToo : other.length ≤ most) (ended : Ended most row rest)
    (endedToo : Ended most other behind) (same : row ++ rest = other ++ behind) :
    row = other ∧ rest = behind := by
  have first := row_of_take most row rest digits short ended
  rw [same, row_of_take most other behind digitsToo shortToo endedToo] at first
  subst first
  exact ⟨rfl, List.append_cancel_left same⟩

theorem ended_before (most : Nat) (row : List Char) (c : Char) (rest : List Char)
    (plain : c.isDigit = false) : Ended most row (c :: rest) := by
  refine .inr ?_
  rintro _ ⟨⟩
  exact plain

theorem ended_nil (most : Nat) (row : List Char) : Ended most row [] :=
  .inr fun _ none => nomatch none

theorem closed_nil : Closed [] := fun _ none => nomatch none

theorem ended_point (most : Nat) (row fraction rest : List Char) (closed : Closed rest) :
    Ended most row (ClockFigures.point fraction ++ rest) := by
  cases fraction with
  | nil => exact .inr fun c next => (closed c next).1
  | cons d fraction => exact ended_before most row '.' _ rfl

theorem Sign.cancel (sign other : Sign) (c d : Char) (s t : List Char) (digit : c.isDigit = true)
    (digitToo : d.isDigit = true) (same : sign.chars ++ c :: s = other.chars ++ d :: t) :
    sign = other := by
  cases sign with
  | none => cases other with
    | none => rfl
    | plus => cases same; cases digit
    | minus => cases same; cases digit
  | plus => cases other with
    | none => cases same; cases digitToo
    | plus => rfl
    | minus => cases same
  | minus => cases other with
    | none => cases same; cases digitToo
    | plus => cases same
    | minus => rfl

/-! ## Every text splits in one way -/

section Cancel
variable (rest behind : List Char)

theorem Figure.cancel (figure other : Figure) (sound : figure.Sound) (soundToo : other.Sound)
    (ended : Ended 2 figure.row rest) (endedToo : Ended 2 other.row behind)
    (same : figure.chars ++ rest = other.chars ++ behind) : figure = other ∧ rest = behind := by
  obtain ⟨gap, row⟩ := figure
  obtain ⟨gapToo, rowToo⟩ := other
  simp only [chars, List.append_assoc] at same
  have rows := congrArg Text.trimStart same
  rw [trimStart_over gap _ sound.blank (digits_dark row rest sound.digits sound.some),
    trimStart_over gapToo _ soundToo.blank
      (digits_dark rowToo behind soundToo.digits soundToo.some)] at rows
  obtain ⟨rfl, rfl⟩ := row_cancel 2 row rowToo rest behind sound.digits soundToo.digits sound.short
    soundToo.short ended endedToo rows
  exact ⟨by rw [List.append_cancel_right same], rfl⟩

theorem YearFigure.dark (figure : YearFigure) (sound : figure.Sound) :
    ∀ c ∈ (figure.sign.chars ++ (figure.row ++ rest)).head?, Text.isBlank c = false := by
  cases figure.sign with
  | none => exact digits_dark figure.row rest sound.digits sound.some
  | plus => rintro c ⟨⟩; decide
  | minus => rintro c ⟨⟩; decide

theorem YearFigure.cancel (figure other : YearFigure) (sound : figure.Sound)
    (soundToo : other.Sound)
    (same : figure.chars ++ '-' :: rest = other.chars ++ '-' :: behind) :
    figure = other ∧ rest = behind := by
  have rows := congrArg Text.trimStart same
  simp only [chars, List.append_assoc] at same rows
  rw [trimStart_over figure.gap _ sound.blank (figure.dark _ sound),
    trimStart_over other.gap _ soundToo.blank (other.dark _ soundToo)] at rows
  have signs : figure.sign = other.sign := by
    obtain ⟨c, s, front⟩ := List.exists_cons_of_length_pos sound.some
    obtain ⟨d, t, frontToo⟩ := List.exists_cons_of_length_pos soundToo.some
    refine Sign.cancel _ _ c d (s ++ '-' :: rest) (t ++ '-' :: behind) ?_ ?_ ?_
    · exact sound.digits c (front ▸ List.mem_cons_self)
    · exact soundToo.digits d (frontToo ▸ List.mem_cons_self)
    · rw [← List.cons_append, ← List.cons_append, ← front, ← frontToo]
      exact rows
  rw [signs] at rows
  -- A hyphen ends both rows, so any bound on their lengths will do.
  obtain ⟨row, ends⟩ := row_cancel (figure.row.length + other.row.length) _ _ _ _ sound.digits
    soundToo.digits (by omega) (by omega) (ended_before _ _ '-' rest rfl)
    (ended_before _ _ '-' behind rfl) (List.append_cancel_left rows)
  obtain ⟨gap, sign, row⟩ := figure
  obtain ⟨gapToo, signToo, rowToo⟩ := other
  cases row
  cases signs
  cases ends
  cases List.append_cancel_right same
  exact ⟨rfl, rfl⟩

theorem DayFigures.cancel (figures other : DayFigures) (sound : figures.Sound)
    (soundToo : other.Sound) (ended : Ended 2 figures.day.row rest)
    (endedToo : Ended 2 other.day.row behind)
    (same : figures.chars ++ rest = other.chars ++ behind) : figures = other ∧ rest = behind := by
  simp only [chars, List.append_assoc, List.cons_append] at same
  obtain ⟨year, same⟩ := YearFigure.cancel _ _ _ _ sound.year soundToo.year same
  obtain ⟨month, same⟩ := Figure.cancel _ _ _ _ sound.month soundToo.month
    (ended_before _ _ '-' _ rfl) (ended_before _ _ '-' _ rfl) same
  obtain ⟨day, ends⟩ := Figure.cancel _ _ _ _ sound.day soundToo.day ended endedToo
    (List.cons.inj same).2
  obtain ⟨_, _, _⟩ := figures
  cases year
  cases month
  cases day
  exact ⟨rfl, ends⟩

theorem point_cancel (fraction other : List Char) (digits : ∀ c ∈ fraction, c.isDigit = true)
    (digitsToo : ∀ c ∈ other, c.isDigit = true) (closed : Closed rest) (closedToo : Closed behind)
    (same : ClockFigures.point fraction ++ rest = ClockFigures.point other ++ behind) :
    fraction = other ∧ rest = behind := by
  cases fraction with
  | nil => cases other with
    | nil => exact ⟨rfl, same⟩
    | cons d other =>
      change rest = '.' :: _ at same
      exact absurd rfl (closed '.' (by rw [same]; rfl)).2
  | cons c fraction => cases other with
    | nil =>
      change '.' :: _ = behind at same
      exact absurd rfl (closedToo '.' (by rw [← same]; rfl)).2
    | cons d other =>
      exact row_cancel ((c :: fraction).length + (d :: other).length) _ _ rest behind digits
        digitsToo (by omega) (by omega) (.inr fun c next => (closed c next).1)
        (.inr fun c next => (closedToo c next).1) (List.cons.inj same).2

theorem ClockFigures.cancel (figures other : ClockFigures) (sound : figures.Sound)
    (soundToo : other.Sound) (closed : Closed rest) (closedToo : Closed behind)
    (same : figures.chars ++ rest = other.chars ++ behind) : figures = other ∧ rest = behind := by
  simp only [chars, List.append_assoc, List.cons_append] at same
  obtain ⟨hour, same⟩ := Figure.cancel _ _ _ _ sound.hour soundToo.hour
    (ended_before _ _ ':' _ rfl) (ended_before _ _ ':' _ rfl) same
  obtain ⟨minute, same⟩ := Figure.cancel _ _ _ _ sound.minute soundToo.minute
    (ended_before _ _ ':' _ rfl) (ended_before _ _ ':' _ rfl) (List.cons.inj same).2
  obtain ⟨second, same⟩ := Figure.cancel _ _ _ _ sound.second soundToo.second
    (ended_point _ _ _ rest closed) (ended_point _ _ _ behind closedToo) (List.cons.inj same).2
  obtain ⟨fraction, ends⟩ := point_cancel _ _ _ _ sound.fraction soundToo.fraction closed closedToo
    same
  obtain ⟨_, _, _, _⟩ := figures
  cases hour
  cases minute
  cases second
  cases fraction
  exact ⟨rfl, ends⟩

end Cancel

theorem OffsetFigures.closed (zone : OffsetFigures) (rest : List Char) (sound : zone.Sound) :
    Closed (zone.chars ++ rest) := by
  cases sound with
  | letter c known =>
    rintro _ ⟨⟩
    rcases known with rfl | rfl <;> decide
  | shift sign hour minute known =>
    rintro _ ⟨⟩
    rcases known with rfl | rfl | rfl <;> decide

theorem OffsetFigures.chars_ne_nil (zone : OffsetFigures) : zone.chars ≠ [] := by
  cases zone <;> exact List.cons_ne_nil _ _

theorem OffsetFigures.unique (zone other : OffsetFigures) (sound : zone.Sound)
    (soundToo : other.Sound) (same : zone.chars = other.chars) : zone = other := by
  cases sound with
  | letter c => cases soundToo with
    | letter d => cases same; rfl
    | shift => exact absurd (congrArg List.length same) (by simp [chars])
  | shift sign hour minute _ hourSound _ _ minuteSound => cases soundToo with
    | letter d => exact absurd (congrArg List.length same) (by simp [chars])
    | shift signToo hourToo minuteToo _ hourSoundToo _ _ minuteSoundToo =>
      obtain ⟨rfl, shown⟩ := List.cons.inj same
      obtain ⟨rfl, ends⟩ := Figure.cancel _ _ _ _ hourSound hourSoundToo
        (ended_before _ _ ':' _ rfl) (ended_before _ _ ':' _ rfl) shown
      obtain ⟨rfl, _⟩ := Figure.cancel [] [] _ _ minuteSound minuteSoundToo (ended_nil _ _)
        (ended_nil _ _) (congrArg (· ++ []) (List.cons.inj ends).2)
      rfl

theorem ClockFigures.front (figures : ClockFigures) (sound : figures.Sound) :
    ∃ c rest, figures.chars = c :: rest ∧ (Text.isBlank c = true ∨ c.isDigit = true) := by
  obtain ⟨⟨gap, row⟩, minute, second, fraction⟩ := figures
  cases gap with
  | cons c gap => exact ⟨c, _, rfl, .inl (sound.hour.blank c List.mem_cons_self)⟩
  | nil =>
    obtain ⟨c, tail, rfl⟩ := List.exists_cons_of_length_pos sound.hour.some
    exact ⟨c, _, rfl, .inr (sound.hour.digits c List.mem_cons_self)⟩

def ClockFigures.spaced (figures : ClockFigures) : ClockFigures :=
  { figures with hour := { figures.hour with gap := ' ' :: figures.hour.gap } }

theorem ClockFigures.spaced_sound (figures : ClockFigures) (sound : figures.Sound) :
    figures.spaced.Sound :=
  { sound with
    hour :=
      { sound.hour with
        blank := List.forall_mem_cons.mpr ⟨by decide, sound.hour.blank⟩ } }

namespace Tail

theorem ended (day : DayFigures) (tail : Tail) (sound : tail.Sound day) :
    Ended 2 day.day.row tail.chars := by
  cases sound with
  | nothing => exact ended_nil _ _
  | offset divider clock zone full => exact .inl full.day.2
  | letter clock => exact ended_before _ _ 'T' _ rfl
  | blank clock sound parted =>
    rcases parted with full | gap
    · exact .inl full
    · obtain ⟨c, gap, front⟩ := List.exists_cons_of_ne_nil gap
      have blank := sound.hour.blank c (front ▸ List.mem_cons_self)
      simp only [chars, ClockFigures.chars, Figure.chars, front, List.cons_append]
      refine ended_before _ _ c _ (Bool.eq_false_of_not_eq_true fun digit => ?_)
      rw [Text.digit_not_blank c digit] at blank
      cases blank

theorem eq_nothing (tail : Tail) (day : DayFigures) (sound : tail.Sound day)
    (empty : tail.chars = []) : tail = nothing := by
  cases sound with
  | nothing => rfl
  | offset => cases empty
  | letter => cases empty
  | blank clock sound =>
    obtain ⟨c, rest, front, _⟩ := clock.front sound
    exact absurd (front.symm.trans empty) (List.cons_ne_nil _ _)

section Apart
variable (clock other : ClockFigures) (zone : OffsetFigures) (sound : clock.Sound)
  (soundToo : other.Sound) (zoneSound : zone.Sound)
include sound soundToo

theorem clock_unique (same : clock.chars = other.chars) : clock = other :=
  (clock.cancel [] [] other sound soundToo closed_nil closed_nil (congrArg (· ++ []) same)).1

include zoneSound

theorem zone_left (same : clock.chars ++ zone.chars = other.chars) : False := by
  have closed := zone.closed [] zoneSound
  rw [List.append_nil] at closed
  rw [← List.append_nil other.chars] at same
  exact zone.chars_ne_nil (clock.cancel _ _ other sound soundToo closed closed_nil same).2

/-- A divider that is a space is one more blank before the hour. -/
theorem offset_not_blank (divider : Char) (known : divider = 'T' ∨ divider = 't' ∨ divider = ' ')
    (same : (offset divider clock zone).chars = (blank other).chars) : False := by
  obtain ⟨c, rest, front, kind⟩ := other.front soundToo
  have first : divider = c := (List.cons.inj (same.trans front)).1
  rcases known with rfl | rfl | rfl
  · subst first
    rcases kind with kind | kind <;> cases kind
  · subst first
    rcases kind with kind | kind <;> cases kind
  · exact zone_left clock.spaced other zone (clock.spaced_sound sound) soundToo zoneSound same

end Apart

theorem letter_not_blank (clock other : ClockFigures) (sound : other.Sound)
    (same : (letter clock).chars = (blank other).chars) : False := by
  obtain ⟨c, rest, front, kind⟩ := other.front sound
  cases same.trans front
  rcases kind with kind | kind <;> cases kind

theorem unique (day : DayFigures) (tail other : Tail) (sound : tail.Sound day)
    (soundToo : other.Sound day) (same : tail.chars = other.chars) : tail = other := by
  -- Tails of one kind give back their parts; tails of two kinds never have the same characters.
  cases sound with
  | nothing => exact (eq_nothing other day soundToo same.symm).symm
  | offset divider clock zone _ _ known sound _ zoneSound => cases soundToo with
    | nothing => cases same
    | offset dividerToo clockToo zoneToo _ _ _ soundToo _ zoneSoundToo =>
      obtain ⟨rfl, shown⟩ := List.cons.inj same
      have closed := zone.closed [] zoneSound
      have closedToo := zoneToo.closed [] zoneSoundToo
      rw [List.append_nil] at closed closedToo
      obtain ⟨rfl, ends⟩ := clock.cancel _ _ clockToo sound soundToo closed closedToo shown
      rw [zone.unique zoneToo zoneSound zoneSoundToo ends]
    | letter clockToo soundToo =>
      exact (zone_left clock clockToo zone sound soundToo zoneSound (List.cons.inj same).2).elim
    | blank clockToo soundToo =>
      exact (offset_not_blank clock clockToo zone sound soundToo zoneSound divider known same).elim
  | letter clock sound => cases soundToo with
    | nothing => cases same
    | offset divider clockToo zone _ _ known soundToo _ zoneSound =>
      exact (zone_left clockToo clock zone soundToo sound zoneSound
        (List.cons.inj same).2.symm).elim
    | letter clockToo soundToo =>
      rw [clock_unique clock clockToo sound soundToo (List.cons.inj same).2]
    | blank clockToo soundToo => exact (letter_not_blank clock clockToo soundToo same).elim
  | blank clock sound parted => cases soundToo with
    | nothing => exact eq_nothing _ day (.blank clock sound parted) same
    | offset divider clockToo zone _ _ known soundToo _ zoneSound =>
      exact (offset_not_blank clockToo clock zone soundToo sound zoneSound
        divider known same.symm).elim
    | letter clockToo soundToo => exact (letter_not_blank clockToo clock sound same.symm).elim
    | blank clockToo soundToo => rw [clock_unique clock clockToo sound soundToo same]

end Tail

/-- No text is two dates. -/
theorem WrittenDate.unique (date other : WrittenDate) (sound : date.Sound) (soundToo : other.Sound)
    (same : date.chars = other.chars) : date = other := by
  obtain ⟨day, tail⟩ := date
  obtain ⟨dayToo, tailToo⟩ := other
  obtain ⟨rfl, ends⟩ := day.cancel _ _ dayToo sound.day soundToo.day
    (Tail.ended day tail sound.tail) (Tail.ended dayToo tailToo soundToo.tail) same
  rw [Tail.unique day tail tailToo sound.tail soundToo.tail ends]

end HabitLedger.DateText
