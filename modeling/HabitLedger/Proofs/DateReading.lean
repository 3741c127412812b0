import HabitLedger.Intake
import HabitLedger.Proofs.WrittenDates
import Mathlib.Data.List.DropRight

/-!
Reading dates. Every reader takes from the front of a text exactly what is written there, so a form
reads a text if and only if the text is a date written in this form, and then gives the day that the
date shows.
-/

namespace HabitLedger.DateText

open Json (bind_eq_ok)

/-! ## Numbers -/

structure Leads (least most : Nat) (row rest s : List Char) : Prop where
  split : row ++ rest = s
  digits : ∀ c ∈ row, c.isDigit = true
  enough : least ≤ row.length
  short : row.length ≤ most
  ended : Ended most row rest

theorem ended_of_take (most : Nat) (row rest : List Char) (digits : ∀ c ∈ row, c.isDigit = true)
    (short : row.length ≤ most)
    (taken : ((row ++ rest).take most).takeWhile Char.isDigit = row) : Ended most row rest := by
  by_cases full : row.length = most
  · exact .inl full
  · rw [List.take_append, List.take_of_length_le short,
      List.takeWhile_append_of_pos digits] at taken
    have none := List.append_right_eq_self.mp taken
    refine .inr fun c next => Bool.eq_false_of_not_eq_true fun digit => ?_
    obtain ⟨more, room⟩ : ∃ more, most - row.length = more + 1 := ⟨most - row.length - 1, by omega⟩
    cases rest with
    | nil => cases next
    | cons d rest =>
      cases next
      rw [room, List.take_succ_cons, List.takeWhile_cons_of_pos digit] at none
      cases none

/-- A number is read exactly where a row of digits leads whose value fits 63 bits. -/
theorem number_iff (least most : Nat) (s rest : List Char) (value : Nat) :
    number least most s = .ok (value, rest) ↔
      ∃ row, Leads least most row rest s ∧ Text.numeral row = value ∧
        value < 0x8000000000000000 := by
  constructor
  · intro read
    obtain ⟨behind, split⟩ : (s.take most).takeWhile Char.isDigit <+: s :=
      (List.takeWhile_prefix _).trans (List.take_prefix most s)
    have digits : ∀ c ∈ (s.take most).takeWhile Char.isDigit, c.isDigit = true :=
      List.all_eq_true.mp List.all_takeWhile
    have short : ((s.take most).takeWhile Char.isDigit).length ≤ most :=
      Nat.le_trans (List.takeWhile_sublist _).length_le (List.length_take_le most s)
    simp only [number] at read
    generalize taken : (s.take most).takeWhile Char.isDigit = row at split digits short read
    subst split
    rw [List.drop_left] at read
    split at read
    · cases read
    · split at read
      · cases read
      · next enough =>
        split at read
        · next fits =>
          cases read
          exact ⟨row, ⟨rfl, digits, Nat.le_of_not_lt enough, short,
            ended_of_take most row rest digits short taken⟩, rfl, fits⟩
        · cases read
  · rintro ⟨row, ⟨rfl, digits, enough, short, ended⟩, rfl, fits⟩
    exact number_row least most row rest digits enough short ended fits

theorem mark_iff (c : Char) (s rest : List Char) : mark c s = .ok rest ↔ c :: rest = s := by
  cases s with
  | nil => simp [mark]
  | cons d s =>
    by_cases same : d = c
    · subst same
      simp [mark, eq_comm]
    · simp [mark, same, Ne.symm same]

theorem trimStart_split (s : List Char) :
    ∃ gap, (∀ c ∈ gap, Text.isBlank c = true) ∧ gap ++ Text.trimStart s = s :=
  ⟨s.takeWhile Text.isBlank, List.all_eq_true.mp List.all_takeWhile,
    List.takeWhile_append_dropWhile⟩

theorem numeral_lt_hundred (row : List Char) (digits : ∀ c ∈ row, c.isDigit = true)
    (short : row.length ≤ 2) : Text.numeral row < 100 :=
  Nat.lt_of_lt_of_le (Text.numeral_lt_pow row digits) (Nat.pow_le_pow_right (by decide) short)

/-- What the reader takes from the front of a text with this after it: a figure that fits, with its
value between the bounds. -/
def Takes (reader : Nat → Nat → List Char → Except DateFault (Nat × List Char))
    (Fits : Figure → List Char → Prop) : Prop :=
  ∀ (least most : Nat) (s rest : List Char) (value : Nat), reader least most s = .ok (value, rest) ↔
    ∃ figure : Figure, figure.chars ++ rest = s ∧ figure.Sound ∧ Fits figure rest ∧
      figure.value = value ∧ least ≤ value ∧ value ≤ most

theorem part_iff : Takes part fun figure rest => Ended 2 figure.row rest := by
  intro least most s rest value
  unfold part
  rw [bind_eq_ok]
  constructor
  · rintro ⟨⟨number, behind⟩, read, checked⟩
    obtain ⟨row, ⟨split, digits, some, short, ended⟩, shown, _⟩ := (number_iff ..).mp read
    obtain ⟨gap, blank, whole⟩ := trimStart_split s
    dsimp only at checked
    split at checked
    · next bounds =>
      cases checked
      refine ⟨⟨gap, row⟩, ?_, ⟨blank, digits, some, short⟩, ended, shown, bounds⟩
      rw [Figure.chars, List.append_assoc, split, whole]
    · cases checked
  · rintro ⟨figure, rfl, sound, ended, rfl, bounds⟩
    have small := numeral_lt_hundred figure.row sound.digits sound.short
    refine ⟨(figure.value, rest), ?_, if_pos bounds⟩
    rw [Figure.chars, List.append_assoc,
      trimStart_over _ _ sound.blank (digits_dark _ _ sound.digits sound.some)]
    exact number_row 1 2 _ _ sound.digits sound.some sound.short ended (by omega)

theorem pair_iff : Takes pair fun figure _ => figure.Full [] := by
  intro least most s rest value
  unfold pair
  rw [bind_eq_ok]
  constructor
  · rintro ⟨⟨number, behind⟩, read, checked⟩
    obtain ⟨row, ⟨split, digits, some, short, ended⟩, shown, _⟩ := (number_iff ..).mp read
    dsimp only at checked
    split at checked
    · next bounds =>
      cases checked
      have sound : (Figure.mk [] row).Sound :=
        ⟨List.forall_mem_nil _, digits, Nat.le_of_succ_le some, short⟩
      exact ⟨⟨[], row⟩, split, sound, ⟨rfl, Nat.le_antisymm short some⟩, shown, bounds⟩
    · cases checked
  · rintro ⟨⟨gap, row⟩, rfl, sound, ⟨rfl, width⟩, rfl, bounds⟩
    have small := numeral_lt_hundred row sound.digits sound.short
    change row.length = 2 at width
    have read := number_row 2 2 row rest sound.digits (by omega) (by omega) (.inl width) (by omega)
    exact ⟨(Text.numeral row, rest), read, if_pos bounds⟩

/-! ## Days -/

/-- Digits before a hyphen, as whatever is made of their value. -/
theorem figures_iff (most : Nat) (render : Nat → Int) (s rest : List Char) (value : Int) :
    (number 1 most s >>= fun read => .ok (render read.1, read.2)) = .ok (value, '-' :: rest) ↔
      ∃ row, row ++ '-' :: rest = s ∧ (∀ c ∈ row, c.isDigit = true) ∧ 1 ≤ row.length ∧
        row.length ≤ most ∧ render (Text.numeral row) = value ∧
        Text.numeral row < 0x8000000000000000 := by
  rw [bind_eq_ok]
  constructor
  · rintro ⟨⟨number, behind⟩, read, same⟩
    cases same
    obtain ⟨row, ⟨split, digits, some, short, _⟩, rfl, fits⟩ := (number_iff ..).mp read
    exact ⟨row, split, digits, some, short, rfl, fits⟩
  · rintro ⟨row, rfl, digits, some, short, rfl, fits⟩
    have ended : Ended most row ('-' :: rest) := ended_before _ _ '-' _ rfl
    exact ⟨_, number_row 1 most row _ digits some short ended fits, rfl⟩

/-- A year is read exactly where a sign and digits stand before a hyphen; without a sign there are
no more than four. -/
theorem signedYear_iff (s rest : List Char) (value : Int) :
    signedYear s = .ok (value, '-' :: rest) ↔
      ∃ (sign : Sign) (row : List Char), sign.chars ++ (row ++ '-' :: rest) = s ∧
        (∀ c ∈ row, c.isDigit = true) ∧ 1 ≤ row.length ∧ (sign = .none → row.length ≤ 4) ∧
        sign.year (Text.numeral row) = value ∧ Text.numeral row < 0x8000000000000000 := by
  constructor
  · intro read
    unfold signedYear at read
    split at read
    · obtain ⟨row, split, digits, some, _, shown, fits⟩ :=
        (figures_iff _ Sign.minus.year ..).mp read
      exact ⟨.minus, row, congrArg _ split, digits, some, nofun, shown, fits⟩
    · obtain ⟨row, split, digits, some, _, shown, fits⟩ :=
        (figures_iff _ Sign.plus.year ..).mp read
      exact ⟨.plus, row, congrArg _ split, digits, some, nofun, shown, fits⟩
    · obtain ⟨row, split, digits, some, short, shown, fits⟩ :=
        (figures_iff _ Sign.none.year ..).mp read
      exact ⟨.none, row, split, digits, some, fun _ => short, shown, fits⟩
  · rintro ⟨sign, row, rfl, digits, some, short, shown, fits⟩
    cases sign with
    | minus =>
      exact (figures_iff _ Sign.minus.year ..).mpr
        ⟨row, rfl, digits, some, by simp, shown, fits⟩
    | plus =>
      exact (figures_iff _ Sign.plus.year ..).mpr
        ⟨row, rfl, digits, some, by simp, shown, fits⟩
    | none =>
      -- A row of digits begins with neither sign, so the last branch reads it.
      obtain ⟨c, tail, rfl⟩ := List.exists_cons_of_length_pos some
      have digit := digits c List.mem_cons_self
      change signedYear ((c :: tail) ++ '-' :: rest) = _
      unfold signedYear
      split
      · next equal =>
        cases equal
        cases digit
      · next equal =>
        cases equal
        cases digit
      · exact (figures_iff 4 Sign.none.year ..).mpr
          ⟨c :: tail, rfl, digits, some, short rfl, shown, fits⟩

theorem year_iff (s rest : List Char) (value : Int) :
    year s = .ok (value, '-' :: rest) ↔
      ∃ figure : YearFigure, figure.chars ++ '-' :: rest = s ∧ figure.Sound ∧ figure.value = value ∧
        -0x80000000 ≤ value ∧ value < 0x80000000 := by
  unfold year
  rw [bind_eq_ok]
  constructor
  · rintro ⟨⟨number, behind⟩, read, checked⟩
    dsimp only at checked
    split at checked
    · next bounds =>
      cases checked
      obtain ⟨sign, row, split, digits, some, short, shown, _⟩ := (signedYear_iff ..).mp read
      obtain ⟨gap, blank, whole⟩ := trimStart_split s
      refine ⟨⟨gap, sign, row⟩, ?_, ⟨blank, digits, some, short⟩, shown, bounds⟩
      simp only [YearFigure.chars, List.append_assoc, split, whole]
    · cases checked
  · rintro ⟨figure, rfl, sound, rfl, bounds⟩
    refine ⟨(figure.value, '-' :: rest), ?_, if_pos bounds⟩
    simp only [YearFigure.chars, List.append_assoc]
    rw [trimStart_over _ _ sound.blank (figure.dark _ sound)]
    refine (signedYear_iff ..).mpr ⟨figure.sign, figure.row, rfl, sound.digits, sound.some,
      sound.short, rfl, ?_⟩
    have number := figure.sign.natAbs_year (Text.numeral figure.row)
    unfold YearFigure.value at bounds
    omega

theorem finish_iff (parts : Int × Nat × Nat) (rest : List Char) (date : Date) :
    finish parts rest = .ok date ↔ rest = [] ∧ parts = (date.year, date.month, date.day) := by
  obtain ⟨year, month, day⟩ := parts
  cases rest with
  | cons c rest => simp [finish]
  | nil =>
    by_cases sound : Calendar.HasDay year month day
    · have found : Date.ofParts? year month day = some ⟨year, month, day, sound⟩ := dif_pos sound
      simp only [finish, found, Except.ok.injEq, true_and]
      constructor
      · rintro rfl
        rfl
      · intro same
        cases same
        rfl
    · have none : Date.ofParts? year month day = none := dif_neg sound
      simp only [finish, none, true_and, reduceCtorEq, false_iff]
      intro same
      cases same
      exact sound date.sound

/-- Year, month and day are read exactly from the days as they may be written. -/
theorem parts_iff (s rest : List Char) (date : Date) :
    parts id s = .ok ((date.year, date.month, date.day), rest) ↔
      ∃ figures : DayFigures, figures.chars ++ rest = s ∧ figures.Sound ∧
        Ended 2 figures.day.row rest ∧ figures.Shows date := by
  simp only [parts, bind_eq_ok, id_eq, mark_iff, Prod.exists]
  constructor
  · rintro ⟨year, afterYear, yearRead, beforeMonth, rfl, month, afterMonth,
      monthRead, beforeDay, rfl, day, behind, dayRead, same⟩
    cases same
    obtain ⟨yearFigure, rfl, yearSound, shownYear, _⟩ := (year_iff ..).mp yearRead
    obtain ⟨monthFigure, rfl, monthSound, _, shownMonth, _⟩ := (part_iff ..).mp monthRead
    obtain ⟨dayFigure, rfl, daySound, ended, shownDay, _⟩ := (part_iff ..).mp dayRead
    refine ⟨⟨yearFigure, monthFigure, dayFigure⟩, ?_, ⟨yearSound, monthSound, daySound⟩, ended,
      ⟨shownYear.symm, shownMonth.symm, shownDay.symm⟩⟩
    simp only [DayFigures.chars, List.append_assoc, List.cons_append]
  · rintro ⟨figures, rfl, sound, ended, shows⟩
    obtain ⟨⟨first, last⟩, months, days⟩ := date.sound
    have short := Nat.le_trans days.2 (monthLength_le date.year date.month)
    simp only [Calendar.firstYear, Calendar.lastYear] at first last
    simp only [DayFigures.chars, List.append_assoc, List.cons_append]
    have yearRead (more : List Char) := (year_iff _ more date.year).mpr
      ⟨figures.year, rfl, sound.year, shows.year.symm, by omega⟩
    have monthRead (more : List Char) := (part_iff 1 12 _ ('-' :: more) date.month).mpr
      ⟨figures.month, rfl, sound.month, ended_before _ _ '-' _ rfl, shows.month.symm, months⟩
    have dayRead := (part_iff 1 31 _ rest date.day).mpr
      ⟨figures.day, rfl, sound.day, ended, shows.day.symm, days.1, short⟩
    exact ⟨_, _, yearRead _, _, rfl, _, _, monthRead _, _, rfl, _, _, dayRead, rfl⟩

/-! ## Times -/

/-- Only nine digits of a fraction are read as a number; the others are passed over. -/
theorem number_fraction (row rest : List Char) (digits : ∀ c ∈ row, c.isDigit = true)
    (some : 1 ≤ row.length) (closed : Closed rest) :
    ∃ value, number 1 9 (row ++ rest) = .ok (value, row.drop 9 ++ rest) := by
  have taken : ∀ c ∈ row.take 9, c.isDigit = true :=
    fun c member => digits c (List.mem_of_mem_take member)
  have width : (row.take 9).length = min 9 row.length := List.length_take
  have ended : Ended 9 (row.take 9) (row.drop 9 ++ rest) := by
    by_cases long : 9 ≤ row.length
    · exact .inl (by omega)
    · rw [List.drop_eq_nil_of_le (by omega)]
      exact .inr fun c next => (closed c next).1
  have small : Text.numeral (row.take 9) < 10 ^ 9 :=
    Nat.lt_of_lt_of_le (Text.numeral_lt_pow _ taken) (Nat.pow_le_pow_right (by decide) (by omega))
  refine ⟨_, (number_iff ..).mpr ⟨row.take 9, ⟨?_, taken, ?_, ?_, ended⟩, rfl, ?_⟩⟩
  · rw [← List.append_assoc, List.take_append_drop]
  · omega
  · omega
  · omega

theorem dropWhile_over (row rest : List Char) (digits : ∀ c ∈ row, c.isDigit = true)
    (closed : Closed rest) : (row ++ rest).dropWhile Char.isDigit = rest := by
  rw [List.dropWhile_append_of_pos digits]
  cases rest with
  | nil => rfl
  | cons d rest => exact List.dropWhile_cons_of_neg (by simp [(closed d rfl).1])

theorem fraction_iff (s rest : List Char) (closed : Closed rest) :
    fraction s = .ok rest ↔
      ∃ row, ClockFigures.point row ++ rest = s ∧ ∀ c ∈ row, c.isDigit = true := by
  constructor
  · intro read
    unfold fraction at read
    split at read
    · next s =>
      obtain ⟨⟨number, behind⟩, read, same⟩ := bind_eq_ok.mp read
      obtain ⟨row, ⟨rfl, digits, some, _, _⟩, _⟩ := (number_iff ..).mp read
      cases same
      obtain ⟨c, row, rfl⟩ := List.exists_cons_of_length_pos some
      refine ⟨(c :: row) ++ behind.takeWhile Char.isDigit, ?_,
        List.forall_mem_append.mpr ⟨digits, List.all_eq_true.mp List.all_takeWhile⟩⟩
      change '.' :: (((c :: row) ++ _) ++ _) = _
      rw [List.append_assoc, List.takeWhile_append_dropWhile]
    · cases read
      exact ⟨[], rfl, List.forall_mem_nil _⟩
  · rintro ⟨row, rfl, digits⟩
    cases row with
    | nil =>
      change fraction rest = _
      unfold fraction
      split
      · exact absurd rfl (closed '.' rfl).2
      · rfl
    | cons c row =>
      obtain ⟨value, read⟩ := number_fraction _ rest digits (by simp) closed
      have passed := dropWhile_over ((c :: row).drop 9) rest
        (fun c member => digits c (List.mem_of_mem_drop member)) closed
      change (number 1 9 ((c :: row) ++ rest) >>= _) = _
      rw [read]
      exact congrArg Except.ok passed

def clockBy (reader : Nat → Nat → List Char → Except DateFault (Nat × List Char)) (s : List Char) :
    Except DateFault (List Char) := do
  let (_, rest) ← reader 0 23 s
  let rest ← mark ':' rest
  let (_, rest) ← reader 0 59 rest
  let rest ← mark ':' rest
  let (_, rest) ← reader 0 60 rest
  fraction rest

section Clock
variable (s rest : List Char) (closed : Closed rest)
include closed

theorem clockBy_iff (reader : Nat → Nat → List Char → Except DateFault (Nat × List Char))
    (Fits : Figure → List Char → Prop) (takes : Takes reader Fits) :
    clockBy reader s = .ok rest ↔
      ∃ figures : ClockFigures, figures.chars ++ rest = s ∧ figures.Sound ∧
        Fits figures.hour (':' :: (figures.minute.chars ++ ':' :: (figures.second.chars ++
          (ClockFigures.point figures.fraction ++ rest)))) ∧
        Fits figures.minute (':' :: (figures.second.chars ++
          (ClockFigures.point figures.fraction ++ rest))) ∧
        Fits figures.second (ClockFigures.point figures.fraction ++ rest) := by
  simp only [clockBy, bind_eq_ok, mark_iff, Prod.exists, fraction_iff _ rest closed]
  constructor
  · rintro ⟨hour, _, hourRead, _, rfl, minute, _, minuteRead, _, rfl, second,
      _, secondRead, row, rfl, digits⟩
    obtain ⟨hourFigure, rfl, hourSound, hourFits, rfl, _, hours⟩ := (takes ..).mp hourRead
    obtain ⟨minuteFigure, rfl, minuteSound, minuteFits, rfl, _, minutes⟩ := (takes ..).mp minuteRead
    obtain ⟨secondFigure, rfl, secondSound, secondFits, rfl, _, seconds⟩ := (takes ..).mp secondRead
    refine ⟨⟨hourFigure, minuteFigure, secondFigure, row⟩, ?_,
      ⟨hourSound, minuteSound, secondSound, digits, hours, minutes, seconds⟩,
      hourFits, minuteFits, secondFits⟩
    simp only [ClockFigures.chars, List.append_assoc, List.cons_append]
  · rintro ⟨figures, rfl, sound, hourFits, minuteFits, secondFits⟩
    simp only [ClockFigures.chars, List.append_assoc, List.cons_append]
    have hourRead := (takes 0 23 _ _ _).mpr
      ⟨figures.hour, rfl, sound.hour, hourFits, rfl, Nat.zero_le _, sound.hours⟩
    have minuteRead := (takes 0 59 _ _ _).mpr
      ⟨figures.minute, rfl, sound.minute, minuteFits, rfl, Nat.zero_le _, sound.minutes⟩
    have secondRead := (takes 0 60 _ _ _).mpr
      ⟨figures.second, rfl, sound.second, secondFits, rfl, Nat.zero_le _, sound.seconds⟩
    exact ⟨_, _, hourRead, _, rfl, _, _, minuteRead, _, rfl, _, _, secondRead, _, rfl,
      sound.fraction⟩

theorem clock_iff :
    clock s = .ok rest ↔ ∃ figures : ClockFigures, figures.chars ++ rest = s ∧ figures.Sound := by
  change clockBy part s = _ ↔ _
  rw [clockBy_iff s rest closed part _ part_iff]
  constructor
  · rintro ⟨figures, split, sound, _⟩
    exact ⟨figures, split, sound⟩
  · rintro ⟨figures, split, sound⟩
    exact ⟨figures, split, sound, ended_before _ _ ':' _ rfl, ended_before _ _ ':' _ rfl,
      ended_point _ _ _ rest closed⟩

theorem fullClock_iff :
    clockBy pair s = .ok rest ↔
      ∃ figures : ClockFigures, figures.chars ++ rest = s ∧ figures.Sound ∧ figures.Full [] := by
  rw [clockBy_iff s rest closed pair _ pair_iff]
  constructor
  · rintro ⟨figures, split, sound, hour, minute, second⟩
    exact ⟨figures, split, sound, hour, minute, second⟩
  · rintro ⟨figures, split, sound, full⟩
    exact ⟨figures, split, sound, full.hour, full.minute, full.second⟩

end Clock

/-- The blanks that stand before the hour are passed over by the hour itself. -/
theorem clock_trimStart (s : List Char) : clock (Text.trimStart s) = clock s := by
  have twice : Text.trimStart (Text.trimStart s) = Text.trimStart s := List.dropWhile_idempotent _ s
  simp only [clock, part, twice]

/-- An offset is read exactly from the offsets as they may be written. -/
theorem offset_iff (s rest : List Char) :
    offset s = .ok rest ↔ ∃ zone : OffsetFigures, zone.chars ++ rest = s ∧ zone.Sound := by
  constructor
  · intro read
    unfold offset at read
    split at read
    · cases read
    · next first s =>
      split at read
      · next known =>
        cases read
        exact ⟨.letter first, rfl, .letter first known⟩
      · split at read
        · next known =>
          simp only [bind_eq_ok, mark_iff, Prod.exists] at read
          obtain ⟨hour, _, hourRead, _, rfl, minute, _, minuteRead, same⟩ := read
          cases same
          obtain ⟨hourFigure, rfl, hourSound, hourFull, rfl, _, hours⟩ := (pair_iff ..).mp hourRead
          obtain ⟨minuteFigure, rfl, minuteSound, minuteFull, rfl, _, minutes⟩ :=
            (pair_iff ..).mp minuteRead
          refine ⟨.shift first hourFigure minuteFigure, ?_,
            .shift first _ _ known hourSound hourFull hours minuteSound minuteFull minutes⟩
          simp only [OffsetFigures.chars, List.append_assoc, List.cons_append]
        · cases read
  · rintro ⟨zone, rfl, sound⟩
    cases sound with
    | letter c known => exact if_pos known
    | shift sign hour minute known hourSound hourFull hours minuteSound minuteFull minutes =>
      have plain : ¬ (sign = 'Z' ∨ sign = 'z') := by
        rcases known with rfl | rfl | rfl <;> decide
      have hourRead (more : List Char) := (pair_iff 0 23 _ (':' :: more) _).mpr
        ⟨hour, rfl, hourSound, hourFull, rfl, Nat.zero_le _, hours⟩
      have minuteRead := (pair_iff 0 59 _ rest _).mpr
        ⟨minute, rfl, minuteSound, minuteFull, rfl, Nat.zero_le _, minutes⟩
      simp only [OffsetFigures.chars, List.append_assoc, List.cons_append, offset, if_neg plain,
        if_pos known, bind_eq_ok, mark_iff, Prod.exists]
      exact ⟨_, _, hourRead _, _, rfl, _, _, minuteRead, rfl⟩

theorem divider_iff (s rest : List Char) :
    divider s = .ok rest ↔ ∃ c, c :: rest = s ∧ (c = 'T' ∨ c = 't' ∨ c = ' ') := by
  cases s with
  | nil => simp [divider]
  | cons first s =>
    unfold divider
    by_cases known : first = 'T' ∨ first = 't' ∨ first = ' '
    · simp [known, eq_comm]
    · simp [known, eq_comm]

/-! ## Stamps with an offset -/

def fullParts (s : List Char) : Except DateFault ((Int × Nat × Nat) × List Char) := do
  let (year, rest) ← number 4 4 s
  let rest ← mark '-' rest
  let (month, rest) ← pair 1 12 rest
  let rest ← mark '-' rest
  let (day, rest) ← pair 1 31 rest
  .ok ((year, month, day), rest)

theorem offsetStamp_parts (s : List Char) : offsetStamp s = (do
    let (parts, rest) ← fullParts s
    let rest ← divider rest
    let rest ← clockBy pair rest
    let rest ← offset rest
    finish parts rest) := by
  simp only [offsetStamp, fullParts, clockBy, bind_assoc]
  rfl

theorem fullParts_iff (s rest : List Char) (date : Date) :
    fullParts s = .ok ((date.year, date.month, date.day), rest) ↔
      ∃ figures : DayFigures, figures.chars ++ rest = s ∧ figures.Sound ∧ figures.Full ∧
        figures.year.sign = .none ∧ figures.Shows date := by
  simp only [fullParts, bind_eq_ok, mark_iff, Prod.exists]
  constructor
  · rintro ⟨year, _, yearRead, _, rfl, month, _, monthRead, _, rfl, day, _, dayRead, same⟩
    obtain ⟨row, ⟨rfl, digits, enough, short, _⟩, shownYear, _⟩ := (number_iff ..).mp yearRead
    obtain ⟨monthFigure, rfl, monthSound, monthFull, shownMonth, _⟩ := (pair_iff ..).mp monthRead
    obtain ⟨dayFigure, rfl, daySound, dayFull, shownDay, _⟩ := (pair_iff ..).mp dayRead
    simp only [Except.ok.injEq, Prod.mk.injEq] at same
    obtain ⟨⟨sameYear, rfl, rfl⟩, rfl⟩ := same
    have yearSound : (YearFigure.mk [] .none row).Sound :=
      ⟨List.forall_mem_nil _, digits, Nat.le_trans (by decide) enough, fun _ => short⟩
    have shows : date.year = (YearFigure.mk [] .none row).value := by
      rw [← sameYear, ← shownYear]
      rfl
    refine ⟨⟨⟨[], .none, row⟩, monthFigure, dayFigure⟩, ?_, ⟨yearSound, monthSound, daySound⟩,
      ⟨⟨rfl, enough⟩, monthFull, dayFull⟩, rfl, shows, shownMonth.symm, shownDay.symm⟩
    simp [DayFigures.chars, YearFigure.chars, Sign.chars]
  · rintro ⟨⟨⟨gap, sign, row⟩, month, day⟩, rfl, sound, full, plain, shows⟩
    obtain ⟨⟨tight, enough⟩, monthFull, dayFull⟩ := full
    cases tight
    cases plain
    have short := sound.year.short rfl
    have small := Text.numeral_lt_pow row sound.year.digits
    have width : row.length = 4 := Nat.le_antisymm short enough
    rw [width] at small
    have limit := Nat.le_trans date.sound.2.2.2 (monthLength_le date.year date.month)
    have yearRead (more : List Char) := (number_iff 4 4 _ ('-' :: more) _).mpr
      ⟨row, ⟨rfl, sound.year.digits, enough, short, .inl width⟩, rfl, by omega⟩
    have monthRead (more : List Char) := (pair_iff 1 12 _ more date.month).mpr
      ⟨month, rfl, sound.month, monthFull, shows.month.symm, date.sound.2.1⟩
    have dayRead := (pair_iff 1 31 _ rest date.day).mpr
      ⟨day, rfl, sound.day, dayFull, shows.day.symm, date.sound.2.2.1, limit⟩
    have split : (DayFigures.mk ⟨[], .none, row⟩ month day).chars ++ rest =
        row ++ '-' :: (month.chars ++ '-' :: (day.chars ++ rest)) := by
      simp [DayFigures.chars, YearFigure.chars, Sign.chars]
    have same : ((Text.numeral row : Int), date.month, date.day) =
        (date.year, date.month, date.day) :=
      congrArg (·, date.month, date.day) shows.year.symm
    rw [split]
    exact ⟨_, _, yearRead _, _, rfl, _, _, monthRead _, _, rfl, _, _, dayRead,
      congrArg (fun parts => Except.ok (parts, rest)) same⟩

/-! ## Forms -/

structure WrittenDate.Spells (written : WrittenDate) (s : List Char) (date : Date) : Prop where
  sound : written.Sound
  chars : written.chars = s
  shows : written.day.Shows date

end HabitLedger.DateText

namespace HabitLedger.DateForm

open DateText
open Json (bind_eq_ok)

variable (s : List Char) (date : Date)

theorem read_day : day.read s = .ok date ↔
    ∃ figures : DayFigures, WrittenDate.Spells ⟨figures, .nothing⟩ s date := by
  simp only [read, bind_eq_ok, finish_iff, Prod.exists]
  constructor
  · rintro ⟨year, month, number, _, split, rfl, same⟩
    cases same
    obtain ⟨figures, rfl, sound, _, shows⟩ := (parts_iff ..).mp split
    exact ⟨figures, ⟨sound, .nothing⟩, rfl, shows⟩
  · rintro ⟨figures, sound, rfl, shows⟩
    have split := (parts_iff _ [] date).mpr ⟨figures, rfl, sound.day, ended_nil _ _, shows⟩
    exact ⟨_, _, _, _, split, rfl, rfl⟩

theorem read_letterStamp : letterStamp.read s = .ok date ↔
    ∃ (figures : DayFigures) (clock : ClockFigures),
      WrittenDate.Spells ⟨figures, .letter clock⟩ s date := by
  simp only [read, bind_eq_ok, finish_iff, mark_iff, Prod.exists]
  constructor
  · rintro ⟨year, month, number, _, split, _, rfl, _, time, rfl, same⟩
    cases same
    obtain ⟨figures, rfl, sound, _, shows⟩ := (parts_iff ..).mp split
    obtain ⟨clock, rfl, clockSound⟩ := (clock_iff _ _ closed_nil).mp time
    rw [List.append_nil]
    exact ⟨figures, clock, ⟨sound, .letter clock clockSound⟩, rfl, shows⟩
  · rintro ⟨figures, clock, sound, rfl, shows⟩
    cases sound.tail with
    | letter _ clockSound =>
      have split := (parts_iff _ ('T' :: clock.chars) date).mpr
        ⟨figures, rfl, sound.day, ended_before _ _ 'T' _ rfl, shows⟩
      have time := (clock_iff _ [] closed_nil).mpr ⟨clock, List.append_nil _, clockSound⟩
      exact ⟨_, _, _, _, split, _, rfl, _, time, rfl, rfl⟩

/-- A day of one digit is not over before the first digit of an hour, so a blank must part them. -/
theorem parted_of_ended (row : List Char) (clock : ClockFigures) (sound : clock.Sound)
    (ended : Ended 2 row clock.chars) : row.length = 2 ∨ clock.hour.gap ≠ [] := by
  refine ended.imp_right fun stops empty => ?_
  obtain ⟨c, tail, front⟩ := List.exists_cons_of_length_pos sound.hour.some
  have digit := sound.hour.digits c (front ▸ List.mem_cons_self)
  rw [stops c (by simp [ClockFigures.chars, Figure.chars, empty, front])] at digit
  cases digit

theorem read_blankStamp : blankStamp.read s = .ok date ↔
    ∃ (figures : DayFigures) (clock : ClockFigures),
      WrittenDate.Spells ⟨figures, .blank clock⟩ s date := by
  simp only [read, bind_eq_ok, finish_iff, clock_trimStart, Prod.exists]
  constructor
  · rintro ⟨year, month, number, _, split, _, time, rfl, same⟩
    cases same
    obtain ⟨figures, rfl, sound, ended, shows⟩ := (parts_iff ..).mp split
    obtain ⟨clock, rfl, clockSound⟩ := (clock_iff _ _ closed_nil).mp time
    rw [List.append_nil] at ended ⊢
    have parted := parted_of_ended _ clock clockSound ended
    exact ⟨figures, clock, ⟨sound, .blank clock clockSound parted⟩, rfl, shows⟩
  · rintro ⟨figures, clock, sound, rfl, shows⟩
    have split := (parts_iff _ clock.chars date).mpr
      ⟨figures, rfl, sound.day, Tail.ended figures _ sound.tail, shows⟩
    cases sound.tail with
    | blank _ clockSound =>
      have time := (clock_iff _ [] closed_nil).mpr ⟨clock, List.append_nil _, clockSound⟩
      exact ⟨_, _, _, _, split, _, time, rfl, rfl⟩

theorem read_offsetStamp : offsetStamp.read s = .ok date ↔
    ∃ (figures : DayFigures) (divider : Char) (clock : ClockFigures) (zone : OffsetFigures),
      WrittenDate.Spells ⟨figures, .offset divider clock zone⟩ s date := by
  change DateText.offsetStamp s = _ ↔ _
  simp only [offsetStamp_parts, bind_eq_ok, finish_iff, divider_iff, Prod.exists]
  constructor
  · rintro ⟨year, month, number, _, split, _, ⟨divider, rfl, known⟩, _, time, _, shift, rfl, same⟩
    cases same
    obtain ⟨zone, rfl, zoneSound⟩ := (offset_iff ..).mp shift
    obtain ⟨clock, rfl, clockSound, clockFull⟩ :=
      (fullClock_iff _ _ (zone.closed [] zoneSound)).mp time
    obtain ⟨figures, rfl, sound, full, plain, shows⟩ := (fullParts_iff ..).mp split
    rw [List.append_nil]
    exact ⟨figures, divider, clock, zone,
      ⟨sound, .offset divider clock zone full plain known clockSound clockFull zoneSound⟩, rfl,
      shows⟩
  · rintro ⟨figures, divider, clock, zone, sound, rfl, shows⟩
    cases sound.tail with
    | offset _ _ _ full plain known clockSound clockFull zoneSound =>
      have split := (fullParts_iff _ (divider :: (clock.chars ++ zone.chars)) date).mpr
        ⟨figures, rfl, sound.day, full, plain, shows⟩
      have closed := zone.closed [] zoneSound
      rw [List.append_nil] at closed
      have time := (fullClock_iff _ zone.chars closed).mpr ⟨clock, rfl, clockSound, clockFull⟩
      have shift := (offset_iff _ []).mpr ⟨zone, List.append_nil _, zoneSound⟩
      exact ⟨_, _, _, _, split, _, ⟨divider, rfl, known⟩, _, time, _, shift, rfl, rfl⟩

/-- A form reads exactly the dates that are written in it. -/
theorem read_iff (form : DateForm) : form.read s = .ok date ↔
    ∃ written : WrittenDate, written.tail.form = form ∧ written.Spells s date := by
  constructor
  · intro read
    cases form with
    | day =>
      obtain ⟨figures, spells⟩ := (read_day s date).mp read
      exact ⟨_, rfl, spells⟩
    | offsetStamp =>
      obtain ⟨figures, divider, clock, zone, spells⟩ := (read_offsetStamp s date).mp read
      exact ⟨_, rfl, spells⟩
    | letterStamp =>
      obtain ⟨figures, clock, spells⟩ := (read_letterStamp s date).mp read
      exact ⟨_, rfl, spells⟩
    | blankStamp =>
      obtain ⟨figures, clock, spells⟩ := (read_blankStamp s date).mp read
      exact ⟨_, rfl, spells⟩
  · rintro ⟨⟨figures, tail⟩, rfl, spells⟩
    cases tail with
    | nothing => exact (read_day s date).mpr ⟨figures, spells⟩
    | offset divider clock zone =>
      exact (read_offsetStamp s date).mpr ⟨figures, divider, clock, zone, spells⟩
    | letter clock => exact (read_letterStamp s date).mpr ⟨figures, clock, spells⟩
    | blank clock => exact (read_blankStamp s date).mpr ⟨figures, clock, spells⟩

end HabitLedger.DateForm
