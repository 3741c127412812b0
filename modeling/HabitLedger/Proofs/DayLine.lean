import HabitLedger.Calendar.Date
import Mathlib.Data.Finset.Card
import Mathlib.Data.Int.Interval

/-!
The two views of a day agree. Days are ordered by year, month and day of the month, gaps between
them are measured on the line of days; the number of a day grows with the order, and by exactly one
from a day to the next. The whole calendar has fewer days than a 32-bit word has values.
-/

namespace HabitLedger

namespace Calendar

theorem yearStart_next (year : Int) :
    yearStart (year + 1) = yearStart year + if Leap year then 366 else 365 := by
  by_cases leap : Leap year <;> simp only [leap, if_true, if_false] <;>
    unfold Leap at leap <;> unfold yearStart <;> omega

theorem yearStart_grows (year later : Int) (order : year ≤ later) :
    yearStart year ≤ yearStart later := by
  unfold yearStart
  omega

theorem monthStart_next (year : Int) (month : Nat) (positive : 1 ≤ month) :
    monthStart year (month + 1) = monthStart year month + monthLength year month := by
  obtain ⟨before, rfl⟩ : ∃ before, month = before + 1 := ⟨month - 1, by omega⟩
  rfl

theorem monthStart_grows (year : Int) (month later : Nat) (positive : 1 ≤ month)
    (order : month < later) :
    monthStart year month + monthLength year month ≤ monthStart year later := by
  induction later with
  | zero => omega
  | succ previous ih =>
    rw [monthStart_next year previous (by omega)]
    by_cases same : month = previous
    · subst same
      exact Nat.le_refl _
    · have earlier := ih (by omega)
      omega

theorem monthLength_pos (year : Int) (month : Nat) : 1 ≤ monthLength year month := by
  unfold monthLength
  split
  · split <;> omega
  · split <;> omega

/-- The start of a thirteenth month is the length of the year. -/
theorem year_length (year : Int) :
    (monthStart year 13 : Int) = if Leap year then 366 else 365 := by
  by_cases leap : Leap year <;> simp [monthStart, monthLength, leap]

def dayCount : Nat := (yearStart (lastYear + 1) - yearStart firstYear).toNat

theorem dayCount_fits : dayCount < UInt32.size := by decide

end Calendar

namespace Date

open Calendar

theorem number_in_year (d : Date) :
    yearStart d.year < d.dayNumber ∧ d.dayNumber ≤ yearStart (d.year + 1) := by
  obtain ⟨year, month, day, sound⟩ := d
  obtain ⟨_, ⟨first, last⟩, one, length⟩ := sound
  have fits := monthStart_grows year month 13 first (by omega)
  have whole := year_length year
  have next := yearStart_next year
  simp only [dayNumber]
  omega

theorem dayNumber_grows (a b : Date) (before : a < b) : a.dayNumber < b.dayNumber := by
  rcases before with year | ⟨year, month | ⟨month, day⟩⟩
  · have upper := (number_in_year a).2
    have lower := (number_in_year b).1
    have years := yearStart_grows (a.year + 1) b.year year
    omega
  · have months := monthStart_grows a.year a.month b.month a.sound.2.1.1 month
    have length := a.sound.2.2.2
    have one := b.sound.2.2.1
    simp only [dayNumber, ← year]
    omega
  · simp only [dayNumber, ← year, ← month]
    omega

theorem dayNumber_injective (a b : Date) (same : a.dayNumber = b.dayNumber) : a = b := by
  apply eq_of_le
  · intro before
    have less := dayNumber_grows b a before
    omega
  · intro before
    have less := dayNumber_grows a b before
    omega

/-- Days are ordered as their numbers are. -/
theorem dayNumber_lt_iff (a b : Date) : a.dayNumber < b.dayNumber ↔ a < b := by
  constructor
  · intro less
    by_contra notBefore
    rcases le_total b a with ba | ab
    · by_cases after : b < a
      · have more := dayNumber_grows b a after
        omega
      · rw [eq_of_le after ba] at less
        omega
    · rw [eq_of_le ab notBefore] at less
      omega
  · exact dayNumber_grows a b

theorem dayNumber_le_iff (a b : Date) : a.dayNumber ≤ b.dayNumber ↔ a ≤ b := by
  rw [← Int.not_lt, dayNumber_lt_iff]
  exact Iff.rfl

theorem le_refl (d : Date) : d ≤ d := (dayNumber_le_iff d d).mp (Int.le_refl _)

theorem le_of_lt (a b : Date) (before : a < b) : a ≤ b :=
  (dayNumber_le_iff a b).mp (Int.le_of_lt (dayNumber_grows a b before))

def previous? (d : Date) : Option Date :=
  if 1 < d.day then ofParts? d.year d.month (d.day - 1)
  else if 1 < d.month then ofParts? d.year (d.month - 1) (monthLength d.year (d.month - 1))
  else ofParts? (d.year - 1) 12 31

def back? (d : Date) : Nat → Option Date
  | 0 => some d
  | count + 1 => d.previous?.bind fun before => before.back? count

theorem ofParts_some (year : Int) (month day : Nat) (d : Date)
    (built : ofParts? year month day = some d) : d.year = year ∧ d.month = month ∧ d.day = day := by
  unfold ofParts? at built
  split at built
  · cases built
    exact ⟨rfl, rfl, rfl⟩
  · cases built

theorem ofParts_none (year : Int) (month day : Nat) (absent : ofParts? year month day = none) :
    ¬ HasDay year month day := by
  unfold ofParts? at absent
  split at absent
  · cases absent
  · assumption

theorem previous_number (d before : Date) (step : d.previous? = some before) :
    before.dayNumber + 1 = d.dayNumber := by
  have first := d.sound.2.1.1
  have one := d.sound.2.2.1
  unfold previous? at step
  split at step
  · obtain ⟨year, month, day⟩ := ofParts_some _ _ _ _ step
    simp only [dayNumber, year, month, day]
    omega
  · split at step
    · obtain ⟨year, month, day⟩ := ofParts_some _ _ _ _ step
      have next := monthStart_next d.year (d.month - 1) (by omega)
      rw [Nat.sub_add_cancel first] at next
      simp only [dayNumber, year, month, day]
      omega
    · obtain ⟨year, month, day⟩ := ofParts_some _ _ _ _ step
      have january : d.month = 1 := by omega
      have none : monthStart d.year 1 = 0 := rfl
      have whole := year_length (d.year - 1)
      have december : monthStart (d.year - 1) 13 = monthStart (d.year - 1) 12 + 31 := rfl
      have next := yearStart_next (d.year - 1)
      rw [Int.sub_add_cancel] at next
      simp only [dayNumber, year, month, day, january]
      omega

/-- Only 1 January of the first year is without a day before it. -/
theorem previous_none (d other : Date) (absent : d.previous? = none) : d ≤ other := by
  obtain ⟨⟨early, late⟩, ⟨first, last⟩, one, length⟩ := d.sound
  have begin := other.sound.1.1
  have firstOther := other.sound.2.1.1
  have oneOther := other.sound.2.2.1
  unfold previous? at absent
  split at absent
  · exact absurd ⟨⟨early, late⟩, ⟨first, last⟩, by omega, by omega⟩ (ofParts_none _ _ _ absent)
  · split at absent
    · exact absurd ⟨⟨early, late⟩, ⟨by omega, by omega⟩, monthLength_pos _ _, Nat.le_refl _⟩
        (ofParts_none _ _ _ absent)
    · have start : d.year = firstYear := by
        by_contra later
        exact ofParts_none _ _ _ absent ⟨⟨by omega, by omega⟩, by decide, by decide, Nat.le_refl _⟩
      rw [le_iff, Before]
      omega

theorem previous_iff (d before : Date) :
    d.previous? = some before ↔ before.dayNumber + 1 = d.dayNumber := by
  constructor
  · exact previous_number d before
  · intro next
    cases found : d.previous? with
    | none =>
      have least := (dayNumber_le_iff d before).mpr (previous_none d before found)
      omega
    | some other =>
      have step := previous_number d other found
      rw [dayNumber_injective other before (by omega)]

/-- So many days back is so many numbers back. -/
theorem back_iff (d earlier : Date) (count : Nat) :
    d.back? count = some earlier ↔ earlier.dayNumber + count = d.dayNumber := by
  induction count generalizing d with
  | zero =>
    simp only [back?, Option.some.injEq, Nat.cast_zero, Int.add_zero]
    exact ⟨fun same => by rw [same], fun same => (dayNumber_injective _ _ same).symm⟩
  | succ count ih =>
    simp only [back?, Option.bind_eq_some_iff, previous_iff, ih]
    constructor
    · rintro ⟨before, next, rest⟩
      push_cast
      omega
    · intro total
      push_cast at total
      cases found : d.previous? with
      | none =>
        have least := (dayNumber_le_iff d earlier).mpr (previous_none d earlier found)
        omega
      | some before =>
        have step := previous_number d before found
        exact ⟨before, step, by omega⟩

theorem number_bounds (d : Date) :
    yearStart firstYear < d.dayNumber ∧ d.dayNumber ≤ yearStart (lastYear + 1) := by
  have inYear := number_in_year d
  have lower := yearStart_grows firstYear d.year d.sound.1.1
  have upper := yearStart_grows (d.year + 1) (lastYear + 1) (by have := d.sound.1.2; omega)
  omega

/-- However many days are listed, no more than the calendar has are different. -/
theorem distinct_days_few (days : List Date) (distinct : days.Nodup) : days.length ≤ dayCount := by
  have numbers : (days.map dayNumber).Nodup := distinct.map fun a b => dayNumber_injective a b
  have inside : (days.map dayNumber).toFinset ⊆
      Finset.Ioc (yearStart firstYear) (yearStart (lastYear + 1)) := by
    intro number member
    simp only [List.mem_toFinset, List.mem_map] at member
    obtain ⟨d, _, rfl⟩ := member
    exact Finset.mem_Ioc.mpr (number_bounds d)
  have count := Finset.card_le_card inside
  rwa [List.toFinset_card_of_nodup numbers, List.length_map, Int.card_Ioc] at count

/-- The calendar has fewer days than a 32-bit word counts, so no history has more. -/
theorem distinct_days_fit (days : List Date) (distinct : days.Nodup) :
    days.length < UInt32.size :=
  Nat.lt_of_le_of_lt (distinct_days_few days distinct) dayCount_fits

end Date

end HabitLedger
