import HabitLedger.Text.Digits

/-!
Calendar days of the Gregorian calendar, carried back before its introduction and through a year 0.
A day has two views: year, month and day of the month, by which days are ordered, and its number on
one line of days, by which gaps are measured.
-/

namespace HabitLedger

namespace Calendar

def firstYear : Int := -262143

def lastYear : Int := 262142

def Leap (year : Int) : Prop := year % 4 = 0 ∧ (year % 100 ≠ 0 ∨ year % 400 = 0)

instance (year : Int) : Decidable (Leap year) := inferInstanceAs (Decidable (_ ∧ _))

def monthLength (year : Int) (month : Nat) : Nat :=
  if month = 2 then if Leap year then 29 else 28
  else if month = 4 ∨ month = 6 ∨ month = 9 ∨ month = 11 then 30
  else 31

def HasDay (year : Int) (month day : Nat) : Prop :=
  (firstYear ≤ year ∧ year ≤ lastYear) ∧ (1 ≤ month ∧ month ≤ 12) ∧
    1 ≤ day ∧ day ≤ monthLength year month

instance (year : Int) (month day : Nat) : Decidable (HasDay year month day) :=
  inferInstanceAs (Decidable ((_ ∧ _) ∧ (_ ∧ _) ∧ _ ∧ _))

def yearStart (year : Int) : Int :=
  365 * (year - 1) + (year - 1) / 4 - (year - 1) / 100 + (year - 1) / 400

def monthStart (year : Int) : Nat → Nat
  | 0 | 1 => 0
  | month + 2 => monthStart year (month + 1) + monthLength year (month + 1)

end Calendar

structure Date where
  year : Int
  month : Nat
  day : Nat
  sound : Calendar.HasDay year month day
  deriving DecidableEq

namespace Date

open Calendar

def ofParts? (year : Int) (month day : Nat) : Option Date :=
  if sound : HasDay year month day then some ⟨year, month, day, sound⟩ else none

def Before (a b : Date) : Prop :=
  a.year < b.year ∨ a.year = b.year ∧ (a.month < b.month ∨ a.month = b.month ∧ a.day < b.day)

instance : LT Date := ⟨Before⟩

instance (a b : Date) : Decidable (a < b) :=
  inferInstanceAs (Decidable (_ ∨ _ ∧ (_ ∨ _ ∧ _)))

instance : LE Date := ⟨fun a b => ¬ b < a⟩

instance (a b : Date) : Decidable (a ≤ b) := inferInstanceAs (Decidable (¬ _))

theorem le_iff {a b : Date} : a ≤ b ↔ ¬ Before b a := Iff.rfl

theorem le_trans {a b c : Date} (ab : a ≤ b) (bc : b ≤ c) : a ≤ c := by
  simp only [le_iff, Before] at *
  omega

theorem le_total (a b : Date) : a ≤ b ∨ b ≤ a := by
  simp only [le_iff, Before]
  omega

theorem eq_of_le {a b : Date} (ab : a ≤ b) (ba : b ≤ a) : a = b := by
  obtain ⟨year, month, day, _⟩ := a
  obtain ⟨year', month', day', _⟩ := b
  simp only [le_iff, Before] at ab ba
  have : year = year' ∧ month = month' ∧ day = day' := by omega
  simpa using this

/-- The place of the day on the line of days; 1 January of year 1 has number 1. -/
def dayNumber (d : Date) : Int := yearStart d.year + monthStart d.year d.month + d.day

def ofDayNumber? (number : Int) : Option Date :=
  let elapsed := number - 1
  let cycles := elapsed / 146097
  -- No year is longer than 366 days, so this is the year or the one before it.
  let early := 400 * cycles + elapsed % 146097 / 366 + 1
  let year := if yearStart (early + 1) ≤ elapsed then early + 1 else early
  let inYear := (elapsed - yearStart year).toNat
  ((List.range' 1 12).reverse.find? fun month => monthStart year month ≤ inYear).bind fun month =>
    ofParts? year month (inYear - monthStart year month + 1)

def plusDays? (d : Date) (count : Int) : Option Date := ofDayNumber? (d.dayNumber + count)

/-- The year in four digits; outside the years 0 to 9999 with a sign and at least four digits. -/
def yearText (year : Int) : List Char :=
  if 0 ≤ year ∧ year ≤ 9999 then Text.padded 4 year.toNat
  else (if year < 0 then '-' else '+') :: Text.padded 4 year.natAbs

def chars (d : Date) : List Char :=
  yearText d.year ++ '-' :: Text.padded 2 d.month ++ '-' :: Text.padded 2 d.day

def text (d : Date) : String := String.ofList d.chars

end Date

end HabitLedger
