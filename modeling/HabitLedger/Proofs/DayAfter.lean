import HabitLedger.Proofs.DayRuns

/-!
The day after. A calendar goes on within a month, from the last day of a month to the first of the
next one, and from 31 December to 1 January. The order of days by year, month and day of the month
is the order of their numbers, and a number one higher is the day after; so the days of a history,
sorted by their parts, stand a day or more apart when measured by their numbers.
-/

namespace HabitLedger

namespace Calendar

/-- Every fourth year is a leap year, but a century only when it is a fourth one. -/
theorem leap_iff (year : Int) : Leap year ↔ 4 ∣ year ∧ (100 ∣ year → 400 ∣ year) := by
  unfold Leap
  omega

end Calendar

namespace Date

open Calendar

/-- The last day of its month: a 31st, the 30th of a month that has thirty days, 29 February, or
28 February when the year is not a leap year. -/
def EndsMonth (d : Date) : Prop :=
  d.day = 31 ∨ (d.day = 30 ∧ d.month ∈ [4, 6, 9, 11]) ∨
    (d.month = 2 ∧ (d.day = 29 ∨ (d.day = 28 ∧ ¬ (4 ∣ d.year ∧ (100 ∣ d.year → 400 ∣ d.year)))))

instance (d : Date) : Decidable d.EndsMonth := inferInstanceAs (Decidable (_ ∨ _ ∨ _))

inductive Successor (d next : Date) : Prop
  | inMonth (year : next.year = d.year) (month : next.month = d.month) (day : next.day = d.day + 1)
  | newMonth (ends : d.EndsMonth) (year : next.year = d.year) (month : next.month = d.month + 1)
      (first : next.day = 1)
  | newYear (december : d.month = 12) (last : d.day = 31) (year : next.year = d.year + 1)
      (january : next.month = 1) (first : next.day = 1)

/-- The last day of a month is the one whose number is the length of the month. -/
theorem endsMonth_iff (d : Date) : d.EndsMonth ↔ d.day = monthLength d.year d.month := by
  have within := d.sound.2.2.2
  have leap := leap_iff d.year
  simp only [EndsMonth, List.mem_cons, List.not_mem_nil, or_false]
  unfold monthLength at within ⊢
  split at within
  · next february =>
    rw [if_pos february]
    split at within
    · next longYear =>
      rw [if_pos longYear]
      have fourth := leap.mp longYear
      omega
    · next shortYear =>
      rw [if_neg shortYear]
      have unlike := mt leap.mpr shortYear
      omega
  · next other =>
    rw [if_neg other]
    split at within
    · next thirty =>
      rw [if_pos thirty]
      omega
    · next thirtyOne =>
      rw [if_neg thirtyOne]
      omega

-- The year 0 is a leap year, the year -100 is not.
example : ¬ (⟨0, 2, 28, by decide⟩ : Date).EndsMonth ∧
    (⟨-100, 2, 28, by decide⟩ : Date).EndsMonth := by
  decide

/-- The day after has the next number. -/
theorem Successor.number (d next : Date) (step : d.Successor next) :
    next.dayNumber = d.dayNumber + 1 := by
  have first := d.sound.2.1.1
  cases step with
  | inMonth year month day =>
    simp only [dayNumber, year, month, day]
    omega
  | newMonth ends year month day =>
    have length := (endsMonth_iff d).mp ends
    have start := monthStart_next d.year d.month first
    simp only [dayNumber, year, month, day]
    omega
  | newYear december last year month day =>
    have whole := year_length d.year
    have start : monthStart d.year 13 = monthStart d.year 12 + 31 := rfl
    have january : monthStart (d.year + 1) 1 = 0 := rfl
    have years := yearStart_next d.year
    simp only [dayNumber, year, month, day, december, last, january]
    omega

theorem successor_previous (d next : Date) (before : next.previous? = some d) :
    d.Successor next := by
  have first := next.sound.2.1.1
  have one := next.sound.2.2.1
  unfold previous? at before
  split at before
  · obtain ⟨year, month, day⟩ := ofParts_some _ _ _ _ before
    exact .inMonth year.symm month.symm (by omega)
  · split at before
    · obtain ⟨year, month, day⟩ := ofParts_some _ _ _ _ before
      refine .newMonth ((endsMonth_iff d).mpr ?_) year.symm (by omega) (by omega)
      rw [year, month, day]
    · obtain ⟨year, month, day⟩ := ofParts_some _ _ _ _ before
      exact .newYear month day (by omega) (by omega) (by omega)

theorem successor_iff (d next : Date) : d.Successor next ↔ next.dayNumber = d.dayNumber + 1 := by
  constructor
  · exact Successor.number d next
  · intro number
    apply successor_previous
    exact (previous_iff next d).mpr number.symm

theorem later_iff (a b : Date) : b < a ↔ 0 < a.dayNumber - b.dayNumber := by
  rw [← dayNumber_lt_iff]
  omega

theorem same_iff (a b : Date) : a = b ↔ a.dayNumber - b.dayNumber = 0 := by
  constructor
  · rintro rfl
    omega
  · intro none
    apply dayNumber_injective
    omega

end Date

namespace Streak

theorem distinctDays_apart (days : List Date) :
    (distinctDays days).IsChain fun newer older => 1 ≤ newer.dayNumber - older.dayNumber := by
  apply List.Pairwise.isChain
  apply (distinctDays_falling days).imp
  intro newer older below
  exact (Date.later_iff newer older).mp below

/-- Later by year, month and day of the month is later on the line of days, and one later there is
the day after, which is what runs of days ask for. Each day of a history comes out, and from each to
the next one back a day or more goes by. -/
theorem order_is_distance :
    (∀ a b : Date, (b < a ↔ 0 < a.dayNumber - b.dayNumber) ∧
      (a = b ↔ a.dayNumber - b.dayNumber = 0) ∧
      (a.dayNumber - b.dayNumber = 1 ↔ b.Successor a) ∧
      (follows a b = true ↔ b.Successor a)) ∧
    ∀ days : List Date,
      ((distinctDays days).IsChain fun newer older => 1 ≤ newer.dayNumber - older.dayNumber) ∧
      ∀ day, day ∈ distinctDays days ↔ day ∈ days := by
  refine ⟨?_, fun days => ⟨distinctDays_apart days, mem_distinctDays days⟩⟩
  intro a b
  refine ⟨Date.later_iff a b, Date.same_iff a b, ?_, ?_⟩
  · rw [Date.successor_iff]
    omega
  · rw [Date.successor_iff, follows_iff]
    omega

end Streak

end HabitLedger
