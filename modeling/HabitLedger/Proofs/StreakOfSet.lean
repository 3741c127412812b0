import HabitLedger.Proofs.DayRuns
import Mathlib.Order.Bounds.Basic

/-!
What a streak is, said of a set of days: no list, no sorting and no runs, only which days are there
and which day comes before which in the calendar. The streak of a history is the one streak that the
set of its days has, whatever their order and however often a day comes.
-/

namespace HabitLedger.Streak

/-- A newest day holds a streak on that day, on the day after it and, still to come, on any day
before it. -/
def Anchored (newest today : Date) : Prop := today ≤ newest ∨ today.previous? = some newest

structure OfSet (days : Set Date) (today : Date) (streak : Streak) : Prop where
  lastDay : ∀ day, streak.lastDay = some day ↔ IsGreatest days day
  longest : IsGreatest {count | ∃ last, Unbroken days last count} streak.longest.toNat
  current : ∀ newest, IsGreatest days newest → Anchored newest today →
    IsGreatest {count | Unbroken days newest count} streak.current.toNat
  lapsed : (∀ newest, IsGreatest days newest → ¬ Anchored newest today) → streak.current = 0

theorem alive_iff_anchored (newest today : Date) : Alive newest today ↔ Anchored newest today := by
  rw [Alive, graceDays, Anchored, Date.previous_iff, ← Date.dayNumber_le_iff]
  omega

theorem greatest_unique (days : Set Date) (a b : Date) (first : IsGreatest days a)
    (second : IsGreatest days b) : a = b :=
  Date.eq_of_le (second.2 first.1) (first.2 second.1)

theorem greatest_head (newest : Date) (older : List Date) (falling : Falling (newest :: older)) :
    IsGreatest {day | day ∈ newest :: older} newest := by
  refine ⟨List.mem_cons_self, ?_⟩
  intro day member
  rcases List.mem_cons.mp member with rfl | member
  · exact Date.le_refl day
  · exact Date.le_of_lt day newest (List.rel_of_pairwise_cons falling member)

/-- A property of counts that holds exactly up to a bound has that bound as its greatest count. -/
theorem greatest_count (Holds : Nat → Prop) (bound : Nat)
    (upTo : ∀ count, Holds count ↔ count ≤ bound) : IsGreatest {count | Holds count} bound :=
  ⟨(upTo bound).mpr (Nat.le_refl _), fun count holds => (upTo count).mp holds⟩

theorem word_of_fitting (count total : Nat) (fits : total < UInt32.size) (small : count ≤ total) :
    (UInt32.ofNat count).toNat = count :=
  UInt32.toNat_ofNat_of_lt' (Nat.lt_of_le_of_lt small fits)

theorem longest_greatest (days : List Date) (falling : Falling days) :
    IsGreatest {count | ∃ last, Unbroken {day | day ∈ days} last count}
      (UInt32.ofNat (longestRun days)).toNat := by
  rw [word_of_fitting _ days.length (Date.distinct_days_fit days (falling_nodup days falling))
    (longestRun_le_length days)]
  exact greatest_count _ _ fun count => longestRun_reach days count falling

theorem current_greatest (newest : Date) (older : List Date) (falling : Falling (newest :: older)) :
    IsGreatest {count | Unbroken {day | day ∈ newest :: older} newest count}
      (UInt32.ofNat (newestRun (newest :: older))).toNat := by
  rw [word_of_fitting _ _ (Date.distinct_days_fit _ (falling_nodup _ falling))
    (newestRun_le_length (newest :: older))]
  exact greatest_count _ _ fun count => newestRun_reach newest older count falling

theorem ofDistinct_cons (today newest : Date) (older : List Date) :
    ofDistinct today (newest :: older) =
      { current := if Alive newest today then UInt32.ofNat (newestRun (newest :: older)) else 0
        longest := UInt32.ofNat (longestRun (newest :: older))
        lastDay := some newest } := rfl

theorem ofDistinct_ofSet (days : List Date) (today : Date) (falling : Falling days) :
    OfSet {day | day ∈ days} today (ofDistinct today days) := by
  cases days with
  | nil =>
    have nowhere : ∀ day, ¬ IsGreatest {day : Date | day ∈ ([] : List Date)} day :=
      fun day greatest => List.not_mem_nil greatest.1
    exact
      { lastDay := fun day => ⟨nofun, fun greatest => absurd greatest (nowhere day)⟩
        longest := longest_greatest [] falling
        current := fun newest greatest => absurd greatest (nowhere newest)
        lapsed := fun _ => rfl }
  | cons newest older =>
    have head := greatest_head newest older falling
    rw [ofDistinct_cons]
    exact
      { lastDay := fun day =>
          ⟨fun same => Option.some.inj same ▸ head,
            fun greatest => congrArg some (greatest_unique _ _ _ head greatest)⟩
        longest := longest_greatest _ falling
        current := by
          intro other greatest anchored
          have same := greatest_unique _ _ _ greatest head
          subst same
          rw [if_pos ((alive_iff_anchored other today).mpr anchored)]
          exact current_greatest other older falling
        lapsed := by
          intro lapsed
          exact if_neg fun alive =>
            lapsed newest head ((alive_iff_anchored newest today).mp alive) }

theorem compute_ofSet (days : List Date) (today : Date) :
    OfSet {day | day ∈ days} today (compute days today) := by
  have same : {day | day ∈ distinctDays days} = {day | day ∈ days} :=
    Set.ext fun day => mem_distinctDays days day
  rw [← same]
  exact ofDistinct_ofSet _ today (distinctDays_falling days)

/-- A set of days has one streak on a day. -/
theorem OfSet.unique {days : Set Date} {today : Date} {a b : Streak} (first : OfSet days today a)
    (second : OfSet days today b) : a = b := by
  have longest : a.longest = b.longest :=
    UInt32.toNat_inj.mp (first.longest.unique second.longest)
  have lastDay : a.lastDay = b.lastDay := by
    apply Option.ext
    intro day
    rw [first.lastDay, second.lastDay]
  have current : a.current = b.current := by
    by_cases held : ∃ newest, IsGreatest days newest ∧ Anchored newest today
    · obtain ⟨newest, greatest, anchored⟩ := held
      exact UInt32.toNat_inj.mp
        ((first.current newest greatest anchored).unique (second.current newest greatest anchored))
    · have lapsed : ∀ newest, IsGreatest days newest → ¬ Anchored newest today :=
        fun newest greatest anchored => held ⟨newest, greatest, anchored⟩
      rw [first.lapsed lapsed, second.lapsed lapsed]
  cases a
  cases b
  simp_all

/-- A current streak is either nothing or reaches back from a newest day that still holds it. -/
theorem OfSet.current_cases {days : Set Date} {today : Date} {streak : Streak}
    (told : OfSet days today streak) :
    streak.current = 0 ∨ ∃ newest, IsGreatest days newest ∧ Anchored newest today ∧
      Unbroken days newest streak.current.toNat := by
  by_cases held : ∃ newest, IsGreatest days newest ∧ Anchored newest today
  · obtain ⟨newest, greatest, anchored⟩ := held
    exact Or.inr ⟨newest, greatest, anchored, (told.current newest greatest anchored).1⟩
  · exact Or.inl (told.lapsed fun newest greatest anchored => held ⟨newest, greatest, anchored⟩)

/-- The streak of a history is the streak of the set of its days, and of that set and today alone.
Without days there is nothing to count. -/
theorem compute_exact (days : List Date) (today : Date) :
    (days = [] → compute days today = ⟨0, 0, none⟩) ∧
    (∀ streak, compute days today = streak ↔ OfSet {day | day ∈ days} today streak) ∧
    ∀ others : List Date, (∀ day, day ∈ others ↔ day ∈ days) →
      compute others today = compute days today := by
  refine ⟨?_, ?_, ?_⟩
  · rintro rfl
    simp [compute, distinctDays, List.eraseReps, List.eraseRepsBy, ofDistinct, empty]
  · intro streak
    constructor
    · rintro rfl
      exact compute_ofSet days today
    · exact (compute_ofSet days today).unique
  · intro others same
    have sets : {day | day ∈ others} = {day | day ∈ days} := Set.ext same
    have other := compute_ofSet others today
    rw [sets] at other
    exact other.unique (compute_ofSet days today)

end HabitLedger.Streak
