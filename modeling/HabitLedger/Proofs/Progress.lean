import HabitLedger.Proofs.Earned
import HabitLedger.Proofs.StreakOfSet

/-!
Logging an expense never costs what earlier logging has achieved, as long as its day is not to come.
A day added to a set may become the newest day, join two runs or lie anywhere else; where it becomes
the newest day of a streak that goes on, it is today and the day before it was newest.
-/

namespace HabitLedger

namespace Streak

theorem unbroken_grows (days more : Set Date) (last : Date) (count : Nat) (subset : days ⊆ more)
    (reach : Unbroken days last count) : Unbroken more last count := by
  intro back less
  obtain ⟨day, member, step⟩ := reach back less
  exact ⟨day, subset member, step⟩

theorem unbroken_extends (days : Set Date) (last next : Date) (count : Nat)
    (step : next.previous? = some last) (reach : Unbroken days last count) :
    Unbroken (insert next days) next (count + 1) := by
  intro back less
  cases back with
  | zero => exact ⟨next, Set.mem_insert next days, rfl⟩
  | succ back =>
    obtain ⟨day, member, found⟩ := reach back (by omega)
    exact ⟨day, Set.mem_insert_of_mem next member, by simp [Date.back?, step, found]⟩

theorem greatest_kept (days : Set Date) (newest day : Date) (greatest : IsGreatest days newest)
    (below : day ≤ newest) : IsGreatest (insert day days) newest := by
  refine ⟨Set.mem_insert_of_mem day greatest.1, ?_⟩
  rintro other (rfl | member)
  · exact below
  · exact greatest.2 member

theorem greatest_replaced (days : Set Date) (newest day : Date) (greatest : IsGreatest days newest)
    (above : newest < day) : IsGreatest (insert day days) day := by
  refine ⟨Set.mem_insert day days, ?_⟩
  rintro other (rfl | member)
  · exact Date.le_refl _
  · exact Date.le_trans (greatest.2 member) (Date.le_of_lt newest day above)

structure Keeps (old new : Streak) : Prop where
  current : old.current ≤ new.current
  longest : old.longest ≤ new.longest
  lastDay : ∀ day, old.lastDay = some day → ∃ later, new.lastDay = some later ∧ day ≤ later

section Insert
variable (days : Set Date) (today day : Date) (old new : Streak) (before : OfSet days today old)
  (after : OfSet (insert day days) today new)
include before after

theorem longest_grows : old.longest ≤ new.longest := by
  obtain ⟨last, reach⟩ := before.longest.1
  exact UInt32.le_iff_toNat_le.mpr
    (after.longest.2 ⟨last, unbroken_grows _ _ last _ (Set.subset_insert day days) reach⟩)

theorem lastDay_grows (last : Date) (found : old.lastDay = some last) :
    ∃ later, new.lastDay = some later ∧ last ≤ later := by
  have greatest := (before.lastDay last).mp found
  by_cases above : last < day
  · exact ⟨day, (after.lastDay day).mpr (greatest_replaced days last day greatest above),
      Date.le_of_lt last day above⟩
  · exact ⟨last, (after.lastDay last).mpr (greatest_kept days last day greatest above),
      Date.le_refl last⟩

/-- The newest day of a streak that goes on is yesterday at the earliest, so the only day that can
come after it without being still to come is today. -/
theorem current_grows (past : day ≤ today) : old.current ≤ new.current := by
  rw [UInt32.le_iff_toNat_le]
  rcases before.current_cases with lapsed | ⟨newest, greatest, anchored, reach⟩
  · rw [lapsed]
    exact Nat.zero_le _
  · by_cases above : newest < day
    · have yesterday : today.previous? = some newest := by
        refine anchored.resolve_left fun ahead => ?_
        exact Date.le_trans past ahead above
      have same : day = today := by
        rw [Date.previous_iff] at yesterday
        rw [← Date.dayNumber_le_iff] at past
        rw [← Date.dayNumber_lt_iff] at above
        exact Date.dayNumber_injective day today (by omega)
      subst same
      have now : Anchored day day := Or.inl past
      have more := (after.current day (greatest_replaced days newest day greatest above) now).2
        (unbroken_extends days newest day _ yesterday reach)
      omega
    · exact (after.current newest (greatest_kept days newest day greatest above) anchored).2
        (unbroken_grows _ _ newest _ (Set.subset_insert day days) reach)

theorem insert_keeps (past : day ≤ today) : Keeps old new :=
  { current := current_grows days today day old new before after past
    longest := longest_grows days today day old new before after
    lastDay := lastDay_grows days today day old new before after }

end Insert

theorem Keeps.refl (streak : Streak) : Keeps streak streak :=
  { current := UInt32.le_refl _
    longest := UInt32.le_refl _
    lastDay := fun day found => ⟨day, found, Date.le_refl day⟩ }

theorem Keeps.trans {a b c : Streak} (first : Keeps a b) (second : Keeps b c) : Keeps a c := by
  refine ⟨UInt32.le_trans first.current second.current,
    UInt32.le_trans first.longest second.longest, ?_⟩
  intro day found
  obtain ⟨later, foundLater, order⟩ := first.lastDay day found
  obtain ⟨latest, foundLatest, more⟩ := second.lastDay later foundLater
  exact ⟨latest, foundLatest, Date.le_trans order more⟩

theorem days_insert (before after : List Date) (day : Date) :
    {d | d ∈ before ++ day :: after} = insert day {d | d ∈ before ++ after} := by
  ext d
  simp only [List.mem_append, List.mem_cons, Set.mem_ofPred_eq, Set.mem_insert_iff]
  exact or_left_comm

theorem compute_insert_keeps (before after : List Date) (today day : Date) (past : day ≤ today) :
    Keeps (compute (before ++ after) today) (compute (before ++ day :: after) today) := by
  have old := compute_ofSet (before ++ after) today
  have new := compute_ofSet (before ++ day :: after) today
  rw [days_insert] at new
  exact insert_keeps _ today day _ _ old new past

end Streak

namespace Badge

def ofActivity : List Badge := [.firstStep, .trackerPro, .streakKing, .streakLegend]

theorem earned_grows (old new : Totals) (badge : Badge) (active : badge ∈ ofActivity)
    (expenses : old.expenses ≤ new.expenses) (streak : old.streak ≤ new.streak)
    (earned : Earned old badge) : Earned new badge := by
  cases badge with
  | firstStep => exact Nat.le_trans earned expenses
  | trackerPro => exact Nat.le_trans earned expenses
  | budgetMaster => simp [ofActivity] at active
  | saver => simp [ofActivity] at active
  | streakKing => exact UInt32.le_trans earned streak
  | streakLegend => exact UInt32.le_trans earned streak

end Badge

namespace Standing

structure KeepsProgress (old new : Standing) : Prop where
  streak : Streak.Keeps old.streak new.streak
  badges : ∀ badge ∈ Badge.ofActivity, old.Holds badge → new.Holds badge

/-- Histories that grow, one expense after another and each at any place, by days up to today. -/
inductive Logged (today : Date) : List Expense → List Expense → Prop where
  | nothing (history : List Expense) : Logged today history history
  | expense (history before after : List Expense) (expense : Expense) :
      Logged today history (before ++ after) → expense.day ≤ today →
        Logged today history (before ++ expense :: after)

theorem insert_keeps_progress (profile : Profile) (before after : List Expense) (expense : Expense)
    (today : Date) (past : expense.day ≤ today) :
    KeepsProgress (compute profile (before ++ after) today)
      (compute profile (before ++ expense :: after) today) := by
  have streak : Streak.Keeps (compute profile (before ++ after) today).streak
      (compute profile (before ++ expense :: after) today).streak := by
    simpa only [compute, List.map_append, List.map_cons] using
      Streak.compute_insert_keeps (before.map (·.day)) (after.map (·.day)) today expense.day past
  refine ⟨streak, ?_⟩
  intro badge active held
  rw [holds_iff] at held ⊢
  refine Badge.earned_grows _ _ badge active ?_ streak.current held
  simp only [compute, Totals.ofExpenses, List.length_append, List.length_cons]
  omega

theorem logged_keeps_progress (profile : Profile) (today : Date) (history grown : List Expense)
    (logged : Logged today history grown) :
    KeepsProgress (compute profile history today) (compute profile grown today) := by
  induction logged with
  | nothing => exact ⟨Streak.Keeps.refl _, fun _ _ held => held⟩
  | expense before after expense _ past ih =>
    have step := insert_keeps_progress profile before after expense today past
    exact ⟨ih.streak.trans step.streak,
      fun badge active held => step.badges badge active (ih.badges badge active held)⟩

/-- One expense of a day up to today, put anywhere, loses nothing, and so does any sequence of them;
days still to come may already be there. -/
theorem progress_kept (profile : Profile) (today : Date) :
    (∀ before after expense, expense.day ≤ today →
      KeepsProgress (compute profile (before ++ after) today)
        (compute profile (before ++ expense :: after) today)) ∧
    ∀ history grown, Logged today history grown →
      KeepsProgress (compute profile history today) (compute profile grown today) :=
  ⟨fun before after expense past => insert_keeps_progress profile before after expense today past,
    fun history grown logged => logged_keeps_progress profile today history grown logged⟩

/-- A late entry for yesterday, while an expense of the day after tomorrow is already there. -/
theorem progress_kept_late_entry :
    let today : Date := ⟨2025, 3, 1, by decide⟩
    let planned := Expense.plain Uuid.zero ⟨2025, 3, 3, by decide⟩ 12 "Rent"
    let late := Expense.plain Uuid.zero ⟨2025, 2, 28, by decide⟩ 5 "Food"
    late.day ≤ today ∧
      KeepsProgress (compute (Profile.plain Uuid.zero "" 100) ([planned] ++ []) today)
        (compute (Profile.plain Uuid.zero "" 100) ([planned] ++ late :: []) today) :=
  ⟨by decide, (progress_kept _ _).1 _ _ _ (by decide)⟩

-- The bound is sharp: a day to come, past a gap, becomes the newest day and leaves the run behind.
example :
    (Streak.compute [⟨2025, 2, 28, by decide⟩, ⟨2025, 3, 1, by decide⟩]
      ⟨2025, 3, 1, by decide⟩).current.toNat = 2 ∧
    (Streak.compute [⟨2025, 2, 28, by decide⟩, ⟨2025, 3, 1, by decide⟩, ⟨2025, 3, 3, by decide⟩]
      ⟨2025, 3, 1, by decide⟩).current.toNat = 1 := by
  constructor <;> cbv

end Standing

end HabitLedger
