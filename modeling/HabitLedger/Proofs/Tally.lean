import HabitLedger.Proofs.Progress

/-!
A streak counted as the days come. A tally keeps the newest day, how many days in a row end there
and the most in a row so far; a day that is not before the newest one moves it on without a look at
the history. What it shows is the streak that the whole history has.
-/

namespace HabitLedger.Streak

instance (newest today : Date) : Decidable (Anchored newest today) :=
  inferInstanceAs (Decidable (_ ∨ _))

structure Tally where
  newest : Date
  run : Nat
  longest : Nat
  deriving DecidableEq

namespace Tally

def start (day : Date) : Tally := ⟨day, 1, 1⟩

/-- How many days in a row end at a day that is logged next. -/
def runTo (tally : Tally) (day : Date) : Nat :=
  if day = tally.newest then tally.run
  else if day.previous? = some tally.newest then tally.run + 1
  else 1

def log (tally : Tally) (day : Date) : Tally :=
  ⟨day, tally.runTo day, max tally.longest (tally.runTo day)⟩

def ofHistory (days : List Date) (newest : Date) : Tally :=
  ⟨newest, (compute days newest).current.toNat, (compute days newest).longest.toNat⟩

structure Shows (tally : Tally) (today : Date) (streak : Streak) : Prop where
  lastDay : streak.lastDay = some tally.newest
  longest : streak.longest.toNat = tally.longest
  current : streak.current.toNat = if Anchored tally.newest today then tally.run else 0

structure Tracks (tally : Tally) (days : Set Date) : Prop where
  newest : IsGreatest days tally.newest
  run : ∀ count, Unbroken days tally.newest count ↔ count ≤ tally.run
  longest : ∀ count, (∃ last, Unbroken days last count) ↔ count ≤ tally.longest

/-- Histories that were logged in the order of their days, each expense at any place, with the tally
that was kept. -/
inductive Kept : Tally → List Date → Prop where
  | first (day : Date) : Kept (start day) [day]
  | next (tally : Tally) (before after : List Date) (day : Date) :
      Kept tally (before ++ after) → tally.newest ≤ day →
        Kept (tally.log day) (before ++ day :: after)

end Tally

section NewestDay
variable (days : Set Date) (latest day : Date) (count : Nat)

theorem unbroken_upTo (bound : Nat)
    (greatest : IsGreatest {count | Unbroken days latest count} bound) :
    Unbroken days latest count ↔ count ≤ bound := by
  constructor
  · exact fun reach => greatest.2 reach
  · intro few back less
    exact greatest.1 back (Nat.lt_of_lt_of_le less few)

theorem stretch_upTo (bound : Nat)
    (greatest : IsGreatest {count | ∃ last, Unbroken days last count} bound) :
    (∃ last, Unbroken days last count) ↔ count ≤ bound := by
  constructor
  · exact fun reach => greatest.2 reach
  · intro few
    obtain ⟨last, reach⟩ := greatest.1
    exact ⟨last, fun back less => reach back (Nat.lt_of_lt_of_le less few)⟩

theorem unbroken_next (step : day.previous? = some latest) :
    Unbroken (insert day days) day (count + 1) ↔ Unbroken days latest count := by
  constructor
  · rw [unbroken_iff, unbroken_iff]
    rw [Date.previous_iff] at step
    intro reach back less
    obtain ⟨other, member, number⟩ := reach (back + 1) (by omega)
    rcases member with rfl | member
    · omega
    · exact ⟨other, member, by omega⟩
  · exact unbroken_extends days latest day count step

/-- Without the day before it a day begins a run of its own. -/
theorem unbroken_apart (apart : ∀ other ∈ days, day.previous? ≠ some other) :
    Unbroken (insert day days) day count ↔ count ≤ 1 := by
  constructor
  · intro reach
    by_contra more
    obtain ⟨other, member, step⟩ := reach 1 (by omega)
    have number := (Date.back_iff day other 1).mp step
    rcases member with rfl | member
    · omega
    · exact apart other member ((Date.previous_iff day other).mpr number)
  · intro few back less
    have first : back = 0 := by omega
    subst first
    exact ⟨day, Set.mem_insert day days, rfl⟩

/-- Only a stretch that ends at the new day can be new; one that ended later would have to start
there. -/
theorem stretch_insert (below : ∀ other ∈ days, other < day) :
    (∃ last, Unbroken (insert day days) last count) ↔
      (∃ last, Unbroken days last count) ∨ Unbroken (insert day days) day count := by
  constructor
  · rintro ⟨last, reach⟩
    by_cases newest : last = day
    · exact Or.inr (newest ▸ reach)
    · refine Or.inl ⟨last, ?_⟩
      rw [unbroken_iff] at reach ⊢
      intro back less
      -- The stretch ends at an older day, so all of it lies below the new one.
      obtain ⟨ending, endMember, endNumber⟩ := reach 0 (by omega)
      have ends : ending = last := Date.dayNumber_injective _ _ (by omega)
      subst ends
      have early := (Date.dayNumber_lt_iff ending day).mpr
        (below ending (endMember.resolve_left newest))
      obtain ⟨other, member, number⟩ := reach back less
      rcases member with rfl | member
      · omega
      · exact ⟨other, member, number⟩
  · rintro (⟨last, reach⟩ | reach)
    · exact ⟨last, unbroken_grows days _ last count (Set.subset_insert day days) reach⟩
    · exact ⟨day, reach⟩

end NewestDay

namespace Tally
variable (tally : Tally) (days : Set Date) (day : Date)

theorem start_tracks : Tracks (start day) {day} := by
  have single : insert day (∅ : Set Date) = {day} := by simp
  have own (count : Nat) : Unbroken {day} day count ↔ count ≤ 1 := by
    rw [← single]
    exact unbroken_apart ∅ day count fun _ member => absurd member (Set.notMem_empty _)
  have newest : IsGreatest {day} day :=
    ⟨rfl, fun other member => (Set.mem_singleton_iff.mp member) ▸ Date.le_refl day⟩
  refine ⟨newest, own, fun count => ?_⟩
  rw [← single, stretch_insert ∅ day count fun _ member => absurd member (Set.notMem_empty _),
    single, own]
  constructor
  · rintro (⟨last, reach⟩ | few)
    · by_contra more
      obtain ⟨other, member, _⟩ := reach 0 (by change ¬ count ≤ 1 at more; omega)
      exact Set.notMem_empty other member
    · exact few
  · exact Or.inr

section Log
variable (tracks : Tracks tally days)
include tracks

/-- The run to a later day is as long as the days are unbroken up to it. -/
theorem runTo_exact (later : tally.newest < day) (count : Nat) :
    Unbroken (insert day days) day count ↔ count ≤ tally.runTo day := by
  have other : day ≠ tally.newest := by
    rintro rfl
    rw [← Date.dayNumber_lt_iff] at later
    omega
  rw [runTo, if_neg other]
  split
  · next step =>
    cases count with
    | zero => exact ⟨fun _ => Nat.zero_le _, fun _ _ none => absurd none (Nat.not_lt_zero _)⟩
    | succ count => rw [unbroken_next days tally.newest day count step, tracks.run]; omega
  · next apart =>
    -- Only the newest of the days could be the one before the new day, and it is not.
    refine unbroken_apart days day count fun other member step => ?_
    have below := (Date.dayNumber_le_iff other tally.newest).mpr (tracks.newest.2 member)
    have number := (Date.previous_iff day other).mp step
    have above := (Date.dayNumber_lt_iff tally.newest day).mpr later
    have same : other = tally.newest := Date.dayNumber_injective _ _ (by omega)
    exact apart (same ▸ step)

theorem run_le_longest : tally.run ≤ tally.longest :=
  (tracks.longest tally.run).mp ⟨tally.newest, (tracks.run tally.run).mpr (Nat.le_refl _)⟩

/-- A tally that tracks some days tracks them with the next one as well. -/
theorem log_tracks (later : tally.newest ≤ day) : Tracks (tally.log day) (insert day days) := by
  by_cases same : day = tally.newest
  · subst same
    have run : tally.runTo tally.newest = tally.run := if_pos rfl
    rw [Set.insert_eq_of_mem tracks.newest.1, log, run,
      Nat.max_eq_left (run_le_longest tally days tracks)]
    exact tracks
  · have above : tally.newest < day := by
      by_contra notBefore
      exact same (Date.eq_of_le notBefore later)
    have below (other : Date) (member : other ∈ days) : other < day := by
      rw [← Date.dayNumber_lt_iff] at above ⊢
      have order := (Date.dayNumber_le_iff other tally.newest).mpr (tracks.newest.2 member)
      omega
    refine ⟨greatest_replaced days tally.newest day tracks.newest above,
      runTo_exact tally days day tracks above, fun count => ?_⟩
    rw [stretch_insert days day count below, tracks.longest,
      runTo_exact tally days day tracks above]
    exact le_max_iff.symm

end Log

theorem tracks_shows (today : Date) (streak : Streak) (tracks : Tracks tally days)
    (told : OfSet days today streak) : Shows tally today streak := by
  refine ⟨(told.lastDay tally.newest).mpr tracks.newest,
    told.longest.unique (greatest_count _ _ tracks.longest), ?_⟩
  split
  · next anchored =>
    exact (told.current tally.newest tracks.newest anchored).unique
      (greatest_count _ _ tracks.run)
  · next lapsed =>
    rw [told.lapsed fun other greatest anchored =>
      lapsed (greatest_unique days other tally.newest greatest tracks.newest ▸ anchored)]
    rfl

theorem ofHistory_tracks (history : List Date) (newest : Date)
    (greatest : IsGreatest {d | d ∈ history} newest) :
    Tracks (ofHistory history newest) {d | d ∈ history} := by
  have told := compute_ofSet history newest
  have own := told.current newest greatest (Or.inl (Date.le_refl newest))
  exact ⟨greatest, fun count => unbroken_upTo _ newest count _ own,
    fun count => stretch_upTo _ count _ told.longest⟩

theorem kept_tracks (history : List Date) (kept : Kept tally history) :
    Tracks tally {d | d ∈ history} := by
  induction kept with
  | first day =>
    have single : {d | d ∈ [day]} = {day} := by
      ext d
      simp
    rw [single]
    exact start_tracks day
  | next tally before after day _ later ih =>
    rw [days_insert]
    exact log_tracks tally _ day ih later

theorem kept_of_order (history rest : List Date) (kept : Kept tally history)
    (order : (tally.newest :: rest).Pairwise (· ≤ ·)) :
    Kept (rest.foldl log tally) (history ++ rest) := by
  induction rest generalizing tally history with
  | nil => simpa using kept
  | cons day rest ih =>
    have later := List.rel_of_pairwise_cons order List.mem_cons_self
    have next : Kept (tally.log day) (history ++ day :: []) :=
      .next tally history [] day (by simpa using kept) later
    simpa using ih (tally.log day) (history ++ [day]) next order.tail

end Tally

/-- One day that is not before the newest one, put anywhere into a history, moves its tally on as
the days alone say. So does every further one, and a run of days in their order, counted from its
first day on, shows at each of them the streak of all the days so far. -/
theorem tally_agrees :
    (∀ before after newest day, IsGreatest {d | d ∈ before ++ after} newest → newest ≤ day →
      ∀ today, ((Tally.ofHistory (before ++ after) newest).log day).Shows today
        (compute (before ++ day :: after) today)) ∧
    (∀ tally history, Tally.Kept tally history →
      ∀ today, tally.Shows today (compute history today)) ∧
    ∀ first rest, (first :: rest).Pairwise (· ≤ ·) → ∀ count today,
      ((rest.take count).foldl Tally.log (.start first)).Shows today
        (compute (first :: rest.take count) today) := by
  have shown (tally : Tally) (history : List Date) (kept : Tally.Kept tally history)
      (today : Date) : tally.Shows today (compute history today) :=
    Tally.tracks_shows tally _ today _ (Tally.kept_tracks tally history kept)
      (compute_ofSet history today)
  refine ⟨?_, shown, ?_⟩
  · intro before after newest day greatest later today
    have told := compute_ofSet (before ++ day :: after) today
    rw [days_insert] at told
    exact Tally.tracks_shows _ _ today _
      (Tally.log_tracks _ _ day (Tally.ofHistory_tracks _ newest greatest) later) told
  · intro first rest order count today
    have part : (first :: rest.take count).Pairwise (· ≤ ·) :=
      order.sublist (List.Sublist.cons_cons first (List.take_sublist count rest))
    exact shown _ _ (Tally.kept_of_order (.start first) [first] _ (.first first) part) today

/-- The day after 28 February of a leap year, logged between two expenses of that day. -/
theorem tally_agrees_leap_day :
    let eve : Date := ⟨2024, 2, 28, by decide⟩
    let leap : Date := ⟨2024, 2, 29, by decide⟩
    let march : Date := ⟨2024, 3, 1, by decide⟩
    IsGreatest {d | d ∈ [eve] ++ [eve]} eve ∧ eve ≤ leap ∧
      ((Tally.ofHistory ([eve] ++ [eve]) eve).log leap).Shows march
        (compute ([eve] ++ leap :: [eve]) march) ∧
      Tally.Kept ((Tally.start eve).log leap) ([] ++ leap :: [eve]) ∧
      ((Tally.start eve).log leap).Shows march (compute ([] ++ leap :: [eve]) march) ∧
      (eve :: [leap, march]).Pairwise (· ≤ ·) ∧
      (([leap, march].take 2).foldl Tally.log (.start eve)).Shows march
        (compute (eve :: [leap, march].take 2) march) := by
  intro eve leap march
  have greatest : IsGreatest {d | d ∈ [eve] ++ [eve]} eve :=
    ⟨List.mem_cons_self, fun day member => by simp_all [Date.le_refl]⟩
  have later : eve ≤ leap := by decide
  have kept : Tally.Kept ((Tally.start eve).log leap) ([] ++ leap :: [eve]) :=
    .next _ [] [eve] leap (.first eve) later
  have order : (eve :: [leap, march]).Pairwise (· ≤ ·) := by decide
  exact ⟨greatest, later, tally_agrees.1 _ _ eve leap greatest later march, kept,
    tally_agrees.2.1 _ _ kept march, order, tally_agrees.2.2 eve _ order 2 march⟩

end HabitLedger.Streak
