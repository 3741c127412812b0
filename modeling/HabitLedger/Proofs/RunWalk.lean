import HabitLedger.Proofs.StreakOfSet
import Mathlib.Data.List.SplitLengths

/-!
Counting runs in one pass. A walk down falling days keeps the lengths of the runs that have ended,
the length of the run it is in and the day it came from; the run it is in is counted once the days
are over. What it counts are the lengths of the maximal runs, and no other cut of the days is one
into maximal runs.
-/

namespace HabitLedger.Streak

structure Walk where
  closed : List UInt32
  length : UInt32
  last : Option Date

namespace Walk

def start : Walk := ⟨[], 0, none⟩

def step (walk : Walk) (day : Date) : Walk :=
  match walk.last with
  | none => ⟨walk.closed, 1, some day⟩
  | some last =>
    if follows last day then ⟨walk.closed, walk.length + 1, some day⟩
    else ⟨walk.closed ++ [walk.length], 1, some day⟩

def lengths (walk : Walk) : List UInt32 :=
  if 0 < walk.length then walk.closed ++ [walk.length] else walk.closed

end Walk

def counted (days : List Date) : List UInt32 := (days.foldl Walk.step .start).lengths

/-! ## Maximal runs -/

/-- Every block is a run, and from each to the next two days or more go by. -/
structure MaximalRuns (blocks : List (List Date)) : Prop where
  filled : [] ∉ blocks
  unbroken : ∀ block ∈ blocks, block.IsChain fun newer older => newer.previous? = some older
  apart : blocks.IsChain fun newer older =>
    ∃ last ∈ newer.getLast?, ∃ first ∈ older.head?, first.dayNumber + 2 ≤ last.dayNumber

theorem follows_previous (newer older : Date) :
    follows newer older = true ↔ newer.previous? = some older :=
  (follows_iff newer older).trans (Date.previous_iff newer older).symm

/-- What is missing from a run is not only another day: it is two days off or more. -/
theorem apart_of_falling (last day : Date) (below : day < last) (gap : follows last day = false) :
    day.dayNumber + 2 ≤ last.dayNumber := by
  have less := (Date.dayNumber_lt_iff day last).mpr below
  have apart : day.dayNumber + 1 ≠ last.dayNumber := by
    intro next
    rw [(follows_iff last day).mpr next] at gap
    cases gap
  omega

namespace MaximalRuns

theorem single (day : Date) : MaximalRuns [[day]] where
  filled := by simp
  unbroken := by simp
  apart := List.isChain_singleton _

variable (blocks : List (List Date)) (run : List Date) (last day : Date)
  (maximal : MaximalRuns (blocks ++ [run])) (ends : run.getLast? = some last)
include maximal ends

/-- The day before the last one joins its run. -/
theorem grow (next : last.previous? = some day) : MaximalRuns (blocks ++ [run ++ [day]]) where
  filled := by
    have earlier := mt (List.mem_append_left [run]) maximal.filled
    simpa using earlier
  unbroken := by
    intro block member
    rcases List.mem_append.mp member with earlier | newest
    · exact maximal.unbroken block (List.mem_append_left _ earlier)
    · obtain rfl := List.mem_singleton.mp newest
      refine (maximal.unbroken run (by simp)).append (List.isChain_singleton day) ?_
      intro before isLast after isFirst
      rw [ends] at isLast
      cases isLast
      cases isFirst
      exact next
  apart := by
    obtain ⟨earlier, _, joint⟩ := List.isChain_append.mp maximal.apart
    refine earlier.append (List.isChain_singleton _) ?_
    intro block isLast grown isFirst
    cases isFirst
    obtain ⟨before, isBefore, first, begins, gap⟩ := joint block isLast run rfl
    exact ⟨before, isBefore, first, List.mem_head?_append_of_mem_head? begins, gap⟩

/-- A day two days or more before the last one opens a run. -/
theorem close (gap : day.dayNumber + 2 ≤ last.dayNumber) :
    MaximalRuns (blocks ++ [run] ++ [[day]]) where
  filled := by
    have filled := maximal.filled
    simpa using filled
  unbroken := by
    intro block member
    rcases List.mem_append.mp member with earlier | newest
    · exact maximal.unbroken block earlier
    · obtain rfl := List.mem_singleton.mp newest
      exact List.isChain_singleton day
  apart := by
    refine maximal.apart.append (List.isChain_singleton _) ?_
    intro block isLast opened isFirst
    rw [List.getLast?_append_cons] at isLast
    cases isLast
    cases isFirst
    exact ⟨last, ends, day, rfl, gap⟩

end MaximalRuns

/-- There is one cut of the days into maximal runs. -/
theorem MaximalRuns.runs_eq (blocks : List (List Date)) (maximal : MaximalRuns blocks) :
    runs blocks.flatten = blocks := by
  refine List.splitBy_eq_iff.mpr ⟨rfl, maximal.filled, ?_, ?_⟩
  · intro block member
    exact (maximal.unbroken block member).imp fun newer older => (follows_previous newer older).mpr
  · refine maximal.apart.imp ?_
    rintro newer older ⟨last, isLast, first, isFirst, gap⟩
    have filled : newer ≠ [] := by
      rintro rfl
      cases isLast
    have filledToo : older ≠ [] := by
      rintro rfl
      cases isFirst
    refine ⟨filled, filledToo, Bool.eq_false_of_not_eq_true fun step => ?_⟩
    rw [List.getLast_of_mem_getLast? isLast, List.head_of_mem_head? isFirst, follows_iff] at step
    omega

/-! ## The walk -/

structure Walk.Within (walk : Walk) (blocks : List (List Date)) (run : List Date) : Prop where
  closed : walk.closed.map UInt32.toNat = blocks.map List.length
  length : walk.length.toNat = run.length
  last : walk.last = run.getLast?
  maximal : MaximalRuns (blocks ++ [run])

namespace Walk

theorem toNat_succ (length : UInt32) (fits : length.toNat + 1 < UInt32.size) :
    (length + 1).toNat = length.toNat + 1 := by
  rw [UInt32.toNat_add]
  exact Nat.mod_eq_of_lt fits

section Steps
variable (walk : Walk) (blocks : List (List Date)) (run : List Date) (last day : Date)
  (within : walk.Within blocks run) (ends : run.getLast? = some last)
include within ends

theorem step_grows (next : follows last day = true) (fits : run.length + 1 < UInt32.size) :
    (walk.step day).Within blocks (run ++ [day]) := by
  have seen : walk.last = some last := within.last.trans ends
  have stepped : walk.step day = ⟨walk.closed, walk.length + 1, some day⟩ := by
    simp only [step, seen, next, if_true]
  rw [stepped]
  exact
    { closed := within.closed
      length := by
        rw [← within.length] at fits
        rw [toNat_succ walk.length fits, within.length, List.length_append, List.length_singleton]
      last := (List.getLast?_append_cons run day []).symm
      maximal := within.maximal.grow blocks run last day ends
        ((follows_previous last day).mp next) }

theorem step_closes (below : day < last) (gap : follows last day = false) :
    (walk.step day).Within (blocks ++ [run]) [day] := by
  have seen : walk.last = some last := within.last.trans ends
  have stepped : walk.step day = ⟨walk.closed ++ [walk.length], 1, some day⟩ := by
    simp only [step, seen, gap, Bool.false_eq_true, if_false]
  rw [stepped]
  exact
    { closed := by simp [within.closed, within.length]
      length := rfl
      last := rfl
      maximal := within.maximal.close blocks run last day ends
        (apart_of_falling last day below gap) }

end Steps

/-- The induction is on the days to come; those of the run stand before them, so that a day to come
is below the last one. -/
theorem foldl_within (days : List Date) (walk : Walk) (blocks : List (List Date)) (run : List Date)
    (within : walk.Within blocks run) (falling : Falling (run ++ days))
    (fits : (run ++ days).length < UInt32.size) :
    ∃ behind newest, (days.foldl step walk).Within behind newest ∧
      (behind ++ [newest]).flatten = (blocks ++ [run]).flatten ++ days := by
  induction days generalizing walk blocks run with
  | nil => exact ⟨blocks, run, within, (List.append_nil _).symm⟩
  | cons day rest ih =>
    have filled : run ≠ [] := by
      rintro rfl
      exact within.maximal.filled (by simp)
    obtain ⟨last, ends⟩ := Option.ne_none_iff_exists'.mp (mt List.getLast?_eq_none_iff.mp filled)
    have below : day < last :=
      (List.pairwise_append.mp falling).2.2 last (List.mem_of_getLast? ends) day List.mem_cons_self
    -- The day joins the run, or closes it and starts another.
    cases next : follows last day with
    | true =>
      have grown := walk.step_grows blocks run last day within ends next
        (by simp only [List.length_append, List.length_cons] at fits; omega)
      obtain ⟨behind, newest, reached, whole⟩ := ih _ _ _ grown (by simpa using falling)
        (by simpa using fits)
      exact ⟨behind, newest, reached, by simpa using whole⟩
    | false =>
      have closed := walk.step_closes blocks run last day within ends below next
      obtain ⟨behind, newest, reached, whole⟩ := ih _ _ _ closed
        (List.pairwise_append.mp falling).2.1
        (by simp only [List.length_append, List.length_cons, List.length_nil] at fits ⊢; omega)
      exact ⟨behind, newest, reached, by simpa using whole⟩

theorem Within.lengths_eq (walk : Walk) (blocks : List (List Date)) (run : List Date)
    (within : walk.Within blocks run) :
    walk.lengths.map UInt32.toNat = (blocks ++ [run]).map List.length := by
  have filled : run ≠ [] := by
    rintro rfl
    exact within.maximal.filled (by simp)
  have inside : 0 < walk.length := by
    rw [UInt32.lt_iff_toNat_lt, within.length]
    exact List.length_pos_iff.mpr filled
  rw [lengths, if_pos inside, List.map_append, List.map_append, within.closed, List.map_singleton,
    List.map_singleton, within.length]

end Walk

theorem counted_blocks (days : List Date) (falling : Falling days) :
    ∃ blocks, MaximalRuns blocks ∧ blocks.flatten = days ∧
      (counted days).map UInt32.toNat = blocks.map List.length := by
  cases days with
  | nil => exact ⟨[], ⟨List.not_mem_nil, List.forall_mem_nil _, List.IsChain.nil⟩, rfl, rfl⟩
  | cons newest older =>
    have begun : (Walk.start.step newest).Within [] [newest] :=
      ⟨rfl, rfl, rfl, MaximalRuns.single newest⟩
    obtain ⟨blocks, run, within, whole⟩ := Walk.foldl_within older _ [] [newest] begun falling
      (Date.distinct_days_fit _ (falling_nodup _ falling))
    exact ⟨blocks ++ [run], within.maximal, whole, within.lengths_eq⟩

theorem counted_runLengths (days : List Date) (falling : Falling days) :
    (counted days).map UInt32.toNat = runLengths days := by
  obtain ⟨blocks, maximal, rfl, lengths⟩ := counted_blocks days falling
  rw [lengths, runLengths, maximal.runs_eq]

/-! ## The cut -/

theorem splitLengths_flatten (blocks : List (List Date)) :
    (blocks.map List.length).splitLengths blocks.flatten = blocks := by
  induction blocks with
  | nil => rfl
  | cons block blocks ih =>
    rw [List.map_cons, List.flatten_cons, List.splitLengths_cons,
      List.take_left, List.drop_left, ih]

structure Cuts (days : List Date) (lengths : List Nat) : Prop where
  positive : ∀ length ∈ lengths, 1 ≤ length
  total : lengths.sum = days.length
  whole : (lengths.splitLengths days).flatten = days
  maximal : MaximalRuns (lengths.splitLengths days)
  only : ∀ blocks, MaximalRuns blocks → blocks.flatten = days → blocks = lengths.splitLengths days

theorem MaximalRuns.cuts (blocks : List (List Date)) (maximal : MaximalRuns blocks) :
    Cuts blocks.flatten (blocks.map List.length) := by
  have cut := splitLengths_flatten blocks
  exact
    { positive := by
        refine List.forall_mem_map.mpr fun block member => List.length_pos_iff.mpr ?_
        rintro rfl
        exact maximal.filled member
      total := List.length_flatten.symm
      whole := congrArg List.flatten cut
      maximal := cut.symm ▸ maximal
      only := by
        intro others maximalToo same
        rw [cut, ← maximal.runs_eq, ← maximalToo.runs_eq, same] }

/-- On falling days the walk counts the lengths of the runs, and these cut the days into their
maximal runs: newest first, none of them empty, none left out and none counted twice. -/
theorem counted_runs_maximal (days : List Date) (falling : Falling days) :
    (counted days).map UInt32.toNat = runLengths days ∧ Cuts days (runLengths days) ∧
      (days = [] → counted days = []) := by
  obtain ⟨blocks, maximal, rfl, lengths⟩ := counted_blocks days falling
  have same : runLengths blocks.flatten = blocks.map List.length := by
    rw [runLengths, maximal.runs_eq]
  rw [same]
  refine ⟨lengths, maximal.cuts, ?_⟩
  intro nothing
  rw [nothing]
  rfl

/-- Two days up to 1 March of a leap year, then a day of its own. -/
theorem counted_runs_maximal_leap_day :
    let days : List Date :=
      [⟨2024, 3, 1, by decide⟩, ⟨2024, 2, 29, by decide⟩, ⟨2024, 2, 27, by decide⟩]
    Falling days ∧ counted days = [2, 1] ∧ Cuts days [2, 1] := by
  intro days
  have falling : days.Pairwise fun newer older => older < newer := by decide
  have lengths : counted days = [2, 1] := by decide
  obtain ⟨same, cuts, _⟩ := counted_runs_maximal days falling
  rw [← same, lengths] at cuts
  exact ⟨falling, lengths, cuts⟩

end HabitLedger.Streak
