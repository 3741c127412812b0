import HabitLedger.Proofs.DayLine
import HabitLedger.Streak
import Mathlib.Data.List.SplitBy

/-!
Runs of days. The days of a history come out strictly falling, each once and none lost. On falling
days the newest run reaches back as far as the days do without a gap, and the longest run is as long
as any unbroken stretch of days, wherever it ends.
-/

namespace HabitLedger.Streak

def Falling (days : List Date) : Prop := days.Pairwise fun newer older => older < newer

theorem follows_iff (newer older : Date) :
    follows newer older = true ↔ older.dayNumber + 1 = newer.dayNumber := by
  simp only [follows, decide_eq_true_eq]
  omega

section Distinct

theorem eraseReps_loop (d : Date) (days kept : List Date) :
    List.eraseRepsBy.loop (· == ·) d days kept =
      kept.reverse ++ List.eraseRepsBy.loop (· == ·) d days [] := by
  induction days generalizing d kept with
  | nil => simp [List.eraseRepsBy.loop]
  | cons next rest ih =>
    by_cases same : d = next
    · simpa [List.eraseRepsBy.loop, same] using ih next kept
    · simp only [List.eraseRepsBy.loop, beq_eq_false_iff_ne.mpr same]
      rw [ih next (d :: kept), ih next [d]]
      simp

theorem eraseReps_same (d : Date) (rest : List Date) :
    (d :: d :: rest).eraseReps = (d :: rest).eraseReps := by
  simp [List.eraseReps, List.eraseRepsBy, List.eraseRepsBy.loop]

theorem eraseReps_other (d next : Date) (rest : List Date) (different : d ≠ next) :
    (d :: next :: rest).eraseReps = d :: (next :: rest).eraseReps := by
  simp only [List.eraseReps, List.eraseRepsBy, List.eraseRepsBy.loop,
    beq_eq_false_iff_ne.mpr different]
  rw [eraseReps_loop]
  rfl

theorem mem_eraseReps (days : List Date) (d : Date) : d ∈ days.eraseReps ↔ d ∈ days := by
  induction days with
  | nil => simp [List.eraseReps, List.eraseRepsBy]
  | cons first rest ih =>
    cases rest with
    | nil => simp [List.eraseReps, List.eraseRepsBy, List.eraseRepsBy.loop]
    | cons next rest =>
      by_cases same : first = next
      · subst same
        rw [eraseReps_same, ih]
        simp
      · rw [eraseReps_other first next rest same, List.mem_cons, ih]
        simp

/-- Equal days stand side by side in sorted days, so dropping repetitions leaves each day once. -/
theorem eraseReps_falling (days : List Date)
    (sorted : days.Pairwise fun newer older => older ≤ newer) : Falling days.eraseReps := by
  induction days with
  | nil => exact List.Pairwise.nil
  | cons first rest ih =>
    cases rest with
    | nil => exact List.pairwise_singleton _ _
    | cons next rest =>
      have tail := ih sorted.tail
      by_cases same : first = next
      · subst same
        rwa [eraseReps_same]
      · rw [eraseReps_other first next rest same]
        refine List.pairwise_cons.mpr ⟨?_, tail⟩
        intro d member
        have reached : d ≤ next := by
          rcases List.mem_cons.mp ((mem_eraseReps _ d).mp member) with rfl | later
          · exact Date.le_refl d
          · exact List.rel_of_pairwise_cons sorted.tail later
        have stepped : next ≤ first := List.rel_of_pairwise_cons sorted List.mem_cons_self
        rw [← Date.dayNumber_le_iff] at reached stepped
        have apart : next.dayNumber ≠ first.dayNumber :=
          fun equal => same (Date.dayNumber_injective next first equal).symm
        exact (Date.dayNumber_lt_iff d first).mp (by omega)

theorem mem_distinctDays (days : List Date) (d : Date) : d ∈ distinctDays days ↔ d ∈ days := by
  rw [distinctDays, mem_eraseReps, List.mem_mergeSort]

/-- The days of a history come out newest first and each once. -/
theorem distinctDays_falling (days : List Date) : Falling (distinctDays days) := by
  apply eraseReps_falling
  have sorted : (days.mergeSort fun a b => decide (b ≤ a)).Pairwise
      fun newer older => decide (older ≤ newer) = true := by
    apply List.pairwise_mergeSort
    · intro a b c ab bc
      simp only [decide_eq_true_eq] at *
      exact Date.le_trans bc ab
    · intro a b
      simpa using Date.le_total b a
  simpa using sorted

theorem falling_nodup (days : List Date) (falling : Falling days) : days.Nodup := by
  refine falling.imp ?_
  intro newer older less same
  rw [← Date.dayNumber_lt_iff, same] at less
  omega

end Distinct

section Lengths

def newestRun (days : List Date) : Nat := (runLengths days).headD 0

def longestRun (days : List Date) : Nat := (runLengths days).foldl max 0

theorem runLengths_apart (newest next : Date) (older : List Date)
    (gap : follows newest next = false) :
    runLengths (newest :: next :: older) = 1 :: runLengths (next :: older) := by
  have cut := List.splitBy_append_cons (r := follows) (l := [newest]) (a := next) older
    (by simpa using gap)
  simp only [List.singleton_append] at cut
  rw [runLengths, runs, cut, List.splitBy_of_isChain (by simp) (List.isChain_singleton _)]
  rfl

/-- A day right after the newest one joins the newest run; the other runs stay as they are. -/
theorem runs_adjacent (newest next : Date) (older run : List Date) (others : List (List Date))
    (step : follows newest next = true) (split : runs (next :: older) = run :: others) :
    runs (newest :: next :: older) = (newest :: run) :: others := by
  obtain ⟨whole, filled, chained, cuts⟩ := List.splitBy_eq_iff.mp split
  cases run with
  | nil => exact absurd List.mem_cons_self filled
  | cons first rest =>
    obtain ⟨rfl, tail⟩ := List.cons.inj whole
    refine List.splitBy_eq_iff.mpr ⟨by simp [tail], ?_, ?_, ?_⟩
    · simpa using filled
    · intro other member
      rcases List.mem_cons.mp member with rfl | member
      · exact List.isChain_cons_cons.mpr ⟨step, chained _ List.mem_cons_self⟩
      · exact chained other (List.mem_cons_of_mem _ member)
    · cases others with
      | nil => exact List.isChain_singleton _
      | cons second others =>
        obtain ⟨⟨_, begins, apart⟩, rest⟩ := List.isChain_cons_cons.mp cuts
        exact List.isChain_cons_cons.mpr
          ⟨⟨List.cons_ne_nil _ _, begins, by simpa using apart⟩, rest⟩

theorem runLengths_adjacent (newest next : Date) (older : List Date)
    (step : follows newest next = true) :
    ∃ first more, runLengths (next :: older) = first :: more ∧
      runLengths (newest :: next :: older) = (first + 1) :: more := by
  have cut : runs (next :: older) ≠ [] := List.splitBy_ne_nil.mpr (List.cons_ne_nil next older)
  obtain ⟨run, others, split⟩ := List.exists_cons_of_ne_nil cut
  have joined := runs_adjacent newest next older run others step split
  refine ⟨run.length, others.map List.length, ?_, ?_⟩
  · rw [runLengths, split, List.map_cons]
  · rw [runLengths, joined, List.map_cons, List.length_cons]

theorem newestRun_apart (newest next : Date) (older : List Date)
    (gap : follows newest next = false) : newestRun (newest :: next :: older) = 1 := by
  rw [newestRun, runLengths_apart newest next older gap]
  rfl

theorem newestRun_adjacent (newest next : Date) (older : List Date)
    (step : follows newest next = true) :
    newestRun (newest :: next :: older) = newestRun (next :: older) + 1 := by
  obtain ⟨first, more, before, after⟩ := runLengths_adjacent newest next older step
  simp only [newestRun, before, after, List.headD_cons]

theorem foldl_max_cons (first : Nat) (rest : List Nat) :
    (first :: rest).foldl max 0 = max first (rest.foldl max 0) := by
  rw [List.foldl_cons, Nat.max_comm 0 first, List.foldl_assoc]

/-- The newest run either opens anew or grows the run that was newest before it. -/
theorem longestRun_cons (newest : Date) (older : List Date) :
    longestRun (newest :: older) = max (newestRun (newest :: older)) (longestRun older) := by
  cases older with
  | nil => rfl
  | cons next older =>
    cases step : follows newest next with
    | false =>
      rw [newestRun_apart newest next older step, longestRun,
        runLengths_apart newest next older step, foldl_max_cons]
      rfl
    | true =>
      obtain ⟨first, more, before, after⟩ := runLengths_adjacent newest next older step
      simp only [longestRun, newestRun, before, after, foldl_max_cons, List.headD_cons]
      omega

theorem newestRun_le_length (days : List Date) : newestRun days ≤ days.length := by
  induction days with
  | nil => exact Nat.le_refl 0
  | cons newest older ih =>
    cases older with
    | nil => exact Nat.le_refl 1
    | cons next older =>
      cases step : follows newest next with
      | false =>
        rw [newestRun_apart newest next older step]
        simp
      | true =>
        rw [newestRun_adjacent newest next older step, List.length_cons]
        omega

theorem longestRun_le_length (days : List Date) : longestRun days ≤ days.length := by
  induction days with
  | nil => exact Nat.le_refl 0
  | cons newest older ih =>
    have head := newestRun_le_length (newest :: older)
    rw [longestRun_cons]
    simp only [List.length_cons] at *
    omega

end Lengths

section Stretches

/-- Up to a last day, so many days of a set without a gap. -/
def Unbroken (days : Set Date) (last : Date) (count : Nat) : Prop :=
  ∀ back < count, ∃ day ∈ days, last.back? back = some day

theorem unbroken_iff (days : Set Date) (last : Date) (count : Nat) :
    Unbroken days last count ↔
      ∀ back < count, ∃ day ∈ days, day.dayNumber + back = last.dayNumber := by
  simp only [Unbroken, Date.back_iff]

theorem falling_below (newest d : Date) (older : List Date) (falling : Falling (newest :: older))
    (member : d ∈ older) : d.dayNumber < newest.dayNumber :=
  (Date.dayNumber_lt_iff d newest).mpr (List.rel_of_pairwise_cons falling member)

/-- With the day before missing a stretch is over where it begins. -/
theorem unbroken_alone (days : Set Date) (last : Date) (count : Nat) (held : last ∈ days)
    (gap : ∀ day ∈ days, day.dayNumber + 1 ≠ last.dayNumber) :
    Unbroken days last count ↔ count ≤ 1 := by
  rw [unbroken_iff]
  constructor
  · intro reach
    by_contra more
    obtain ⟨day, member, number⟩ := reach 1 (by omega)
    exact gap day member number
  · intro few back less
    exact ⟨last, held, by omega⟩

theorem unbroken_onward (days : Set Date) (last before : Date) (count : Nat) (held : last ∈ days)
    (adjacent : before.dayNumber + 1 = last.dayNumber) :
    Unbroken days last (count + 1) ↔ Unbroken days before count := by
  simp only [unbroken_iff]
  constructor
  · intro reach back less
    obtain ⟨day, member, number⟩ := reach (back + 1) (by omega)
    exact ⟨day, member, by omega⟩
  · intro reach back less
    cases back with
    | zero => exact ⟨last, held, by omega⟩
    | succ back =>
      obtain ⟨day, member, number⟩ := reach back (by omega)
      exact ⟨day, member, by omega⟩

/-- A day later than the last of a stretch takes no part in it. -/
theorem unbroken_without (newest last : Date) (older : List Date) (count : Nat)
    (below : last.dayNumber < newest.dayNumber) :
    Unbroken {day | day ∈ newest :: older} last count ↔
      Unbroken {day | day ∈ older} last count := by
  simp only [unbroken_iff]
  refine forall_congr' fun back => forall_congr' fun _ => exists_congr fun day =>
    and_congr_left fun number => ?_
  have unlike : day ≠ newest := by
    rintro rfl
    omega
  exact ⟨fun member => (List.mem_cons.mp member).resolve_left unlike, List.mem_cons_of_mem _⟩

theorem gap_before (newest next : Date) (older : List Date)
    (falling : Falling (newest :: next :: older)) (gap : follows newest next = false)
    (day : Date) (member : day ∈ newest :: next :: older) :
    day.dayNumber + 1 ≠ newest.dayNumber := by
  intro adjacent
  have below := falling_below newest next _ falling List.mem_cons_self
  rcases List.mem_cons.mp member with rfl | member
  · omega
  · rcases List.mem_cons.mp member with rfl | member
    · rw [(follows_iff newest day).mpr adjacent] at gap
      cases gap
    · have under := falling_below next day older falling.tail member
      omega

/-- Falling days are unbroken up to the newest exactly as far back as the newest run goes. -/
theorem newestRun_reach (newest : Date) (older : List Date) (count : Nat)
    (falling : Falling (newest :: older)) :
    Unbroken {day | day ∈ newest :: older} newest count ↔
      count ≤ newestRun (newest :: older) := by
  induction older generalizing newest count with
  | nil =>
    refine unbroken_alone _ newest count List.mem_cons_self ?_
    intro day member adjacent
    rw [List.mem_singleton.mp member] at adjacent
    omega
  | cons next older ih =>
    cases step : follows newest next with
    | false =>
      rw [newestRun_apart newest next older step]
      exact unbroken_alone _ newest count List.mem_cons_self
        (gap_before newest next older falling step)
    | true =>
      have adjacent := (follows_iff newest next).mp step
      rw [newestRun_adjacent newest next older step]
      cases count with
      | zero =>
        exact ⟨fun _ => Nat.zero_le _, fun _ back less => absurd less (Nat.not_lt_zero back)⟩
      | succ count =>
        rw [unbroken_onward _ newest next count List.mem_cons_self adjacent,
          unbroken_without newest next _ count (by omega), ih next count falling.tail,
          Nat.succ_le_succ_iff]

/-- A stretch that ends at the newest day is part of the newest run; any other one ends below it and
never meets it. -/
theorem longestRun_reach (days : List Date) (count : Nat) (falling : Falling days) :
    (∃ last, Unbroken {day | day ∈ days} last count) ↔ count ≤ longestRun days := by
  induction days with
  | nil =>
    constructor
    · rintro ⟨last, reach⟩
      by_contra more
      obtain ⟨day, member, _⟩ := reach 0 (by omega)
      exact List.not_mem_nil member
    · intro few
      have none : count = 0 := Nat.le_zero.mp few
      exact ⟨⟨1, 1, 1, by decide⟩, fun back less => by omega⟩
  | cons newest older ih =>
    rw [longestRun_cons, le_max_iff]
    constructor
    · rintro ⟨last, reach⟩
      by_cases newestLast : last = newest
      · subst newestLast
        exact Or.inl ((newestRun_reach last older count falling).mp reach)
      · refine Or.inr ((ih falling.tail).mp ⟨last, ?_⟩)
        intro back less
        -- Its last day is an older one, so the newest day cannot be among those before it.
        obtain ⟨ending, endMember, endNumber⟩ := (unbroken_iff _ _ _).mp reach 0 (by omega)
        have ends : ending = last := Date.dayNumber_injective _ _ (by omega)
        subst ends
        have below := falling_below newest ending older falling
          ((List.mem_cons.mp endMember).resolve_left newestLast)
        exact (unbroken_without newest ending older count below).mp reach back less
    · rintro (inNewest | inOlder)
      · exact ⟨newest, (newestRun_reach newest older count falling).mpr inNewest⟩
      · obtain ⟨last, reach⟩ := (ih falling.tail).mpr inOlder
        refine ⟨last, fun back less => ?_⟩
        obtain ⟨day, member, number⟩ := reach back less
        exact ⟨day, List.mem_cons_of_mem _ member, number⟩

end Stretches

end HabitLedger.Streak
