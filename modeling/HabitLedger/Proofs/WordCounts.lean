import HabitLedger.Proofs.RunWalk

/-!
Counting in words. Runs are counted in 32-bit words and days are measured in signed 64-bit words, so
any count and any distance might be one that its word does not hold. The walk down the days is given
here in an arithmetic that may fail: in words it stops at the first number too large, in whole
numbers it never stops. The calendar has too few days to stop it, however long the history is, and
so the streak in words is the streak in whole numbers.
-/

namespace HabitLedger.Streak

structure Arithmetic (Count : Type) where
  next? : Count → Option Count
  distance? : Date → Date → Option Int

structure Course (Count : Type) where
  closed : List Count
  length : Count
  last : Option Date

structure Figures (Count : Type) where
  current : Count
  longest : Count
  lastDay : Option Date

section Reckoning
variable {Count : Type} [OfNat Count 0] [OfNat Count 1] [LT Count] [DecidableLT Count] [Max Count]

def Course.lengths (course : Course Count) : List Count :=
  if 0 < course.length then course.closed ++ [course.length] else course.closed

namespace Arithmetic
variable (arithmetic : Arithmetic Count)

def step (course : Course Count) (day : Date) : Option (Course Count) :=
  match course.last with
  | none => some ⟨course.closed, 1, some day⟩
  | some last => do
    let distance ← arithmetic.distance? last day
    if distance = 1 then
      let length ← arithmetic.next? course.length
      some ⟨course.closed, length, some day⟩
    else some ⟨course.closed ++ [course.length], 1, some day⟩

def counted (days : List Date) : Option (List Count) :=
  (days.foldlM arithmetic.step ⟨[], 0, none⟩).map Course.lengths

def ofDistinct (today : Date) : List Date → Option (Figures Count)
  | [] => some ⟨0, 0, none⟩
  | newest :: older => do
    let lengths ← arithmetic.counted (newest :: older)
    let age ← arithmetic.distance? today newest
    some
      { current := if age ≤ graceDays then lengths.headD 0 else 0
        longest := lengths.foldl max 0
        lastDay := some newest }

def figures (days : List Date) (today : Date) : Option (Figures Count) :=
  arithmetic.ofDistinct today (distinctDays days)

end Arithmetic

end Reckoning

def WordHolds (distance : Int) : Prop :=
  Int64.minValue.toInt ≤ distance ∧ distance ≤ Int64.maxValue.toInt

instance (distance : Int) : Decidable (WordHolds distance) := inferInstanceAs (Decidable (_ ∧ _))

namespace Arithmetic

/-- Counts in 32-bit words and distances in signed 64-bit words; what they do not hold is
missing. -/
def words : Arithmetic UInt32 where
  next? count := if count.toNat + 1 < UInt32.size then some (count + 1) else none
  distance? later earlier :=
    let distance := later.dayNumber - earlier.dayNumber
    if WordHolds distance then some distance else none

def whole : Arithmetic Nat where
  next? count := some (count + 1)
  distance? later earlier := some (later.dayNumber - earlier.dayNumber)

end Arithmetic

theorem word_holds_distance (later earlier : Date) :
    WordHolds (later.dayNumber - earlier.dayNumber) := by
  have least : Int64.minValue.toInt = -9223372036854775808 := by decide
  have greatest : Int64.maxValue.toInt = 9223372036854775807 := by decide
  have few : Calendar.dayCount = 191491529 := by decide
  have laterInside := Date.number_bounds later
  have earlierInside := Date.number_bounds earlier
  rw [Calendar.dayCount] at few
  rw [WordHolds, least, greatest]
  omega

/-! ## Words shown as other counts -/

section Rendering
variable {Count : Type} [OfNat Count 0] [OfNat Count 1] [LT Count] [Max Count]

/-- Words shown as counts of another kind: as long as words have room, the other counts go on with
them. -/
structure Renders (arithmetic : Arithmetic Count) (shown : UInt32 → Count) : Prop where
  zero : shown 0 = 0
  one : shown 1 = 1
  positive : ∀ count, 0 < shown count ↔ 0 < count
  larger : ∀ a b, shown (max a b) = max (shown a) (shown b)
  next : ∀ count, count.toNat + 1 < UInt32.size →
    arithmetic.next? (shown count) = some (shown (count + 1))
  distance : ∀ later earlier,
    arithmetic.distance? later earlier = some (later.dayNumber - earlier.dayNumber)

def Walk.course (walk : Walk) (shown : UInt32 → Count) : Course Count :=
  ⟨walk.closed.map shown, shown walk.length, walk.last⟩

def figures (streak : Streak) (shown : UInt32 → Count) : Figures Count :=
  ⟨shown streak.current, shown streak.longest, streak.lastDay⟩

theorem Walk.step_length (walk : Walk) (day : Date) :
    (walk.step day).length.toNat ≤ walk.length.toNat + 1 := by
  unfold Walk.step
  split
  · exact Nat.le_add_left 1 _
  · split
    · rw [UInt32.toNat_add]
      exact Nat.mod_le _ _
    · exact Nat.le_add_left 1 _

namespace Renders
variable (arithmetic : Arithmetic Count) (shown : UInt32 → Count)
  (renders : Renders arithmetic shown)
include renders

theorem step (walk : Walk) (day : Date) (room : walk.length.toNat + 1 < UInt32.size) :
    arithmetic.step (walk.course shown) day = some ((walk.step day).course shown) := by
  obtain ⟨closed, length, last⟩ := walk
  cases last with
  | none => simp only [Arithmetic.step, Walk.step, Walk.course, renders.one]
  | some last =>
    simp only [Arithmetic.step, Walk.step, Walk.course, renders.distance, Option.bind_eq_bind,
      Option.bind_some]
    -- Both walks ask whether the distance is one.
    cases next : follows last day with
    | true =>
      have apart : last.dayNumber - day.dayNumber = 1 := by simpa [follows] using next
      simp only [apart, if_true, renders.next length room, Option.bind_some]
    | false =>
      have apart : last.dayNumber - day.dayNumber ≠ 1 := by simpa [follows] using next
      simp only [apart, if_false, Bool.false_eq_true, List.map_append, List.map_cons, List.map_nil,
        renders.one]

/-- A run is no longer than the days walked so far, so there is room for as many as are still to
come. -/
theorem foldlM_step (days : List Date) (walk : Walk)
    (room : walk.length.toNat + days.length < UInt32.size) :
    days.foldlM arithmetic.step (walk.course shown) =
      some ((days.foldl Walk.step walk).course shown) := by
  induction days generalizing walk with
  | nil => rfl
  | cons day rest ih =>
    rw [List.length_cons] at room
    have grown := walk.step_length day
    rw [List.foldlM_cons, renders.step _ _ walk day (by omega)]
    exact ih (walk.step day) (by omega)

theorem newest (lengths : List UInt32) : (lengths.map shown).headD 0 = shown (lengths.headD 0) := by
  cases lengths with
  | nil => exact renders.zero.symm
  | cons first rest => rfl

theorem longest (lengths : List UInt32) :
    (lengths.map shown).foldl max 0 = shown (lengths.foldl max 0) := by
  rw [← renders.zero, List.foldl_map]
  apply List.foldl_hom
  intro a b
  exact (renders.larger a b).symm

variable [DecidableLT Count]

theorem lengths (walk : Walk) : (walk.course shown).lengths = walk.lengths.map shown := by
  unfold Course.lengths Walk.lengths Walk.course
  by_cases inside : 0 < walk.length
  · rw [if_pos inside, if_pos ((renders.positive walk.length).mpr inside), List.map_append]
    rfl
  · rw [if_neg inside, if_neg (mt (renders.positive walk.length).mp inside)]

theorem counted (days : List Date) (room : days.length < UInt32.size) :
    arithmetic.counted days = some ((Streak.counted days).map shown) := by
  have start : (⟨[], 0, none⟩ : Course Count) = Walk.start.course shown := by
    simp only [Walk.start, Walk.course, List.map_nil, renders.zero]
  have fits : Walk.start.length.toNat + days.length < UInt32.size := by
    simpa [Walk.start] using room
  rw [Arithmetic.counted, start, renders.foldlM_step _ _ days .start fits, Option.map_some,
    renders.lengths, Streak.counted]

end Renders

end Rendering

/-- The walk that never looks at the size of its words is read in two ways: as the checked walk in
words, and as the walk in whole numbers. -/
theorem words_renders : Renders Arithmetic.words id where
  zero := rfl
  one := rfl
  positive _ := Iff.rfl
  larger _ _ := rfl
  next _ room := if_pos room
  distance later earlier := if_pos (word_holds_distance later earlier)

theorem whole_renders : Renders Arithmetic.whole UInt32.toNat where
  zero := rfl
  one := rfl
  positive count := (UInt32.lt_iff_toNat_lt (a := 0) (b := count)).symm
  larger := UInt32.toNat_max
  next count room := congrArg some (Walk.toNat_succ count room).symm
  distance _ _ := rfl

/-! ## The streak of a history -/

theorem ofDistinct_counted (today newest : Date) (older : List Date)
    (falling : Falling (newest :: older)) : ofDistinct today (newest :: older) =
      { current := if Alive newest today then (counted (newest :: older)).headD 0 else 0
        longest := (counted (newest :: older)).foldl max 0
        lastDay := some newest } := by
  have lengths := counted_runLengths _ falling
  rw [ofDistinct_cons, newestRun, longestRun, ← lengths, whole_renders.newest,
    whole_renders.longest, UInt32.ofNat_toNat, UInt32.ofNat_toNat]

section Rendering
variable {Count : Type} [OfNat Count 0] [OfNat Count 1] [LT Count] [DecidableLT Count] [Max Count]
  (arithmetic : Arithmetic Count) (shown : UInt32 → Count) (renders : Renders arithmetic shown)
include renders

theorem Renders.ofDistinct (today : Date) (days : List Date) (falling : Falling days) :
    arithmetic.ofDistinct today days = some ((Streak.ofDistinct today days).figures shown) := by
  cases days with
  | nil => simp only [Arithmetic.ofDistinct, Streak.ofDistinct, empty, figures, renders.zero]
  | cons newest older =>
    have room := Date.distinct_days_fit _ (falling_nodup _ falling)
    rw [Arithmetic.ofDistinct, renders.counted _ _ _ room, renders.distance,
      ofDistinct_counted today newest older falling]
    simp only [Option.bind_eq_bind, Option.bind_some, renders.newest, renders.longest, figures]
    by_cases alive : Alive newest today
    · have within : today.dayNumber - newest.dayNumber ≤ graceDays := alive
      rw [if_pos alive, if_pos within]
    · have beyond : ¬ today.dayNumber - newest.dayNumber ≤ graceDays := alive
      rw [if_neg alive, if_neg beyond, renders.zero]

end Rendering

/-- No count that a streak takes is too large for a 32-bit word and no distance for a signed 64-bit
word, since the days of a history, however long it is, are days of one calendar. Words that stop at
such a number come to the lengths of the runs and to the streak, and whole numbers come to the
same. -/
theorem words_suffice (days : List Date) (today : Date) :
    let distinct := distinctDays days
    let streak := compute days today
    distinct.length ≤ Calendar.dayCount ∧
      (Arithmetic.words.counted distinct = some (counted distinct) ∧
        (counted distinct).map UInt32.toNat = runLengths distinct ∧
        Arithmetic.whole.counted distinct = some (runLengths distinct)) ∧
      Arithmetic.words.figures days today =
        some ⟨streak.current, streak.longest, streak.lastDay⟩ ∧
      Arithmetic.whole.figures days today =
        some ⟨streak.current.toNat, streak.longest.toNat, streak.lastDay⟩ := by
  have falling := distinctDays_falling days
  have distinct := falling_nodup _ falling
  have room := Date.distinct_days_fit _ distinct
  have lengths := counted_runLengths _ falling
  refine ⟨Date.distinct_days_few _ distinct, ⟨?_, lengths, ?_⟩, ?_, ?_⟩
  · rw [words_renders.counted _ _ _ room, List.map_id]
  · rw [whole_renders.counted _ _ _ room, lengths]
  · exact words_renders.ofDistinct _ _ today _ falling
  · exact whole_renders.ofDistinct _ _ today _ falling

end HabitLedger.Streak
