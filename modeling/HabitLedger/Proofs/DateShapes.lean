import HabitLedger.Proofs.DateReading

/-!
Which texts are dates. A text without its outer blanks is taken in if it is a date in one of the
four forms, and the day is the one it shows; no text has two forms, so the order in which the forms
are tried does not matter. More is taken in than the documented shapes: figures may be short and
have blanks before them, and a date in another order of its parts may pass for a day of an early
year.
-/

namespace HabitLedger

open DateText

namespace DateText

theorem DayFigures.Shows.unique (figures : DayFigures) (date other : Date)
    (first : figures.Shows date) (second : figures.Shows other) : date = other := by
  obtain ⟨year, month, day, sound⟩ := date
  obtain ⟨yearToo, monthToo, dayToo, soundToo⟩ := other
  cases first.year.trans second.year.symm
  cases first.month.trans second.month.symm
  cases first.day.trans second.day.symm
  rfl

namespace WrittenDate
variable (written other : WrittenDate) (s : List Char) (date day : Date)

/-- A text spells one date at most, and in one way. -/
theorem Spells.unique (first : written.Spells s date) (second : other.Spells s day) :
    written = other ∧ date = day := by
  obtain rfl := written.unique other first.sound second.sound (first.chars.trans second.chars.symm)
  exact ⟨rfl, DayFigures.Shows.unique _ _ _ first.shows second.shows⟩

-- `YYYY-MM-DD` is ten characters.
theorem Documented.long (documented : written.Documented) : 10 ≤ written.chars.length := by
  have year := documented.day.year.2
  have month := documented.day.month.2
  have day := documented.day.day.2
  simp only [chars, DayFigures.chars, YearFigure.chars, Figure.chars, List.length_append,
    List.length_cons]
  omega

end WrittenDate

end DateText

namespace Intake

def dayBy (order : List DateForm) (text : String) : Except Rejection Date :=
  match order.findSome? fun form => (form.read (Text.trim text.toList)).toOption with
  | some day => .ok day
  | none => .error (.badDate text)

def daysBy (order : List DateForm) (text : String) : List Date :=
  order.filterMap fun form => (form.read (Text.trim text.toList)).toOption

theorem dayBy_all (text : String) : dayBy DateForm.all text = day text := rfl

theorem all_complete (form : DateForm) : form ∈ DateForm.all := by
  cases form <;> decide

theorem dayBy_fault (order : List DateForm) (text : String) (cause : Rejection)
    (refused : dayBy order text = .error cause) : cause = .badDate text := by
  unfold dayBy at refused
  split at refused
  · cases refused
  · exact (Except.error.inj refused).symm

section Order
variable (order : List DateForm) (complete : ∀ form, form ∈ order) (text : String)
include complete

/-- Whichever form is the first to read the text, there is only one date that it can be. -/
theorem dayBy_ok_iff (date : Date) : dayBy order text = .ok date ↔
    ∃ written : WrittenDate, written.Spells (Text.trim text.toList) date := by
  unfold dayBy
  constructor
  · intro taken
    split at taken
    · next found =>
      cases taken
      obtain ⟨form, _, read⟩ := List.exists_of_findSome?_eq_some found
      obtain ⟨written, _, spells⟩ := (form.read_iff _ date).mp ((Json.toOption_some _ _).mp read)
      exact ⟨written, spells⟩
    · cases taken
  · rintro ⟨written, spells⟩
    have read := (written.tail.form.read_iff _ date).mpr ⟨written, rfl, spells⟩
    split
    · next day found =>
      obtain ⟨form, _, first⟩ := List.exists_of_findSome?_eq_some found
      obtain ⟨other, _, spellsToo⟩ := (form.read_iff _ day).mp ((Json.toOption_some _ _).mp first)
      rw [(spells.unique _ _ _ _ _ spellsToo).2]
    · next none =>
      have unread := List.findSome?_eq_none_iff.mp none _ (complete written.tail.form)
      rw [(Json.toOption_some _ _).mpr read] at unread
      cases unread

theorem dayBy_error_iff (cause : Rejection) : dayBy order text = .error cause ↔
    cause = .badDate text ∧
      ∀ (written : WrittenDate) (date : Date), ¬ written.Spells (Text.trim text.toList) date := by
  constructor
  · intro refused
    refine ⟨dayBy_fault order text cause refused, fun written date spells => ?_⟩
    rw [(dayBy_ok_iff order complete text date).mpr ⟨written, spells⟩] at refused
    cases refused
  · rintro ⟨rfl, unwritten⟩
    cases taken : dayBy order text with
    | ok date =>
      obtain ⟨written, spells⟩ := (dayBy_ok_iff order complete text date).mp taken
      exact absurd spells (unwritten written date)
    | error cause => rw [dayBy_fault order text cause taken]

theorem dayBy_same : dayBy order text = day text := by
  rw [← dayBy_all]
  cases taken : dayBy DateForm.all text with
  | ok date =>
    rw [dayBy_ok_iff order complete, ← dayBy_ok_iff DateForm.all all_complete, taken]
  | error cause =>
    rw [dayBy_error_iff order complete, ← dayBy_error_iff DateForm.all all_complete, taken]

end Order

/-! ## What is taken in -/

/-- A text is taken in as a day if and only if it is a date as it may be written, in one way, that
shows this day; every other text is refused with the text itself as the reason. -/
theorem day_exact (text : String) :
    (∀ date, day text = .ok date ↔
      ∃! written : WrittenDate, written.Spells (Text.trim text.toList) date) ∧
    ∀ cause, day text = .error cause ↔ cause = .badDate text ∧
      ∀ (written : WrittenDate) (date : Date), ¬ written.Spells (Text.trim text.toList) date := by
  rw [← dayBy_all]
  refine ⟨fun date => ?_, dayBy_error_iff DateForm.all all_complete text⟩
  rw [dayBy_ok_iff DateForm.all all_complete]
  constructor
  · rintro ⟨written, spells⟩
    exact ⟨written, spells, fun other spellsToo => (spellsToo.unique _ _ _ _ _ spells).1⟩
  · rintro ⟨written, spells, _⟩
    exact ⟨written, spells⟩

-- 14 March 2025 with its parts in another order is taken in as 25 March of the year 14.
theorem year_of_two_digits :
    day "14-03-25" = .ok ⟨14, 3, 25, by decide⟩ ∧
      ∀ (written : WrittenDate) (date : Date),
        written.Spells (Text.trim "14-03-25".toList) date → ¬ written.Documented := by
  refine ⟨by decide +kernel, ?_⟩
  intro written date spells documented
  have long := documented.long
  rw [spells.chars] at long
  exact absurd long (by decide +kernel)

/-! ## No form takes what is meant for another -/

theorem forms_apart (s : List Char) (form other : DateForm) (date day : Date)
    (first : form.read s = .ok date) (second : other.read s = .ok day) : form = other := by
  obtain ⟨written, rfl, spells⟩ := (form.read_iff s date).mp first
  obtain ⟨writtenToo, rfl, spellsToo⟩ := (other.read_iff s day).mp second
  rw [(spells.unique _ _ _ _ _ spellsToo).1]

theorem filterMap_single {α β : Type} (f : α → Option β) (l : List α) (a : α) (b : β)
    (once : l.Nodup) (member : a ∈ l) (here : f a = some b) (alone : ∀ x, x ≠ a → f x = none) :
    l.filterMap f = [b] := by
  obtain ⟨before, after, rfl⟩ := List.append_of_mem member
  have absent := (List.nodup_cons.mp (List.perm_middle.nodup_iff.mp once)).1
  have none (part : List α) (inside : ∀ x ∈ part, x ∈ before ++ after) :
      part.filterMap f = [] := by
    refine List.filterMap_eq_nil_iff.mpr fun x held => alone x ?_
    rintro rfl
    exact absent (inside x held)
  rw [List.filterMap_append, List.filterMap_cons_some here,
    none before fun _ => List.mem_append_left after,
    none after fun _ => List.mem_append_right before]
  rfl

theorem daysBy_same (order : List DateForm) (complete : ∀ form, form ∈ order) (once : order.Nodup)
    (text : String) : daysBy order text = (Date.ofText? text).toList := by
  cases found : Date.ofText? text with
  | none =>
    refine List.filterMap_eq_nil_iff.mpr fun form _ => ?_
    exact List.findSome?_eq_none_iff.mp found form (all_complete form)
  | some date =>
    obtain ⟨form, _, read⟩ := List.exists_of_findSome?_eq_some found
    refine filterMap_single _ order form date once (complete form) read fun other apart => ?_
    cases second : other.read (Text.trim text.toList) with
    | error cause => rfl
    | ok day =>
      exact absurd (forms_apart _ other form day date second ((Json.toOption_some _ _).mp read))
        apart

/-- At most one form reads a text. So the forms may be tried in any order, or all of them, and the
day or the reason is the same. -/
theorem order_of_forms :
    (∀ (s : List Char) (form other : DateForm) (date day : Date),
      form.read s = .ok date → other.read s = .ok day → form = other) ∧
    ∀ order : List DateForm, (∀ form, form ∈ order) → ∀ text,
      dayBy order text = day text ∧
      (order.Nodup → daysBy order text = (Date.ofText? text).toList) := by
  refine ⟨forms_apart, fun order complete text => ⟨dayBy_same order complete text, ?_⟩⟩
  exact fun once => daysBy_same order complete once text

/-- A stamp whose date and time are parted by a space, as in the last form, but which has an
offset. -/
theorem order_of_forms_reversed :
    let text := "2025-03-14 23:30:00-05:00"
    let date : Date := ⟨2025, 3, 14, by decide⟩
    let reversed : List DateForm := [.blankStamp, .letterStamp, .offsetStamp, .day]
    DateForm.offsetStamp.read (Text.trim text.toList) = .ok date ∧
      (∀ (form : DateForm) (late : Date), form.read (Text.trim text.toList) = .ok late →
        DateForm.offsetStamp = form) ∧
      (∀ form, form ∈ reversed) ∧ reversed.Nodup ∧
      dayBy reversed text = day text ∧ daysBy reversed text = (Date.ofText? text).toList := by
  intro text date reversed
  have read : DateForm.offsetStamp.read (Text.trim text.toList) = .ok date := by decide +kernel
  have complete : ∀ form, form ∈ reversed := by
    intro form
    cases form <;> decide
  have once : reversed.Nodup := by decide
  obtain ⟨same, all⟩ := order_of_forms.2 reversed complete text
  exact ⟨read, fun form late => order_of_forms.1 _ _ form date late read, complete, once, same,
    all once⟩

end Intake

end HabitLedger
