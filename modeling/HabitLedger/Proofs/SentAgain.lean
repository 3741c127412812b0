import HabitLedger.Proofs.Sifting
import HabitLedger.Proofs.StampText
import HabitLedger.Proofs.UuidText

/-!
Expenses sent again. What an accepted expense holds is good in every respect: its day is given back
by its text and its identifier by every spelling, its amount passes the check as it did before, and
notes that were kept are kept. So it is accepted as itself, however it was first written.
-/

namespace HabitLedger

def Expense.sentAs (expense : Expense) (id : String) : RawExpense :=
  ⟨some id, some expense.day.text, some (.number expense.amount), some expense.category,
    expense.color, expense.notes⟩

namespace Intake

/-- The check passes a number on as it is. -/
theorem nonNegative_again (value amount : Binary64) (checked : nonNegative value = .ok amount) :
    nonNegative amount = .ok amount := by
  have same : value = amount := by
    unfold nonNegative at checked
    split at checked
    · cases checked
    split at checked
    · cases checked
    · exact Except.ok.inj checked
  rwa [same] at checked

end Intake

namespace Uuid
variable (id : Uuid) (before s after : List Char) (spelled : id.Spelled s)
  (blank : ∀ c ∈ before ++ after, Text.isBlank c = true)
include spelled

theorem Spelled.ne_nil : s ≠ [] := by
  obtain ⟨shape, same⟩ := spelled
  have length := id.spelled_length shape s same
  rintro rfl
  cases shape <;> cases length

theorem Spelled.dark (c : Char) (member : c ∈ s) : Text.isBlank c = false := by
  obtain ⟨shape, same⟩ := spelled
  exact id.spelled_dark shape s same c member

include blank

theorem Spelled.trim : Text.trim (before ++ (s ++ after)) = s := by
  obtain ⟨blank, blankToo⟩ := List.forall_mem_append.mp blank
  have dark := spelled.dark id s
  have full := spelled.ne_nil id s
  refine Text.trim_around before s after blank blankToo (fun c next => dark c ?_) ?_
  · exact List.mem_of_mem_head? next
  · exact ⟨s.dropLast, s.getLast full, (List.dropLast_append_getLast full).symm,
      dark _ (List.getLast_mem full)⟩

end Uuid

namespace RawExpense

open Binary64

variable (raw : RawExpense) (fresh : Uuid)

/-- An accepted expense is accepted again and stays as it is, whatever it arrived as: its identifier
in any spelling and with any blanks around it, and everything else as it is kept. -/
theorem accept_again (expense : Expense) (accepted : raw.accept fresh = .ok expense) (other : Uuid)
    (before s after : List Char) (spelled : expense.id.Spelled s)
    (blank : ∀ c ∈ before ++ after, Text.isBlank c = true) :
    (expense.sentAs (String.ofList (before ++ (s ++ after)))).accept other = .ok expense := by
  have becomes := (raw.accept_ok_iff fresh expense).mp accepted
  obtain ⟨given, _, priced⟩ := becomes.amount
  obtain ⟨value, _, checked⟩ := Json.bind_eq_ok.mp priced
  have taken := Intake.taken_day expense.day [] [] (List.forall_mem_nil _)
  rw [List.nil_append, List.append_nil] at taken
  have trimmed := spelled.trim expense.id before s after blank
  have more : ¬ Text.AllBlank (before ++ (s ++ after)) := by
    rw [Text.AllBlank, trimmed]
    exact spelled.ne_nil expense.id s
  refine (accept_ok_iff _ other expense).mpr
    { id := ?_
      day := (checkedDay_ok _ expense.day).mp taken
      amount := ⟨_, rfl, Intake.nonNegative_again value expense.amount checked⟩
      category := rfl
      color := rfl
      notes := ?_ }
  · refine .given _ expense.id rfl ?_ ?_ <;> rw [String.toList_ofList]
    · exact more
    · rw [trimmed]
      exact (Uuid.read_iff expense.id s).mpr spelled
  · rw [Expense.sentAs, becomes.notes, Option.filter_filter]
    simp

def roughLunch : RawExpense :=
  ⟨some " \x7bF47AC10B-58CC-4372-A567-0E02B2C3D479\x7d", some "2023-11-05 08:30:00",
    some (.text "+12.50 "), none, some "#ff0000", some "\t"⟩

def keptLunch : Expense :=
  ⟨⟨0xf47ac10b58cc4372a5670e02b2c3d479#128⟩, ⟨2023, 11, 5, by decide⟩,
    Decimal.toBinary64 false ⟨125, -1⟩, "", some "#ff0000", none⟩

/-- Braces, capitals, blanks and a plus sign go in, and none of them is needed again. -/
theorem accept_again_lunch :
    roughLunch.accept Uuid.zero = .ok keptLunch ∧
      (keptLunch.sentAs "\u2003urn:uuid:F47ac10b-58cc-4372-A567-0e02b2c3d479\n").accept Uuid.zero =
        .ok keptLunch := by
  have accepted : roughLunch.accept Uuid.zero = .ok keptLunch := by decide +kernel
  have spelled : keptLunch.id.Spelled
      (Uuid.urn ++ "F47ac10b-58cc-4372-A567-0e02b2c3d479".toList) := ⟨.urn, by decide +kernel⟩
  have again := accept_again roughLunch Uuid.zero keptLunch accepted Uuid.zero
    ['\u2003'] _ ['\n'] spelled (List.all_eq_true.mp rfl)
  have text : String.ofList
      (['\u2003'] ++ ((Uuid.urn ++ "F47ac10b-58cc-4372-A567-0e02b2c3d479".toList) ++
      ['\n'])) = "\u2003urn:uuid:F47ac10b-58cc-4372-A567-0e02b2c3d479\n" := by decide +kernel
  rw [text] at again
  exact ⟨accepted, again⟩

end RawExpense

end HabitLedger
