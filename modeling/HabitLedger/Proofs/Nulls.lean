import HabitLedger.Dashboard
import Mathlib.Tactic.Simproc.ExistsAndEq

/-!
Where `null` stands in the text of a dashboard. It says that a day or a share is absent; a double
that is not finite is written as `null` as well.
-/

namespace HabitLedger

namespace Json

inductive Key where
  | name (name : String)
  | place (index : Nat)
  deriving DecidableEq

inductive NullAt : Value → List Key → Prop where
  | here : NullAt .null []
  | member {members : List (String × Value)} {name : String} {value : Value} {path : List Key} :
      (name, value) ∈ members → NullAt value path → NullAt (.object members) (.name name :: path)
  | item {items : List Value} {index : Nat} {value : Value} {path : List Key} :
      items[index]? = some value → NullAt value path → NullAt (.list items) (.place index :: path)

section NullAt
variable (path : List Key)

@[simp] theorem nullAt_null : NullAt .null path ↔ path = [] := by
  constructor
  · rintro ⟨⟩
    rfl
  · rintro rfl
    exact .here

@[simp] theorem nullAt_text (t : String) : ¬ NullAt (.text t) path := by
  rintro ⟨⟩

@[simp] theorem nullAt_boolean (b : Bool) : ¬ NullAt (.boolean b) path := by
  rintro ⟨⟩

@[simp] theorem nullAt_natural (n : Nat) : ¬ NullAt (.natural n) path := by
  rintro ⟨⟩

@[simp] theorem nullAt_real (x : Binary64) :
    NullAt (.real x) path ↔ x.isFinite = false ∧ path = [] := by
  unfold Value.real
  split
  · next finite =>
    simp only [finite, Bool.true_eq_false, false_and, iff_false]
    rintro ⟨⟩
  · next infinite => simp [eq_false_of_ne_true infinite]

@[simp] theorem nullAt_optional {α : Type} (write : α → Value) (o : Option α) :
    NullAt (.optional write o) path ↔ (o = none ∧ path = []) ∨ ∃ a ∈ o, NullAt (write a) path := by
  cases o <;> simp [Value.optional]

@[simp] theorem nullAt_object (members : List (String × Value)) :
    NullAt (.object members) path ↔
      ∃ member ∈ members, ∃ rest, NullAt member.2 rest ∧ path = .name member.1 :: rest := by
  constructor
  · rintro (_ | ⟨member, inner⟩)
    exact ⟨_, member, _, inner, rfl⟩
  · rintro ⟨member, found, rest, inner, rfl⟩
    exact .member found inner

@[simp] theorem nullAt_list (items : List Value) :
    NullAt (.list items) path ↔
      ∃ index value rest, items[index]? = some value ∧ NullAt value rest ∧
        path = .place index :: rest := by
  constructor
  · rintro (_ | _ | ⟨found, inner⟩)
    exact ⟨_, _, _, found, inner, rfl⟩
  · rintro ⟨index, value, rest, found, inner, rfl⟩
    exact .item found inner

end NullAt

end Json

open Json

section Parts
variable (path : List Key)

theorem Streak.nullAt (streak : Streak) :
    NullAt streak.toValue path ↔ streak.lastDay = none ∧ path = [.name "last_expense_date"] := by
  simp [toValue]

theorem EarnedList.nullAt (list : EarnedList) : ¬ NullAt list.toValue path := by
  rw [toValue, nullAt_list]
  rintro ⟨index, value, rest, found, inner, _⟩
  obtain ⟨name, _, rfl⟩ := List.mem_map.mp (List.mem_of_getElem? found)
  exact nullAt_text rest name inner

theorem ProfileUpdate.nullAt (update : ProfileUpdate) :
    NullAt update.toValue path ↔ update.lastDay = none ∧ path = [.name "last_expense_date"] := by
  simp [toValue, EarnedList.nullAt]

theorem BoardEntry.nullAt (entry : BoardEntry) : ¬ NullAt entry.toValue path := by
  simp [toValue]

theorem Board.nullAt (board : Board) : ¬ NullAt board.toValue path := by
  simp only [toValue, nullAt_object, List.mem_singleton]
  rintro ⟨member, rfl, rest, inner, _⟩
  obtain ⟨index, value, last, found, entry, _⟩ := (nullAt_list rest _).mp inner
  obtain ⟨shown, _, rfl⟩ := List.mem_map.mp (List.mem_of_getElem? found)
  exact shown.nullAt last entry

theorem SetAside.nullAt (issue : SetAside) : ¬ NullAt issue.toValue path := by
  simp [toValue]

theorem Totals.nullAt (totals : Totals) :
    NullAt totals.toValue path ↔
      (totals.spent.isFinite = false ∧ path = [.name "spent"]) ∨
        (totals.budget.isFinite = false ∧ path = [.name "total_budget"]) := by
  simp [toValue]

theorem Spending.nullAt (row : Spending) :
    NullAt row.toValue path ↔
      (row.limit.isFinite = false ∧ path = [.name "limit"]) ∨
        (row.spent.isFinite = false ∧ path = [.name "spent"]) := by
  cases color : row.color <;> simp [toValue, color, Value.present]

end Parts

namespace Dashboard

inductive Absent (dashboard : Dashboard) : List Key → Prop where
  | storedDay : dashboard.update.lastDay = none →
      Absent dashboard [.name "profile_update", .name "last_expense_date"]
  | lastDay : dashboard.streak.lastDay = none →
      Absent dashboard [.name "streak", .name "last_expense_date"]
  | budgetPercent : dashboard.budgetPercent = none →
      Absent dashboard [.name "budget_usage_percent"]
  | savingsPercent : dashboard.savingsPercent = none →
      Absent dashboard [.name "savings_progress_percent"]

inductive Overflown (dashboard : Dashboard) : List Key → Prop where
  | spent : dashboard.totals.spent.isFinite = false →
      Overflown dashboard [.name "stats", .name "spent"]
  | budgetPercent (percent : Binary64) : dashboard.budgetPercent = some percent →
      percent.isFinite = false → Overflown dashboard [.name "budget_usage_percent"]
  | savingsPercent (percent : Binary64) : dashboard.savingsPercent = some percent →
      percent.isFinite = false → Overflown dashboard [.name "savings_progress_percent"]
  | category (index : Nat) (row : Spending) : dashboard.spending[index]? = some row →
      row.spent.isFinite = false →
        Overflown dashboard [.name "categories", .place index, .name "spent"]

section Sections
variable (path : List Key)

/-- A share is missing or has overflown. -/
theorem nullAt_share (share : Option Binary64) :
    NullAt (.optional .real share) path ↔
      (share = none ∨ ∃ percent, share = some percent ∧ percent.isFinite = false) ∧ path = [] := by
  simp only [nullAt_optional, nullAt_real, Option.mem_def, or_and_right, exists_and_right,
    ← and_assoc]

theorem nullAt_spending (rows : List Spending) (limits : ∀ row ∈ rows, row.limit.isFinite = true) :
    NullAt (.list (rows.map Spending.toValue)) path ↔
      ∃ index row, rows[index]? = some row ∧ row.spent.isFinite = false ∧
        path = [.place index, .name "spent"] := by
  rw [nullAt_list]
  constructor
  · rintro ⟨index, value, rest, held, inner, rfl⟩
    rw [List.getElem?_map] at held
    obtain ⟨row, shown, rfl⟩ := Option.map_eq_some_iff.mp held
    rcases (Spending.nullAt rest row).mp inner with ⟨large, rfl⟩ | ⟨large, rfl⟩
    · exact absurd large (by simp [limits row (List.mem_of_getElem? shown)])
    · exact ⟨index, row, shown, large, rfl⟩
  · rintro ⟨index, row, shown, large, rfl⟩
    refine ⟨index, row.toValue, _, ?_, (Spending.nullAt _ row).mpr (.inr ⟨large, rfl⟩), rfl⟩
    rw [List.getElem?_map, shown]
    rfl

theorem nullAt_aside (issues : List SetAside) :
    ¬ NullAt (.list (issues.map SetAside.toValue)) path := by
  rw [nullAt_list]
  rintro ⟨index, value, rest, held, inner, _⟩
  obtain ⟨issue, _, rfl⟩ := List.mem_map.mp (List.mem_of_getElem? held)
  exact issue.nullAt rest inner

end Sections

section Whole
variable (dashboard : Dashboard) (path : List Key)

theorem null_of_absent (absent : dashboard.Absent path) : NullAt dashboard.toValue path := by
  cases absent with
  | storedDay none =>
    exact .member (List.mem_append_left _ (by simp)) ((ProfileUpdate.nullAt _ _).mpr ⟨none, rfl⟩)
  | lastDay none =>
    exact .member (List.mem_append_left _ (by simp)) ((Streak.nullAt _ _).mpr ⟨none, rfl⟩)
  | budgetPercent none =>
    exact .member (List.mem_append_left _ (by simp)) ((nullAt_share _ _).mpr ⟨.inl none, rfl⟩)
  | savingsPercent none =>
    exact .member (List.mem_append_left _ (by simp)) ((nullAt_share _ _).mpr ⟨.inl none, rfl⟩)

section Finite
variable (limits : ∀ row ∈ dashboard.spending, row.limit.isFinite = true)
include limits

theorem null_of_overflown (overflown : dashboard.Overflown path) :
    NullAt dashboard.toValue path := by
  cases overflown with
  | spent large =>
    exact .member (List.mem_append_left _ (by simp)) ((Totals.nullAt _ _).mpr (.inl ⟨large, rfl⟩))
  | budgetPercent percent share large =>
    exact .member (List.mem_append_left _ (by simp))
      ((nullAt_share _ _).mpr ⟨.inr ⟨percent, share, large⟩, rfl⟩)
  | savingsPercent percent share large =>
    exact .member (List.mem_append_left _ (by simp))
      ((nullAt_share _ _).mpr ⟨.inr ⟨percent, share, large⟩, rfl⟩)
  | category index row shown large =>
    exact .member (List.mem_append_left _ (by simp))
      ((nullAt_spending _ _ limits).mpr ⟨index, row, shown, large, rfl⟩)

variable (budget : dashboard.totals.budget.isFinite = true)
include budget

/-- Every `null` has its reason: nothing is there, or something too large. -/
theorem reason_of_null (null : NullAt dashboard.toValue path) :
    dashboard.Absent path ∨ dashboard.Overflown path := by
  obtain ⟨member, found, rest, inner, rfl⟩ := (nullAt_object path _).mp null
  rcases List.mem_append.mp found with found | found
  · simp only [List.mem_cons, List.not_mem_nil, or_false] at found
    rcases found with rfl | rfl | rfl | rfl | rfl | rfl | rfl | rfl | rfl
    · exact absurd inner (nullAt_text rest _)
    · exact absurd inner (nullAt_text rest _)
    · obtain ⟨none, rfl⟩ := (ProfileUpdate.nullAt rest _).mp inner
      exact .inl (.storedDay none)
    · obtain ⟨none, rfl⟩ := (Streak.nullAt rest _).mp inner
      exact .inl (.lastDay none)
    · rcases (Totals.nullAt rest _).mp inner with ⟨large, rfl⟩ | ⟨large, rfl⟩
      · exact .inr (.spent large)
      · exact absurd large (by simp [budget])
    · obtain ⟨none | ⟨percent, share, large⟩, rfl⟩ := (nullAt_share rest _).mp inner
      · exact .inl (.budgetPercent none)
      · exact .inr (.budgetPercent percent share large)
    · obtain ⟨none | ⟨percent, share, large⟩, rfl⟩ := (nullAt_share rest _).mp inner
      · exact .inl (.savingsPercent none)
      · exact .inr (.savingsPercent percent share large)
    · exact absurd inner (Board.nullAt rest _)
    · obtain ⟨index, row, shown, large, rfl⟩ := (nullAt_spending rest _ limits).mp inner
      exact .inr (.category index row shown large)
  · split at found
    · cases found
    · obtain rfl := List.mem_singleton.mp found
      exact absurd inner (nullAt_aside rest _)

end Finite

theorem nullAt (budget : dashboard.totals.budget.isFinite = true)
    (limits : ∀ row ∈ dashboard.spending, row.limit.isFinite = true) :
    NullAt dashboard.toValue path ↔ dashboard.Absent path ∨ dashboard.Overflown path :=
  ⟨reason_of_null dashboard path limits budget, fun reason =>
    reason.elim (null_of_absent dashboard path) (null_of_overflown dashboard path limits)⟩

end Whole

end Dashboard

end HabitLedger
