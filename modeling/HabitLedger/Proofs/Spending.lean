import HabitLedger.Dashboard
import HabitLedger.Proofs.Earned
import HabitLedger.Proofs.Sums

/-!
Spending only ever grows. An accepted expense has an amount, so putting one more anywhere into a
history never lowers what was spent, and with it no badge for staying below a budget can appear:
past the least number of expenses such badges can only be lost.
-/

namespace HabitLedger

open Binary64

section Percentage
variable (part larger whole more : Binary64)

theorem percentage_grows (order : part ≤ larger) (share : percentage larger whole = some more) :
    ∃ percent, percentage part whole = some percent ∧ percent ≤ more := by
  obtain ⟨m, positive, rfl, rfl⟩ := percentage_some larger whole more share
  obtain ⟨number, numberLarger, ranks⟩ := (le_iff_rank part larger).mp order
  obtain ⟨first, rank⟩ := rank_percent part m positive number
  obtain ⟨second, rankLarger⟩ := rank_percent larger m positive numberLarger
  refine ⟨part / finite false m * 100, ?_, ?_⟩
  · unfold percentage at share ⊢
    split at share
    · cases share
    · next usable => exact if_neg usable
  · rw [le_iff_rank, rank, rankLarger]
    exact ⟨first, second, percentRank_grows m.units positive _ _ ranks⟩

end Percentage

namespace Badge

def ofBudget : List Badge := [.budgetMaster, .saver]

theorem earned_before (old new : Totals) (badge : Badge) (budgetary : badge ∈ ofBudget)
    (budget : new.budget = old.budget) (spent : old.spent ≤ new.spent)
    (enough : budgetMinimum ≤ old.expenses) (earned : Earned new badge) : Earned old badge := by
  cases badge with
  | firstStep => simp [ofBudget] at budgetary
  | trackerPro => simp [ofBudget] at budgetary
  | budgetMaster =>
    refine ⟨lt_of_le_of_lt _ _ _ spent ?_, enough⟩
    rw [← budget]
    exact earned.1
  | saver =>
    obtain ⟨more, share, below⟩ := earned.1
    obtain ⟨percent, found, order⟩ := percentage_grows old.spent new.spent _ more spent share
    rw [budget] at found
    exact ⟨⟨percent, found, lt_of_le_of_lt _ _ _ order below⟩, enough⟩
  | streakKing => simp [ofBudget] at budgetary
  | streakLegend => simp [ofBudget] at budgetary

end Badge

namespace Intake

theorem nonNegative_amount (value amount : Binary64) (checked : nonNegative value = .ok amount) :
    IsAmount amount := by
  unfold nonNegative at checked
  split at checked
  · cases checked
  · next isFinite =>
    split at checked
    · cases checked
    · next above =>
      cases checked
      cases value with
      | nan => exact absurd rfl isFinite
      | infinite _ => exact absurd rfl isFinite
      | finite negative m =>
        have zero := (rank_ofNat 0 (Nat.zero_le _)).1
        exact ⟨rfl, zero, rfl, Bool.eq_false_of_not_eq_true above⟩

theorem accept_amount (fresh : Uuid) (raw : RawExpense) (expense : Expense)
    (accepted : raw.accept fresh = .ok expense) : IsAmount expense.amount := by
  obtain ⟨day, _, accepted⟩ := Json.bind_eq_ok.mp accepted
  obtain ⟨amount, checked, accepted⟩ := Json.bind_eq_ok.mp accepted
  obtain ⟨id, _, accepted⟩ := Json.bind_eq_ok.mp accepted
  cases accepted
  cases given : raw.amount with
  | none =>
    simp only [RawExpense.checkedAmount, given] at checked
    cases checked
  | some value =>
    simp only [RawExpense.checkedAmount, given] at checked
    cases taken : Intake.amount value with
    | error cause =>
      rw [taken] at checked
      cases checked
    | ok number =>
      rw [taken] at checked
      cases checked
      obtain ⟨read, _, sound⟩ := Json.bind_eq_ok.mp taken
      exact nonNegative_amount read amount sound

/-- Only amounts are accepted: finite numbers that are not below zero. -/
theorem lenient_amounts (fresh : Supply) (index : Nat) (raws : List RawExpense) :
    ∀ expense ∈ (lenientFrom fresh index raws).accepted, IsAmount expense.amount := by
  induction raws generalizing index with
  | nil => simp [lenientFrom]
  | cons raw rest ih =>
    cases taken : raw.accept (fresh index) with
    | error cause => simpa [lenientFrom, taken] using ih (index + 1)
    | ok expense =>
      simpa [lenientFrom, taken] using
        And.intro (accept_amount (fresh index) raw expense taken) (ih (index + 1))

theorem strict_amounts (fresh : Supply) (index : Nat) (raws : List RawExpense)
    (expenses : List Expense) (taken : strictFrom fresh index raws = .ok expenses) :
    ∀ expense ∈ expenses, IsAmount expense.amount := by
  induction raws generalizing index expenses with
  | nil =>
    cases taken
    simp
  | cons raw rest ih =>
    cases first : raw.accept (fresh index) with
    | error cause =>
      rw [strictFrom, first] at taken
      cases taken
    | ok expense =>
      rw [strictFrom, first] at taken
      obtain ⟨more, tail, rfl⟩ := Json.map_eq_ok.mp taken
      simpa using
        And.intro (accept_amount (fresh index) raw expense first) (ih (index + 1) more tail)

theorem run_amounts (mode : IntakeMode) (fresh : Supply) (raws : List RawExpense) (sifted : Sifted)
    (taken : run mode fresh raws = .ok sifted) :
    ∀ expense ∈ sifted.accepted, IsAmount expense.amount := by
  cases mode with
  | lenient =>
    cases taken
    exact lenient_amounts fresh 0 raws
  | strict =>
    obtain ⟨expenses, all, rfl⟩ := Json.map_eq_ok.mp taken
    exact strict_amounts fresh 0 raws expenses all

end Intake

namespace Totals

theorem spentOn_nonneg (history : List Expense) (amounts : ∀ e ∈ history, IsAmount e.amount) :
    0 ≤ spentOn history :=
  (rank_sum _ (List.forall_mem_map.mpr amounts)).1

theorem spentOn_insert (before after : List Expense) (expense : Expense)
    (amounts : ∀ e ∈ before ++ expense :: after, IsAmount e.amount) :
    spentOn (before ++ after) ≤ spentOn (before ++ expense :: after) := by
  have all := List.forall_mem_map.mpr amounts
  simp only [spentOn, List.map_append, List.map_cons] at all ⊢
  exact sum_insert _ _ _ all

end Totals

namespace Standing

/-- Histories that grow, one expense after another and each at any place, by so many expenses that
have an amount. -/
inductive Entered (history : List Expense) : Nat → List Expense → Prop where
  | nothing : Entered history 0 history
  | expense (count : Nat) (before after : List Expense) (expense : Expense) :
      Entered history count (before ++ after) → IsAmount expense.amount →
        Entered history (count + 1) (before ++ expense :: after)

structure KeepsSpending (old new : Standing) (count : Nat) : Prop where
  spent : old.totals.spent ≤ new.totals.spent
  expenses : new.totals.expenses = old.totals.expenses + count
  budget : new.totals.budget = old.totals.budget
  badges : 5 ≤ old.totals.expenses → ∀ badge ∈ Badge.ofBudget, new.Holds badge → old.Holds badge

variable (profile : Profile) (today : Date)

theorem insert_amounts (before after : List Expense) (expense : Expense)
    (amounts : ∀ e ∈ before ++ after, IsAmount e.amount) (amount : IsAmount expense.amount) :
    ∀ e ∈ before ++ expense :: after, IsAmount e.amount := by
  simp only [List.forall_mem_append, List.forall_mem_cons] at amounts ⊢
  exact ⟨amounts.1, amount, amounts.2⟩

theorem entered_amounts (history grown : List Expense) (count : Nat)
    (entered : Entered history count grown) (amounts : ∀ e ∈ history, IsAmount e.amount) :
    ∀ e ∈ grown, IsAmount e.amount := by
  induction entered with
  | nothing => exact amounts
  | expense count before after expense _ amount ih =>
    exact insert_amounts before after expense ih amount

theorem entered_spent (history grown : List Expense) (count : Nat)
    (entered : Entered history count grown) (amounts : ∀ e ∈ history, IsAmount e.amount) :
    Totals.spentOn history ≤ Totals.spentOn grown ∧ grown.length = history.length + count := by
  induction entered with
  | nothing =>
    obtain ⟨_, number, _⟩ := Totals.spentOn_nonneg history amounts
    exact ⟨(le_iff_rank _ _).mpr ⟨number, number, Int.le_refl _⟩, rfl⟩
  | expense count before after expense entered amount ih =>
    have earlier := entered_amounts history _ count entered amounts
    have step := Totals.spentOn_insert before after expense
      (insert_amounts before after expense earlier amount)
    refine ⟨le_trans _ _ _ ih.1 step, ?_⟩
    simp only [List.length_append, List.length_cons] at ih ⊢
    omega

theorem entered_keeps_spending (history grown : List Expense) (count : Nat)
    (entered : Entered history count grown) (amounts : ∀ e ∈ history, IsAmount e.amount) :
    KeepsSpending (compute profile history today) (compute profile grown today) count := by
  obtain ⟨spent, length⟩ := entered_spent history grown count entered amounts
  refine ⟨spent, length, rfl, ?_⟩
  intro enough badge budgetary held
  rw [holds_iff] at held ⊢
  have budget : (compute profile grown today).totals.budget =
      (compute profile history today).totals.budget := rfl
  exact Badge.earned_before _ _ badge budgetary budget spent enough held

/-- Whatever an intake accepts has an amount. Over expenses with amounts the sum is a number from
zero up, one more expense at any place never lowers it, and any number of them makes no badge for
the budget appear once there are five expenses, while every one of them counts. -/
theorem spending_grows :
    (∀ mode fresh raws sifted, Intake.run mode fresh raws = .ok sifted →
      ∀ e ∈ sifted.accepted, IsAmount e.amount) ∧
    (∀ before after expense, (∀ e ∈ before ++ expense :: after, IsAmount e.amount) →
      (Totals.spentOn (before ++ after)).isNaN = false ∧ 0 ≤ Totals.spentOn (before ++ after) ∧
      (Totals.spentOn (before ++ expense :: after)).isNaN = false ∧
      Totals.spentOn (before ++ after) ≤ Totals.spentOn (before ++ expense :: after)) ∧
    ∀ profile today history count grown, (∀ e ∈ history, IsAmount e.amount) →
      Entered history count grown →
        KeepsSpending (compute profile history today) (compute profile grown today) count := by
  refine ⟨Intake.run_amounts, ?_, ?_⟩
  · intro before after expense amounts
    have fewer : ∀ e ∈ before ++ after, IsAmount e.amount := by
      simp only [List.forall_mem_append, List.forall_mem_cons] at amounts ⊢
      exact ⟨amounts.1, amounts.2.2⟩
    have nonneg := Totals.spentOn_nonneg _ fewer
    have order := Totals.spentOn_insert before after expense amounts
    exact ⟨nonneg.2.1, nonneg, order.2.1, order⟩
  · intro profile today history count grown amounts entered
    exact entered_keeps_spending profile today history grown count entered amounts

/-- Two late entries, of 20 and of 9, into a history of five expenses that has used up its budget of
82. -/
theorem spending_grows_late_entries :
    let bought (cost : Nat) : Expense :=
      Expense.plain Uuid.zero ⟨2025, 3, 14, by decide⟩ (OfNat.ofNat cost) "Food"
    let profile := Profile.plain Uuid.zero "" 82
    let history := [30, 40, 5, 0, 7].map bought
    let grown := [30, 40, 20, 5, 9, 0, 7].map bought
    (∀ e ∈ history, IsAmount e.amount) ∧ Entered history 2 grown ∧
      KeepsSpending (compute profile history ⟨2025, 3, 14, by decide⟩)
        (compute profile grown ⟨2025, 3, 14, by decide⟩) 2 := by
  intro bought profile history grown
  have amount (cost : Nat) (small : cost ≤ 100) : IsAmount (bought cost).amount :=
    isAmount_ofNat cost (Nat.le_trans small (by decide))
  have amounts : ∀ e ∈ history, IsAmount e.amount := by
    refine List.forall_mem_map.mpr fun cost member => amount cost ?_
    exact (by decide : ∀ cost ∈ [30, 40, 5, 0, 7], cost ≤ 100) cost member
  have first : Entered history 1 ([30, 40, 20, 5, 0, 7].map bought) :=
    .expense 0 ([30, 40].map bought) ([5, 0, 7].map bought) _ .nothing (amount 20 (by decide))
  have entered : Entered history 2 grown :=
    .expense 1 ([30, 40, 20, 5].map bought) ([0, 7].map bought) _ first (amount 9 (by decide))
  exact ⟨amounts, entered, spending_grows.2.2 profile _ history 2 grown amounts entered⟩

end Standing

end HabitLedger
