import HabitLedger.Proofs.Rewording
import Mathlib.Algebra.Order.BigOperators.Group.List

/-!
Where spending is exact. As long as amounts are whole numbers that add up to no more than `2 ^ 53`,
every running sum is itself such a number and nothing is rounded: each category shows exactly what
its expenses cost, the categories and what is filed under none of them make up the whole, and no
order of expenses or categories changes any of it.
-/

namespace HabitLedger

namespace Binary64

structure IsCount (x : Binary64) (count : Nat) : Prop where
  isFinite : x.isFinite = true
  exact : x.rank = (count * one : Nat)

theorem IsCount.isAmount (x : Binary64) (count : Nat) (whole : x.IsCount count) : IsAmount x := by
  refine ⟨whole.isFinite, (nonneg_iff x).mpr ⟨isNaN_of_isFinite x whole.isFinite, ?_⟩⟩
  rw [whole.exact]
  exact Int.natCast_nonneg _

theorem isFinite_of_rank (x : Binary64) (nonneg : 0 ≤ x) (small : x.rank < limit) :
    x.isFinite = true := by
  by_contra large
  rw [infinite_of_nonneg x nonneg (eq_false_of_ne_true large)] at small
  exact Int.lt_irrefl _ small

/-- To be so many is to equal the number for it, as far as there is one for every count. -/
theorem isCount_iff (x : Binary64) (count : Nat) (few : count ≤ Nat.pow 2 53) :
    x.IsCount count ↔ x.Equal (OfNat.ofNat count) := by
  obtain ⟨number, rank⟩ := rank_ofNat count few
  rw [equal_iff_rank, rank]
  constructor
  · intro whole
    exact ⟨isNaN_of_isFinite x whole.isFinite, number, whole.exact⟩
  · rintro ⟨numberX, _, exact⟩
    refine ⟨isFinite_of_rank x ((nonneg_iff x).mpr ⟨numberX, ?_⟩) ?_, exact⟩
    · rw [exact]
      exact Int.natCast_nonneg _
    · rw [exact]
      exact Int.ofNat_lt.mpr (whole_present count few).1

/-- One addition: the exact total is a number, so it is the sum. -/
theorem IsCount.add (total x : Binary64) (before count : Nat) (first : total.IsCount before)
    (second : x.IsCount count) (few : before + count ≤ Nat.pow 2 53) :
    (total + x).IsCount (before + count) := by
  obtain ⟨number, settled⟩ := rank_add total x first.isAmount.nonneg second.isAmount
  have present := whole_present (before + count) few
  have exact : (total + x).rank = ((before + count) * one : Nat) := by
    rw [settled, first.exact, second.exact, Int.toNat_natCast, Int.toNat_natCast, ← Nat.add_mul,
      settle_present _ present]
  refine ⟨isFinite_of_rank _ ((nonneg_iff _).mpr ⟨number, ?_⟩) ?_, exact⟩
  · rw [exact]
    exact Int.natCast_nonneg _
  · rw [exact]
    exact Int.ofNat_lt.mpr present.1

theorem start_count : (-0 : Binary64).IsCount 0 := by
  rw [start_zero]
  refine ⟨rfl, ?_⟩
  rw [Nat.zero_mul]
  rfl

section Sum
variable {α : Type} (amount : α → Binary64) (cost : α → Nat)

/-- The induction is on the addends, from any start that is a whole number itself. -/
theorem foldl_count (items : List α) (start : Binary64) (before : Nat)
    (begun : start.IsCount before) (whole : ∀ item ∈ items, (amount item).IsCount (cost item))
    (few : before + (items.map cost).sum ≤ Nat.pow 2 53) :
    ((items.map amount).foldl (· + ·) start).IsCount (before + (items.map cost).sum) := by
  induction items generalizing start before with
  | nil => exact begun
  | cons item rest ih =>
    simp only [List.map_cons, List.sum_cons, ← Nat.add_assoc] at few ⊢
    have next := begun.add start (amount item) before (cost item) (whole item List.mem_cons_self)
      (Nat.le_trans (Nat.le_add_right _ _) few)
    exact ih _ _ next (fun other member => whole other (List.mem_cons_of_mem item member)) few

variable (items : List α) (whole : ∀ item ∈ items, (amount item).IsCount (cost item))
  (few : (items.map cost).sum ≤ Nat.pow 2 53)
include whole few

theorem sum_count : (sum (items.map amount)).IsCount (items.map cost).sum := by
  have folded := foldl_count amount cost items (-0) 0 start_count whole
    (by rw [Nat.zero_add]; exact few)
  rw [Nat.zero_add] at folded
  exact folded

theorem sum_perm (others : List α) (order : others.Perm items) :
    sum (others.map amount) = sum (items.map amount) := by
  have wholeToo : ∀ item ∈ others, (amount item).IsCount (cost item) := fun item member =>
    whole item (order.mem_iff.mp member)
  have same : (others.map cost).sum = (items.map cost).sum := (order.map cost).sum_eq
  refine sum_of_ranks _ _ (order.map amount) ?_ ?_
  · exact List.forall_mem_map.mpr fun item member => (wholeToo item member).isAmount
  · rw [(sum_count amount cost others wholeToo (same ▸ few)).exact,
      (sum_count amount cost items whole few).exact, same]

end Sum

end Binary64

open Binary64

/-! ## Categories -/

def costUnder (cost : Expense → Nat) (history : List Expense) (name : String) : Nat :=
  ((history.filter fun expense => expense.BelongsTo name).map cost).sum

def unlisted (names : List String) (history : List Expense) : List Expense :=
  history.filter fun expense => expense.category ∉ names

section Partition
variable (cost : Expense → Nat) (history : List Expense)

theorem unlisted_cons (name : String) (names : List String) :
    unlisted (name :: names) history =
      (unlisted names history).filter fun expense => ¬ expense.BelongsTo name := by
  rw [unlisted, unlisted, List.filter_filter]
  refine List.filter_congr fun expense _ => ?_
  by_cases filed : expense.category = name <;> simp [Expense.BelongsTo, filed]

theorem filed_unlisted (name : String) (names : List String) (fresh : name ∉ names) :
    ((unlisted names history).filter fun expense => expense.BelongsTo name) =
      history.filter fun expense => expense.BelongsTo name := by
  rw [unlisted, List.filter_filter]
  refine List.filter_congr fun expense _ => ?_
  by_cases filed : expense.category = name <;> simp [Expense.BelongsTo, filed, fresh]

/-- Each name takes its own expenses out of what the names after it leave. -/
theorem cost_partition (names : List String) (distinct : names.Nodup) :
    (names.map (costUnder cost history)).sum + ((unlisted names history).map cost).sum =
      (history.map cost).sum := by
  induction names with
  | nil => simp [unlisted]
  | cons name names ih =>
    obtain ⟨fresh, distinct⟩ := List.nodup_cons.mp distinct
    have split := List.sum_map_filter_add_sum_map_filter_not
      (fun expense : Expense => expense.BelongsTo name) cost (unlisted names history)
    have own : costUnder cost history name =
        (((unlisted names history).filter fun expense => expense.BelongsTo name).map cost).sum := by
      rw [filed_unlisted history name names fresh, costUnder]
    rw [List.map_cons, List.sum_cons, unlisted_cons, own, ← ih distinct, ← split]
    omega

end Partition

/-! ## The figures -/

/-- The figures of a history are exact: each is a whole number, and together they leave nothing
out. -/
structure Exact (cost : Expense → Nat) (history : List Expense)
    (categories : List Category) : Prop where
  spent : (Totals.spentOn history).IsCount (history.map cost).sum
  rows : ∀ category, (Spending.ofCategory history category).spent.IsCount
    (costUnder cost history category.name)
  rest : (Totals.spentOn (unlisted (categories.map (·.name)) history)).IsCount
    ((unlisted (categories.map (·.name)) history).map cost).sum
  whole : (categories.map fun category => costUnder cost history category.name).sum +
    ((unlisted (categories.map (·.name)) history).map cost).sum = (history.map cost).sum
  added : (Binary64.sum ((Spending.table categories history).map (·.spent)) +
    Totals.spentOn (unlisted (categories.map (·.name)) history)).Equal (Totals.spentOn history)

structure SameFigures (others history : List Expense)
    (listed categories : List Category) : Prop where
  spent : Totals.spentOn others = Totals.spentOn history
  rows : Spending.table listed others = listed.map (Spending.ofCategory history)
  table : (Spending.table listed others).Perm (Spending.table categories history)
  rest : Totals.spentOn (unlisted (listed.map (·.name)) others) =
    Totals.spentOn (unlisted (categories.map (·.name)) history)
  added : Binary64.sum ((Spending.table listed others).map (·.spent)) =
    Binary64.sum ((Spending.table categories history).map (·.spent))

section Figures
variable (cost : Expense → Nat) (history : List Expense)
  (few : (history.map cost).sum ≤ Nat.pow 2 53)
include few

theorem part_few (part : List Expense) (sublist : part.Sublist history) :
    (part.map cost).sum ≤ Nat.pow 2 53 :=
  Nat.le_trans ((sublist.map cost).sum_le_sum fun _ _ => Nat.zero_le _) few

theorem rows_few (categories : List Category) (distinct : (categories.map (·.name)).Nodup) :
    (categories.map fun category => costUnder cost history category.name).sum ≤ Nat.pow 2 53 := by
  have partition := cost_partition cost history _ distinct
  rw [List.map_map] at partition
  exact Nat.le_trans (Nat.le.intro partition) few

variable (whole : ∀ expense ∈ history, expense.amount.IsCount (cost expense))
include whole

theorem spentOn_count (part : List Expense) (sublist : part.Sublist history) :
    (Totals.spentOn part).IsCount (part.map cost).sum :=
  sum_count _ cost part (fun expense member => whole expense (sublist.subset member))
    (part_few cost history few part sublist)

theorem spentOn_perm (others part : List Expense) (sublist : part.Sublist history)
    (order : others.Perm part) : Totals.spentOn others = Totals.spentOn part :=
  sum_perm _ cost part (fun expense member => whole expense (sublist.subset member))
    (part_few cost history few part sublist) others order

theorem row_count (category : Category) :
    (Spending.ofCategory history category).spent.IsCount (costUnder cost history category.name) :=
  spentOn_count cost history few whole _ List.filter_sublist

variable (categories : List Category) (distinct : (categories.map (·.name)).Nodup)
include distinct

theorem table_count :
    (Binary64.sum ((Spending.table categories history).map (·.spent))).IsCount
      (categories.map fun category => costUnder cost history category.name).sum := by
  rw [Spending.table, List.map_map]
  exact sum_count _ _ categories (fun category _ => row_count cost history few whole category)
    (rows_few cost history few categories distinct)

theorem exact_figures : Exact cost history categories := by
  have partition := cost_partition cost history _ distinct
  rw [List.map_map] at partition
  have rest := spentOn_count cost history few whole
    (unlisted (categories.map (·.name)) history) List.filter_sublist
  have spent := spentOn_count cost history few whole history (List.Sublist.refl _)
  have rows := table_count cost history few whole categories distinct
  have added := rows.add _ _ _ _ rest (Nat.le_trans (Nat.le_of_eq partition) few)
  refine ⟨spent, row_count cost history few whole, rest, partition, ?_⟩
  refine (equal_iff_rank _ _).mpr ⟨isNaN_of_isFinite _ added.isFinite,
    isNaN_of_isFinite _ spent.isFinite, ?_⟩
  rw [added.exact, spent.exact]
  exact congrArg (fun count : Nat => ((count * one : Nat) : Int)) partition

/-- No order of the expenses or of the categories changes a figure. -/
theorem same_figures (others : List Expense) (listed : List Category) (order : others.Perm history)
    (shuffled : listed.Perm categories) : SameFigures others history listed categories := by
  have rows : Spending.table listed others = listed.map (Spending.ofCategory history) := by
    refine List.map_congr_left fun category _ => ?_
    have spent := spentOn_perm cost history few whole _ _ List.filter_sublist
      (order.filter fun expense => expense.BelongsTo category.name)
    rw [Spending.ofCategory, Spending.ofCategory]
    exact congrArg (fun spent =>
      (⟨category.name, category.limit, spent, category.color⟩ : Spending)) spent
  have names : unlisted (listed.map (·.name)) others =
      unlisted (categories.map (·.name)) others := by
    refine List.filter_congr fun expense _ => decide_eq_decide.mpr (not_congr ?_)
    exact (shuffled.map (·.name)).mem_iff
  refine ⟨spentOn_perm cost history few whole _ _ (List.Sublist.refl _) order, rows, ?_, ?_, ?_⟩
  · rw [rows]
    exact shuffled.map _
  · rw [names]
    exact spentOn_perm cost history few whole _ _ List.filter_sublist (order.filter _)
  · rw [rows, Spending.table, List.map_map, List.map_map]
    exact sum_perm _ _ categories (fun category _ => row_count cost history few whole category)
      (rows_few cost history few categories distinct) listed shuffled

end Figures

/-- Over whole amounts that add up to no more than `2 ^ 53` every figure is exact: what was spent,
what was spent in each category and what was spent in none of them, and the parts make up the whole.
In whatever order the expenses and the categories come, no figure changes. -/
theorem spending_conserved (cost : Expense → Nat) (history : List Expense)
    (categories : List Category)
    (whole : ∀ expense ∈ history, expense.amount.IsCount (cost expense))
    (few : (history.map cost).sum ≤ Nat.pow 2 53) (distinct : (categories.map (·.name)).Nodup) :
    Exact cost history categories ∧
      ∀ others listed, others.Perm history → listed.Perm categories →
        SameFigures others history listed categories :=
  ⟨exact_figures cost history few whole categories distinct,
    same_figures cost history few whole categories distinct⟩

/-- Two expenses for food, one for a category of its own and one that is filed nowhere. -/
theorem spending_conserved_lunches :
    let bought (category : String) (count : Nat) : Expense :=
      Expense.plain Uuid.zero ⟨2025, 3, 14, by decide⟩ (OfNat.ofNat count) category
    let cost (expense : Expense) : Nat := expense.amount.rank.toNat / one
    let history := [bought "Food" 12, bought "Rent" 40, bought "" 5, bought "Food" 8]
    let categories := [Category.plain "Rent" 100, Category.plain "Fun" 50, Category.plain "Food" 15]
    (∀ expense ∈ history, expense.amount.IsCount (cost expense)) ∧
      (history.map cost).sum ≤ Nat.pow 2 53 ∧ (categories.map (·.name)).Nodup ∧
      (categories.map fun category => costUnder cost history category.name) = [40, 0, 20] ∧
      Exact cost history categories ∧
      SameFigures history.reverse history categories.reverse categories := by
  intro bought cost history categories
  have equal : ∀ expense ∈ history, cost expense ≤ Nat.pow 2 53 ∧
      expense.amount.Equal (OfNat.ofNat (cost expense)) := by
    decide +kernel
  have whole : ∀ expense ∈ history, expense.amount.IsCount (cost expense) :=
    fun expense member => (isCount_iff _ _ (equal expense member).1).mpr (equal expense member).2
  have few : (history.map cost).sum ≤ Nat.pow 2 53 := by decide +kernel
  have distinct : (categories.map (·.name)).Nodup := by decide
  obtain ⟨figures, same⟩ := spending_conserved cost history categories whole few distinct
  exact ⟨whole, few, distinct, by decide +kernel, figures,
    same _ _ history.reverse_perm categories.reverse_perm⟩

end HabitLedger
