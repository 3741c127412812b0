import HabitLedger.Proofs.FiniteReading
import HabitLedger.Proofs.Nulls
import HabitLedger.Proofs.PassedOver
import HabitLedger.Proofs.Rewording
import HabitLedger.Proofs.SnapshotText

/-!
What the text of a dashboard tells. Every amount and every budget that is taken in is finite, but a
sum of amounts, and a share of a budget or a goal, can grow too large for a double: then `null`
stands where a number should, and the totals cannot be read back. Apart from that `null` says that
something is absent, and the totals are read back from the whole text.
-/

namespace HabitLedger

open Json Binary64

/-! ## Shares -/

theorem percentage_number (part whole percent : Binary64) (number : part.isNaN = false)
    (share : percentage part whole = some percent) : percent.isNaN = false := by
  obtain ⟨m, positive, rfl, rfl⟩ := percentage_some part whole percent share
  exact (rank_percent part m positive number).1

theorem percentage_nonneg (part whole percent : Binary64) (nonneg : 0 ≤ part)
    (share : percentage part whole = some percent) : 0 ≤ percent := by
  obtain ⟨number, above⟩ := (nonneg_iff part).mp nonneg
  obtain ⟨m, positive, rfl, rfl⟩ := percentage_some part whole percent share
  obtain ⟨result, rank⟩ := rank_percent part m positive number
  have least := percentRank_grows m.units positive 0 part.rank above
  have zero : percentRank m.units 0 = 0 := by
    have inner := mirrored_above (scaled one m.units) 0
    have whole := mirrored_above (scaled (100 * one) one) 0
    rw [scaled_zero one m.units positive] at inner
    rw [scaled_zero (100 * one) one one_pos] at whole
    exact (congrArg _ inner).trans whole
  rw [nonneg_iff, rank]
  exact ⟨result, zero ▸ least⟩

theorem percentage_none (part whole : Binary64) (finite : whole.isFinite = true) :
    percentage part whole = none ↔ whole ≤ 0 := by
  unfold percentage
  split
  · next unusable =>
    exact ⟨fun _ => unusable.resolve_left (by simp [finite]), fun _ => rfl⟩
  · next usable => exact ⟨nofun, fun below => absurd (Or.inr below) usable⟩

/-! ## Reading the totals back -/

namespace Dashboard

def totalsOnly : Record Totals := .single "DashboardReport" "stats" Totals.record.reader

def front (dashboard : Dashboard) : List (String × Value) :=
  [("profile_id", .text dashboard.profileId.text), ("evaluated_on", .text dashboard.day.text),
    ("profile_update", dashboard.update.toValue), ("streak", dashboard.streak.toValue)]

end Dashboard

theorem ProfileUpdate.writable (update : ProfileUpdate) : update.toValue.Writable := by
  simp [toValue, EarnedList.toValue]

theorem Streak.writable (streak : Streak) : streak.toValue.Writable := by
  simp [toValue]

theorem BoardEntry.writable (entry : BoardEntry) : entry.toValue.Writable := by
  simp [toValue]

theorem Board.writable (board : Board) : board.toValue.Writable := by
  simp [toValue, BoardEntry.writable]

theorem SetAside.writable (issue : SetAside) : issue.toValue.Writable := by
  simp [toValue]

theorem Spending.writable (row : Spending) : row.toValue.Writable := by
  cases color : row.color <;> simp [toValue, color, Value.present]

theorem Dashboard.toValue_front (dashboard : Dashboard) :
    ∃ back, dashboard.toValue =
      .object (dashboard.front ++ ("stats", dashboard.totals.toValue) :: back) ∧
      ∀ member ∈ dashboard.front ++ back, member.1 ≠ "stats" ∧ member.2.Writable := by
  refine ⟨_, rfl, ?_⟩
  simp [front, ProfileUpdate.writable, Streak.writable, Board.writable, Spending.writable,
    SetAside.writable]

section Totals
variable (totals : Totals) (room : Nat) (few : totals.expenses < UInt64.size)
include few

theorem Totals.restores (spent budget : Binary64)
    (readSpent : Reader.real.Restores (.real totals.spent) spent)
    (readBudget : Reader.real.Restores (.real totals.budget) budget) :
    (record.reader (room + 1)).Restores totals.toValue { totals with spent, budget } := by
  obtain ⟨expenses, _, _, streak⟩ := totals
  refine record.restores room (expenses, spent, budget, streak, ()) _ (by decide) ?_
  exact .kept (Reader.restores_natural _ _ _ few few) (.kept readSpent (.kept readBudget
    (.kept (Reader.restores_word32 _) .done)))

/-- The count is read before the sum is found to be no number. -/
theorem Totals.refuses (large : totals.spent.isFinite = false) :
    (record.reader (room + 1)).Refuses totals.toValue (.wrongType .null "f64") := by
  have counted := Reader.restores_natural UInt64.size totals.expenses "usize" few few
  have nothing : Value.real totals.spent = .null := if_neg (by simp [large])
  have value : totals.toValue = .object ([("total_expenses", .natural totals.expenses)] ++
      ("spent", .null) :: [("total_budget", .real totals.budget),
        ("current_streak", .natural totals.streak.toNat)]) := by
    rw [toValue, nothing]
    rfl
  rw [value]
  refine record.refuses room (some totals.expenses, none, none, none, ()) _ _ "spent" .null _
    (.next (Fields.takes_first room _ _ _ _ _ counted) (.done _)) ?_
  refine Fields.rejects_later _ _ room _ _ "spent" .null _ (by decide) ?_
  exact Fields.rejects_first (.required "spent" fun _ => .real) _ room _ .null _ Reader.refuses_null

end Totals

/-! ## What the texts tell -/

theorem usable_amount (budget : Binary64) (usable : ¬ Dashboard.Unusable budget) :
    IsAmount budget := by
  obtain ⟨finite, above⟩ := not_or.mp usable
  refine Intake.nonNegative_amount budget budget ?_
  rw [Intake.nonNegative, if_neg finite, if_neg above]

theorem Spending.table_bounded (categories : List Category) (expenses : List Expense)
    (amounts : ∀ e ∈ expenses, IsAmount e.amount) (row : Spending)
    (member : row ∈ table categories expenses) :
    0 ≤ row.spent ∧ row.spent ≤ Totals.spentOn expenses := by
  obtain ⟨category, _, rfl⟩ := List.mem_map.mp member
  have sound := List.forall_mem_map.mpr amounts
  have filed := (List.filter_sublist (p := fun e => decide (e.BelongsTo category.name))
    (l := expenses)).map (·.amount)
  exact ⟨(rank_sum _ fun x found => sound x (filed.subset found)).1, sum_sublist [] _ _ filed sound⟩

namespace Dashboard

structure Told (snapshot : Snapshot) (dashboard : Dashboard) : Prop where
  nulls : ∀ path, NullAt dashboard.toValue path ↔ dashboard.Absent path ∨ dashboard.Overflown path
  budget : dashboard.budgetPercent = none ↔ snapshot.profile.totalBudget.Equal 0
  savings : dashboard.savingsPercent = none ↔ snapshot.profile.savingsGoal ≤ 0
  spent : dashboard.totals.spent.isFinite = false → dashboard.totals.spent = .infinite false
  usage : ∀ percent, dashboard.budgetPercent = some percent → percent.isFinite = false →
    percent = .infinite false
  saved : ∀ percent, dashboard.savingsPercent = some percent → percent.isFinite = false →
    ∃ negative, percent = .infinite negative
  rows : dashboard.totals.spent.isFinite = true →
    ∀ row ∈ dashboard.spending, row.spent.isFinite = true
  bounded : Bounded ((snapshot.expenses.filterMap Intake.entryOf).map (·.2.1)) →
    dashboard.totals.spent.isFinite = true
  readable : dashboard.totals.expenses < UInt64.size → dashboard.totals.spent.isFinite = true →
    ∃ spent budget, spent.Beside dashboard.totals.spent ∧ budget.Beside dashboard.totals.budget ∧
      decode totalsOnly.reader dashboard.toValue.toCompact =
        .ok { dashboard.totals with spent, budget } ∧
      decode totalsOnly.reader dashboard.toValue.toPretty =
        .ok { dashboard.totals with spent, budget }
  unreadable : dashboard.totals.expenses < UInt64.size → dashboard.totals.spent.isFinite = false →
    decode totalsOnly.reader dashboard.toValue.toCompact = .error (.wrongType .null "f64") ∧
    decode totalsOnly.reader dashboard.toValue.toPretty = .error (.wrongType .null "f64")

section Texts
variable (dashboard : Dashboard) (few : dashboard.totals.expenses < UInt64.size)
include few

theorem totals_readable (finite : dashboard.totals.spent.isFinite = true)
    (budgetFinite : dashboard.totals.budget.isFinite = true) :
    ∃ spent budget, spent.Beside dashboard.totals.spent ∧ budget.Beside dashboard.totals.budget ∧
      decode totalsOnly.reader dashboard.toValue.toCompact =
        .ok { dashboard.totals with spent, budget } ∧
      decode totalsOnly.reader dashboard.toValue.toPretty =
        .ok { dashboard.totals with spent, budget } := by
  obtain ⟨spent, readSpent, besideSpent, _⟩ := Reader.restores_finite _ finite
  obtain ⟨budget, readBudget, besideBudget, _⟩ := Reader.restores_finite _ budgetFinite
  obtain ⟨back, value, others⟩ := dashboard.toValue_front
  have restored := Record.restores_single "DashboardReport" "stats" Totals.record.reader 126
    dashboard.front back _ _ (dashboard.totals.restores 125 few spent budget readSpent readBudget)
    others
  rw [value]
  exact ⟨spent, budget, besideSpent, besideBudget, decode_both totalsOnly.reader _ _ restored⟩

theorem totals_unreadable (large : dashboard.totals.spent.isFinite = false) :
    decode totalsOnly.reader dashboard.toValue.toCompact = .error (.wrongType .null "f64") ∧
      decode totalsOnly.reader dashboard.toValue.toPretty = .error (.wrongType .null "f64") := by
  obtain ⟨back, value, others⟩ := dashboard.toValue_front
  have refused := Record.refuses_single "DashboardReport" "stats" Totals.record.reader 126
    dashboard.front back _ _ (dashboard.totals.refuses 125 few large)
    fun member found => others member (List.mem_append_left back found)
  rw [value]
  exact decode_refused totalsOnly.reader _ _ refused

end Texts

theorem ofSifted_told (fresh : Intake.Supply) (today : Date) (snapshot : Snapshot)
    (finite : snapshot.Finite) (usable : ¬ Unusable snapshot.profile.totalBudget) :
    Told snapshot (ofSifted snapshot today (Intake.lenient fresh snapshot.expenses)) := by
  have amounts := Intake.lenient_amounts fresh 0 snapshot.expenses
  have budget := usable_amount snapshot.profile.totalBudget usable
  let accepted := (Intake.lenient fresh snapshot.expenses).accepted
  have nonneg := Totals.spentOn_nonneg accepted amounts
  have saved := isNaN_of_isFinite _ finite.profile.currentSavings
  have terms : (snapshot.expenses.filterMap Intake.entryOf).map (·.2.1) =
      accepted.map (·.amount) := by
    rw [← Intake.accepted_entries fresh 0, List.map_map]
    rfl
  have limits : ∀ row ∈ Spending.table snapshot.categories accepted, row.limit.isFinite = true := by
    intro row member
    obtain ⟨category, listed, rfl⟩ := List.mem_map.mp member
    exact finite.categories category listed
  exact
    { nulls := fun path => nullAt _ path budget.isFinite limits
      budget := (percentage_none _ _ budget.isFinite).trans
        ⟨fun below => ⟨below, budget.nonneg⟩, fun same => same.1⟩
      savings := percentage_none _ _ finite.profile.savingsGoal
      spent := infinite_of_nonneg _ nonneg
      usage := fun percent share =>
        infinite_of_nonneg percent (percentage_nonneg _ _ percent nonneg share)
      saved := fun percent share =>
        infinite_of_number percent (percentage_number _ _ percent saved share)
      rows := by
        intro sumFinite row member
        obtain ⟨above, below⟩ := Spending.table_bounded _ accepted amounts row member
        exact isFinite_of_le _ _ above below sumFinite
      bounded := by
        rw [terms]
        exact sum_finite _ (List.forall_mem_map.mpr amounts)
      readable := fun few sumFinite => totals_readable _ few sumFinite budget.isFinite
      unreadable := totals_unreadable _ }

/-- For every document that is read, `null` in the text of its dashboard says that a day or a share
is absent, or that a sum or a share has become infinite, and nothing else. While the sum of the
amounts is finite no category's is infinite and the totals are read back; from then on they are
refused. -/
theorem nulls_told (text : String) (snapshot : Snapshot)
    (read : Snapshot.ofText text = .ok snapshot) (fresh : Intake.Supply) (mode : IntakeMode)
    (today : Date) (dashboard : Dashboard)
    (built : build fresh mode today snapshot = .ok dashboard) : Told snapshot dashboard := by
  obtain ⟨usable, rfl⟩ := build_ok fresh today snapshot mode dashboard built
  exact ofSifted_told fresh today snapshot (Snapshot.ofText_finite text snapshot read) usable

section Bought

def bought (amounts : List String) : Snapshot where
  profile := .plain Uuid.zero "" 1
  categories := [.plain "Food" 0]
  expenses := amounts.map fun amount =>
    ⟨none, some "2025-03-14", some (.text amount), some "Food", none, none⟩

theorem bought_given_back (amounts : List String) :
    Snapshot.ofText (bought amounts).toValue.toCompact = .ok (bought amounts) := by
  have zero : Brief 0 := by decide +kernel
  have one : Brief 1 := by decide +kernel
  refine ((bought amounts).given_back ⟨⟨zero, one, zero, zero⟩, ?_, ?_⟩).1
  · intro category member
    rw [List.mem_singleton.mp member]
    exact zero
  · intro raw member amount given
    obtain ⟨text, _, rfl⟩ := List.mem_map.mp member
    cases given
    trivial

/-- One lunch against a budget of one, whose sum is finite and so stands in the text. -/
theorem nulls_told_lunch :
    let snapshot := bought ["12.5"]
    let day : Date := ⟨2025, 3, 14, by decide⟩
    Snapshot.ofText snapshot.toValue.toCompact = .ok snapshot ∧
    ∃ dashboard, build (fun _ => Uuid.zero) .lenient day snapshot = .ok dashboard ∧
      Told snapshot dashboard ∧ dashboard.totals.expenses < UInt64.size ∧
        dashboard.totals.spent.isFinite = true := by
  intro snapshot day
  have read := bought_given_back ["12.5"]
  have built := build_lenient (fun _ => Uuid.zero) day snapshot (not_or.mpr (by decide +kernel))
  have count : (Intake.lenient (fun _ => Uuid.zero) snapshot.expenses).accepted.length <
      UInt64.size := by decide +kernel
  have finite : (Totals.spentOn
      (Intake.lenient (fun _ => Uuid.zero) snapshot.expenses).accepted).isFinite = true := by
    decide +kernel
  exact ⟨read, _, built, nulls_told _ snapshot read _ _ day _ built, count, finite⟩

/-- Two amounts that are finite, with a sum that is not: the budget is there and so are the
expenses, and yet their shares and sums are written as nothing. -/
theorem sum_written_as_null :
    let snapshot := bought ["1e308", "1e308"]
    let day : Date := ⟨2025, 3, 14, by decide⟩
    Snapshot.ofText snapshot.toValue.toCompact = .ok snapshot ∧
    ∃ dashboard, build (fun _ => Uuid.zero) .lenient day snapshot = .ok dashboard ∧
      ¬ snapshot.profile.totalBudget.Equal 0 ∧
      NullAt dashboard.toValue [.name "budget_usage_percent"] ∧
      NullAt dashboard.toValue [.name "stats", .name "spent"] ∧
      NullAt dashboard.toValue [.name "categories", .place 0, .name "spent"] ∧
      decode totalsOnly.reader dashboard.toValue.toCompact = .error (.wrongType .null "f64") := by
  intro snapshot day
  have built := build_lenient (fun _ => Uuid.zero) day snapshot (not_or.mpr (by decide +kernel))
  let dashboard := ofSifted snapshot day (Intake.lenient (fun _ => Uuid.zero) snapshot.expenses)
  have count : dashboard.totals.expenses < UInt64.size := by decide +kernel
  have sum : dashboard.totals.spent.isFinite = false := by decide +kernel
  have share : dashboard.budgetPercent = some (.infinite false) := by decide +kernel
  have budget : dashboard.totals.budget.isFinite = true := by decide +kernel
  obtain ⟨row, shown, filed⟩ :
      ∃ row, dashboard.spending[0]? = some row ∧ row.spent.isFinite = false :=
    ⟨_, rfl, by decide +kernel⟩
  have limits : ∀ row ∈ dashboard.spending, row.limit.isFinite = true := by
    intro row member
    rw [List.mem_singleton.mp member]
    decide +kernel
  have large (path : List Key) (overflown : dashboard.Overflown path) :
      NullAt dashboard.toValue path :=
    (dashboard.nullAt path budget limits).mpr (.inr overflown)
  exact ⟨bought_given_back _, dashboard, built, by decide +kernel,
    large _ (.budgetPercent _ share rfl), large _ (.spent sum),
    large _ (.category 0 row shown filed), (totals_unreadable dashboard count sum).1⟩

end Bought

end Dashboard

end HabitLedger
