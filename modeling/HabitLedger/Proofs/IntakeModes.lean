import HabitLedger.Proofs.Entries

/-!
The two ways to take expenses in agree. A budget that cannot be used refuses a document before any
expense is looked at. With a usable budget a strict intake gives what a lenient one gives if nothing
is set aside, and otherwise stops at the first expense that the lenient one sets aside.
-/

namespace HabitLedger

namespace Intake
variable (fresh other : Supply)

/-- Both walk the same list; the lenient rest after a good expense decides for both. -/
theorem strict_accepts (index : Nat) (raws : List RawExpense)
    (clean : (lenientFrom fresh index raws).aside = []) :
    ∃ expenses, strictFrom other index raws = .ok expenses ∧
      expenses.map Expense.entry = (lenientFrom fresh index raws).accepted.map Expense.entry := by
  induction raws generalizing index with
  | nil => exact ⟨[], rfl, rfl⟩
  | cons raw rest ih =>
    cases taken : raw.accept (fresh index) with
    | error cause =>
      simp only [lenientFrom, taken] at clean
      cases clean
    | ok expense =>
      simp only [lenientFrom, taken] at clean ⊢
      obtain ⟨twin, accepted, entry⟩ := accept_ok_fresh _ (other index) raw expense taken
      obtain ⟨expenses, strictly, entries⟩ := ih (index + 1) clean
      exact ⟨twin :: expenses, by simp only [strictFrom, accepted, strictly]; rfl,
        by simp only [List.map_cons, entry, entries]⟩

theorem strict_stops (index : Nat) (raws : List RawExpense) (first : SetAside)
    (more : List SetAside) (found : (lenientFrom fresh index raws).aside = first :: more) :
    strictFrom other index raws = .error first := by
  induction raws generalizing index with
  | nil => cases found
  | cons raw rest ih =>
    cases taken : raw.accept (fresh index) with
    | error cause =>
      simp only [lenientFrom, taken] at found
      have refused := accept_error_fresh _ (other index) raw cause taken
      simp only [strictFrom, refused]
      exact congrArg Except.error (List.cons.inj found).1
    | ok expense =>
      simp only [lenientFrom, taken] at found
      obtain ⟨twin, accepted, _⟩ := accept_ok_fresh _ (other index) raw expense taken
      simp only [strictFrom, accepted, ih (index + 1) found]
      rfl

end Intake

namespace Dashboard
variable (fresh other : Intake.Supply) (today : Date) (snapshot : Snapshot)

def Unusable (budget : Binary64) : Prop := budget.isFinite = false ∨ budget < 0

theorem checkBudget_refused (budget : Binary64) (unusable : Unusable budget) :
    ∃ cause, checkBudget budget = .error (.badBudget cause) := by
  unfold checkBudget Intake.nonNegative
  by_cases infinite : budget.isFinite = false
  · exact ⟨.notFinite budget, by rw [if_pos infinite]; rfl⟩
  · have negative := unusable.resolve_left infinite
    exact ⟨.negative budget, by rw [if_neg infinite, if_pos negative]; rfl⟩

theorem checkBudget_passed (budget : Binary64) (usable : ¬ Unusable budget) :
    checkBudget budget = .ok budget := by
  obtain ⟨finite, positive⟩ := not_or.mp usable
  unfold checkBudget Intake.nonNegative
  rw [if_neg finite, if_neg positive]
  rfl

theorem build_refused (mode : IntakeMode) (refusal : Refusal)
    (refused : checkBudget snapshot.profile.totalBudget = .error refusal) :
    build fresh mode today snapshot = .error refusal := by
  simp only [build, refused]
  rfl

theorem build_passed (mode : IntakeMode) (usable : ¬ Unusable snapshot.profile.totalBudget) :
    build fresh mode today snapshot =
      ((Intake.run mode fresh snapshot.expenses).mapError .badExpense).map
        (ofSifted snapshot today) := by
  simp only [build, checkBudget_passed _ usable]
  rfl

theorem build_lenient (usable : ¬ Unusable snapshot.profile.totalBudget) :
    build fresh .lenient today snapshot =
      .ok (ofSifted snapshot today (Intake.lenient fresh snapshot.expenses)) := by
  rw [build_passed fresh today snapshot .lenient usable]
  rfl

theorem build_strict_clean (usable : ¬ Unusable snapshot.profile.totalBudget)
    (clean : (Intake.lenient fresh snapshot.expenses).aside = []) :
    build other .strict today snapshot =
      .ok (ofSifted snapshot today (Intake.lenient fresh snapshot.expenses)) := by
  obtain ⟨expenses, strictly, entries⟩ :=
    Intake.strict_accepts fresh other 0 snapshot.expenses clean
  have same := dashboard_of_entries snapshot today ⟨expenses, []⟩
    (Intake.lenient fresh snapshot.expenses) entries clean.symm
  rw [build_passed other today snapshot .strict usable, ← same]
  simp only [Intake.run, Intake.strict, strictly]
  rfl

theorem build_strict_stops (usable : ¬ Unusable snapshot.profile.totalBudget) (first : SetAside)
    (more : List SetAside)
    (found : (Intake.lenient fresh snapshot.expenses).aside = first :: more) :
    build other .strict today snapshot = .error (.badExpense first) := by
  have stops := Intake.strict_stops fresh other 0 snapshot.expenses first more found
  rw [build_passed other today snapshot .strict usable]
  simp only [Intake.run, Intake.strict, stops]
  rfl

/-- In either mode there is one dashboard that a document can have. -/
theorem build_ok (mode : IntakeMode) (dashboard : Dashboard)
    (built : build fresh mode today snapshot = .ok dashboard) :
    ¬ Unusable snapshot.profile.totalBudget ∧
      dashboard = ofSifted snapshot today (Intake.lenient fresh snapshot.expenses) := by
  by_cases unusable : Unusable snapshot.profile.totalBudget
  · obtain ⟨cause, refused⟩ := checkBudget_refused _ unusable
    rw [build_refused fresh today snapshot mode _ refused] at built
    cases built
  · refine ⟨unusable, ?_⟩
    cases mode with
    | lenient =>
      rw [build_lenient fresh today snapshot unusable] at built
      exact (Except.ok.inj built).symm
    | strict =>
      cases found : (Intake.lenient fresh snapshot.expenses).aside with
      | nil =>
        rw [build_strict_clean fresh fresh today snapshot unusable found] at built
        exact (Except.ok.inj built).symm
      | cons first more =>
        rw [build_strict_stops fresh fresh today snapshot unusable first more found] at built
        cases built

/-- Both intakes refuse the same budgets for the same reason, whatever the expenses are. Past the
budget the lenient intake always gives a dashboard, and the strict one gives the same dashboard or
stops at the first expense that the lenient one sets aside, never later and never in its place. -/
theorem modes_agree (fresh other : Intake.Supply) (today : Date) (snapshot : Snapshot) :
    (Unusable snapshot.profile.totalBudget → ∃ cause, ∀ expenses,
      build fresh .lenient today { snapshot with expenses } = .error (.badBudget cause) ∧
      build other .strict today { snapshot with expenses } = .error (.badBudget cause)) ∧
    (¬ Unusable snapshot.profile.totalBudget → ∃ dashboard,
      build fresh .lenient today snapshot = .ok dashboard ∧
      (dashboard.aside = [] → build other .strict today snapshot = .ok dashboard) ∧
      ∀ first more, dashboard.aside = first :: more →
        ∃ stop, build other .strict today snapshot = .error (.badExpense stop) ∧
          stop.index = first.index ∧ stop.cause.message = first.cause.message) ∧
    ∀ strictly leniently, build other .strict today snapshot = .ok strictly →
      build fresh .lenient today snapshot = .ok leniently → leniently.aside = [] := by
  refine ⟨?_, ?_, ?_⟩
  · intro unusable
    obtain ⟨cause, refused⟩ := checkBudget_refused _ unusable
    exact ⟨cause, fun expenses =>
      ⟨build_refused fresh today { snapshot with expenses } .lenient _ refused,
        build_refused other today { snapshot with expenses } .strict _ refused⟩⟩
  · intro usable
    exact ⟨_, build_lenient fresh today snapshot usable,
      build_strict_clean fresh other today snapshot usable,
      fun first more found =>
        ⟨first, build_strict_stops fresh other today snapshot usable first more found, rfl, rfl⟩⟩
  · intro strictly leniently strictOk lenientOk
    by_cases unusable : Unusable snapshot.profile.totalBudget
    · obtain ⟨cause, refused⟩ := checkBudget_refused _ unusable
      rw [build_refused other today snapshot .strict _ refused] at strictOk
      cases strictOk
    -- Were anything set aside, the strict intake would have stopped there.
    · rw [build_lenient fresh today snapshot unusable] at lenientOk
      cases lenientOk
      cases found : (Intake.lenient fresh snapshot.expenses).aside with
      | nil => exact found
      | cons first more =>
        rw [build_strict_stops fresh other today snapshot unusable first more found] at strictOk
        cases strictOk

end Dashboard

end HabitLedger
