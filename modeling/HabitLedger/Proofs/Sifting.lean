import HabitLedger.Proofs.AnyOrder

/-!
What a lenient intake does with a list. Every arriving expense is either accepted or set aside with
its place, both in the order of arrival. Its date, its amount and its identifier decide which, and
the first of them that is not good is the reason; what is accepted holds what arrived.
-/

namespace HabitLedger

open Binary64

namespace RawExpense
variable (raw : RawExpense) (fresh : Uuid)

def FallsOn (day : Date) : Prop :=
  ∃ text, raw.date = some text ∧ Date.ofText? text = some day

def Costs (amount : Binary64) : Prop :=
  ∃ given, raw.amount = some given ∧ Intake.amount given = .ok amount

/-- The identifier of an expense: the one that came with it, or a fresh one in the stead of nothing
or of blanks. -/
inductive Carries : Uuid → Prop where
  | absent : raw.id = none → Carries fresh
  | blank (text : String) : raw.id = some text → Text.AllBlank text.toList → Carries fresh
  | given (text : String) (id : Uuid) : raw.id = some text → ¬ Text.AllBlank text.toList →
      Uuid.read (Text.trim text.toList) = .ok id → Carries id

structure Becomes (expense : Expense) : Prop where
  id : raw.Carries fresh expense.id
  day : raw.FallsOn expense.day
  amount : raw.Costs expense.amount
  category : expense.category = raw.category.getD ""
  color : expense.color = raw.color
  notes : expense.notes = raw.notes.filter fun notes => ¬ Text.AllBlank notes.toList

/-- The first thing that is not good about an arriving expense; what comes before it is good. -/
inductive FirstFault : Rejection → Prop where
  | missingDate : raw.date = none → FirstFault .missingDate
  | badDate (text : String) : raw.date = some text → Date.ofText? text = none →
      FirstFault (.badDate text)
  | missingAmount (day : Date) : raw.FallsOn day → raw.amount = none → FirstFault .missingAmount
  | badAmount (day : Date) (given : RawAmount) (cause : AmountFault) : raw.FallsOn day →
      raw.amount = some given → Intake.amount given = .error cause → FirstFault (.badAmount cause)
  | badIdentifier (day : Date) (amount : Binary64) (text : String) (cause : UuidFault) :
      raw.FallsOn day → raw.Costs amount → raw.id = some text → ¬ Text.AllBlank text.toList →
      Uuid.read (Text.trim text.toList) = .error cause →
      FirstFault (.badIdentifier (Text.trimmed text))

/-! ## The three checks -/

theorem checkedDay_ok (day : Date) : raw.checkedDay = .ok day ↔ raw.FallsOn day := by
  unfold checkedDay FallsOn
  cases raw.date with
  | none => simp
  | some text =>
    simp only [Option.some.injEq, exists_eq_left', Intake.day]
    cases Date.ofText? text <;> simp

theorem checkedDay_error (cause : Rejection) :
    raw.checkedDay = .error cause ↔ (raw.date = none ∧ cause = .missingDate) ∨
      ∃ text, raw.date = some text ∧ Date.ofText? text = none ∧ cause = .badDate text := by
  unfold checkedDay
  cases raw.date with
  | none => simp [eq_comm]
  | some text =>
    simp only [Option.some.injEq, exists_eq_left', Intake.day]
    cases Date.ofText? text <;> simp [eq_comm]

theorem checkedAmount_ok (amount : Binary64) :
    raw.checkedAmount = .ok amount ↔ raw.Costs amount := by
  unfold checkedAmount Costs
  cases raw.amount with
  | none => simp
  | some given =>
    simp only [Option.some.injEq, exists_eq_left']
    cases Intake.amount given <;> simp [Except.mapError]

theorem checkedAmount_error (cause : Rejection) :
    raw.checkedAmount = .error cause ↔ (raw.amount = none ∧ cause = .missingAmount) ∨
      ∃ given fault, raw.amount = some given ∧ Intake.amount given = .error fault ∧
        cause = .badAmount fault := by
  unfold checkedAmount
  cases raw.amount with
  | none => simp [eq_comm]
  | some given =>
    simp only [Option.some.injEq, exists_and_left, exists_eq_left']
    cases Intake.amount given <;> simp [Except.mapError, eq_comm]

theorem trimmed_empty (text : String) :
    (Text.trimmed text).isEmpty = true ↔ Text.AllBlank text.toList := by
  simp [Text.trimmed, Text.AllBlank, String.isEmpty_iff, String.ofList_eq_empty_iff]

theorem givenId_blank (text : String) (arrived : raw.id = some text)
    (blank : Text.AllBlank text.toList) : raw.givenId = none := by
  have empty := (trimmed_empty text).mpr blank
  rw [givenId, arrived, Option.map_some, Option.filter_some, empty]
  rfl

theorem givenId_more (text : String) (arrived : raw.id = some text)
    (more : ¬ Text.AllBlank text.toList) : raw.givenId = some (Text.trimmed text) := by
  have some : ¬ (Text.trimmed text).isEmpty = true := mt (trimmed_empty text).mp more
  simp [givenId, arrived, some]

theorem checkedId_ok (id : Uuid) : raw.checkedId fresh = .ok id ↔ raw.Carries fresh id := by
  unfold checkedId
  constructor
  · intro checked
    cases arrived : raw.id with
    | none =>
      simp only [givenId, arrived, Option.map_none, Option.filter_none, Except.ok.injEq] at checked
      subst checked
      exact .absent arrived
    | some text =>
      by_cases blank : Text.AllBlank text.toList
      · rw [raw.givenId_blank text arrived blank] at checked
        cases checked
        exact .blank text arrived blank
      · rw [raw.givenId_more text arrived blank] at checked
        simp only [Text.trimmed, String.toList_ofList] at checked
        cases read : Uuid.read (Text.trim text.toList) with
        | error cause => rw [read] at checked; cases checked
        | ok found => rw [read] at checked; cases checked; exact .given text id arrived blank read
  · intro carries
    cases carries with
    | absent arrived => simp [givenId, arrived]
    | blank text arrived blank => rw [raw.givenId_blank text arrived blank]
    | given text _ arrived more read =>
      rw [raw.givenId_more text arrived more]
      simp [Text.trimmed, String.toList_ofList, read, Except.mapError]

theorem checkedId_error (cause : Rejection) :
    raw.checkedId fresh = .error cause ↔
      ∃ text fault, raw.id = some text ∧ ¬ Text.AllBlank text.toList ∧
        Uuid.read (Text.trim text.toList) = .error fault ∧
        cause = .badIdentifier (Text.trimmed text) := by
  unfold checkedId
  constructor
  · intro refused
    cases arrived : raw.id with
    | none => simp [givenId, arrived] at refused
    | some text =>
      by_cases blank : Text.AllBlank text.toList
      · rw [raw.givenId_blank text arrived blank] at refused
        cases refused
      · rw [raw.givenId_more text arrived blank] at refused
        simp only [Text.trimmed, String.toList_ofList] at refused
        cases read : Uuid.read (Text.trim text.toList) with
        | error fault =>
          rw [read] at refused
          exact ⟨text, fault, rfl, blank, read, (Except.error.inj refused).symm⟩
        | ok found => rw [read] at refused; cases refused
  · rintro ⟨text, fault, arrived, more, read, rfl⟩
    rw [raw.givenId_more text arrived more]
    simp [Text.trimmed, String.toList_ofList, read, Except.mapError]

/-! ## Acceptance -/

/-- An arriving expense is accepted exactly as the expense that it becomes. -/
theorem accept_ok_iff (expense : Expense) :
    raw.accept fresh = .ok expense ↔ raw.Becomes fresh expense := by
  constructor
  · intro accepted
    obtain ⟨day, dayChecked, accepted⟩ := Json.bind_eq_ok.mp accepted
    obtain ⟨amount, amountChecked, accepted⟩ := Json.bind_eq_ok.mp accepted
    obtain ⟨id, idChecked, accepted⟩ := Json.bind_eq_ok.mp accepted
    cases accepted
    exact
      { id := (raw.checkedId_ok fresh id).mp idChecked
        day := (raw.checkedDay_ok day).mp dayChecked
        amount := (raw.checkedAmount_ok amount).mp amountChecked
        category := rfl
        color := rfl
        notes := rfl }
  · intro becomes
    obtain ⟨id, day, amount, category, color, notes⟩ := expense
    have dayChecked := (raw.checkedDay_ok day).mpr becomes.day
    have amountChecked := (raw.checkedAmount_ok amount).mpr becomes.amount
    have idChecked := (raw.checkedId_ok fresh id).mpr becomes.id
    obtain ⟨_, _, _, rfl, rfl, rfl⟩ := becomes
    simp only [accept, dayChecked, amountChecked, idChecked, bind, Except.bind]
    rfl

/-- A check is reached only if those before it have passed. -/
theorem accept_stops (cause : Rejection) :
    raw.accept fresh = .error cause ↔ raw.checkedDay = .error cause ∨
      ∃ day, raw.checkedDay = .ok day ∧ (raw.checkedAmount = .error cause ∨
        ∃ amount, raw.checkedAmount = .ok amount ∧ raw.checkedId fresh = .error cause) := by
  unfold accept
  cases raw.checkedDay with
  | error reason => simp [bind, Except.bind]
  | ok day =>
    cases raw.checkedAmount with
    | error reason => simp [bind, Except.bind]
    | ok amount => cases raw.checkedId fresh <;> simp [bind, Except.bind]

theorem accept_error_iff (cause : Rejection) :
    raw.accept fresh = .error cause ↔ raw.FirstFault cause := by
  rw [accept_stops]
  constructor
  · rintro (refused | ⟨day, dayChecked, refused | ⟨amount, amountChecked, refused⟩⟩)
    · obtain ⟨absent, rfl⟩ | ⟨text, arrived, unread, rfl⟩ := (raw.checkedDay_error _).mp refused
      · exact .missingDate absent
      · exact .badDate text arrived unread
    · have falls := (raw.checkedDay_ok day).mp dayChecked
      obtain ⟨absent, rfl⟩ | ⟨given, fault, arrived, bad, rfl⟩ :=
        (raw.checkedAmount_error _).mp refused
      · exact .missingAmount day falls absent
      · exact .badAmount day given fault falls arrived bad
    · have falls := (raw.checkedDay_ok day).mp dayChecked
      have costs := (raw.checkedAmount_ok amount).mp amountChecked
      obtain ⟨text, fault, arrived, more, unread, rfl⟩ := (raw.checkedId_error fresh _).mp refused
      exact .badIdentifier day amount text fault falls costs arrived more unread
  · intro fault
    cases fault with
    | missingDate absent => exact .inl ((raw.checkedDay_error _).mpr (.inl ⟨absent, rfl⟩))
    | badDate text arrived unread =>
      exact .inl ((raw.checkedDay_error _).mpr (.inr ⟨text, arrived, unread, rfl⟩))
    | missingAmount day falls absent =>
      have missed := (raw.checkedAmount_error _).mpr (.inl ⟨absent, rfl⟩)
      exact .inr ⟨day, (raw.checkedDay_ok day).mpr falls, .inl missed⟩
    | badAmount day given reason falls arrived bad =>
      have refused := (raw.checkedAmount_error _).mpr (.inr ⟨given, reason, arrived, bad, rfl⟩)
      exact .inr ⟨day, (raw.checkedDay_ok day).mpr falls, .inl refused⟩
    | badIdentifier day amount text reason falls costs arrived more unread =>
      have refused := (raw.checkedId_error fresh _).mpr ⟨text, reason, arrived, more, unread, rfl⟩
      exact .inr ⟨day, (raw.checkedDay_ok day).mpr falls,
        .inr ⟨amount, (raw.checkedAmount_ok amount).mpr costs, refused⟩⟩

theorem passes_iff :
    (∃ expense, raw.accept fresh = .ok expense) ↔
      (∃ day, raw.FallsOn day) ∧ (∃ amount, raw.Costs amount) ∧ ∃ id, raw.Carries fresh id := by
  simp only [accept_ok_iff]
  constructor
  · rintro ⟨expense, becomes⟩
    exact ⟨⟨_, becomes.day⟩, ⟨_, becomes.amount⟩, _, becomes.id⟩
  · rintro ⟨⟨day, falls⟩, ⟨amount, costs⟩, id, carries⟩
    exact ⟨⟨id, day, amount, _, _, _⟩, carries, falls, costs, rfl, rfl, rfl⟩

def fault? : Option Rejection :=
  match raw.accept Uuid.zero with
  | .ok _ => none
  | .error cause => some cause

theorem fault_ok (expense : Expense) (accepted : raw.accept fresh = .ok expense) :
    raw.fault? = none := by
  obtain ⟨twin, again, _⟩ := accept_ok_fresh fresh Uuid.zero raw expense accepted
  simp only [fault?, again]

theorem fault_error (cause : Rejection) (refused : raw.accept fresh = .error cause) :
    raw.fault? = some cause := by
  simp only [fault?, accept_error_fresh fresh Uuid.zero raw cause refused]

theorem fault_iff (cause : Rejection) : raw.fault? = some cause ↔ raw.FirstFault cause := by
  rw [← raw.accept_error_iff Uuid.zero]
  unfold fault?
  cases raw.accept Uuid.zero <;> simp

end RawExpense

namespace Intake
variable (fresh : Supply) (index : Nat) (raws : List RawExpense)

theorem accepted_in_order :
    (lenientFrom fresh index raws).accepted =
      (raws.zipIdx index).filterMap fun (raw, place) => (raw.accept (fresh place)).toOption := by
  induction raws generalizing index with
  | nil => rfl
  | cons raw rest ih =>
    rw [List.zipIdx_cons, List.filterMap_cons, ← ih]
    cases taken : raw.accept (fresh index) <;> simp [lenientFrom, taken, Except.toOption]

theorem aside_in_order :
    (lenientFrom fresh index raws).aside =
      (raws.zipIdx index).filterMap fun (raw, place) => raw.fault?.map (SetAside.mk place) := by
  induction raws generalizing index with
  | nil => rfl
  | cons raw rest ih =>
    rw [List.zipIdx_cons, List.filterMap_cons, ← ih]
    cases taken : raw.accept (fresh index) with
    | ok expense => simp [lenientFrom, taken, raw.fault_ok _ expense taken]
    | error cause => simp [lenientFrom, taken, raw.fault_error _ cause taken]

theorem accepted_good (expense : Expense)
    (member : expense ∈ (lenientFrom fresh index raws).accepted) : IsAmount expense.amount ∧
      ∀ notes ∈ expense.notes, ∃ c ∈ notes.toList, Text.isBlank c = false := by
  rw [accepted_in_order] at member
  obtain ⟨⟨raw, place⟩, _, accepted⟩ := List.mem_filterMap.mp member
  have taken : raw.accept (fresh place) = .ok expense := by
    cases found : raw.accept (fresh place) with
    | error cause => simp [found, Except.toOption] at accepted
    | ok other => simpa [found, Except.toOption] using accepted
  refine ⟨accept_amount (fresh place) raw expense taken, ?_⟩
  intro notes kept
  have becomes := (raw.accept_ok_iff (fresh place) expense).mp taken
  rw [becomes.notes] at kept
  have more := (Option.mem_filter_iff.mp kept).2
  simpa [Text.allBlank_iff] using more

structure Exact (fresh : Supply) (raws : List RawExpense) (sifted : Sifted) : Prop where
  accepted : sifted.accepted =
    raws.zipIdx.filterMap fun (raw, place) => (raw.accept (fresh place)).toOption
  aside : sifted.aside.map (fun issue => (issue.index, issue.cause.message)) =
    raws.zipIdx.filterMap fun (raw, place) => raw.fault?.map fun cause => (place, cause.message)
  total : sifted.accepted.length + sifted.aside.length = raws.length
  good : ∀ expense ∈ sifted.accepted, IsAmount expense.amount ∧
    ∀ notes ∈ expense.notes, ∃ c ∈ notes.toList, Text.isBlank c = false

/-- A lenient intake splits every list exactly into what is good and what is not. An expense is good
if its date, its amount and its identifier are, and then it becomes what arrived; otherwise the
reason is the first of these three that is not good. -/
theorem lenient_exact :
    (∀ fresh raws, Exact fresh raws (lenient fresh raws)) ∧
    ∀ raw : RawExpense,
      (∀ fresh expense, raw.accept fresh = .ok expense ↔ raw.Becomes fresh expense) ∧
      (∀ fresh, (∃ expense, raw.accept fresh = .ok expense) ↔
        (∃ day, raw.FallsOn day) ∧ (∃ amount, raw.Costs amount) ∧ ∃ id, raw.Carries fresh id) ∧
      (∀ fresh cause, raw.accept fresh = .error cause ↔ raw.FirstFault cause) ∧
      ∀ cause, raw.fault? = some cause ↔ raw.FirstFault cause := by
  constructor
  · intro fresh raws
    exact
      { accepted := accepted_in_order fresh 0 raws
        aside := by
          rw [lenient, aside_in_order, List.map_filterMap]
          simp only [Option.map_map]
          rfl
        total := sifted_length fresh 0 raws
        good := accepted_good fresh 0 raws }
  · intro raw
    exact ⟨raw.accept_ok_iff, raw.passes_iff, raw.accept_error_iff, raw.fault_iff⟩

end Intake

end HabitLedger
