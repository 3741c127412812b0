import HabitLedger.Dashboard
import HabitLedger.Proofs.ExpenseText

/-!
Documents that dashboards are made from, written and read back. Where all their doubles have few
digits, they are given back exactly by either text.
-/

namespace HabitLedger

open Json

namespace Json.Reader

theorem restores_any_text (inner : Option (Reader Value)) (t : String) :
    (anyWith inner).Restores (.text t) (.text t) := by
  intro layout depth gap rest blank stops
  have inside := textBody_quoted '"' t rest
  change takeAny inner _ = _
  simp only [Value.laid, quoted, List.cons_append, List.append_assoc, List.nil_append]
  simp [takeAny, skipGap_before gap _ '"' blank rfl, inside, Except.map]

theorem restores_any_number (inner : Option (Reader Value)) (n : Numeral) (number value : Number)
    (sound : n.Sound) (text : n.chars = number.chars) (means : n.number = .ok value) :
    (anyWith inner).Restores (.number number) (.number value) := by
  intro layout depth gap rest blank stops
  obtain ⟨c, tail, front, signed⟩ := n.chars_front sound
  obtain ⟨dark, unlike⟩ := signs_number c signed
  have read := number_chars n value rest sound means stops
  rw [front, List.cons_append] at read
  change takeAny inner (gap ++ (number.chars ++ rest)) = _
  simp [← text, front, takeAny, skipGap_before gap _ c blank dark, unlike, signed, read, Except.map]

end Json.Reader

def RawAmount.Brief : RawAmount → Prop
  | .number x => x.Brief
  | .text _ => True

theorem RawAmount.restores (amount : RawAmount) (brief : amount.Brief) (room : Nat) :
    (reader room).Restores amount.toValue amount := by
  have ⟨inner, any⟩ : ∃ inner, Reader.any room = Reader.anyWith inner := by
    cases room <;> exact ⟨_, rfl⟩
  rw [reader, any]
  cases amount with
  | text t => exact Reader.restores_check _ _ _ _ _ (Reader.restores_any_text inner t) rfl
  | number x =>
    obtain ⟨n, y, sound, text, number, _, exact⟩ := Numeral.of_finite x brief.finite
    rw [exact brief] at number
    rw [toValue, Value.real, if_pos brief.finite]
    exact Reader.restores_check _ _ _ _ _
      (Reader.restores_any_number inner n (.real x) (.real x) sound text number) rfl

theorem RawAmount.present (amount : RawAmount) (brief : amount.Brief) : amount.toValue ≠ .null := by
  cases amount with
  | text t => simp [toValue]
  | number x => simp [toValue, Value.real, Binary64.Brief.finite brief]

theorem RawExpense.restores (raw : RawExpense) (brief : ∀ amount ∈ raw.amount, amount.Brief)
    (room : Nat) : (record.reader (room + 1)).Restores raw.toValue raw := by
  obtain ⟨id, date, amount, category, color, notes⟩ := raw
  have text (given : Option String) :
      Reader.text.optional.Restores (.optional .text given) given :=
    Reader.restores_optional _ _ given (fun _ => nofun) (Reader.restores_text _)
  refine record.restores room (id, date, amount, category, color, notes, ()) _ (by decide) ?_
  refine .kept (text id) (.kept (text date) (.kept ?_ (.kept (text category) (.kept (text color)
    (.kept (text notes) .done)))))
  cases amount with
  | none => exact Reader.restores_null _
  | some amount =>
    have sound := brief amount rfl
    exact Reader.restores_some _ _ _ (amount.present sound) (amount.restores sound room)

theorem Category.restores (category : Category) (brief : category.limit.Brief) (room : Nat) :
    (record.reader (room + 1)).Restores category.toValue category := by
  obtain ⟨name, limit, color⟩ := category
  refine record.restores room (name, limit, color, ()) _ (by decide) ?_
  refine .kept (Reader.restores_text _ name) (.kept (Reader.restores_brief limit brief) ?_)
  cases color with
  | none => exact .left rfl .done
  | some color =>
    exact .kept (Reader.restores_some _ _ _ nofun (Reader.restores_text _ color)) .done

structure Profile.Brief (profile : Profile) : Prop where
  monthlyIncome : profile.monthlyIncome.Brief
  totalBudget : profile.totalBudget.Brief
  savingsGoal : profile.savingsGoal.Brief
  currentSavings : profile.currentSavings.Brief

theorem Profile.restores (profile : Profile) (brief : profile.Brief) (room : Nat) :
    (record.reader (room + 1)).Restores profile.toValue profile := by
  obtain ⟨income, budget, goal, savings⟩ := brief
  obtain ⟨id, email, fullName, monthlyIncome, totalBudget, savingsGoal, currentSavings⟩ := profile
  have doubles : Fields.Written room (.field (.withDefault "monthly_income" (fun _ => .real) 0) <|
      .field (.withDefault "total_budget" (fun _ => .real) 0) <|
      .field (.withDefault "savings_goal" (fun _ => .real) 0) <|
      .field (.withDefault "current_savings" (fun _ => .real) 0) .done)
      (monthlyIncome, totalBudget, savingsGoal, currentSavings, ())
      [("monthly_income", .real monthlyIncome), ("total_budget", .real totalBudget),
        ("savings_goal", .real savingsGoal), ("current_savings", .real currentSavings)] :=
    .kept (Reader.restores_brief _ income) (.kept (Reader.restores_brief _ budget)
      (.kept (Reader.restores_brief _ goal) (.kept (Reader.restores_brief _ savings) .done)))
  refine record.restores room
    (id, email, fullName, monthlyIncome, totalBudget, savingsGoal, currentSavings, ()) _
    (by decide) ?_
  refine .kept (Reader.restores_uuid id) (.kept (Reader.restores_text _ email) ?_)
  cases fullName with
  | none => exact .left rfl doubles
  | some name =>
    exact .kept (Reader.restores_some _ _ _ nofun (Reader.restores_text _ name)) doubles

namespace Snapshot

def toValue (snapshot : Snapshot) : Value :=
  .object
    [("profile", snapshot.profile.toValue),
      ("categories", .list (snapshot.categories.map Category.toValue)),
      ("expenses", .list (snapshot.expenses.map RawExpense.toValue))]

structure Brief (snapshot : Snapshot) : Prop where
  profile : snapshot.profile.Brief
  categories : ∀ category ∈ snapshot.categories, category.limit.Brief
  expenses : ∀ raw ∈ snapshot.expenses, ∀ amount ∈ raw.amount, amount.Brief

theorem given_back (snapshot : Snapshot) (brief : snapshot.Brief) :
    ofText snapshot.toValue.toCompact = .ok snapshot ∧
      ofText snapshot.toValue.toPretty = .ok snapshot := by
  obtain ⟨profile, categories, expenses⟩ := snapshot
  refine decode_both record.reader _ _ ?_
  refine record.restores 126 (profile, categories, expenses, ()) _ (by decide) ?_
  refine .kept (profile.restores brief.profile 125) (.kept ?_ (.kept ?_ .done))
  · exact Reader.restores_list _ _ 125 categories fun category member =>
      category.restores (brief.categories category member) 124
  · exact Reader.restores_list _ _ 125 expenses fun raw member =>
      raw.restores (brief.expenses raw member) 124

end Snapshot

end HabitLedger
