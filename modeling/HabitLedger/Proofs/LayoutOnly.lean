import HabitLedger.Proofs.DashboardText
import HabitLedger.Proofs.Sifting
import HabitLedger.Proofs.Squeezing
import HabitLedger.Proofs.Unambiguous
import HabitLedger.Run

/-!
What settings change about a report. Once the day is given, only how expenses are taken in can
change what a report says; whether it is pretty decides about the blanks between its tokens, and
nothing else has any influence.
-/

namespace HabitLedger

open Json

namespace Json

structure Layouts (compact pretty : String) : Prop where
  value : ∃ datum, ∀ other, (Says compact other ↔ other = datum) ∧
    (Says pretty other ↔ other = datum)
  squeezed : squeeze pretty = compact
  tight : squeeze compact = compact

theorem Says.only (text : String) (datum other : Datum) (stated : Says text datum) :
    Says text other ↔ other = datum := by
  constructor
  · exact fun again => again.unique _ _ _ stated
  · rintro rfl
    exact stated

theorem Value.Writable.layouts (value : Value) (writable : value.Writable) :
    Layouts value.toCompact value.toPretty :=
  { value := ⟨value.datum, fun other =>
      ⟨writable.compact_stated.only _ _ other, writable.pretty_stated.only _ _ other⟩⟩
    squeezed := writable.squeeze_pretty
    tight := writable.squeeze_compact }

end Json

namespace Dashboard

theorem writable (dashboard : Dashboard) : dashboard.toValue.Writable := by
  have totals : dashboard.totals.toValue.Writable := by simp [Totals.toValue]
  obtain ⟨back, shape, others⟩ := dashboard.toValue_front
  rw [shape, Value.writable_object]
  simp only [List.forall_mem_append, List.forall_mem_cons] at others ⊢
  exact ⟨fun member found => (others.1 member found).2, totals,
    fun member found => (others.2 member found).2⟩

/-- Neither the entries nor what is set aside depends on a fresh identifier. -/
theorem build_fresh (fresh other : Intake.Supply) (mode : IntakeMode) (today : Date)
    (snapshot : Snapshot) : build fresh mode today snapshot = build other mode today snapshot := by
  by_cases unusable : Unusable snapshot.profile.totalBudget
  · obtain ⟨cause, refused⟩ := checkBudget_refused _ unusable
    rw [build_refused fresh today snapshot mode _ refused,
      build_refused other today snapshot mode _ refused]
  · cases mode with
    | lenient =>
      rw [build_lenient fresh today snapshot unusable, build_lenient other today snapshot unusable]
      refine congrArg Except.ok (dashboard_of_entries snapshot today _ _ ?_ ?_)
      · rw [Intake.lenient, Intake.lenient, Intake.accepted_entries, Intake.accepted_entries]
      · rw [Intake.lenient, Intake.lenient, Intake.aside_in_order, Intake.aside_in_order]
    | strict =>
      cases found : (Intake.lenient fresh snapshot.expenses).aside with
      | nil =>
        rw [build_strict_clean fresh fresh today snapshot unusable found,
          build_strict_clean fresh other today snapshot unusable found]
      | cons first more =>
        rw [build_strict_stops fresh fresh today snapshot unusable first more found,
          build_strict_stops fresh other today snapshot unusable first more found]

end Dashboard

namespace Run

theorem dashboardText_layouts (fresh other : Intake.Supply) (settings others : Settings)
    (today : Date) (text : String) (mode : settings.intakeMode = others.intakeMode) :
    (∃ fault, dashboardText fresh settings today text = .error fault ∧
      dashboardText other others today text = .error fault) ∨
    ∃ compact pretty, Layouts compact pretty ∧
      dashboardText fresh settings today text = .ok (if settings.pretty then pretty else compact) ∧
      dashboardText other others today text = .ok (if others.pretty then pretty else compact) := by
  unfold dashboardText
  cases Snapshot.ofText text with
  | error fault => exact .inl ⟨_, rfl, rfl⟩
  | ok snapshot =>
    have built := Dashboard.build_fresh fresh other others.intakeMode today snapshot
    simp only [Except.mapError, bind, Except.bind, mode, built]
    cases Dashboard.build other others.intakeMode today snapshot with
    | error refusal => exact .inl ⟨_, rfl, rfl⟩
    | ok dashboard => exact .inr ⟨_, _, dashboard.writable.layouts, rfl, rfl⟩

theorem report_dated (around : Surroundings) (request : ReportRequest) (today : Date)
    (settings : Settings) (dated : request.today = some today)
    (loaded : SettingsFile.ofReading
      (around.settings (request.settings.getD around.settingsPath)) = .ok settings) :
    report around request = ((around.document request.input).mapError .disk).bind
      (dashboardText around.fresh settings today) := by
  simp [report, dated, loaded, Except.mapError, bind, Except.bind]

/-- Two reports on the same document on the same day, under settings that take expenses in alike,
stop with the same fault or say the same value: one that the compact and the pretty text of it both
say and nothing else, with no blanks outside strings in the compact text, and with no other
difference in the pretty one. All else that is set is without influence. -/
theorem settings_lay_out (around other : Surroundings) (request another : ReportRequest)
    (today : Date) (settings others : Settings) (dated : request.today = some today)
    (datedToo : another.today = some today)
    (loaded : SettingsFile.ofReading
      (around.settings (request.settings.getD around.settingsPath)) = .ok settings)
    (loadedToo : SettingsFile.ofReading
      (other.settings (another.settings.getD other.settingsPath)) = .ok others)
    (mode : settings.intakeMode = others.intakeMode)
    (document : around.document request.input = other.document another.input) :
    (∃ fault, report around request = .error fault ∧ report other another = .error fault) ∨
    ∃ compact pretty,
      report around request = .ok (if settings.pretty then pretty else compact) ∧
      report other another = .ok (if others.pretty then pretty else compact) ∧
      (∃ datum, ∀ said, (Says compact said ↔ said = datum) ∧ (Says pretty said ↔ said = datum)) ∧
      squeeze pretty = compact ∧ squeeze compact = compact := by
  rw [report_dated around request today settings dated loaded,
    report_dated other another today others datedToo loadedToo, document]
  cases other.document another.input with
  | error cause => exact .inl ⟨_, rfl, rfl⟩
  | ok text =>
    obtain failed | ⟨compact, pretty, layouts, first, second⟩ :=
      dashboardText_layouts around.fresh other.fresh settings others today text mode
    · exact .inl failed
    · exact .inr ⟨compact, pretty, first, second, layouts.value, layouts.squeezed, layouts.tight⟩

def someDay : Date := ⟨2025, 4, 1, by decide⟩

def atHand (settings : String) : Surroundings where
  settings _ := some (.ok settings)
  document _ := .ok
    ("\x7b\"profile\": \x7b\"id\": \"00000000-0000-0000-0000-000000000001\"\x7d, " ++
      "\"categories\": [\x7b\"name\": \" a \\\" b\"\x7d]\x7d")
  settingsPath := "config.json"
  today _ := someDay
  fresh _ := Uuid.zero

def tight : Surroundings := atHand "\x7b\"pretty_output\": false, \"day_boundary\": \"utc\"\x7d"

def loose : Surroundings := atHand "\x7b\"log_filter\": \"warn\"\x7d"

def onSomeDay : ReportRequest := ⟨"input.json", none, some someDay⟩

/-- Settings that differ in all but the mode of the intake, at hand in the same place. -/
theorem tight_and_loose :
    ∃ compact pretty, report tight onSomeDay = .ok compact ∧ report loose onSomeDay = .ok pretty ∧
      squeeze pretty = compact ∧ squeeze compact = compact := by
  obtain ⟨fault, stopped, _⟩ | ⟨compact, pretty, first, second, _, same, tight⟩ :=
    settings_lay_out tight loose onSomeDay onSomeDay someDay
      ⟨.utcDay, .lenient, "fintrack=info", false⟩ ⟨.localDay, .lenient, "warn", true⟩ rfl rfl
      (by decide +kernel) (by decide +kernel) rfl rfl
  · have ended : (report Run.tight onSomeDay).isOk = true := by decide +kernel
    rw [stopped] at ended
    cases ended
  · exact ⟨compact, pretty, first, second, same, tight⟩

end Run

end HabitLedger
