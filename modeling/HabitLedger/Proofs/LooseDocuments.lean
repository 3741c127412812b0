import HabitLedger.Proofs.IntakeModes
import HabitLedger.Proofs.NamedMembers
import HabitLedger.Proofs.Sifting
import HabitLedger.Proofs.Writing

/-!
Documents as they arrive: any text that says an object with a profile, categories and a list of
expenses, in any layout and order and with whatever else. An expense that says too little or too
much is set aside and leaves the others as they are. But what stands where a string or an amount is
wanted must be one or be missing: a single expense that holds anything else there keeps the whole
document from being read.
-/

namespace HabitLedger

open Json

namespace RawAmount

def said : Datum → Option RawAmount
  | .text (some t) => some (.text t)
  | .number parts => parts.number.toOption.map fun n => .number n.toBinary64
  | _ => none

def checked (read : Except Fault (Value × List Char)) : Option (RawAmount × List Char) :=
  read.toOption.bind fun read =>
    (ofValue read.1 >>= fun amount => Except.ok (amount, read.2)).toOption

theorem checked_none {β : Type} (read : Except Fault β) (value : β → Value) (rest : β → List Char)
    (refused : ∀ b, ofValue (value b) = .error (.noVariant "RawAmount")) :
    checked (read.map fun b => (value b, rest b)) = none := by
  cases read with
  | error fault => rfl
  | ok b => simp [checked, Except.map, Except.toOption, refused b, bind, Except.bind]

/-- Only a string and a number can be an amount. -/
theorem checked_other (inner : Option (Reader Value)) (gap s : List Char) (c : Char)
    (blank : Blank gap) (dark : isGap c = false) (unquoted : c ≠ '"')
    (unsigned : ¬ (c = '-' ∨ c.isDigit = true)) :
    checked (Reader.takeAny inner (gap ++ c :: s)) = none := by
  simp only [Reader.takeAny, skipGap_before gap s c blank dark, unquoted, unsigned, if_false]
  split
  · exact checked_none _ (fun _ => .null) id fun _ => rfl
  split
  · exact checked_none _ (fun _ => .boolean true) id fun _ => rfl
  split
  · exact checked_none _ (fun _ => .boolean false) id fun _ => rfl
  split
  · cases inner with
    | none => rfl
    | some value =>
      exact checked_none _ (fun read : List Value × List Char => .list read.1) Prod.snd
        fun _ => rfl
  split
  · cases inner with
    | none => rfl
    | some value =>
      exact checked_none _ (fun read : List (String × Value) × List Char => .object read.1.reverse)
        Prod.snd fun _ => rfl
  · rfl

theorem means (room : Nat) : (reader room).Means said := by
  have ⟨inner, any⟩ : ∃ inner, Reader.any room = Reader.anyWith inner := by
    cases room <;> exact ⟨_, rfl⟩
  intro datum text gap rest denotes blank stops
  obtain ⟨c, tail, front, starts⟩ := denotes.front
  obtain ⟨dark, _⟩ := starts.dark
  have run : ((reader room).run (gap ++ (text ++ rest))).toOption =
      checked (Reader.takeAny inner (gap ++ (text ++ rest))) := by
    rw [reader, any]
    exact toOption_bind _ _
  rw [run]
  cases denotes with
  | number parts capital plus sound =>
    obtain ⟨_, notList, notObject, notText, notNull, notYes, notNo⟩ := signs_number c starts
    have signed : c = '-' ∨ c.isDigit = true := starts
    have read := Reader.number_written capital plus parts rest sound stops
    rw [front, List.cons_append] at read ⊢
    simp only [checked, Reader.takeAny, skipGap_before gap _ c blank dark, notText, notNull, notYes,
      notNo, signed, if_true, if_false, toOption_map, read, said]
    cases parts.number <;> rfl
  | text pieces sound =>
    have body := stringBody_spelled rest pieces sound
    simp only [checked, written, List.cons_append, List.append_assoc,
      List.nil_append, Reader.takeAny, skipGap_before gap _ '"' blank rfl, Char.reduceEq,
      if_true, if_false, toOption_map, Reader.textBody, toOption_bind, body, meaning]
    cases spelled pieces <;> rfl
  | _ => exact checked_other inner gap _ _ blank rfl (by decide) (by decide)

theorem said_iff (datum : Datum) :
    (datum = .null ∨ ∃ amount, said datum = some amount) ↔
      datum = .null ∨ (∃ t, datum = .text (some t)) ∨
        ∃ parts n, datum = .number parts ∧ parts.number = .ok n := by
  refine or_congr_right ?_
  match datum with
  | .text (some t) => simp [said]
  | .number parts => cases read : parts.number <;> simp [said, read, Except.toOption]
  | .text none | .null | .boolean _ | .list _ | .object _ => simp [said]

end RawAmount

namespace RawExpense

def textOf (name : String) (row : List (Option String × Datum)) : Option String :=
  (named name row).findSome? Datum.text?

def amountOf (row : List (Option String × Datum)) : Option RawAmount :=
  (named "amount" row).findSome? RawAmount.said

def ofRow (row : List (Option String × Datum)) : RawExpense :=
  ⟨textOf "id" row, textOf "date" row, amountOf row, textOf "category" row,
    textOf "category_color" row, textOf "notes" row⟩

def Textual (name : String) (row : List (Option String × Datum)) : Prop :=
  ∀ datum ∈ named name row, datum = .null ∨ ∃ t, datum = .text (some t)

def Priced (row : List (Option String × Datum)) : Prop :=
  ∀ datum ∈ named "amount" row, datum = .null ∨ (∃ t, datum = .text (some t)) ∨
    ∃ parts n, datum = .number parts ∧ parts.number = .ok n

/-- The members of an object that may be anything but for what stands where strings and an amount
are wanted. What the strings say does not matter. -/
structure Loose (row : List (Option String × Datum)) : Prop where
  names : NamesRead row
  id : Textual "id" row
  date : Textual "date" row
  amount : Priced row
  category : Textual "category" row
  color : Textual "category_color" row
  notes : Textual "notes" row

def meanings : Meanings record.types :=
  (Datum.optional Datum.text?, Datum.optional Datum.text?, Datum.optional RawAmount.said,
    Datum.optional Datum.text?, Datum.optional Datum.text?, Datum.optional Datum.text?, ())

theorem mean (room : Nat) : record.fields.Mean room meanings :=
  have text := Reader.means_optional Reader.text Datum.text? (Reader.means_text _)
  have amount := Reader.means_optional (RawAmount.reader room) RawAmount.said (RawAmount.means room)
  ⟨text, text, amount, text, text, text, trivial⟩

theorem text_iff (datum : Datum) :
    (datum = .null ∨ ∃ t, Datum.text? datum = some t) ↔
      datum = .null ∨ ∃ t, datum = .text (some t) := by
  refine or_congr_right ?_
  cases datum <;> simp [Datum.text?]

section Row
variable (row : List (Option String × Datum)) (distinct : (row.filterMap (·.1)).Nodup)
include distinct

theorem share_text (name : String) (found : Option String) :
    (Field.optional name fun _ => Reader.text).share (Datum.optional Datum.text?) row = some found ↔
      Textual name row ∧ found = textOf name row := by
  have shared := Field.share_optional name (fun _ => Reader.text) Datum.text? row found rfl
    (named_once name row distinct)
  simp only [text_iff] at shared
  exact shared

theorem share_amount (found : Option RawAmount) :
    (Field.optional "amount" RawAmount.reader).share (Datum.optional RawAmount.said) row =
      some found ↔ Priced row ∧ found = amountOf row := by
  have shared := Field.share_optional "amount" RawAmount.reader RawAmount.said row found rfl
    (named_once "amount" row distinct)
  simp only [RawAmount.said_iff] at shared
  exact shared

theorem shares_row (id date : Option String) (amount : Option RawAmount)
    (category color notes : Option String) :
    record.fields.shares meanings row = some (id, date, amount, category, color, notes, ()) ↔
      (Textual "id" row ∧ id = textOf "id" row) ∧ (Textual "date" row ∧ date = textOf "date" row) ∧
      (Priced row ∧ amount = amountOf row) ∧
      (Textual "category" row ∧ category = textOf "category" row) ∧
      (Textual "category_color" row ∧ color = textOf "category_color" row) ∧
      Textual "notes" row ∧ notes = textOf "notes" row := by
  have text := share_text row distinct
  refine (Fields.shares_iff ..).trans (and_congr (text "id" id) ?_)
  refine (Fields.shares_iff ..).trans (and_congr (text "date" date) ?_)
  refine (Fields.shares_iff ..).trans (and_congr (share_amount row distinct amount) ?_)
  refine (Fields.shares_iff ..).trans (and_congr (text "category" category) ?_)
  refine (Fields.shares_iff ..).trans (and_congr (text "category_color" color) ?_)
  exact (Fields.shares_iff ..).trans ((and_iff_left rfl).trans (text "notes" notes))

/-- The types of an arriving expense decide whether its object is read at all. -/
theorem said_row (raw : RawExpense) :
    record.said meanings (.object row) = some raw ↔ Loose row ∧ raw = ofRow row := by
  rw [Record.said_iff record meanings row (by decide)]
  constructor
  · rintro ⟨read, ⟨id, date, amount, category, color, notes, none⟩, shared, rfl⟩
    obtain ⟨⟨ids, rfl⟩, ⟨dates, rfl⟩, ⟨amounts, rfl⟩, ⟨categories, rfl⟩,
      ⟨colors, rfl⟩, noted, rfl⟩ :=
      (shares_row row distinct _ _ _ _ _ _).mp shared
    exact ⟨⟨read, ids, dates, amounts, categories, colors, noted⟩, rfl⟩
  · rintro ⟨⟨read, ids, dates, amounts, categories, colors, noted⟩, rfl⟩
    exact ⟨read, _, (shares_row row distinct _ _ _ _ _ _).mpr
      ⟨⟨ids, rfl⟩, ⟨dates, rfl⟩, ⟨amounts, rfl⟩, ⟨categories, rfl⟩, ⟨colors, rfl⟩, noted, rfl⟩, rfl⟩

end Row

end RawExpense

/-! ## Documents -/

namespace Profile

def meanings : Meanings record.types :=
  (Datum.uuid?, Datum.text?, Datum.optional Datum.text?, Datum.real?, Datum.real?, Datum.real?,
    Datum.real?, ())

theorem mean (room : Nat) : record.fields.Mean room meanings :=
  have name := Reader.means_optional Reader.text Datum.text? (Reader.means_text _)
  ⟨Reader.means_uuid, Reader.means_text _, name, Reader.means_real, Reader.means_real,
    Reader.means_real, Reader.means_real, trivial⟩

end Profile

namespace Category

def meanings : Meanings record.types :=
  (Datum.text?, Datum.real?, Datum.optional Datum.text?, ())

theorem mean (room : Nat) : record.fields.Mean room meanings :=
  have color := Reader.means_optional Reader.text Datum.text? (Reader.means_text _)
  ⟨Reader.means_text _, Reader.means_real, color, trivial⟩

end Category

namespace Snapshot

def meanings : Meanings record.types :=
  (Profile.record.said Profile.meanings, Datum.list? (Category.record.said Category.meanings),
    Datum.list? (RawExpense.record.said RawExpense.meanings), ())

theorem mean (room : Nat) : record.fields.Mean (room + 2) meanings :=
  ⟨Profile.record.means (room + 1) _ (Profile.mean _),
    Reader.means_list _ _ _ (Category.record.means room _ (Category.mean room)),
    Reader.means_list _ _ _ (RawExpense.record.means room _ (RawExpense.mean room)), trivial⟩

theorem ofText_stated (text : String) (datum : Datum) (stated : Says text datum) :
    (ofText text).toOption = record.said meanings datum :=
  decode_stated record.reader _ (record.means 126 _ (mean 124)) text datum stated

/-- The members of a document whose profile and categories can be read, and whose expenses are a
list of objects in which no name is repeated. -/
structure Holds (members : List (Option String × Datum)) (profile : Profile)
    (categories : List Category) (rows : List (List (Option String × Datum))) : Prop where
  profile : ∃ datum, named "profile" members = [datum] ∧ ReadAs Profile.record.reader datum profile
  categories : (named "categories" members = [] ∧ categories = []) ∨
    ∃ datum, named "categories" members = [datum] ∧
      ReadAs (Reader.list Category.record.reader) datum categories
  expenses : named "expenses" members = [.list (rows.map .object)]
  distinct : ∀ row ∈ rows, (row.filterMap (·.1)).Nodup

/-- A document is read exactly when the names of its members can be read and all its rows are loose,
and then as its profile, its categories and its rows. -/
theorem said_document (members : List (Option String × Datum)) (profile : Profile)
    (categories : List Category) (rows : List (List (Option String × Datum)))
    (holds : Holds members profile categories rows) (snapshot : Snapshot) :
    record.said meanings (.object members) = some snapshot ↔
      (NamesRead members ∧ ∀ row ∈ rows, RawExpense.Loose row) ∧
        snapshot = ⟨profile, categories, rows.map RawExpense.ofRow⟩ := by
  have owned : (Field.required "profile" Profile.record.reader).share
      (Profile.record.said Profile.meanings) members = some profile := by
    obtain ⟨datum, single, read⟩ := holds.profile
    rw [Field.share_single _ _ members datum single]
    exact read.meaning _ _ (Profile.record.means 126 _ (Profile.mean _)) _ _
  have grouped : (Field.withDefault "categories" (Reader.list Category.record.reader) []).share
      (Datum.list? (Category.record.said Category.meanings)) members = some categories := by
    obtain ⟨missing, rfl⟩ | ⟨datum, single, read⟩ := holds.categories
    · exact Field.share_missing _ _ members missing
    · rw [Field.share_single _ _ members datum single]
      exact read.meaning _ _
        (Reader.means_list _ _ _ (Category.record.means 125 _ (Category.mean _))) _ _
  have arrived (raws : List RawExpense) :
      (Field.withDefault "expenses" (Reader.list RawExpense.record.reader) []).share
        (Datum.list? (RawExpense.record.said RawExpense.meanings)) members = some raws ↔
      (∀ row ∈ rows, RawExpense.Loose row) ∧ raws = rows.map RawExpense.ofRow := by
    rw [Field.share_single _ _ members _ holds.expenses]
    exact Datum.list_iff _ _ _ _ _ _ fun row member =>
      RawExpense.said_row row (holds.distinct row member)
  -- The shares of the three fields at once, in the order of the fields.
  have shares (owner : Profile) (filed : List Category) (raws : List RawExpense) :
      record.fields.shares meanings members = some (owner, filed, raws, ()) ↔
        owner = profile ∧ filed = categories ∧ (∀ row ∈ rows, RawExpense.Loose row) ∧
          raws = rows.map RawExpense.ofRow := by
    refine (Fields.shares_iff ..).trans (and_congr ?_ ((Fields.shares_iff ..).trans (and_congr ?_
      ((Fields.shares_iff ..).trans ((and_iff_left rfl).trans (arrived raws))))))
    · rw [owned, Option.some.injEq, eq_comm]
    · rw [grouped, Option.some.injEq, eq_comm]
  rw [Record.said_iff record meanings members (by decide)]
  constructor
  · rintro ⟨read, ⟨owner, filed, raws, none⟩, shared, rfl⟩
    obtain ⟨rfl, rfl, loose, rfl⟩ := (shares owner filed raws).mp shared
    exact ⟨⟨read, loose⟩, rfl⟩
  · rintro ⟨⟨read, loose⟩, rfl⟩
    exact ⟨read, _, (shares _ _ _).mpr ⟨rfl, rfl, loose, rfl⟩, rfl⟩

end Snapshot

namespace Intake

theorem entry_faulty (raw : RawExpense) (bad : raw.fault?.isNone = false) : entryOf raw = none := by
  rw [entryOf]
  cases taken : raw.accept Uuid.zero with
  | error cause => rfl
  | ok expense =>
    rw [raw.fault_ok Uuid.zero expense taken] at bad
    cases bad

/-- The good expenses alone give the same entries. -/
theorem good_entries (fresh other : Supply) (raws : List RawExpense) :
    (lenient other (raws.filter (·.fault?.isNone))).accepted.map Expense.entry =
      (lenient fresh raws).accepted.map Expense.entry := by
  rw [lenient, lenient, accepted_entries, accepted_entries, List.filterMap_filter]
  refine List.filterMap_congr fun raw _ => ?_
  split
  · rfl
  · next bad => exact (entry_faulty raw (Bool.eq_false_iff.mpr bad)).symm

theorem good_aside (other : Supply) (raws : List RawExpense) :
    (lenient other (raws.filter (·.fault?.isNone))).aside = [] := by
  rw [lenient, aside_in_order, List.filterMap_eq_nil_iff]
  rintro ⟨raw, place⟩ member
  have good : raw.fault?.isNone = true := (List.mem_filter.mp (List.fst_mem_of_mem_zipIdx member)).2
  dsimp only
  rw [Option.isNone_iff_eq_none.mp good]
  rfl

end Intake

namespace Dashboard

/-- In a document whose profile, categories and budget are good, one object among the expenses that
is not loose keeps everything from being read. If all are loose, there is a dashboard in which every
expense is counted or set aside at its place with its reason, and apart from those set aside it is
the dashboard of the good expenses alone. -/
theorem loose_expenses_apart (fresh other : Intake.Supply) (today : Date) (text : String)
    (members : List (Option String × Datum)) (profile : Profile) (categories : List Category)
    (rows : List (List (Option String × Datum))) (stated : Says text (.object members))
    (holds : Snapshot.Holds members profile categories rows)
    (usable : ¬ Unusable profile.totalBudget) :
    (NamesRead members → (∀ row ∈ rows, RawExpense.Loose row) →
      Snapshot.ofText text = .ok ⟨profile, categories, rows.map RawExpense.ofRow⟩ ∧
      ∃ dashboard,
        build fresh .lenient today ⟨profile, categories, rows.map RawExpense.ofRow⟩ =
          .ok dashboard ∧
        dashboard.totals.expenses + dashboard.aside.length = rows.length ∧
        dashboard.aside = (rows.map RawExpense.ofRow).zipIdx.filterMap (fun (raw, place) =>
          raw.fault?.map (SetAside.mk place)) ∧
        build other .lenient today
            ⟨profile, categories, (rows.map RawExpense.ofRow).filter (·.fault?.isNone)⟩ =
          .ok { dashboard with aside := [] }) ∧
    (¬ NamesRead members ∨ (∃ row ∈ rows, ¬ RawExpense.Loose row) →
      ∃ fault, Snapshot.ofText text = .error fault) := by
  have told := Snapshot.ofText_stated text (.object members) stated
  have document := Snapshot.said_document members profile categories rows holds
  constructor
  · intro read loose
    let snapshot : Snapshot := ⟨profile, categories, rows.map RawExpense.ofRow⟩
    have found := (document snapshot).mpr ⟨⟨read, loose⟩, rfl⟩
    rw [found] at told
    refine ⟨(toOption_some _ _).mp told, _, build_lenient fresh today snapshot usable, ?_, ?_, ?_⟩
    · have split := Intake.sifted_length fresh 0 (rows.map RawExpense.ofRow)
      rw [List.length_map] at split
      exact split
    · exact Intake.aside_in_order fresh 0 (rows.map RawExpense.ofRow)
    · rw [build_lenient other today _ usable]
      refine congrArg Except.ok ?_
      exact dashboard_of_entries snapshot today _
        ⟨(Intake.lenient fresh snapshot.expenses).accepted, []⟩
        (Intake.good_entries fresh other _) (Intake.good_aside other _)
  · intro strict
    -- A document that is read names each member and has loose rows only.
    cases read : Snapshot.ofText text with
    | error fault => exact ⟨fault, rfl⟩
    | ok snapshot =>
      rw [read] at told
      obtain ⟨⟨names, loose⟩, _⟩ := (document snapshot).mp told.symm
      obtain unread | ⟨row, member, unfit⟩ := strict
      · exact absurd names unread
      · exact absurd (loose row member) unfit

def budgetOnly : Value :=
  .object [("id", .text "00000000-0000-0000-0000-000000000001"), ("total_budget", .natural 50)]

def goodRow : List (String × Value) := [("date", .text "2025-03-14"), ("amount", .text "12.5")]

def documentWith (row : List (String × Value)) : List (String × Value) :=
  [("expenses", .list [.object goodRow, .object row]), ("profile", budgetOnly)]

theorem documentWith_holds (row : List (String × Value))
    (distinct : ((Value.said row).filterMap (·.1)).Nodup) :
    Snapshot.Holds (Value.said (documentWith row)) (.plain ⟨1⟩ "" 50) []
      [Value.said goodRow, Value.said row] := by
  have writable : budgetOnly.Writable := by simp [budgetOnly]
  have read : decode Profile.record.reader budgetOnly.toCompact = .ok (.plain ⟨1⟩ "" 50) := by
    decide +kernel
  exact
    { profile := ⟨budgetOnly.datum, rfl, _, writable.compact_stated, read⟩
      categories := .inl ⟨rfl, rfl⟩
      expenses := rfl
      distinct := by
        refine List.forall_mem_cons.mpr ⟨by decide, List.forall_mem_singleton.mpr distinct⟩ }

theorem documentWith_usable : ¬ Unusable (Profile.plain ⟨1⟩ "" 50).totalBudget :=
  not_or.mpr ⟨by decide +kernel, by decide +kernel⟩

def vagueRow : List (String × Value) :=
  [("date", .text "soon"), ("amount", .null), ("tags", .list [.boolean true])]

def switchRow : List (String × Value) := [("date", .text "2025-03-14"), ("amount", .boolean true)]

/-- A good expense and one on no day: the latter is set aside, and its list of tags does no harm. -/
theorem vague_expense_apart :
    Says (Value.object (documentWith vagueRow)).toCompact
      (.object (Value.said (documentWith vagueRow))) ∧
    ∃ snapshot dashboard,
      Snapshot.ofText (Value.object (documentWith vagueRow)).toCompact = .ok snapshot ∧
      build (fun _ => Uuid.zero) .lenient ⟨2025, 3, 14, by decide⟩ snapshot = .ok dashboard ∧
      dashboard.totals.expenses + dashboard.aside.length = 2 ∧
      dashboard.aside = [⟨1, .badDate "soon"⟩] := by
  have writable : (Value.object (documentWith vagueRow)).Writable := by
    simp [documentWith, budgetOnly, goodRow, vagueRow, Value.Writable.null]
  have stated := writable.compact_stated
  have good : RawExpense.Loose (Value.said goodRow) := by
    constructor <;> simp [goodRow, Value.said, Value.datum, NamesRead, RawExpense.Textual,
      RawExpense.Priced, named]
  have vague : RawExpense.Loose (Value.said vagueRow) := by
    constructor <;> simp [vagueRow, Value.said, Value.datum, NamesRead, RawExpense.Textual,
      RawExpense.Priced, named]
  obtain ⟨read, dashboard, built, counted, aside, _⟩ :=
    (loose_expenses_apart (fun _ => Uuid.zero) (fun _ => Uuid.zero) ⟨2025, 3, 14, by decide⟩ _
      (Value.said (documentWith vagueRow)) _ _ _ stated
      (documentWith_holds vagueRow (by decide)) documentWith_usable).1
      (by simp [documentWith, Value.said, NamesRead])
      (List.forall_mem_cons.mpr ⟨good, List.forall_mem_singleton.mpr vague⟩)
  refine ⟨stated, _, dashboard, read, built, counted, aside.trans ?_⟩
  decide +kernel

/-- A truth value for an amount: the other expense is good, and still nothing is read. -/
theorem switch_amount_stops :
    Says (Value.object (documentWith switchRow)).toCompact
      (.object (Value.said (documentWith switchRow))) ∧
    Snapshot.Holds (Value.said (documentWith switchRow)) (.plain ⟨1⟩ "" 50) []
      [Value.said goodRow, Value.said switchRow] ∧
    ¬ Unusable (Profile.plain ⟨1⟩ "" 50).totalBudget ∧
    Snapshot.ofText (Value.object (documentWith switchRow)).toCompact =
      .error (.noVariant "RawAmount") := by
  have writable : (Value.object (documentWith switchRow)).Writable := by
    simp [documentWith, budgetOnly, goodRow, switchRow]
  refine ⟨writable.compact_stated, documentWith_holds switchRow (by decide),
    documentWith_usable, ?_⟩
  decide +kernel

end Dashboard

end HabitLedger
