import HabitLedger.Proofs.NamedMembers
import HabitLedger.Proofs.Writing
import HabitLedger.SettingsFile

/-!
Settings of which a text gives only some. The others are the standard ones; in what order the
settings come, how they are spelled and what else the text holds make no difference, so a file keeps
its meaning when settings are left out of it or settings of later versions are put into it.
-/

namespace HabitLedger

open Json

namespace Json

/-! ## Truth values and names -/

namespace Datum

def boolean? : Datum → Option Bool
  | boolean value => some value
  | _ => none

/-- The name that a datum is: a string, or the name of the only member of an object, which is
`null`. -/
def naming? : Datum → Option String
  | text name => name
  | object [(name, null)] => name
  | _ => none

def variant? {α : Type} (known : List (String × α)) (datum : Datum) : Option α :=
  datum.naming?.bind fun name => known.lookup name

theorem naming_other (name : Option String) (datum : Datum) (others : List (Option String × Datum))
    (other : datum ≠ null ∨ others ≠ []) : (object ((name, datum) :: others)).naming? = none := by
  unfold naming?
  split
  · next same => cases same
  · next same =>
    cases same
    exact absurd rfl (other.resolve_left (absurd rfl))
  · rfl

theorem naming_object (name : Option String) (datum : Datum)
    (others : List (Option String × Datum)) : (object ((name, datum) :: others)).naming? = name ∨
      (object ((name, datum) :: others)).naming? = none := by
  by_cases other : datum ≠ null ∨ others ≠ []
  · exact .inr (naming_other name datum others other)
  · obtain ⟨nothing, alone⟩ := not_or.mp other
    rw [not_not.mp nothing, not_not.mp alone]
    exact .inl rfl

end Datum

namespace Reader
variable {α : Type}

theorem means_boolean : boolean.Means Datum.boolean? := by
  intro datum text gap rest denotes blank stops
  obtain ⟨c, tail, front, starts⟩ := denotes.front
  obtain ⟨dark, _⟩ := starts.dark
  change (takeLeaf "a boolean" (fun c => c = 't' || c = 'f') booleanBody _).toOption = _
  cases denotes with
  | yes =>
    have read := word_append ['r', 'u', 'e'] rest
    simp only [List.cons_append, List.nil_append] at read
    simp [takeLeaf, skipGap_before gap _ 't' blank rfl, booleanBody, read,
      Except.map, Except.toOption, Datum.boolean?]
  | no =>
    have read := word_append ['a', 'l', 's', 'e'] rest
    simp only [List.cons_append, List.nil_append] at read
    simp [takeLeaf, skipGap_before gap _ 'f' blank rfl, booleanBody, read,
      Except.map, Except.toOption, Datum.boolean?]
  | number =>
    obtain ⟨_, _, _, _, _, notYes, notNo⟩ := signs_number c starts
    rw [front, List.cons_append, takeLeaf_missed _ _ _ gap _ c blank dark (by simp [notYes, notNo])]
    rfl
  | _ => exact takeLeaf_missed _ _ _ gap _ _ blank rfl rfl

theorem named_option (known : List (String × α)) (name : String) :
    (Reader.named known name).toOption = known.lookup name := by
  unfold Reader.named
  cases known.lookup name <;> rfl

section Naming
variable (gap rest : List Char)

theorem memberName_written (name : List Piece) (blank : Blank gap)
    (sound : ∀ piece ∈ name, piece.Sound) :
    (memberName (gap ++ (written name ++ rest))).toOption = (meaning name).map (·, rest) := by
  have body := stringBody_spelled rest name sound
  simp only [written, List.cons_append, List.append_assoc, List.nil_append, memberName,
    skipGap_before gap _ '"' blank rfl, if_true, textBody, toOption_bind, body, meaning]
  cases spelled name <;> rfl

theorem unitValue_null (blank : Blank gap) :
    (unitValue (gap ++ (['n', 'u', 'l', 'l'] ++ rest))).toOption = some rest := by
  simp only [unitValue, List.cons_append, skipGap_before gap _ 'n' blank rfl]
  exact (toOption_some _ _).mpr (word_append ['u', 'l', 'l'] rest)

theorem unitValue_other (text : List Char) (datum : Datum) (denotes : Denotes text datum)
    (blank : Blank gap) (other : datum ≠ .null) :
    (unitValue (gap ++ (text ++ rest))).toOption = none := by
  obtain ⟨c, tail, front, starts⟩ := denotes.front
  obtain ⟨dark, _⟩ := starts.dark
  rw [front, List.cons_append, unitValue, skipGap_before gap _ c blank dark]
  split
  · next same =>
    cases same
    exact absurd (datum.null_of_starts starts) other
  · rfl

theorem namingEnd_closed (blank : Blank gap) :
    (namingEnd (gap ++ '\x7d' :: rest)).toOption = some rest := by
  simp [namingEnd, skipGap_before gap rest '\x7d' blank rfl, Except.toOption]

theorem namingEnd_more (entry : List Char) (entries : List (List Char)) (inside : List Char)
    (joined : Joined false (entry :: entries) inside) :
    (namingEnd (inside ++ rest)).toOption = none := by
  cases joined with
  | next before gap entry entries more blank =>
    rw [List.append_assoc, List.cons_append, namingEnd, skipGap_before before _ ',' blank rfl]
    rfl

end Naming

def ending? (s : List Char) : Option (List Char) :=
  (colon s).toOption.bind fun s => (unitValue s).toOption.bind fun s => (namingEnd s).toOption

theorem namingObject_option (known : List (String × α)) (s : List Char) :
    (namingObject known s).toOption = (memberName s).toOption.bind fun read =>
      (known.lookup read.1).bind fun a => (ending? read.2).map (a, ·) := by
  simp only [namingObject, toOption_bind, named_option, ending?, Option.map_eq_bind,
    Option.bind_assoc]
  rfl

theorem ending_means (member : Member) (parts : List Member) (more rest : List Char)
    (sound : member.Sound) (denotes : Denotes member.text member.datum)
    (joined : Joined false (parts.map Member.chars) more) (name : String) :
    ending? (member.before ++ ':' :: (member.after ++ (member.text ++ (more ++ '\x7d' :: rest)))) =
      (Datum.object ((some name, member.datum) :: parts.map Member.said)).naming?.map fun _ =>
        rest := by
  obtain ⟨_, before, after, text, datum⟩ := member
  rw [ending?, Fields.colon_after before _ sound.before]
  change (unitValue _).toOption.bind _ = _
  by_cases null : datum = .null
  · subst null
    cases denotes
    rw [unitValue_null after _ sound.after, Option.bind_some]
    cases parts with
    | nil => exact namingEnd_closed more rest joined.blank
    | cons part parts =>
      rw [List.map_cons, Datum.naming_other _ _ _ (.inr (List.cons_ne_nil _ _))]
      exact namingEnd_more ('\x7d' :: rest) _ _ more joined
  · rw [unitValue_other after _ text datum denotes sound.after null,
      Datum.naming_other _ _ _ (.inl null)]
    rfl

/-- The object must have one member; what follows it is only looked at once its value is `null`. -/
theorem namingObject_means (known : List (String × α)) (parts : List Member)
    (inside rest : List Char) (joined : Joined true (parts.map Member.chars) inside)
    (sound : ∀ part ∈ parts, part.Sound) (each : ∀ part ∈ parts, Denotes part.text part.datum) :
    (namingObject known (inside ++ '\x7d' :: rest)).toOption =
      (Datum.variant? known (.object (parts.map Member.said))).map (·, rest) := by
  rw [namingObject_option]
  cases parts with
  | nil =>
    have nameless : (memberName (inside ++ '\x7d' :: rest)).toOption = none := by
      simp [memberName, skipGap_before inside rest '\x7d' joined.blank rfl, Except.toOption]
    rw [nameless]
    rfl
  | cons part parts =>
    obtain ⟨here, _⟩ := List.forall_mem_cons.mp sound
    obtain ⟨denotes, _⟩ := List.forall_mem_cons.mp each
    cases joined with
    | first gap entry entries more blank joined =>
      have front := memberName_written gap
        (part.before ++ ':' :: (part.after ++ (part.text ++ (more ++ '\x7d' :: rest))))
        part.name blank here.name
      have named := Datum.naming_object (meaning part.name) part.datum (parts.map Member.said)
      simp only [Member.chars, List.append_assoc, List.cons_append, front,
        List.map_cons, Member.said, Datum.variant?]
      cases read : meaning part.name with
      | none =>
        rw [read, or_self] at named
        rw [named]
        rfl
      | some name =>
        rw [read] at named
        have ending := ending_means part parts more rest here denotes joined name
        simp only [Option.map_some, Option.bind_some, ending]
        rcases named with named | named
        · rw [named]
          exact Option.map_eq_bind.symm
        · rw [named]
          cases known.lookup name <;> rfl

theorem means_variant (known : List (String × α)) (room : Nat) :
    (variant known (room + 1)).Means (Datum.variant? known) := by
  intro datum text gap rest denotes blank stops
  obtain ⟨c, tail, front, starts⟩ := denotes.front
  obtain ⟨dark, _⟩ := starts.dark
  have missed (s : List Char) (c : Char) (dark : isGap c = false) (unquoted : c ≠ '"')
      (unopened : c ≠ '\x7b') : (takeVariant known (room + 1) (gap ++ c :: s)).toOption = none := by
    simp [takeVariant, skipGap_before gap s c blank dark, unquoted, unopened, Except.toOption]
  change (takeVariant known (room + 1) (gap ++ (text ++ rest))).toOption = _
  cases denotes with
  | text pieces sound =>
    have body := stringBody_spelled rest pieces sound
    simp only [written, List.cons_append, List.append_assoc, List.nil_append, takeVariant,
      skipGap_before gap _ '"' blank rfl, if_true, textBody, toOption_bind,
      body, named_option, meaning]
    cases spelled pieces with
    | none => rfl
    | some row =>
      change (known.lookup (String.ofList row)).bind (fun a => some (a, rest)) =
        (known.lookup (String.ofList row)).map (·, rest)
      exact Option.map_eq_bind.symm
  | object parts inside joined sound each =>
    rw [List.cons_append, List.append_assoc, List.singleton_append]
    simp only [takeVariant, skipGap_before gap _ '\x7b' blank rfl, Char.reduceEq, if_true, if_false,
      Nat.succ_ne_zero]
    exact namingObject_means known parts inside rest joined sound each
  | number =>
    obtain ⟨_, _, notObject, notText, _⟩ := signs_number c starts
    rw [front, List.cons_append]
    exact missed _ c dark notText notObject
  | _ => exact missed _ _ rfl (by decide) (by decide)

end Reader

end Json

/-! ## Settings by name -/

inductive Setting where
  | dayBoundary
  | intakeMode
  | logFilter
  | pretty
  deriving DecidableEq

namespace Setting

def all : List Setting := [dayBoundary, intakeMode, logFilter, pretty]

def name : Setting → String
  | dayBoundary => "day_boundary"
  | intakeMode => "ingest_mode"
  | logFilter => "log_filter"
  | pretty => "pretty_output"

def names : List String := all.map name

theorem name_listed (setting : Setting) : setting.name ∈ names := by
  cases setting <;> decide

theorem all_named (setting : Setting) :
    (all.filter fun other => other.name = setting.name) = [setting] := by
  cases setting <;> rfl

end Setting

namespace Settings

def value (settings : Settings) : Setting → Value
  | .dayBoundary => .text settings.dayBoundary.text
  | .intakeMode => .text settings.intakeMode.text
  | .logFilter => .text settings.logFilter
  | .pretty => .boolean settings.pretty

def written (settings : Settings) (chosen : Setting → Bool) : List (String × Datum) :=
  (Setting.all.filter chosen).map fun setting => (setting.name, (settings.value setting).datum)

def overridden (settings : Settings) (chosen : Setting → Bool) : Settings where
  dayBoundary := if chosen .dayBoundary then settings.dayBoundary else standard.dayBoundary
  intakeMode := if chosen .intakeMode then settings.intakeMode else standard.intakeMode
  logFilter := if chosen .logFilter then settings.logFilter else standard.logFilter
  pretty := if chosen .pretty then settings.pretty else standard.pretty

def meanings : Meanings record.types :=
  (Datum.variant? DayBoundary.names, Datum.variant? IntakeMode.names,
    Datum.text?, Datum.boolean?, ())

theorem mean (room : Nat) : record.fields.Mean (room + 1) meanings :=
  ⟨Reader.means_variant _ room, Reader.means_variant _ room, Reader.means_text _,
    Reader.means_boolean, trivial⟩

theorem ofText_stated (text : String) (datum : Datum) (stated : Says text datum) :
    (ofText text).toOption = record.said meanings datum :=
  decode_stated record.reader _ (record.means 126 _ (mean 125)) text datum stated

def stating (members : List (String × Datum)) : List (Option String × Datum) :=
  members.map fun member => (some member.1, member.2)

theorem stating_read (members : List (String × Datum)) : NamesRead (stating members) :=
  List.forall_mem_map.mpr fun _ _ => Option.some_ne_none _

theorem named_stating (name : String) (members : List (String × Datum)) :
    Json.named name (stating members) =
      (members.filter fun member => member.1 = name).map (·.2) := by
  induction members with
  | nil => rfl
  | cons member members ih =>
    obtain ⟨given, datum⟩ := member
    rw [stating, List.map_cons, ← stating, List.filter_cons]
    by_cases same : given = name
    · subst same
      rw [named_same, ih]
      simp
    · rw [named_other name given datum _ same, ih]
      simp [same]

theorem written_named (settings : Settings) (chosen : Setting → Bool) (setting : Setting) :
    ((settings.written chosen).filter fun member => member.1 = setting.name) =
      if chosen setting then [(setting.name, (settings.value setting).datum)] else [] := by
  rw [written, List.filter_map, List.filter_comm]
  change List.map _ (List.filter _ (Setting.all.filter fun other => other.name = setting.name)) = _
  rw [setting.all_named, List.filter_singleton]
  cases chosen setting <;> rfl

section Given
variable (settings : Settings) (chosen : Setting → Bool) (members : List (String × Datum))
  (given : (members.filter fun member => member.1 ∈ Setting.names).Perm (settings.written chosen))
include given

/-- What stands under the name of a setting is found among the members with known names. -/
theorem named_given (setting : Setting) :
    Json.named setting.name (stating members) =
      if chosen setting then [(settings.value setting).datum] else [] := by
  have listed : (members.filter fun member => member.1 = setting.name) =
      (members.filter fun member => member.1 ∈ Setting.names).filter
        fun member => member.1 = setting.name := by
    rw [List.filter_filter]
    refine List.filter_congr fun member _ => ?_
    by_cases same : member.1 = setting.name
    · simp [same, setting.name_listed]
    · simp [same]
  have shuffled := given.filter fun member => decide (member.1 = setting.name)
  rw [← listed, written_named] at shuffled
  rw [named_stating]
  split at shuffled
  · next here => rw [List.perm_singleton.mp shuffled, if_pos here, List.map_singleton]
  · next gone => rw [List.perm_nil.mp shuffled, if_neg gone, List.map_nil]

theorem share_given {α : Type} (setting : Setting) (field : Json.Field α)
    (meaning : Datum → Option α) (set standing : α) (same : field.name = setting.name)
    (standard : field.absent = some standing)
    (read : meaning (settings.value setting).datum = some set) :
    field.share meaning (stating members) = some (if chosen setting then set else standing) := by
  have found := settings.named_given chosen members given setting
  rw [← same] at found
  split at found
  · next here => rw [field.share_single meaning _ _ found, if_pos here, read]
  · next gone => rw [field.share_missing meaning _ found, if_neg gone, standard]

theorem said_given :
    record.said meanings (.object (stating members)) = some (settings.overridden chosen) := by
  have shares : record.fields.shares meanings (stating members) =
      some ((settings.overridden chosen).dayBoundary, (settings.overridden chosen).intakeMode,
        (settings.overridden chosen).logFilter, (settings.overridden chosen).pretty, ()) := by
    refine (Fields.shares_iff ..).mpr
      ⟨?_, (Fields.shares_iff ..).mpr ⟨?_, (Fields.shares_iff ..).mpr
      ⟨?_, (Fields.shares_iff ..).mpr ⟨?_, rfl⟩⟩⟩⟩
    · refine settings.share_given chosen members given .dayBoundary _ _ _ _ rfl rfl ?_
      change DayBoundary.names.lookup settings.dayBoundary.text = _
      cases settings.dayBoundary <;> rfl
    · refine settings.share_given chosen members given .intakeMode _ _ _ _ rfl rfl ?_
      change IntakeMode.names.lookup settings.intakeMode.text = _
      cases settings.intakeMode <;> rfl
    · exact settings.share_given chosen members given .logFilter _ _ _ _ rfl rfl rfl
    · exact settings.share_given chosen members given .pretty _ _ _ _ rfl rfl rfl
  exact (Record.said_iff record meanings _ (by decide) _).mpr ⟨stating_read members, _, shares, rfl⟩

end Given

end Settings

namespace SettingsFile

/-- A text gives the chosen settings as they are written, each of them once and in any order, and
anything else under names of no setting. It is read as these settings with the standard ones beside
them, and so is a file that holds it. -/
theorem partial_load (settings : Settings) (chosen : Setting → Bool) (text : String)
    (members : List (String × Datum)) (stated : Says text (.object (Settings.stating members)))
    (given : (members.filter fun member => member.1 ∈ Setting.names).Perm
      (settings.written chosen)) :
    Settings.ofText text = .ok (settings.overridden chosen) ∧
      ∀ (disk : Disk) (path : String), disk.read? path = some (.ok text) →
        load disk path = .ok (settings.overridden chosen) := by
  have read : Settings.ofText text = .ok (settings.overridden chosen) := by
    refine (toOption_some _ _).mp ?_
    rw [Settings.ofText_stated text _ stated]
    exact settings.said_given chosen members given
  refine ⟨read, fun disk path held => ?_⟩
  rw [load, held, ofReading, read]
  rfl

/-- Two settings in another order, with a quotation mark in one of them, and between them a member
of no setting that holds another with the name of one. -/
theorem partial_load_filter_first :
    let value : Value := .object [("log_filter", .text "a\"b"),
      ("theme", .object [("ingest_mode", .list [.null, .boolean true])]),
      ("ingest_mode", .text "strict")]
    let disk : Disk := ⟨[(["config.json"], .file value.toPretty)]⟩
    Settings.ofText value.toPretty = .ok ⟨.localDay, .strict, "a\"b", true⟩ ∧
      load disk "/config.json" = .ok ⟨.localDay, .strict, "a\"b", true⟩ := by
  intro value disk
  let settings : Settings := ⟨.utcDay, .strict, "a\"b", false⟩
  let chosen (setting : Setting) : Bool := setting = .intakeMode || setting = .logFilter
  have writable : value.Writable := by simp [value, Value.Writable.null]
  have held : disk.read? "/config.json" = some (.ok value.toPretty) := rfl
  obtain ⟨read, loaded⟩ := partial_load settings chosen value.toPretty
    [("log_filter", .text (some "a\"b")),
      ("theme", .object [(some "ingest_mode", .list [.null, .boolean true])]),
      ("ingest_mode", .text (some "strict"))]
    writable.pretty_stated (List.Perm.swap _ _ _)
  exact ⟨read, loaded disk "/config.json" held⟩

end SettingsFile

end HabitLedger
