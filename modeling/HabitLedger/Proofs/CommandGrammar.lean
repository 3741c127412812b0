import HabitLedger.Command
import Mathlib.Data.List.Induction

/-!
The grammar of the command line. A line is a row of groups: a flag with the value behind it,
whatever that value looks like, or a path alone. A row with exactly one path asks for a report;
everywhere else the leftmost group that breaks the grammar settles what comes of the line, and
nothing behind it matters.
-/

namespace HabitLedger.Command

/-! ## Groups -/

inductive Group where
  | settings (path : String)
  | today (text : String)
  | input (path : String)

/-- An argument that is no flag: neither two hyphens in front nor one of the two short flags. -/
def Bare (argument : String) : Prop :=
  ¬ ['-', '-'] <+: argument.toList ∧ argument ≠ "-V" ∧ argument ≠ "-h"

instance (argument : String) : Decidable (Bare argument) := inferInstanceAs (Decidable (_ ∧ _))

namespace Group

def arguments : Group → List String
  | settings path => ["--config", path]
  | today text => ["--today", text]
  | input path => [path]

def Sound : Group → Prop
  | settings _ => True
  | today text => ∃ day, Date.ofText? text = some day
  | input path => Bare path

def path? : Group → Option String
  | input path => some path
  | _ => none

def settings? : Group → Option String
  | settings path => some path
  | _ => none

def day? : Group → Option Date
  | today text => Date.ofText? text
  | _ => none

end Group

def line (groups : List Group) : List String := groups.flatMap Group.arguments

def paths (groups : List Group) : List String := groups.filterMap Group.path?

def givenBy (groups : List Group) : Given :=
  ⟨(paths groups).getLast?, (groups.filterMap Group.settings?).getLast?,
    (groups.filterMap Group.day?).getLast?⟩

def Given.take (given : Given) : Group → Given
  | .settings path => { given with settings := some path }
  | .today text => { given with today := Date.ofText? text }
  | .input path => { given with input := some path }

structure Fits (before : Option String) (groups : List Group) : Prop where
  sound : ∀ group ∈ groups, group.Sound
  single : (before.toList ++ paths groups).length ≤ 1

/-- What the front of the arguments settles where it is no further group; `taken` are the paths so
far. -/
inductive Breaks (taken : List String) : List String → Except CommandFault Command → Prop where
  | version (flag : String) (rest : List String) (known : flag = "--version" ∨ flag = "-V") :
      Breaks taken (flag :: rest) (.ok .version)
  | help (flag : String) (rest : List String) (known : flag = "--help" ∨ flag = "-h") :
      Breaks taken (flag :: rest) (.ok .help)
  | alone (flag : String) (known : flag = "--config" ∨ flag = "--today") :
      Breaks taken [flag] (.error (.missingValue flag))
  | badDay (text : String) (rest : List String) (unread : Date.ofText? text = none) :
      Breaks taken ("--today" :: text :: rest) (.error (.badDay text))
  | unknown (flag : String) (rest : List String) (marked : ['-', '-'] <+: flag.toList)
      (other : flag ∉ ["--version", "--help", "--config", "--today"]) :
      Breaks taken (flag :: rest) (.error (.unknownFlag flag))
  | second (path : String) (rest : List String) (bare : Bare path) (again : taken ≠ []) :
      Breaks taken (path :: rest) (.error (.unexpected path))

def Keyword (arguments : List String) : Prop :=
  arguments.head? = some "version" ∨ arguments.head? = some "help"

instance (arguments : List String) : Decidable (Keyword arguments) :=
  inferInstanceAs (Decidable (_ ∨ _))

inductive Settles : List String → Except CommandFault Command → Prop where
  | version (rest : List String) : Settles ("version" :: rest) (.ok .version)
  | help (rest : List String) : Settles ("help" :: rest) (.ok .help)
  | report (groups : List Group) (path : String) (plain : ¬ Keyword (line groups))
      (sound : ∀ group ∈ groups, group.Sound) (single : paths groups = [path]) :
      Settles (line groups)
        (.ok (.report ⟨path, (givenBy groups).settings, (givenBy groups).today⟩))
  | missing (groups : List Group) (sound : ∀ group ∈ groups, group.Sound)
      (none : paths groups = []) : Settles (line groups) (.error .missingInput)
  | broken (groups : List Group) (rest : List String) (outcome : Except CommandFault Command)
      (plain : ¬ Keyword (line groups ++ rest)) (fits : Fits none groups)
      (breaks : Breaks (paths groups) rest outcome) : Settles (line groups ++ rest) outcome

/-! ## One group -/

theorem isFlag_iff (argument : String) :
    isFlag argument = true ↔ ['-', '-'] <+: argument.toList := by
  rw [isFlag, decide_eq_true_eq, List.prefix_iff_eq_take, eq_comm]
  rfl

section Step
variable (given : Given) (rest : List String)

theorem parseFrom_settings (path : String) :
    parseFrom given ("--config" :: path :: rest) =
      parseFrom { given with settings := some path } rest := by
  rw [parseFrom]
  simp

theorem parseFrom_today (text : String) (day : Date) (read : Date.ofText? text = some day) :
    parseFrom given ("--today" :: text :: rest) =
      parseFrom { given with today := some day } rest := by
  rw [parseFrom]
  simp [read]

theorem Bare.unknown (path : String) (bare : Bare path) :
    path ∉ ["--version", "--help", "--config", "--today"] := by
  intro known
  have marked : ∀ flag ∈ ["--version", "--help", "--config", "--today"],
      ['-', '-'] <+: flag.toList := by decide
  exact bare.1 (marked path known)

theorem parseFrom_bare (path : String) (bare : Bare path) :
    parseFrom given (path :: rest) =
      if given.input.isSome then .error (.unexpected path)
      else parseFrom { given with input := some path } rest := by
  have unknown := bare.unknown
  simp only [List.mem_cons, List.not_mem_nil, or_false, not_or] at unknown
  have unmarked : isFlag path = false := Bool.eq_false_iff.mpr (mt (isFlag_iff path).mp bare.1)
  rw [parseFrom.eq_def]
  simp [unknown, unmarked, bare.2]

/-- A group that fits is taken, and the rest goes on with what is then given. -/
theorem parseFrom_group (group : Group) (sound : group.Sound)
    (room : group.path? = none ∨ given.input = none) :
    parseFrom given (group.arguments ++ rest) = parseFrom (given.take group) rest := by
  cases group with
  | settings path => exact parseFrom_settings given rest path
  | today text =>
    obtain ⟨day, read⟩ := sound
    rw [Given.take, read]
    exact parseFrom_today given rest text day read
  | input path =>
    have free : given.input = none := room.resolve_left (Option.some_ne_none path)
    exact (parseFrom_bare given rest path sound).trans (by simp [free, Given.take])

theorem parseFrom_breaks (outcome : Except CommandFault Command)
    (breaks : Breaks given.input.toList rest outcome) : parseFrom given rest = outcome := by
  cases breaks with
  | version flag rest known =>
    rw [parseFrom.eq_def]
    exact if_pos known
  | help flag rest known =>
    rw [parseFrom.eq_def]
    rcases known with rfl | rfl <;> rfl
  | alone flag known =>
    rw [parseFrom.eq_def]
    rcases known with rfl | rfl <;> rfl
  | badDay text rest unread =>
    rw [parseFrom.eq_def]
    simp [unread]
  | unknown flag rest marked other =>
    have long : flag ≠ "-V" ∧ flag ≠ "-h" := by
      constructor <;>
        · rintro rfl
          exact absurd marked (by decide)
    simp only [List.mem_cons, List.not_mem_nil, or_false, not_or] at other
    rw [parseFrom.eq_def]
    simp [other, long, (isFlag_iff flag).mpr marked]
  | second path rest bare again =>
    have taken : given.input.isSome = true := by
      cases input : given.input with
      | none => exact absurd (by rw [input]; rfl) again
      | some first => rfl
    rw [parseFrom_bare given rest path bare, if_pos taken]

end Step

/-! ## Rows of groups -/

theorem line_cons (group : Group) (groups : List Group) (rest : List String) :
    line (group :: groups) ++ rest = group.arguments ++ (line groups ++ rest) := by
  rw [line, List.flatMap_cons, List.append_assoc]
  rfl

theorem Fits.head (given : Given) (group : Group) (groups : List Group)
    (fits : Fits given.input (group :: groups)) :
    (group.path? = none ∨ given.input = none) ∧ Fits (given.take group).input groups := by
  obtain ⟨sound, single⟩ := fits
  have later := (List.forall_mem_cons.mp sound).2
  cases group with
  | settings path => exact ⟨.inl rfl, later, single⟩
  | today text => exact ⟨.inl rfl, later, single⟩
  | input path =>
    cases free : given.input with
    | none =>
      rw [free] at single
      exact ⟨.inr rfl, later, single⟩
    | some first => simp [free, paths, Group.path?] at single

theorem parseFrom_line (groups : List Group) (given : Given) (rest : List String)
    (fits : Fits given.input groups) :
    parseFrom given (line groups ++ rest) = parseFrom (groups.foldl Given.take given) rest := by
  induction groups generalizing given with
  | nil => rfl
  | cons group groups ih =>
    obtain ⟨room, later⟩ := fits.head
    have sound := fits.sound group List.mem_cons_self
    rw [line_cons, parseFrom_group given _ group sound room]
    exact ih (given.take group) later

/-- The last group of a kind is the one that counts, so the induction is from the end. -/
theorem take_all (groups : List Group) (sound : ∀ group ∈ groups, group.Sound) :
    groups.foldl Given.take ⟨none, none, none⟩ = givenBy groups := by
  induction groups using List.reverseRecOn with
  | nil => rfl
  | append_singleton groups group ih =>
    obtain ⟨before, last⟩ := List.forall_mem_append.mp sound
    have here := last group List.mem_cons_self
    rw [List.foldl_append, ih before]
    cases group with
    | settings path =>
      simp [Given.take, givenBy, paths, Group.path?, Group.settings?, Group.day?]
    | today text =>
      obtain ⟨day, read⟩ := here
      simp [Given.take, givenBy, paths, Group.path?, Group.settings?, Group.day?, read]
    | input path =>
      simp [Given.take, givenBy, paths, Group.path?, Group.settings?, Group.day?]

def Splits (before : Option String) (arguments : List String) : Prop :=
  ∃ groups rest, arguments = line groups ++ rest ∧ Fits before groups ∧
    (rest = [] ∨ ∃ outcome, Breaks (before.toList ++ paths groups) rest outcome)

theorem fits_nothing (before : Option String) : Fits before [] := by
  refine ⟨List.forall_mem_nil _, ?_⟩
  cases before <;> simp [paths]

theorem splits_here (before : Option String) (arguments : List String)
    (outcome : Except CommandFault Command) (breaks : Breaks before.toList arguments outcome) :
    Splits before arguments := by
  refine ⟨[], arguments, rfl, fits_nothing before, .inr ⟨outcome, ?_⟩⟩
  rwa [paths, List.filterMap_nil, List.append_nil]

theorem splits_later (given : Given) (group : Group) (rest : List String) (sound : group.Sound)
    (room : group.path? = none ∨ given.input = none)
    (later : Splits (given.take group).input rest) :
    Splits given.input (group.arguments ++ rest) := by
  obtain ⟨groups, rest, rfl, fits, ended⟩ := later
  have same : (given.take group).input.toList ++ paths groups =
      given.input.toList ++ paths (group :: groups) := by
    cases group with
    | settings path => rfl
    | today text => rfl
    | input path =>
      rw [room.resolve_left (Option.some_ne_none path)]
      rfl
  refine ⟨group :: groups, rest, (line_cons ..).symm, ⟨?_, same ▸ fits.single⟩, same ▸ ended⟩
  exact List.forall_mem_cons.mpr ⟨sound, fits.sound⟩

/-- Whatever the arguments, sound groups lead up to their end or to what breaks the grammar. -/
theorem splits (given : Given) (arguments : List String) : Splits given.input arguments := by
  fun_induction parseFrom given arguments with
  | case1 => exact ⟨[], [], rfl, fits_nothing _, .inl rfl⟩
  | case2 => exact ⟨[], [], rfl, fits_nothing _, .inl rfl⟩
  | case3 given flag rest known => exact splits_here _ _ _ (.version flag rest known)
  | case4 given flag rest _ known => exact splits_here _ _ _ (.help flag rest known)
  | case5 given => exact splits_here _ _ _ (.alone _ (.inl rfl))
  | case6 given path rest _ _ ih =>
    exact splits_later given (.settings path) rest trivial (.inl rfl) ih
  | case7 given => exact splits_here _ _ _ (.alone _ (.inr rfl))
  | case8 given text rest day read _ _ _ ih =>
    exact splits_later given (.today text) rest ⟨day, read⟩ (.inl rfl) ih
  | case9 given text rest unread => exact splits_here _ _ _ (.badDay text rest unread)
  | case10 given flag rest version help settings today marked =>
    refine splits_here _ _ _ (.unknown flag rest ((isFlag_iff flag).mp marked) ?_)
    simp_all
  | case11 given path rest version help settings today unmarked taken =>
    refine splits_here _ _ _ (.second path rest ?_ ?_)
    · exact ⟨mt (isFlag_iff path).mpr unmarked, (not_or.mp version).2, (not_or.mp help).2⟩
    · obtain ⟨first, given⟩ := Option.isSome_iff_exists.mp taken
      simp [given]
  | case12 given path rest version help settings today unmarked free ih =>
    refine splits_later given (.input path) rest ?_ (.inr (by simpa using free)) ih
    exact ⟨mt (isFlag_iff path).mpr unmarked, (not_or.mp version).2, (not_or.mp help).2⟩

/-! ## Whole lines -/

theorem parse_plain (arguments : List String) (plain : ¬ Keyword arguments) :
    parse arguments = parseFrom ⟨none, none, none⟩ arguments := by
  obtain ⟨version, help⟩ := not_or.mp plain
  rw [parse, if_neg version, if_neg help]

theorem parse_line (groups : List Group) (rest : List String)
    (plain : ¬ Keyword (line groups ++ rest)) (fits : Fits none groups) :
    parse (line groups ++ rest) = parseFrom (givenBy groups) rest := by
  rw [parse_plain _ plain, parseFrom_line groups ⟨none, none, none⟩ rest fits,
    take_all _ fits.sound]

/-- A row without a path starts with a flag, so no bare word stands in front. -/
theorem plain_of_no_path (groups : List Group) (none : paths groups = []) :
    ¬ Keyword (line groups) := by
  cases groups with
  | nil => simp [Keyword, line]
  | cons group groups =>
    cases group with
    | settings path => simp [Keyword, line, Group.arguments]
    | today text => simp [Keyword, line, Group.arguments]
    | input path => simp [paths, Group.path?] at none

theorem input_of_few (groups : List Group) (few : (paths groups).length ≤ 1) :
    (givenBy groups).input.toList = paths groups := by
  rw [givenBy]
  match paths groups, few with
  | [], _ => rfl
  | [path], _ => rfl

/-- A line is parsed as the grammar settles it. -/
theorem parse_settled (arguments : List String) (outcome : Except CommandFault Command)
    (settles : Settles arguments outcome) : parse arguments = outcome := by
  cases settles with
  | version rest => rfl
  | help rest => rfl
  | report groups path plain sound single =>
    have fits : Fits none groups := ⟨sound, by simp [single]⟩
    have taken := parse_line groups [] (by rwa [List.append_nil]) fits
    rw [List.append_nil] at taken
    rw [taken, parseFrom, givenBy, single]
    rfl
  | missing groups sound none =>
    have fits : Fits .none groups := ⟨sound, by simp [none]⟩
    have taken := parse_line groups [] (by rw [List.append_nil]; exact plain_of_no_path groups none)
      fits
    rw [List.append_nil] at taken
    rw [taken, parseFrom, givenBy, none]
    rfl
  | broken groups rest outcome plain fits breaks =>
    rw [parse_line groups rest plain fits]
    refine parseFrom_breaks _ rest outcome ?_
    rwa [input_of_few groups fits.single]

/-- The grammar settles every line. -/
theorem some_settles (arguments : List String) : ∃ outcome, Settles arguments outcome := by
  by_cases plain : Keyword arguments
  · rcases plain with version | help
    · obtain ⟨rest, rfl⟩ := List.head?_eq_some_iff.mp version
      exact ⟨_, .version rest⟩
    · obtain ⟨rest, rfl⟩ := List.head?_eq_some_iff.mp help
      exact ⟨_, .help rest⟩
  obtain ⟨groups, rest, rfl, fits, ended⟩ := splits ⟨none, none, none⟩ arguments
  rcases ended with rfl | ⟨outcome, breaks⟩
  · rw [List.append_nil] at plain ⊢
    cases found : paths groups with
    | nil => exact ⟨_, .missing groups fits.sound found⟩
    | cons path more =>
      have few := fits.single
      have single : paths groups = [path] := by
        rw [found] at few ⊢
        exact congrArg (path :: ·)
          (List.length_eq_zero_iff.mp (Nat.le_zero.mp (Nat.le_of_succ_le_succ few)))
      exact ⟨_, .report groups path plain fits.sound single⟩
  · exact ⟨outcome, .broken groups rest outcome plain fits breaks⟩

theorem parse_iff (arguments : List String) (outcome : Except CommandFault Command) :
    parse arguments = outcome ↔ Settles arguments outcome := by
  constructor
  · rintro rfl
    obtain ⟨outcome, settles⟩ := some_settles arguments
    rwa [parse_settled arguments outcome settles]
  · exact parse_settled arguments outcome

theorem parse_report_iff (arguments : List String) (request : ReportRequest) :
    parse arguments = .ok (.report request) ↔
      ¬ Keyword arguments ∧ ∃ groups, (∀ group ∈ groups, group.Sound) ∧ arguments = line groups ∧
        paths groups = [request.input] ∧
        request.settings = (groups.filterMap Group.settings?).getLast? ∧
        request.today = (groups.filterMap Group.day?).getLast? := by
  rw [parse_iff]
  constructor
  · intro settles
    cases settles with
    | report groups path plain sound single => exact ⟨plain, groups, sound, rfl, single, rfl, rfl⟩
    | broken groups rest _ plain fits breaks => cases breaks
  · rintro ⟨plain, groups, sound, rfl, single, settings, today⟩
    obtain ⟨path, _, _⟩ := request
    dsimp only at single settings today
    subst settings today
    exact .report groups path plain sound single

theorem parse_missing_iff (arguments : List String) :
    parse arguments = .error .missingInput ↔
      ∃ groups, (∀ group ∈ groups, group.Sound) ∧ arguments = line groups ∧ paths groups = [] := by
  rw [parse_iff]
  constructor
  · intro settles
    cases settles with
    | missing groups sound none => exact ⟨groups, sound, rfl, none⟩
    | broken groups rest _ plain fits breaks => cases breaks
  · rintro ⟨groups, sound, rfl, none⟩
    exact .missing groups sound none

/-! ## Groups in another order -/

/-- Sound groups in front do to both lines the same, whether they fit or not. -/
theorem parseFrom_front (before : List Group) (sound : ∀ group ∈ before, group.Sound)
    (a b : List String) (same : ∀ given, parseFrom given a = parseFrom given b) (given : Given) :
    parseFrom given (line before ++ a) = parseFrom given (line before ++ b) := by
  induction before generalizing given with
  | nil => exact same given
  | cons group before ih =>
    obtain ⟨here, later⟩ := List.forall_mem_cons.mp sound
    rw [line_cons, line_cons]
    by_cases room : group.path? = none ∨ given.input = none
    · rw [parseFrom_group given _ group here room, parseFrom_group given _ group here room]
      exact ih later (given.take group)
    · cases group with
      | settings path => exact absurd (.inl rfl) room
      | today text => exact absurd (.inl rfl) room
      | input path =>
        have taken : given.input.isSome = true :=
          Option.isSome_iff_ne_none.mpr (not_or.mp room).2
        simp only [Group.arguments, List.singleton_append, parseFrom_bare given _ path here,
          taken, if_true]

/-- A day moves past any sound group that is not a day. -/
theorem parseFrom_past_day (group : Group) (sound : group.Sound)
    (other : ∀ text, group ≠ .today text) (text : String) (dated : (Group.today text).Sound)
    (rest : List String) (given : Given) :
    parseFrom given (group.arguments ++ ((Group.today text).arguments ++ rest)) =
      parseFrom given ((Group.today text).arguments ++ (group.arguments ++ rest)) := by
  have late (given : Given) (rest : List String) :=
    parseFrom_group given rest (.today text) dated (.inl rfl)
  rw [late]
  cases group with
  | today twin => exact absurd rfl (other twin)
  | settings path =>
    rw [parseFrom_group given _ _ sound (.inl rfl), parseFrom_group _ rest _ sound (.inl rfl), late]
    rfl
  | input path =>
    change parseFrom given (path :: ((Group.today text).arguments ++ rest)) =
      parseFrom _ (path :: rest)
    rw [parseFrom_bare given _ path sound, parseFrom_bare _ rest path sound, late]
    rfl

theorem parseFrom_past_days (group : Group) (sound : group.Sound)
    (other : ∀ text, group ≠ .today text) (texts : List String)
    (dated : ∀ text ∈ texts, (Group.today text).Sound) (rest : List String) (given : Given) :
    parseFrom given (group.arguments ++ (line (texts.map .today) ++ rest)) =
      parseFrom given (line (texts.map .today) ++ (group.arguments ++ rest)) := by
  induction texts generalizing given with
  | nil => rfl
  | cons text texts ih =>
    obtain ⟨here, later⟩ := List.forall_mem_cons.mp dated
    rw [List.map_cons, line_cons, line_cons, parseFrom_past_day group sound other text here _ given,
      parseFrom_group given _ _ here (.inl rfl), parseFrom_group given _ _ here (.inl rfl)]
    exact ih later _

/-- A line asks for a report exactly if it is a row of sound groups with one path and starts with no
command word, and of a flag that is repeated the last value counts; a path or a `--config` may stand
before or behind any days. Every other line is settled by its leftmost group that is not sound or
one path too many, whatever comes after it, and only a sound row without a path has its input
missing. -/
theorem parse_settles :
    (∀ arguments outcome, parse arguments = outcome ↔ Settles arguments outcome) ∧
    (∀ arguments request, parse arguments = .ok (.report request) ↔
      ¬ Keyword arguments ∧ ∃ groups, (∀ group ∈ groups, group.Sound) ∧ arguments = line groups ∧
        paths groups = [request.input] ∧
        request.settings = (groups.filterMap Group.settings?).getLast? ∧
        request.today = (groups.filterMap Group.day?).getLast?) ∧
    (∀ arguments, parse arguments = .error .missingInput ↔
      ∃ groups, (∀ group ∈ groups, group.Sound) ∧ arguments = line groups ∧ paths groups = []) ∧
    ∀ (before : List Group) (group : Group) (texts : List String) (rest : List String),
      (∀ other ∈ before, other.Sound) → group.Sound → (∀ text, group ≠ .today text) →
      (∀ text ∈ texts, (Group.today text).Sound) →
      ¬ Keyword (line before ++ (group.arguments ++ (line (texts.map .today) ++ rest))) →
      ¬ Keyword (line before ++ (line (texts.map .today) ++ (group.arguments ++ rest))) →
      parse (line before ++ (group.arguments ++ (line (texts.map .today) ++ rest))) =
        parse (line before ++ (line (texts.map .today) ++ (group.arguments ++ rest))) := by
  refine ⟨parse_iff, parse_report_iff, parse_missing_iff, ?_⟩
  intro before group texts rest sound good other dated plain plainToo
  rw [parse_plain _ plain, parse_plain _ plainToo]
  exact parseFrom_front before sound _ _ (parseFrom_past_days group good other texts dated rest) _

/-- A settings file called like a flag, and a path called like a command behind it, before or after
a day. -/
theorem parse_settles_path_moved :
    let day : Date := ⟨2025, 6, 15, by decide⟩
    parse ["--config", "--help", "version", "--today", "2025-06-15"] =
        .ok (.report ⟨"version", some "--help", some day⟩) ∧
      parse ["--config", "--help", "--today", "2025-06-15", "version"] =
        .ok (.report ⟨"version", some "--help", some day⟩) := by
  intro day
  have path : Bare "version" := by decide
  have read : Date.ofText? "2025-06-15" = some day := by decide +kernel
  have moved := parse_settles.2.2.2 [.settings "--help"] (.input "version") ["2025-06-15"] []
    (List.forall_mem_singleton.mpr trivial) path (fun _ same => nomatch same)
    (List.forall_mem_singleton.mpr ⟨day, read⟩) (by decide) (by decide)
  have first : parse ["--config", "--help", "version", "--today", "2025-06-15"] =
      .ok (.report ⟨"version", some "--help", some day⟩) := by
    decide +kernel
  exact ⟨first, moved.symm.trans first⟩

end HabitLedger.Command
