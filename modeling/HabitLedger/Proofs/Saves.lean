import HabitLedger.Proofs.BesideFile
import HabitLedger.Proofs.Documents
import HabitLedger.Proofs.Places

/-!
Settings saved again and again, where any step of any save may fail. A failed save has touched no
file but the one beside the settings, and has made directories at most; so what holds is what the
last save has written that came to its end. Only a path that goes up through a directory which is
not there yet can lead to something else once that directory has been made.
-/

namespace HabitLedger

namespace Path

def names (row : List (List Char)) : List String := (row.filter (· ≠ [])).map String.ofList

theorem names_append (front behind : List (List Char)) :
    names (front ++ behind) = names front ++ names behind := by
  simp [names]

theorem names_idle (row : List (List Char)) (idle : ∀ piece ∈ row, isIdle piece = true) :
    ∀ name ∈ names row, name = "." := by
  intro name member
  obtain ⟨piece, kept, rfl⟩ := List.mem_map.mp member
  obtain ⟨inside, some⟩ := List.mem_filter.mp kept
  have stays := idle piece inside
  simp only [isIdle, Bool.or_eq_true, decide_eq_true_iff] at stays some
  rw [stays.resolve_left some]

theorem settled_names (row : List (List Char)) :
    (names (settled row)).filter (· ≠ ".") = (names row).filter (· ≠ ".") := by
  obtain ⟨behind, whole, idle⟩ := settled_append row
  have nothing : (names behind).filter (· ≠ ".") = [] := by
    simpa using names_idle behind idle
  conv_rhs => rw [whole, names_append, List.filter_append, nothing, List.append_nil]

namespace EndsIn
variable {path : String} {front behind : List (List Char)} {name : List Char}
  (ends : EndsIn path front name behind)
include ends

theorem parts_eq : parts path = names front ++ String.ofList name :: names behind := by
  have some : name ≠ [] := by
    rintro rfl
    exact absurd ends.goes (by decide)
  change names (pieces path) = _
  rw [ends.whole, names_append]
  simp [names, some]

theorem dots_behind : ∀ name ∈ names behind, name = "." := names_idle behind ends.idle

theorem moves : String.ofList name ≠ "." := by
  intro dot
  have goes := ends.goes
  rw [← String.ofList_toList (s := "."), String.ofList_inj] at dot
  rw [dot] at goes
  exact absurd goes (by decide)

theorem down : String.ofList name ≠ ".." := by
  intro up
  rw [← String.ofList_toList (s := ".."), String.ofList_inj] at up
  exact ends.stays up

theorem parts_parent :
    (parts (parent path)).filter (· ≠ ".") = (names front).filter (· ≠ ".") := by
  rw [← settled_names front]
  change (names (pieces (parent path))).filter _ = _
  rw [parent, ends.settled_pieces, List.dropLast_concat]
  by_cases nothing : settled front = []
  · rw [nothing]
    rfl
  · obtain ⟨rest, whole, _⟩ := settled_append front
    rw [pieces_ofPieces _ ?_ nothing]
    intro piece member
    refine ends.free piece (List.mem_append_left _ ?_)
    rw [whole]
    exact List.mem_append_left _ member

theorem down_behind : ".." ∉ String.ofList name :: names behind := by
  intro member
  rcases List.mem_cons.mp member with same | dot
  · exact ends.down same.symm
  · exact absurd (ends.dots_behind ".." dot) (by decide)

theorem down_throughout (on : List String) (none : ".." ∉ on) :
    ".." ∉ on ++ String.ofList name :: names behind := by
  intro member
  exact (List.mem_append.mp member).elim none ends.down_behind

theorem moves_behind :
    (String.ofList name :: names behind).filter (· ≠ ".") = [String.ofList name] := by
  have dots := ends.dots_behind
  rw [List.filter_cons_of_pos (by simpa using ends.moves)]
  simpa using dots

theorem lands_eq :
    Disk.lands [] (parts path) = Disk.lands [] (names front) ++ [String.ofList name] := by
  rw [ends.parts_eq, Disk.lands_append, Disk.lands_down _ _ ends.down_behind, ends.moves_behind]

end EndsIn

end Path

/-! ## Steps that may fail -/

namespace Disk

/-- What a step may leave that does not come to its end: some of the directories, a file without a
text, a file with part of its text or with anything else but a directory. Moving a file is done as a
whole or not at all. -/
inductive Partway (disk : Disk) : Step → Disk → Prop where
  | nothing (step : Step) : Partway disk step disk
  | directories (path : String) (taken : List String)
      (onTheWay : taken <+: (Path.parts path).filter (· ≠ ".")) :
      Partway disk (.makeDirectories path) (disk.makeFrom .notDirectory [] taken).1
  | cleared (path : String) (later : Disk) (written : disk.write path (.file "") = .ok later) :
      Partway disk (.clear path) later
  | partly (path text : String) (node : Node) (later : Disk) (file : node ≠ .directory)
      (written : disk.write path node = .ok later) : Partway disk (.fill path text) later

/-- Steps taken up to one that fails, because it is refused or for any other reason; told is whether
all of them were taken. -/
inductive Attempted : Disk → List Step → Disk → Bool → Prop where
  | done (disk : Disk) : Attempted disk [] disk true
  | next {disk later after : Disk} {step : Step} {rest : List Step} {whole : Bool}
      (taken : disk.perform step = (later, none)) (more : Attempted later rest after whole) :
      Attempted disk (step :: rest) after whole
  | failed {disk after : Disk} {step : Step} {rest : List Step} (left : disk.Partway step after) :
      Attempted disk (step :: rest) after false

/-- Only moving a file is more than what may be left of it. -/
theorem partway_of_perform (disk : Disk) (step : Step)
    (stays : (disk.perform step).2 ≠ none ∨ ∀ source target, step ≠ .rename source target) :
    disk.Partway step (disk.perform step).1 := by
  cases step with
  | makeDirectories path =>
    simp only [perform, makeDirectories]
    split
    · exact .nothing _
    · split
      · exact .nothing _
      · exact .directories path _ (List.prefix_refl _)
  | clear path =>
    simp only [perform]
    cases written : disk.write path (.file "") with
    | error fault => exact .nothing _
    | ok later => exact .cleared path later written
  | fill path text =>
    simp only [perform]
    cases written : disk.write path (.file text) with
    | error fault => exact .nothing _
    | ok later => exact .partly path text _ later (by simp) written
  | rename source target =>
    simp only [perform] at stays ⊢
    cases moved : disk.move source target with
    | error fault => exact .nothing _
    | ok later =>
      rw [moved] at stays
      exact absurd stays (by simp [orUnchanged])

/-- An attempt at two rows of steps ends within the first or goes on with the second. -/
theorem Attempted.split {disk after : Disk} {whole : Bool} (first second : List Step)
    (attempt : disk.Attempted (first ++ second) after whole) :
    (whole = false ∧ disk.Attempted first after false) ∨
      ∃ between, disk.Attempted first between true ∧ between.Attempted second after whole := by
  induction first generalizing disk with
  | nil => exact .inr ⟨disk, .done disk, attempt⟩
  | cons step rest ih =>
    cases attempt with
    | failed left => exact .inl ⟨rfl, .failed left⟩
    | next taken more =>
      obtain ⟨rfl, early⟩ | ⟨between, front, back⟩ := ih more
      · exact .inl ⟨rfl, .next taken early⟩
      · exact .inr ⟨between, .next taken front, back⟩

/-- What the program does where nothing else fails is one such attempt. -/
theorem performAll_attempted (disk : Disk) (steps : List Step) :
    disk.Attempted steps (disk.performAll steps).1 (disk.performAll steps).2.isNone := by
  induction steps generalizing disk with
  | nil => exact .done disk
  | cons step rest ih =>
    have left := disk.partway_of_perform step
    rw [performAll]
    split
    · next later taken => exact .next taken (ih later)
    · next later fault refused =>
      rw [refused] at left
      exact .failed (left (.inl (by simp)))

end Disk

namespace SettingsFile
open HabitLedger.Path Json

/-- What the steps of a save that does not come to its end leave of the settings: directories may
have been made and the file beside them may have changed. Where a path leads is told by the
directories, so only an anchored path is sure to find what it found. -/
structure Aside (path : String) (disk later : Disk) : Prop where
  tree : later.Tree
  keeps : disk.Keeps later
  found : disk.Anchored path → ∀ node, later.find path = .ok node ↔ disk.find path = .ok node
  files : ∀ place node, place ≠ Disk.lands [] (parts (temporary path)) → node ≠ .directory →
    (later.node? place = some node ↔ disk.node? place = some node)

namespace Aside
variable {path : String} {disk later last : Disk}

theorem self (tree : disk.Tree) : Aside path disk disk where
  tree := tree
  keeps _ := id
  found _ _ := Iff.rfl
  files _ _ _ _ := Iff.rfl

theorem trans (first : Aside path disk later) (second : Aside path later last) :
    Aside path disk last where
  tree := second.tree
  keeps := first.keeps.trans second.keeps
  found anchored node :=
    (second.found (anchored.kept first.keeps) node).trans (first.found anchored node)
  files place node apart file :=
    (second.files place node apart file).trans (first.files place node apart file)

end Aside

theorem targets_apart {path : String} {front behind : List (List Char)} {name : List Char}
    (ends : EndsIn path front name behind) :
    Disk.lands [] (parts path) ≠ Disk.lands [] (parts (temporary path)) := by
  intro same
  rw [ends.lands_eq, (temporary_endsIn ends).lands_eq] at same
  have longer := String.ofList_inj.mp (List.singleton_inj.mp (List.append_cancel_left same))
  have length := congrArg List.length longer
  simp [ending] at length

section Steps
variable {path : String} {front behind : List (List Char)} {name : List Char}
  (ends : EndsIn path front name behind) {disk : Disk} (tree : disk.Tree)
include ends tree

omit tree in
/-- The last name is no directory that was made: those stand nearer to the root. -/
theorem last_apart (base goal : Place) (down made : List String) (none : ".." ∉ down)
    (within : made <+: down.filter (· ≠ "."))
    (reached : disk.walk base (down ++ String.ofList name :: names behind) = .ok goal) :
    goal ≠ Disk.lands base made := by
  intro landed
  have plain := ends.down_throughout down none
  have noneUp : ".." ∉ made := fun member => none (List.mem_filter.mp (within.subset member)).1
  have deeper := congrArg List.length (disk.walk_lands _ _ _ reached)
  rw [landed, Disk.lands_down _ _ plain, Disk.lands_down _ _ noneUp, List.filter_append,
    ends.moves_behind] at deeper
  have shorter := (List.length_filter_le (· ≠ ".") made).trans within.length_le
  simp only [List.length_append, List.length_singleton] at deeper
  omega

/-- Making directories changes nothing about what an anchored path finds. -/
theorem directories_found (fault : DiskFault) (taken : List String)
    (onTheWay : taken <+: (parts (parent path)).filter (· ≠ ".")) (anchored : disk.Anchored path)
    (node : Node) : (disk.makeFrom fault [] taken).1.find path = .ok node ↔
      disk.find path = .ok node := by
  have keeps := (disk.makeFrom_grown tree fault [] taken disk.node_root).keeps
  obtain ⟨up, down, base, split, none, leads, stands⟩ := anchored.last_up tree _ _ ends.parts_eq
  have whole := ends.parts_eq
  rw [split, List.append_assoc] at whole
  have plain := ends.down_throughout down none
  rw [ends.parts_parent, split, List.filter_append] at onTheWay
  -- Up to the base the directories stand already, so all that is made is below it.
  obtain ⟨further, ahead, same⟩ :=
    disk.makeFrom_walked fault [] base up (down.filter (· ≠ ".")) taken leads stands onTheWay
  have grown := disk.makeFrom_grown tree fault base further stands
  rw [same] at keeps ⊢
  simp only [Disk.find_ok, disk.locate_from path up _ base _ whole leads,
    Disk.locate_from _ path up _ base _ whole (keeps.walk [] base up leads)]
  refine exists_congr fun goal => ⟨?_, ?_⟩
  · rintro ⟨⟨checked, reached⟩, held, meant⟩
    obtain before | ⟨_, made, _, within, landed⟩ := grown.fresh goal node held
    · exact ⟨⟨checked, Disk.Tree.walk_back _ tree base goal _ plain reached node before held⟩,
        before, meant⟩
    -- A directory made on the way is never where the path leads.
    · exact absurd landed (last_apart ends base goal down made none (within.trans ahead) reached)
  · rintro ⟨⟨checked, reached⟩, held, meant⟩
    exact ⟨⟨checked, keeps.walk base goal _ reached⟩, grown.stays goal node held, meant⟩

theorem directories_aside (fault : DiskFault) (taken : List String)
    (onTheWay : taken <+: (parts (parent path)).filter (· ≠ ".")) :
    Aside path disk (disk.makeFrom fault [] taken).1 := by
  have grown := disk.makeFrom_grown tree fault [] taken disk.node_root
  refine ⟨grown.tree tree, grown.keeps, directories_found ends tree fault taken onTheWay, ?_⟩
  intro place node _ file
  refine ⟨fun stands => ?_, grown.stays place node⟩
  exact (grown.fresh place node stands).resolve_right fun made => file made.1

/-- Writing the file beside the settings leaves the settings as they are. -/
theorem written_aside (node : Node) (file : node ≠ .directory) (later : Disk)
    (written : disk.write (temporary path) node = .ok later) : Aside path disk later := by
  obtain ⟨place, located, free, rfl⟩ := disk.write_placed later (temporary path) node written
  obtain ⟨_, leads⟩ := (disk.locate_ok (temporary path) place).mp located
  have here := disk.walk_lands [] place _ leads
  have below := disk.place_of_file place free
  have keeps := disk.put_keeps place node free
  have loses := disk.put_takes_none place node below file
  refine ⟨disk.put_tree tree place node free ?_, keeps, ?_, ?_⟩
  · exact tree.walk_inside [] place _ disk.node_root leads free
  · intro _ held
    have located_same (goal : Place) :
        (disk.put place node).locate path = .ok goal ↔ disk.locate path = .ok goal := by
      rw [Disk.locate_ok, Disk.locate_ok]
      exact and_congr_right fun _ =>
        ⟨fun reached => loses.walk [] goal _ reached, fun reached => keeps.walk [] goal _ reached⟩
    rw [Disk.find_ok, Disk.find_ok]
    refine exists_congr fun goal => ?_
    rw [located_same goal]
    refine and_congr_right fun located => ?_
    have reached := ((disk.locate_ok path goal).mp located).2
    rw [disk.node_put_apart place goal node ?_]
    rw [disk.walk_lands [] goal _ reached, here]
    exact targets_apart ends
  · intro other held apart _
    rw [disk.node_put_apart place other node fun same => apart (same.trans here)]

end Steps

/-! ## Saves that may fail -/

section Attempts
variable {path : String} {front behind : List (List Char)} {name : List Char}
  (ends : EndsIn path front name behind) {disk after : Disk} (tree : disk.Tree)
  (settings : Settings)
include ends tree

theorem partway_aside (step : Disk.Step) (ofSave : step ∈ saveSteps path settings) (later : Disk)
    (left : disk.Partway step later) : Aside path disk later := by
  cases left with
  | nothing => exact .self tree
  | directories place taken onTheWay =>
    have same : place = parent path := by simpa [saveSteps] using ofSave
    exact directories_aside ends tree .notDirectory taken (same ▸ onTheWay)
  | cleared place later written =>
    have same : place = temporary path := by simpa [saveSteps] using ofSave
    exact written_aside ends tree (.file "") (by simp) later (same ▸ written)
  | partly place text node later file written =>
    have same : place = temporary path := by
      have both : place = temporary path ∧ text = settings.toValue.toPretty := by
        simpa [saveSteps] using ofSave
      exact both.1
    exact written_aside ends tree node file later (same ▸ written)

theorem taken_aside (steps : List Disk.Step) (whole : Bool)
    (beside : ∀ step ∈ steps,
      step ∈ saveSteps path settings ∧ ∀ source target, step ≠ .rename source target)
    (attempt : disk.Attempted steps after whole) : Aside path disk after := by
  induction attempt with
  | done => exact .self tree
  | failed left =>
    obtain ⟨ofSave, _⟩ := beside _ List.mem_cons_self
    exact partway_aside ends tree settings _ ofSave _ left
  | @next disk later after step rest whole taken more ih =>
    obtain ⟨ofSave, stays⟩ := beside _ List.mem_cons_self
    have left := disk.partway_of_perform step (.inr stays)
    rw [taken] at left
    have first := partway_aside ends tree settings _ ofSave _ left
    exact first.trans (ih first.tree fun step member => beside step (List.mem_cons_of_mem _ member))

theorem failed_aside (attempt : disk.Attempted (saveSteps path settings) after false) :
    Aside path disk after := by
  obtain ⟨_, early⟩ | ⟨between, first, last⟩ := Disk.Attempted.split
    [.makeDirectories (parent path), .clear (temporary path),
      .fill (temporary path) settings.toValue.toPretty] [.rename (temporary path) path] attempt
  · exact taken_aside ends tree settings _ _ (by simp [saveSteps]) early
  · have beside := taken_aside ends tree settings _ _ (by simp [saveSteps]) first
    cases last with
    | failed left =>
      exact beside.trans (partway_aside ends beside.tree settings _ (by simp [saveSteps]) _ left)
    | next taken more => cases more

theorem whole_found (attempt : disk.Attempted (saveSteps path settings) after true) :
    after.Tree ∧ after.find path = .ok (.file settings.toValue.toPretty) := by
  obtain ⟨impossible, _⟩ | ⟨between, first, last⟩ := Disk.Attempted.split
    [.makeDirectories (parent path), .clear (temporary path)]
    [.fill (temporary path) settings.toValue.toPretty, .rename (temporary path) path] attempt
  · cases impossible
  · have beside := taken_aside ends tree settings _ _ (by simp [saveSteps]) first
    obtain _ | ⟨filled, _ | ⟨moved, done⟩⟩ := last
    cases done
    have written := between.orUnchanged_none _ _ filled
    have moved := Disk.orUnchanged_none _ _ _ moved
    have aside := written_aside ends beside.tree _ (by simp) _ written
    obtain ⟨place, located, free, rfl⟩ := between.write_placed _ _ _ written
    obtain ⟨checked, leads⟩ := (between.locate_ok _ place).mp located
    have still := (Disk.locate_ok _ _ place).mpr ⟨checked, aside.keeps.walk [] place _ leads⟩
    exact aside.tree.move_found _ path _ _ place still
      (between.node_put place _ (between.place_of_file place free)) moved

end Attempts

inductive Saves (path : String) (disk : Disk) : List (Settings × Bool) → Disk → Prop where
  | start : Saves path disk [] disk
  | save {history : List (Settings × Bool)} {between after : Disk} {settings : Settings}
      {whole : Bool} (before : Saves path disk history between)
      (attempt : between.Attempted (saveSteps path settings) after whole) :
      Saves path disk (history ++ [(settings, whole)]) after

def lastSaved (history : List (Settings × Bool)) : Option Settings :=
  (history.filter (·.2)).getLast?.map (·.1)

@[simp] theorem lastSaved_whole (history : List (Settings × Bool)) (settings : Settings) :
    lastSaved (history ++ [(settings, true)]) = some settings := by
  simp [lastSaved]

@[simp] theorem lastSaved_failed (history : List (Settings × Bool)) (settings : Settings) :
    lastSaved (history ++ [(settings, false)]) = lastSaved history := by
  simp [lastSaved]

/-- Saves where nothing fails but what the tree of files itself refuses. -/
theorem save_saves {path : String} {disk between : Disk} {history : List (Settings × Bool)}
    (before : Saves path disk history between) (settings : Settings) :
    Saves path disk (history ++ [(settings, (save between path settings).2.isNone)])
      (save between path settings).1 :=
  .save before (between.performAll_attempted _)

section Runs
variable {path : String} {front behind : List (List Char)} {name : List Char}
  (ends : EndsIn path front name behind) {disk after : Disk} {history : List (Settings × Bool)}
include ends

/-- What saves leave is told by the last one that came to its end. -/
theorem saves_leave (tree : disk.Tree) (run : Saves path disk history after) :
    after.Tree ∧ (lastSaved history = none → Aside path disk after) ∧
      ∀ settings, lastSaved history = some settings →
        after.find path = .ok (.file settings.toValue.toPretty) := by
  induction run with
  | start => exact ⟨tree, fun _ => .self tree, by simp [lastSaved]⟩
  | @save history between after settings whole before attempt ih =>
    obtain ⟨standing, kept, held⟩ := ih
    cases whole with
    | true =>
      obtain ⟨later, found⟩ := whole_found ends standing settings attempt
      refine ⟨later, by simp, ?_⟩
      intro last saved
      rw [lastSaved_whole] at saved
      exact Option.some.inj saved ▸ found
    | false =>
      have aside := failed_aside ends standing settings attempt
      rw [lastSaved_failed]
      refine ⟨aside.tree, fun never => (kept never).trans aside, ?_⟩
      intro last saved
      have found := held last saved
      exact (aside.found (Disk.anchored_of_find _ found) _).mpr found

end Runs

theorem load_saved (disk : Disk) (path : String) (settings : Settings)
    (held : disk.read? path = some (.ok settings.toValue.toPretty)) :
    load disk path = .ok settings := by
  have read := (decode_both Settings.record.reader _ settings (settings.restores 126)).2
  rw [load, held]
  simp only [ofReading, Settings.ofText, read]
  rfl

/-- Whichever saves come to their end and at whichever step the others fail, the settings are those
of the last save that came to its end, as a whole. Before the first of these a file found at the
path is one that stood where the path leads, and an anchored path finds what it found. Nothing is
assumed of why a save fails, or of a file that an earlier failure left beside the settings. -/
theorem last_saved_holds (path : String) (name : List Char) (named : name? path = some name)
    (disk after : Disk) (tree : disk.Tree) (history : List (Settings × Bool))
    (run : Saves path disk history after) :
    (∀ settings, lastSaved history = some settings →
      after.read? path = some (.ok settings.toValue.toPretty) ∧ load after path = .ok settings) ∧
    (lastSaved history = none →
      (disk.Anchored path → after.read? path = disk.read? path ∧ load after path = load disk path) ∧
      ∀ node, node ≠ .directory → after.find path = .ok node →
        disk.node? (Disk.lands [] (parts path)) = some node) ∧
    StandsBeside path name := by
  obtain ⟨front, behind, ends⟩ := endsIn_of_name path name named
  obtain ⟨_, kept, held⟩ := saves_leave ends tree run
  refine ⟨?_, ?_, stands_beside path name named⟩
  · intro settings saved
    have read := (Disk.read_of_find after path _).mpr (held settings saved)
    exact ⟨read, load_saved after path settings read⟩
  · intro never
    have aside := kept never
    constructor
    · intro anchored
      have same := Disk.read_congr (aside.found anchored)
      exact ⟨same, congrArg ofReading same⟩
    · intro node file found
      obtain ⟨place, located, stands, _⟩ := (after.find_ok path node).mp found
      have here := after.walk_lands [] place _ ((after.locate_ok path place).mp located).2
      rw [here] at stands
      exact (aside.files _ node (targets_apart ends) file).mp stands

def strictSettings : Settings := { Settings.standard with intakeMode := .strict }

/-- The first save is cut off within the text, the second comes to its end. -/
theorem last_saved_holds_after_failure :
    ∃ after, Saves "settings/config.json" .empty
      [(.standard, false), (strictSettings, true)] after ∧
      load after "settings/config.json" = .ok strictSettings := by
  have cleared : Disk.Partway
      ⟨[(["settings"], .directory), (["settings", "config.json.tmp"], .file "")]⟩
      (.fill "settings/config.json.tmp" Settings.standard.toValue.toPretty)
      ⟨[(["settings"], .directory), (["settings", "config.json.tmp"], .file "\x7b")]⟩ :=
    .partly _ _ (.file "\x7b") _ (by decide) rfl
  have first : Saves "settings/config.json" .empty [(.standard, false)]
      ⟨[(["settings"], .directory), (["settings", "config.json.tmp"], .file "\x7b")]⟩ :=
    .save .start (.next rfl (.next rfl (.failed cleared)))
  have second := save_saves first strictSettings
  refine ⟨_, second, ?_⟩
  have holds := last_saved_holds "settings/config.json" "config.json".toList rfl .empty _
    Disk.empty_tree _ second
  exact (holds.1 strictSettings rfl).2

def climbed : Disk :=
  ⟨[(["config.json"], .file strictSettings.toValue.toPretty), (["config.json.tmp"], .directory)]⟩

/-- The path goes up through a directory that is not there. The save fails, but it has made that
directory; from then on the path leads to the settings at the root. -/
theorem failed_save_opens_path :
    climbed.Tree ∧
      Saves "missing/../config.json" climbed [(.standard, false)]
        (save climbed "missing/../config.json" .standard).1 ∧
      load climbed "missing/../config.json" = .ok .standard ∧
      load (save climbed "missing/../config.json" .standard).1 "missing/../config.json" =
        .ok strictSettings := by
  have settings := Disk.put_tree _ Disk.empty_tree ["config.json"]
    (.file strictSettings.toValue.toPretty) (by decide) rfl
  have both := Disk.put_tree _ settings ["config.json.tmp"] .directory (by decide) rfl
  exact ⟨both, save_saves .start .standard, rfl, load_saved _ _ _ rfl⟩

end SettingsFile

end HabitLedger
