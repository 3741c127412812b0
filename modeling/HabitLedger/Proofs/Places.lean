import Mathlib.Data.List.Induction
import HabitLedger.Disk

/-!
Places in a tree of files. What stands somewhere stands in a directory, and this is so after every
change. A walk that has led somewhere leads there again as long as no directory is taken away; where
a path leads is changed neither by directories made on the way to it nor by files beside it.
-/

namespace HabitLedger.Disk
variable (disk later : Disk)

def Tree : Prop :=
  ∀ place node, disk.node? place = some node → disk.node? place.dropLast = some .directory

def Keeps : Prop :=
  ∀ place, disk.node? place = some .directory → later.node? place = some .directory

@[simp] theorem node_root : disk.node? [] = some .directory := rfl

theorem empty_tree : empty.Tree := by
  intro place node stands
  cases place with
  | nil => rfl
  | cons name rest => cases stands

/-! ## Changes at one place -/

theorem lookup_apart (nodes : List (Place × Node)) (place other : Place) (apart : other ≠ place) :
    (nodes.filter (·.1 ≠ place)).lookup other = nodes.lookup other := by
  induction nodes with
  | nil => rfl
  | cons entry nodes ih =>
    obtain ⟨at_, node⟩ := entry
    by_cases here : at_ = place
    · have missed : (other == at_) = false := by simpa [here] using apart
      rw [List.filter_cons_of_neg (by simpa using here), ih, List.lookup_cons, missed]
    · rw [List.filter_cons_of_pos (by simpa using here), List.lookup_cons, List.lookup_cons, ih]

theorem lookup_gone (nodes : List (Place × Node)) (place : Place) :
    (nodes.filter (·.1 ≠ place)).lookup place = none := by
  rw [List.lookup_eq_none_iff]
  intro entry member
  have unlike : entry.1 ≠ place := by simpa using (List.mem_filter.mp member).2
  simpa using unlike.symm

theorem node_remove_apart (place other : Place) (apart : other ≠ place) :
    (disk.remove place).node? other = disk.node? other := by
  simp only [node?, remove, lookup_apart _ place other apart]

theorem node_put_apart (place other : Place) (node : Node) (apart : other ≠ place) :
    (disk.put place node).node? other = disk.node? other := by
  simp only [node?, put, List.lookup_append, lookup_apart _ place other apart]
  have missed : List.lookup other [(place, node)] = none := by simp [apart]
  rw [missed, Option.or_none]

theorem node_put (place : Place) (node : Node) (below : place ≠ []) :
    (disk.put place node).node? place = some node := by
  simp only [node?, put, below, if_false, List.lookup_append, lookup_gone, Option.none_or]
  simp

theorem node_remove (place : Place) (below : place ≠ []) :
    (disk.remove place).node? place = none := by
  simp only [node?, below, if_false]
  exact lookup_gone disk.nodes place

theorem place_of_file (place : Place) (file : disk.node? place ≠ some .directory) : place ≠ [] := by
  rintro rfl
  exact file rfl

section Put
variable (tree : disk.Tree) (place : Place) (node : Node)
include tree

theorem put_tree (free : disk.node? place ≠ some .directory)
    (inside : disk.node? place.dropLast = some .directory) : (disk.put place node).Tree := by
  have below := disk.place_of_file place free
  have stays (other : Place) (stands : disk.node? other = some .directory) :
      (disk.put place node).node? other = some .directory := by
    rw [node_put_apart disk place other node (fun same => free (same ▸ stands))]
    exact stands
  intro other held stands
  by_cases here : other = place
  · exact here ▸ stays _ inside
  · rw [node_put_apart disk place other node here] at stands
    exact stays _ (tree other held stands)

theorem remove_tree (file : disk.node? place ≠ some .directory) : (disk.remove place).Tree := by
  have below := disk.place_of_file place file
  intro other held stands
  by_cases here : other = place
  · rw [here, node_remove disk place below] at stands
    cases stands
  · rw [node_remove_apart disk place other here] at stands
    have inside := tree other held stands
    rw [node_remove_apart disk place _ (fun same => file (same ▸ inside))]
    exact inside

end Put

theorem put_keeps (place : Place) (node : Node) (free : disk.node? place ≠ some .directory) :
    disk.Keeps (disk.put place node) := by
  intro other stands
  rw [node_put_apart disk place other node (fun same => free (same ▸ stands))]
  exact stands

theorem put_takes_none (place : Place) (node : Node) (below : place ≠ [])
    (file : node ≠ .directory) : (disk.put place node).Keeps disk := by
  intro other stands
  by_cases here : other = place
  · rw [here, node_put disk place node below] at stands
    exact absurd (Option.some.inj stands) file
  · rw [node_put_apart disk place other node here] at stands
    exact stands

theorem remove_keeps (place : Place) (file : disk.node? place ≠ some .directory) :
    disk.Keeps (disk.remove place) := by
  intro other stands
  rw [node_remove_apart disk place other (fun same => file (same ▸ stands))]
  exact stands

theorem Keeps.trans {disk later last : Disk} (first : disk.Keeps later)
    (second : later.Keeps last) : disk.Keeps last :=
  fun place stands => second place (first place stands)

/-! ## Walks -/

def along (place : Place) (name : String) : Place :=
  if name = "." then place else if name = ".." then place.dropLast else place ++ [name]

def lands (place : Place) (names : List String) : Place := names.foldl along place

theorem next_along (place goal : Place) (name : String) (leads : next place name = .ok goal) :
    goal = along place name := by
  unfold next at leads
  rw [along]
  split at leads
  · next stay =>
    rw [if_pos stay]
    exact (Except.ok.inj leads).symm
  · next moves =>
    rw [if_neg moves]
    split at leads
    · next up =>
      rw [if_pos up]
      exact (Except.ok.inj leads).symm
    · next down =>
      rw [if_neg down]
      split at leads
      · cases leads
      · exact (Except.ok.inj leads).symm

theorem along_down (place : Place) (name : String) (moves : name ≠ ".") (down : name ≠ "..") :
    along place name = place ++ [name] := by
  rw [along, if_neg moves, if_neg down]

theorem lands_down (place : Place) (names : List String) (down : ".." ∉ names) :
    lands place names = place ++ names.filter (· ≠ ".") := by
  induction names generalizing place with
  | nil => simp [lands]
  | cons name rest ih =>
    obtain ⟨unlike, down⟩ := not_or.mp (mt List.mem_cons.mpr down)
    change lands (along place name) rest = _
    rw [ih _ down]
    by_cases moves : name = "."
    · rw [moves, List.filter_cons_of_neg (by simp)]
      rfl
    · rw [along_down place name moves (Ne.symm unlike),
        List.filter_cons_of_pos (by simpa using moves), List.append_assoc]
      rfl

theorem lands_append (place : Place) (first second : List String) :
    lands place (first ++ second) = lands (lands place first) second :=
  List.foldl_append

variable {disk} in
/-- Where a name leads stands in a directory, or is one. -/
theorem Tree.along_inside (tree : disk.Tree) (place : Place) (name : String)
    (stands : disk.node? place = some .directory)
    (free : disk.node? (along place name) ≠ some .directory) :
    disk.node? (along place name).dropLast = some .directory := by
  unfold along at free ⊢
  split at free
  · exact absurd stands free
  · split at free
    · exact absurd (tree place .directory stands) free
    · next moves up =>
      rw [if_neg moves, if_neg up, List.dropLast_concat]
      exact stands

theorem walk_cons (place goal : Place) (name : String) (rest : List String) :
    disk.walk place (name :: rest) = .ok goal ↔
      disk.node? place = some .directory ∧
        ∃ middle, next place name = .ok middle ∧ disk.walk middle rest = .ok goal := by
  rw [walk]
  cases stands : disk.node? place with
  | none => simp
  | some node =>
    cases node with
    | directory =>
      cases leads : next place name <;> simp [bind, Except.bind]
    | file text => simp
    | binary => simp

theorem walk_append (place goal : Place) (first second : List String) :
    disk.walk place (first ++ second) = .ok goal ↔
      ∃ middle, disk.walk place first = .ok middle ∧ disk.walk middle second = .ok goal := by
  induction first generalizing place with
  | nil => simp [walk]
  | cons name rest ih =>
    simp only [List.cons_append, walk_cons, ih]
    constructor
    · rintro ⟨stands, next, leads, middle, front, back⟩
      exact ⟨middle, ⟨stands, next, leads, front⟩, back⟩
    · rintro ⟨middle, ⟨stands, next, leads, front⟩, back⟩
      exact ⟨stands, next, leads, middle, front, back⟩

variable {disk later} in
theorem Keeps.walk (keeps : disk.Keeps later) (place goal : Place) (names : List String)
    (leads : disk.walk place names = .ok goal) : later.walk place names = .ok goal := by
  induction names generalizing place with
  | nil => exact leads
  | cons name rest ih =>
    obtain ⟨stands, middle, step, more⟩ := (disk.walk_cons place goal name rest).mp leads
    exact (later.walk_cons place goal name rest).mpr
      ⟨keeps place stands, middle, step, ih middle more⟩

theorem walk_lands (place goal : Place) (names : List String)
    (leads : disk.walk place names = .ok goal) : goal = lands place names := by
  induction names generalizing place with
  | nil => exact (Except.ok.inj leads).symm
  | cons name rest ih =>
    obtain ⟨_, middle, step, more⟩ := (disk.walk_cons place goal name rest).mp leads
    rw [ih middle more, next_along place middle name step]
    rfl

variable {disk} in
theorem Tree.walk_inside (tree : disk.Tree) (place goal : Place) (names : List String)
    (root : disk.node? place = some .directory) (leads : disk.walk place names = .ok goal)
    (free : disk.node? goal ≠ some .directory) : disk.node? goal.dropLast = some .directory := by
  induction names generalizing place with
  | nil =>
    cases leads
    exact absurd root free
  | cons name rest ih =>
    obtain ⟨_, middle, step, more⟩ := (disk.walk_cons place goal name rest).mp leads
    by_cases inside : disk.node? middle = some .directory
    · exact ih middle inside more
    · cases rest with
      | nil =>
        cases more
        rw [next_along place goal name step] at free ⊢
        exact tree.along_inside place name root free
      | cons second rest => exact absurd ((disk.walk_cons middle goal second rest).mp more).1 inside

variable {disk} in
/-- Everything on the way to what stands somewhere is a directory. -/
theorem Tree.above (tree : disk.Tree) (place more : Place) (node : Node)
    (stands : disk.node? (place ++ more) = some node) (below : more ≠ []) :
    disk.node? place = some .directory := by
  induction more using List.reverseRecOn generalizing node with
  | nil => exact absurd rfl below
  | append_singleton more last ih =>
    have inside := tree _ node stands
    rw [← List.append_assoc, List.dropLast_concat] at inside
    by_cases last : more = []
    · simpa [last] using inside
    · exact ih _ inside last

variable {disk} in
theorem Tree.walk_back (tree : disk.Tree) (place goal : Place) (names : List String)
    (down : ".." ∉ names) (leads : later.walk place names = .ok goal) (node : Node)
    (stands : disk.node? goal = some node) (still : later.node? goal = some node) :
    disk.walk place names = .ok goal := by
  induction names generalizing place with
  | nil => exact leads
  | cons name rest ih =>
    have reached := later.walk_lands place goal (name :: rest) leads
    rw [lands_down place _ down] at reached
    obtain ⟨open_, middle, step, more⟩ := (later.walk_cons place goal name rest).mp leads
    refine (disk.walk_cons place goal name rest).mpr ⟨?_, middle, step, ih middle ?_ more⟩
    · by_cases idle : (name :: rest).filter (· ≠ ".") = []
      · rw [idle, List.append_nil] at reached
        rw [← reached, stands, ← still, reached]
        exact open_
      · exact tree.above place _ node (reached ▸ stands) idle
    · exact fun member => down (List.mem_cons_of_mem name member)

variable {disk} in
/-- Every directory that a walk passes is there, and so is the one it goes up to. -/
theorem Tree.stands_up (tree : disk.Tree) (place goal : Place) (names : List String)
    (leads : disk.walk place (names ++ [".."]) = .ok goal) : disk.node? goal = some .directory := by
  obtain ⟨middle, _, last⟩ := (disk.walk_append place goal names [".."]).mp leads
  obtain ⟨stands, up, step, done⟩ := (disk.walk_cons middle goal ".." []).mp last
  cases step
  cases done
  exact tree middle .directory stands

/-! ## Directories made on the way -/

structure Grown (added : Place → Prop) : Prop where
  tree : disk.Tree → later.Tree
  stays : ∀ place node, disk.node? place = some node → later.node? place = some node
  fresh : ∀ place node, later.node? place = some node →
    disk.node? place = some node ∨ (node = .directory ∧ added place)

theorem grown_self (added : Place → Prop) : disk.Grown disk added where
  tree := id
  stays _ _ := id
  fresh _ _ := .inl

theorem Grown.keeps {disk later : Disk} {added : Place → Prop} (grown : disk.Grown later added) :
    disk.Keeps later :=
  fun place stands => grown.stays place .directory stands

theorem grown_put (place : Place) (free : disk.node? place = none)
    (inside : disk.node? place.dropLast = some .directory) :
    disk.Grown (disk.put place .directory) (· = place) where
  tree tree := disk.put_tree tree place .directory (by simp [free]) inside
  stays other node stands := by
    rw [node_put_apart disk place other .directory (fun same => by simp [same, free] at stands)]
    exact stands
  fresh other node stands := by
    by_cases here : other = place
    · have below := disk.place_of_file place (by simp [free])
      rw [here, node_put disk place .directory below] at stands
      exact .inr ⟨(Option.some.inj stands).symm, here⟩
    · rw [node_put_apart disk place other .directory here] at stands
      exact .inl stands

theorem Grown.trans {disk later last : Disk} {added more all : Place → Prop}
    (first : disk.Grown later added) (second : later.Grown last more)
    (inAll : ∀ place, added place ∨ more place → all place) : disk.Grown last all where
  tree tree := second.tree (first.tree tree)
  stays place node stands := second.stays place node (first.stays place node stands)
  fresh place node stands := by
    obtain there | ⟨directory, here⟩ := second.fresh place node stands
    · obtain before | ⟨directory, here⟩ := first.fresh place node there
      · exact .inl before
      · exact .inr ⟨directory, inAll place (.inl here)⟩
    · exact .inr ⟨directory, inAll place (.inr here)⟩

theorem Grown.mono {disk later : Disk} {added all : Place → Prop} (grown : disk.Grown later added)
    (inAll : ∀ place, added place → all place) : disk.Grown later all where
  tree := grown.tree
  stays := grown.stays
  fresh place node stands := (grown.fresh place node stands).imp_right (And.imp_right (inAll place))

/-- Directories are made along the way and nowhere else. -/
theorem makeFrom_grown (tree : disk.Tree) (fault : DiskFault) (place : Place) (names : List String)
    (stands : disk.node? place = some .directory) :
    disk.Grown (disk.makeFrom fault place names).1
      fun goal => ∃ taken, taken ≠ [] ∧ taken <+: names ∧ goal = lands place taken := by
  induction names generalizing disk fault place with
  | nil => exact disk.grown_self _
  | cons name rest ih =>
    have first : ∃ taken, taken ≠ [] ∧ taken <+: name :: rest ∧
        along place name = lands place taken :=
      ⟨[name], List.cons_ne_nil _ _, by simp, rfl⟩
    have further (goal : Place)
        (more : ∃ taken, taken ≠ [] ∧ taken <+: rest ∧ goal = lands (along place name) taken) :
        ∃ taken, taken ≠ [] ∧ taken <+: name :: rest ∧ goal = lands place taken := by
      obtain ⟨taken, _, front, rfl⟩ := more
      exact ⟨name :: taken, List.cons_ne_nil _ _, List.prefix_cons_inj name |>.mpr front, rfl⟩
    rw [makeFrom]
    cases leads : next place name with
    | error fault => exact disk.grown_self _
    | ok goal =>
      -- What is made comes one step from where the walk stands, or further down by the induction.
      obtain rfl := next_along place goal name leads
      cases there : disk.node? (along place name) with
      | none =>
        have inside := tree.along_inside place name stands (by simp [there])
        have put := disk.grown_put (along place name) there inside
        have below := disk.place_of_file (along place name) (by simp [there])
        simp only [there]
        refine put.trans (ih _ (put.tree tree) _ _ (disk.node_put _ _ below)) ?_
        rintro goal (rfl | more)
        · exact first
        · exact further goal more
      | some node =>
        simp only [there]
        cases node with
        | directory => exact (ih disk tree fault _ there).mono further
        | file text => exact disk.grown_self _
        | binary => exact disk.grown_self _

/-- Where a walk has led, there is nothing to make on the way. -/
theorem makeFrom_walked (fault : DiskFault) (place base : Place) (up more taken : List String)
    (leads : disk.walk place up = .ok base) (stands : disk.node? base = some .directory)
    (front : taken <+: up.filter (· ≠ ".") ++ more) :
    ∃ further, further <+: more ∧
      (disk.makeFrom fault place taken).1 = (disk.makeFrom fault base further).1 := by
  induction up generalizing place taken with
  | nil =>
    cases leads
    exact ⟨taken, by simpa using front, rfl⟩
  | cons name rest ih =>
    obtain ⟨_, middle, step, onward⟩ := (disk.walk_cons place base name rest).mp leads
    by_cases idle : name = "."
    · subst idle
      cases step
      rw [List.filter_cons_of_neg (by simp)] at front
      exact ih place taken onward front
    · rw [List.filter_cons_of_pos (by simpa using idle), List.cons_append] at front
      -- The walk goes on through this place or ends at it: either way a directory is there already.
      have inside : disk.node? middle = some .directory := by
        cases rest with
        | nil =>
          cases onward
          exact stands
        | cons second rest => exact ((disk.walk_cons middle base second rest).mp onward).1
      cases taken with
      | nil => exact ⟨[], List.nil_prefix, rfl⟩
      | cons first taken =>
        obtain ⟨rfl, behind⟩ := List.cons_prefix_cons.mp front
        simp only [makeFrom, step, inside]
        exact ih middle taken onward behind

/-! ## What is done at a path -/

theorem orUnchanged_none (result : Except DiskFault Disk)
    (taken : disk.orUnchanged result = (later, none)) : result = .ok later := by
  cases result with
  | error fault => exact absurd (congrArg Prod.snd taken) (by simp [orUnchanged])
  | ok next => exact congrArg Except.ok (congrArg Prod.fst taken)

section Paths
variable (path : String)

theorem locate_ok (place : Place) :
    disk.locate path = .ok place ↔
      checkPath path = .ok () ∧ disk.walk [] (Path.parts path) = .ok place := by
  rw [locate]
  cases checkPath path <;> simp [bind, Except.bind]

theorem find_ok (node : Node) :
    disk.find path = .ok node ↔ ∃ place, disk.locate path = .ok place ∧
      disk.node? place = some node ∧ (node = .directory ∨ Path.endsInSlash path = false) := by
  rw [find]
  cases disk.locate path with
  | error fault => simp [bind, Except.bind]
  | ok place =>
    simp only [bind, Except.bind, Except.ok.injEq, exists_eq_left']
    cases disk.node? place with
    | none => simp
    | some held => cases held <;> cases Path.endsInSlash path <;> cases node <;> simp

theorem read_of_find (text : String) :
    disk.read? path = some (.ok text) ↔ disk.find path = .ok (.file text) := by
  rw [read?]
  cases found : disk.find path with
  | error fault => simp
  | ok node => cases node <;> simp [read, found, bind, Except.bind]

variable {disk later path} in
theorem read_congr (same : ∀ node, later.find path = .ok node ↔ disk.find path = .ok node) :
    later.read? path = disk.read? path := by
  cases found : disk.find path with
  | ok node =>
    have also := (same node).mpr found
    simp only [read?, read, found, also]
  | error fault =>
    cases also : later.find path with
    | ok node => cases found.symm.trans ((same node).mp also)
    | error fault => simp only [read?, found, also]

theorem write_placed (node : Node) (written : disk.write path node = .ok later) :
    ∃ place, disk.locate path = .ok place ∧ disk.node? place ≠ some .directory ∧
      disk.put place node = later := by
  rw [write] at written
  cases leads : disk.locate path with
  | error fault => simp [leads, bind, Except.bind] at written
  | ok place =>
    simp only [leads, bind, Except.bind] at written
    split at written
    · cases written
    · next free => exact ⟨place, rfl, fun taken => free (.inl taken), Except.ok.inj written⟩

theorem move_placed (source : String) (moved : disk.move source path = .ok later) :
    ∃ start goal node, disk.locate source = .ok start ∧ disk.locate path = .ok goal ∧
      disk.node? start = some node ∧ Path.endsInSlash path = false ∧
      disk.node? goal ≠ some .directory ∧ (disk.remove start).put goal node = later := by
  rw [move] at moved
  cases leaves : disk.locate source with
  | error fault => simp [leaves, bind, Except.bind] at moved
  | ok start =>
    cases reaches : disk.locate path with
    | error fault => simp [leaves, reaches, bind, Except.bind] at moved
    | ok goal =>
      simp only [leaves, reaches, bind, Except.bind] at moved
      split at moved
      · cases moved
      · split at moved
        · cases moved
        · next node stands =>
          split at moved
          · cases moved
          · next flat =>
            split at moved
            · cases moved
            · next free =>
              exact ⟨start, goal, node, rfl, rfl, stands, by simpa using flat, free,
                Except.ok.inj moved⟩

variable {disk} in
/-- After a move the text is found where it was moved to. -/
theorem Tree.move_found (tree : disk.Tree) (source text : String) (place : Place)
    (located : disk.locate source = .ok place)
    (held : disk.node? place = some (.file text))
    (moved : disk.move source path = .ok later) :
    later.Tree ∧ later.find path = .ok (.file text) := by
  obtain ⟨start, goal, node, leaves, reaches, stands, flat, free, rfl⟩ :=
    disk.move_placed later path source moved
  obtain rfl := Except.ok.inj (leaves.symm.trans located)
  obtain rfl := Option.some.inj (held.symm.trans stands)
  obtain ⟨checked, leads⟩ := (disk.locate_ok path goal).mp reaches
  have file : disk.node? start ≠ some .directory := by simp [held]
  have removed := disk.remove_keeps start file
  have stillFree : (disk.remove start).node? goal ≠ some .directory := by
    by_cases here : goal = start
    · rw [here, disk.node_remove start (disk.place_of_file start file)]
      simp
    · rw [disk.node_remove_apart start goal here]
      exact free
  have inside := removed _ (tree.walk_inside [] goal _ disk.node_root leads free)
  have put := (disk.remove start).put_keeps goal (.file text) stillFree
  refine ⟨put_tree _ (disk.remove_tree tree start file) goal _ stillFree inside, ?_⟩
  rw [find_ok]
  refine ⟨goal, ?_, node_put _ goal _ (disk.place_of_file goal free), .inr flat⟩
  rw [locate_ok]
  exact ⟨checked, (removed.trans put).walk [] goal _ leads⟩

/-! ## Paths that go up -/

/-- Wherever the path goes up, it goes up from a directory that is there. -/
def Anchored : Prop :=
  ∀ before after, Path.parts path = before ++ ".." :: after →
    ∃ place, disk.walk [] (before ++ [".."]) = .ok place

variable {disk later path} in
theorem Anchored.kept (anchored : disk.Anchored path) (keeps : disk.Keeps later) :
    later.Anchored path := by
  intro before after split
  obtain ⟨place, leads⟩ := anchored before after split
  exact ⟨place, keeps.walk [] place _ leads⟩

variable {disk path} in
/-- A path that leads somewhere has passed all the directories on its way. -/
theorem anchored_of_find (node : Node) (found : disk.find path = .ok node) :
    disk.Anchored path := by
  obtain ⟨place, located, _⟩ := (disk.find_ok path node).mp found
  have leads := ((disk.locate_ok path place).mp located).2
  intro before after split
  rw [split, List.append_cons] at leads
  obtain ⟨middle, front, _⟩ := (disk.walk_append [] place _ after).mp leads
  exact ⟨middle, front⟩

theorem split_at_up (names : List String) :
    ∃ up down, names = up ++ down ∧ ".." ∉ down ∧ (up = [] ∨ ∃ before, up = before ++ [".."]) := by
  induction names with
  | nil => exact ⟨[], [], rfl, List.not_mem_nil, .inl rfl⟩
  | cons name rest ih =>
    obtain ⟨up, down, whole, none, ended⟩ := ih
    obtain rfl | ⟨before, rfl⟩ := ended
    · by_cases goesUp : name = ".."
      · exact ⟨[name], down, by rw [whole]; rfl, none, .inr ⟨[], by rw [goesUp]; rfl⟩⟩
      · refine ⟨[], name :: down, by rw [whole]; rfl, ?_, .inl rfl⟩
        exact fun member => (List.mem_cons.mp member).elim (fun same => goesUp same.symm) none
    · exact ⟨name :: (before ++ [".."]), down, by rw [whole]; rfl, none, .inr ⟨name :: before, rfl⟩⟩

variable {disk path} in
/-- Up to the last name that goes up an anchored path leads to a directory; from there it goes
down. -/
theorem Anchored.last_up (anchored : disk.Anchored path) (tree : disk.Tree)
    (front behind : List String) (whole : Path.parts path = front ++ behind) :
    ∃ up down base, front = up ++ down ∧ ".." ∉ down ∧ disk.walk [] up = .ok base ∧
      disk.node? base = some .directory := by
  obtain ⟨up, down, split, none, ended⟩ := split_at_up front
  obtain rfl | ⟨before, rfl⟩ := ended
  · exact ⟨[], down, [], split, none, rfl, disk.node_root⟩
  · rw [split, List.append_assoc, List.append_assoc] at whole
    obtain ⟨base, leads⟩ := anchored before _ whole
    exact ⟨_, down, base, split, none, leads, tree.stands_up [] base before leads⟩

theorem locate_from (up rest : List String) (base goal : Place)
    (whole : Path.parts path = up ++ rest) (leads : disk.walk [] up = .ok base) :
    disk.locate path = .ok goal ↔
      checkPath path = .ok () ∧ disk.walk base rest = .ok goal := by
  rw [locate_ok, whole, walk_append]
  refine and_congr_right fun _ => ⟨?_, fun reached => ⟨base, leads, reached⟩⟩
  rintro ⟨middle, first, second⟩
  rw [leads] at first
  cases first
  exact second

end Paths

end HabitLedger.Disk
