import HabitLedger.SettingsFile

/-!
The file that is written beside the settings. It stands in the same directory under the name of the
settings with an ending of its own; so it is never the settings file itself, and no two settings
files share one.
-/

namespace HabitLedger

namespace Path

theorem slash_free (s piece : List Char) (member : piece ∈ s.splitOn '/') : '/' ∉ piece := by
  induction s generalizing piece with
  | nil =>
    rw [List.splitOn_nil, List.mem_singleton] at member
    simp [member]
  | cons c rest ih =>
    rw [List.splitOn_cons_eq_if_modifyHead] at member
    split at member
    · rcases List.mem_cons.mp member with rfl | later
      · exact List.not_mem_nil
      · exact ih piece later
    · next other =>
      cases pieces : rest.splitOn '/' with
      | nil => exact absurd pieces (List.splitOn_ne_nil _ rest)
      | cons first more =>
        rw [pieces] at member ih
        rcases List.mem_cons.mp member with rfl | later
        · intro slash
          rcases List.mem_cons.mp slash with rfl | inside
          · exact other (beq_self_eq_true _)
          · exact ih first List.mem_cons_self inside
        · exact ih piece (List.mem_cons_of_mem first later)

theorem pieces_ofPieces (row : List (List Char)) (free : ∀ piece ∈ row, '/' ∉ piece)
    (some : row ≠ []) : pieces (ofPieces row) = row := by
  rw [pieces, ofPieces, String.toList_ofList, List.splitOn_intercalate '/' free some]

theorem intercalate_last (front : List (List Char)) (last ending : List Char) :
    ['/'].intercalate (front ++ [last]) ++ ending =
      ['/'].intercalate (front ++ [last ++ ending]) := by
  induction front with
  | nil => simp
  | cons first front ih =>
    cases front with
    | nil => simp
    | cons second front => simpa using ih

theorem settled_append (row : List (List Char)) :
    ∃ behind, row = settled row ++ behind ∧ ∀ piece ∈ behind, isIdle piece = true := by
  refine ⟨(row.reverse.takeWhile isIdle).reverse, ?_, ?_⟩
  · rw [settled, ← List.reverse_append, List.takeWhile_append_dropWhile, List.reverse_reverse]
  · intro piece member
    exact List.all_eq_true.mp List.all_takeWhile piece (List.mem_reverse.mp member)

theorem settled_last (row : List (List Char)) (last : List Char)
    (found : (settled row).getLast? = some last) : isIdle last = false := by
  have unlike := List.head?_dropWhile_not isIdle row.reverse
  rw [settled, List.getLast?_reverse] at found
  rw [found] at unlike
  simpa using unlike

theorem settled_of_end (front : List (List Char)) (name : List Char) (behind : List (List Char))
    (idle : ∀ piece ∈ behind, isIdle piece = true) (goes : isIdle name = false) :
    settled (front ++ name :: behind) = front ++ [name] := by
  have dropped : (behind.reverse ++ (name :: front.reverse)).dropWhile isIdle =
      name :: front.reverse := by
    rw [List.dropWhile_append_of_pos fun piece member => idle piece (List.mem_reverse.mp member)]
    exact List.dropWhile_cons_of_neg (by simp [goes])
  simp [settled, dropped]

structure EndsIn (path : String) (front : List (List Char)) (name : List Char)
    (behind : List (List Char)) : Prop where
  whole : pieces path = front ++ name :: behind
  idle : ∀ piece ∈ behind, isIdle piece = true
  goes : isIdle name = false
  stays : name ≠ ['.', '.']

theorem endsIn_of_name (path : String) (name : List Char) (found : name? path = some name) :
    ∃ front behind, EndsIn path front name behind := by
  obtain ⟨last, stays⟩ := Option.filter_eq_some_iff.mp found
  obtain ⟨front, split⟩ := List.getLast?_eq_some_iff.mp last
  obtain ⟨behind, whole, idle⟩ := settled_append (pieces path)
  refine ⟨front, behind, ?_, idle, settled_last _ name last, by simpa using stays⟩
  rw [whole, split, List.append_assoc]
  rfl

namespace EndsIn
variable {path : String} {front behind : List (List Char)} {name : List Char}
  (ends : EndsIn path front name behind)
include ends

theorem settled_pieces : settled (pieces path) = front ++ [name] := by
  rw [ends.whole]
  exact settled_of_end front name behind ends.idle ends.goes

theorem name_eq : name? path = some name := by
  rw [name?, ends.settled_pieces]
  simp [ends.stays]

theorem free : ∀ piece ∈ front ++ [name], '/' ∉ piece := by
  intro piece member
  refine slash_free path.toList piece ?_
  change piece ∈ pieces path
  rw [ends.whole]
  rcases List.mem_append.mp member with before | last
  · exact List.mem_append_left _ before
  · rw [List.mem_singleton.mp last]
    exact List.mem_append_right _ List.mem_cons_self

end EndsIn

/-! ## Paths that are the same -/

theorem absolute_pieces (path : String) :
    isAbsolute path = true ↔ ∃ rest, rest ≠ [] ∧ pieces path = [] :: rest := by
  rw [isAbsolute, pieces]
  cases path.toList with
  | nil => simp
  | cons c rest =>
    rw [List.splitOn_cons_eq_if_modifyHead]
    by_cases slash : c = '/'
    · simp [slash, List.splitOn_ne_nil]
    · cases more : rest.splitOn '/' with
      | nil => exact absurd more (List.splitOn_ne_nil _ rest)
      | cons first others => simp [slash]

/-- What two paths have in common that are the same but for doubled slashes, for dots that stay
where they are, and for slashes at the end. Only a dot in front counts. -/
def components (path : String) : Bool × Bool × List (List Char) :=
  (isAbsolute path, (pieces path).head? = some ['.'],
    (pieces path).filter fun piece => !isIdle piece)

theorem EndsIn.components_eq {path : String} {front behind : List (List Char)} {name : List Char}
    (ends : EndsIn path front name behind) :
    components path = (decide (front.head? = some []), decide (front.head? = some ['.']),
      (front.filter fun piece => !isIdle piece) ++ [name]) := by
  have moving := ends.goes
  have named : name ≠ [] ∧ name ≠ ['.'] := by
    constructor <;>
      · rintro rfl
        exact absurd moving (by decide)
  have nothing : (behind.filter fun piece => !isIdle piece) = [] := by
    simpa using ends.idle
  have absolute : isAbsolute path = decide (front.head? = some []) := by
    rw [Bool.eq_iff_iff, absolute_pieces, ends.whole, decide_eq_true_iff]
    cases front with
    | nil => simp [named]
    | cons first front => simp [eq_comm]
  have dotted : ((pieces path).head? = some ['.']) ↔ (front.head? = some ['.']) := by
    rw [ends.whole]
    cases front with
    | nil => simp [named]
    | cons first front => simp
  simp only [components, absolute, dotted]
  rw [ends.whole, List.filter_append, List.filter_cons_of_pos (by simp [moving]), nothing]

end Path

namespace SettingsFile

def ending : List Char := ['.', 't', 'm', 'p']

section Named
open HabitLedger.Path
variable {path : String} {front behind : List (List Char)} {name : List Char}
  (ends : EndsIn path front name behind)
include ends

/-- The file beside the settings is in their directory, under their name with the ending behind
it. -/
theorem temporary_endsIn : EndsIn (temporary path) front (name ++ ending) [] where
  whole := by
    have text : (temporary path).toList = ['/'].intercalate (front ++ [name ++ ending]) := by
      rw [temporary, ends.name_eq, ← intercalate_last]
      simp only [ends.settled_pieces, ofPieces, String.toList_append, String.toList_ofList]
      rfl
    have free : ∀ piece ∈ front ++ [name ++ ending], '/' ∉ piece := by
      intro piece member
      rcases List.mem_append.mp member with before | last
      · exact ends.free piece (List.mem_append_left _ before)
      · rw [List.mem_singleton.mp last]
        intro slash
        rcases List.mem_append.mp slash with inside | tail
        · exact ends.free name (List.mem_append_right _ List.mem_cons_self) inside
        · exact absurd tail (by decide)
    rw [pieces, text, List.splitOn_intercalate '/' free (by simp)]
  idle := fun _ none => absurd none List.not_mem_nil
  goes := by
    have longer : name ++ ending ≠ ['.'] := fun same => by
      have length := congrArg List.length same
      simp [ending] at length
    have some : name ++ ending ≠ [] := by simp [ending]
    simp only [isIdle, longer, some, decide_false, Bool.or_false]
  stays := by
    intro same
    have length := congrArg List.length same
    simp [ending] at length

theorem parent_temporary : parent (temporary path) = parent path := by
  rw [parent, parent, (temporary_endsIn ends).settled_pieces, ends.settled_pieces]
  simp

end Named

/-- As paths, not only as texts: a slash or a dot at the end makes no other path. -/
theorem temporary_injective (path other : String) (name name' : List Char)
    (named : Path.name? path = some name) (named' : Path.name? other = some name') :
    Path.components (temporary path) = Path.components (temporary other) ↔
      Path.components path = Path.components other := by
  obtain ⟨front, behind, ends⟩ := Path.endsIn_of_name path name named
  obtain ⟨front', behind', ends'⟩ := Path.endsIn_of_name other name' named'
  rw [(temporary_endsIn ends).components_eq, (temporary_endsIn ends').components_eq,
    ends.components_eq, ends'.components_eq]
  simp

theorem temporary_differs (path : String) (name : List Char) (named : Path.name? path = some name) :
    Path.components (temporary path) ≠ Path.components path := by
  obtain ⟨front, behind, ends⟩ := Path.endsIn_of_name path name named
  rw [(temporary_endsIn ends).components_eq, ends.components_eq]
  simp [ending]

structure StandsBeside (path : String) (name : List Char) : Prop where
  name_eq : Path.name? (temporary path) = some (name ++ ending)
  pieces : ∃ front behind, Path.pieces path = front ++ name :: behind ∧
    (∀ piece ∈ behind, Path.isIdle piece = true) ∧
    Path.pieces (temporary path) = front ++ [name ++ ending]
  parent : Path.parent (temporary path) = Path.parent path
  differs : Path.components (temporary path) ≠ Path.components path
  injective : ∀ other name', Path.name? other = some name' →
    (Path.components (temporary path) = Path.components (temporary other) ↔
      Path.components path = Path.components other)

theorem stands_beside (path : String) (name : List Char) (named : Path.name? path = some name) :
    StandsBeside path name := by
  obtain ⟨front, behind, ends⟩ := Path.endsIn_of_name path name named
  have beside := temporary_endsIn ends
  constructor
  · exact beside.name_eq
  · exact ⟨front, behind, ends.whole, ends.idle, beside.whole⟩
  · exact parent_temporary ends
  · exact temporary_differs path name named
  · intro other name' named'
    exact temporary_injective path other name name' named named'

end SettingsFile

end HabitLedger
