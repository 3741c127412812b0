import HabitLedger.Json.Skip
import HabitLedger.Proofs.Reading

/-!
Passing over whatever is written. Inside any open containers the text of a datum is passed over as a
whole, so what a record does not ask for does not matter, however deep it is.
-/

namespace HabitLedger.Json

def resume (comma : Bool) (stack : List Container) (s : List Char) : Except Fault (List Char) :=
  match advance comma stack s with
  | .error fault => .error fault
  | .ok ([], rest) => .ok rest
  | .ok (top :: below, rest) => skipOpen (top :: below) rest

theorem skipOpen_enter (stack opened : List Container) (s after : List Char) (ended : Bool)
    (entered : enter stack s = .ok (ended, opened, after)) :
    skipOpen stack s = resume ended opened after := by
  rw [skipOpen, resume]
  split
  · next failed => rw [entered] at failed; cases failed
  · next done =>
    rw [entered] at done
    cases done
    split <;> simp_all

section Resume
variable (top : Container) (below : List Container) (gap s after : List Char) (blank : Blank gap)

theorem closer_front : isGap top.closer = false ∧ top.closer ≠ ',' := by
  cases top <;> decide

include blank

theorem resume_closed (comma : Bool) :
    resume comma (top :: below) (gap ++ top.closer :: s) = resume true below s := by
  obtain ⟨dark, unlike⟩ := closer_front top
  simp only [resume, advance, skipGap_before gap s _ blank dark, unlike, and_false, if_false,
    if_true]

theorem resume_first (c : Char) (dark : isGap c = false) (unclosed : c ≠ top.closer)
    (named : skipName top (c :: s) = .ok after) :
    resume false (top :: below) (gap ++ c :: s) = skipOpen (top :: below) after := by
  simp only [resume, advance, skipGap_before gap s c blank dark, Bool.false_eq_true, false_and,
    if_false, unclosed, named, Except.map]

theorem resume_next (named : skipName top s = .ok after) :
    resume true (top :: below) (gap ++ ',' :: s) = skipOpen (top :: below) after := by
  simp only [resume, advance, skipGap_before gap s ',' blank rfl, and_self,
    if_true, named, Except.map]

end Resume

structure PassedIn (top : Container) (entry : List Char) : Prop where
  front : ∃ c tail, entry = c :: tail ∧ isGap c = false ∧ c ≠ top.closer
  passed : ∀ below gap rest, Blank gap → Stops rest →
    ∃ after, skipName top (gap ++ (entry ++ rest)) = .ok after ∧
      skipOpen (top :: below) after = resume true (top :: below) rest

theorem stops_closer (top : Container) (rest : List Char) : Stops (top.closer :: rest) := by
  cases top <;> exact stops_of _ rest (by decide) (by decide)

theorem resume_joined (top : Container) (below : List Container) (first : Bool)
    (entries : List (List Char)) (inside rest : List Char) (joined : Joined first entries inside)
    (passes : ∀ entry ∈ entries, PassedIn top entry) :
    resume (!first) (top :: below) (inside ++ top.closer :: rest) = resume true below rest := by
  induction joined with
  | done first gap blank => exact resume_closed top below gap rest blank _
  | first gap entry entries more blank joined ih =>
    obtain ⟨here, later⟩ := List.forall_mem_cons.mp passes
    obtain ⟨c, tail, front, dark, unclosed⟩ := here.front
    obtain ⟨after, named, passed⟩ := here.passed below [] (more ++ top.closer :: rest)
      blank_nil (joined.stops _ _ _ (stops_closer top rest))
    rw [List.nil_append, front, List.cons_append] at named
    rw [List.append_assoc, List.append_assoc, front, List.cons_append, Bool.not_true,
      resume_first top below gap _ after blank c dark unclosed named, passed]
    exact ih later
  | next before gap entry entries more blank spaced joined ih =>
    obtain ⟨here, later⟩ := List.forall_mem_cons.mp passes
    obtain ⟨after, named, passed⟩ := here.passed below gap (more ++ top.closer :: rest) spaced
      (joined.stops _ _ _ (stops_closer top rest))
    rw [List.append_assoc, List.cons_append, List.append_assoc, List.append_assoc, Bool.not_false,
      resume_next top below before _ after blank named, passed]
    exact ih later

theorem skipName_written (name : List Piece) (gap before rest : List Char) (blank : Blank gap)
    (spaced : Blank before) (sound : ∀ piece ∈ name, piece.Sound) :
    skipName .object (gap ++ (written name ++ (before ++ ':' :: rest))) = .ok rest := by
  obtain ⟨row, body⟩ := stringBody_over (before ++ ':' :: rest) name sound
  simp [written, skipName, skipGap_before gap _ '"' blank rfl, body, colon,
    skipGap_before before rest ':' spaced rfl, bind, Except.bind]

/-! ## The text of a datum -/

section Enter
variable (stack : List Container) (gap rest : List Char) (blank : Blank gap)
include blank

theorem enter_word (c : Char) (letters : List Char)
    (known : (c, letters) ∈
      [('n', ['u', 'l', 'l']), ('t', ['r', 'u', 'e']), ('f', ['a', 'l', 's', 'e'])]) :
    enter stack (gap ++ (c :: letters ++ rest)) = .ok (true, stack, rest) := by
  have read := word_append letters rest
  have front := skipGap_before gap (letters ++ rest) c blank
  simp only [List.mem_cons, Prod.mk.injEq, List.not_mem_nil, or_false] at known
  rcases known with ⟨rfl, rfl⟩ | ⟨rfl, rfl⟩ | ⟨rfl, rfl⟩ <;>
    rw [List.cons_append, enter, front rfl] <;>
    simp only [Char.reduceEq, if_true, if_false, read] <;> rfl

theorem enter_number (parts : Numeral) (capital plus : Bool) (sound : parts.Sound)
    (stops : Stops rest) :
    enter stack (gap ++ (parts.written capital plus ++ rest)) = .ok (true, stack, rest) := by
  obtain ⟨c, tail, front, signed⟩ := parts.written_front capital plus sound
  have lexed := Numeral.numeral_written .invalidNumber capital plus parts rest sound stops
  obtain ⟨dark, unlike⟩ := signs_number c signed
  rw [front, List.cons_append] at lexed ⊢
  simp [enter, skipGap_before gap _ c blank dark, unlike, signed, lexed, Except.map]

theorem enter_text (pieces : List Piece) (sound : ∀ piece ∈ pieces, piece.Sound) :
    enter stack (gap ++ (written pieces ++ rest)) = .ok (true, stack, rest) := by
  obtain ⟨row, body⟩ := stringBody_over rest pieces sound
  simp [written, enter, skipGap_before gap _ '"' blank rfl, body, Except.map]

theorem enter_list :
    enter stack (gap ++ '[' :: rest) = .ok (false, .list :: stack, rest) := by
  simp [enter, skipGap_before gap _ '[' blank rfl]

theorem enter_object :
    enter stack (gap ++ '\x7b' :: rest) = .ok (false, .object :: stack, rest) := by
  simp [enter, skipGap_before gap _ '\x7b' blank rfl]

end Enter

def Passed (text : List Char) : Prop :=
  ∀ stack gap rest, Blank gap → Stops rest →
    skipOpen stack (gap ++ (text ++ rest)) = resume true stack rest

theorem item_passedIn (text : List Char) (datum : Datum) (denotes : Denotes text datum)
    (passed : Passed text) : PassedIn .list text := by
  obtain ⟨c, tail, front, starts⟩ := denotes.front
  refine ⟨⟨c, tail, front, starts.dark⟩, ?_⟩
  intro below gap rest blank stops
  exact ⟨_, rfl, passed (.list :: below) gap rest blank stops⟩

theorem member_passedIn (part : Member) (sound : part.Sound) (passed : Passed part.text) :
    PassedIn .object part.chars := by
  obtain ⟨name, before, after⟩ := sound
  refine ⟨⟨'"', _, rfl, by decide⟩, ?_⟩
  intro below gap rest blank stops
  refine ⟨part.after ++ (part.text ++ rest), ?_, passed (.object :: below) _ rest after stops⟩
  have named := skipName_written part.name gap part.before (part.after ++ (part.text ++ rest)) blank
    before name
  simpa [Member.chars] using named

/-- Inside whatever is open, the text of a datum is passed over as a whole. -/
theorem Denotes.passed (text : List Char) (datum : Datum) (denotes : Denotes text datum) :
    Passed text := by
  induction denotes with
  | null =>
    intro stack gap rest blank _
    exact skipOpen_enter stack stack _ rest true (enter_word stack gap rest blank 'n' _ (by simp))
  | yes =>
    intro stack gap rest blank _
    exact skipOpen_enter stack stack _ rest true (enter_word stack gap rest blank 't' _ (by simp))
  | no =>
    intro stack gap rest blank _
    exact skipOpen_enter stack stack _ rest true (enter_word stack gap rest blank 'f' _ (by simp))
  | number parts capital plus sound =>
    intro stack gap rest blank stops
    exact skipOpen_enter stack stack _ rest true
      (enter_number stack gap rest blank parts capital plus sound stops)
  | text pieces sound =>
    intro stack gap rest blank _
    exact skipOpen_enter stack stack _ rest true (enter_text stack gap rest blank pieces sound)
  | list items inside joined each ih =>
    intro stack gap rest blank _
    -- Inside the list one more bracket is open, and its entries are passed over one by one.
    rw [List.cons_append, List.append_assoc, List.singleton_append,
      skipOpen_enter stack (.list :: stack) _ _ false (enter_list stack gap _ blank)]
    refine resume_joined .list stack true _ inside rest joined ?_
    intro entry member
    obtain ⟨item, found, rfl⟩ := List.mem_map.mp member
    exact item_passedIn item.1 item.2 (each item found) (ih item found)
  | object members inside joined sound each ih =>
    intro stack gap rest blank _
    rw [List.cons_append, List.append_assoc, List.singleton_append,
      skipOpen_enter stack (.object :: stack) _ _ false (enter_object stack gap _ blank)]
    refine resume_joined .object stack true _ inside rest joined ?_
    intro entry member
    obtain ⟨part, found, rfl⟩ := List.mem_map.mp member
    exact member_passedIn part (sound part found) (ih part found)

theorem Denotes.skipped (text : List Char) (datum : Datum) (denotes : Denotes text datum)
    (gap rest : List Char) (blank : Blank gap) (stops : Stops rest) :
    skip (gap ++ (text ++ rest)) = .ok rest :=
  denotes.passed text datum [] gap rest blank stops

end HabitLedger.Json
