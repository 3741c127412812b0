import HabitLedger.Proofs.Reading
import HabitLedger.Proofs.Skipping

/-!
No text says two things. What a text starts with tells its kind, and where it ends is where a reader
that passes over it stops, so every text splits into its parts in one way.
-/

namespace HabitLedger.Json

/-! ## Where the parts end -/

theorem gap_cancel (gap other s t : List Char) (c d : Char) (blank : Blank gap)
    (blankToo : Blank other) (dark : isGap c = false) (darkToo : isGap d = false)
    (same : gap ++ c :: s = other ++ d :: t) : c :: s = d :: t := by
  have passed := congrArg skipGap same
  rwa [skipGap_before gap s c blank dark, skipGap_before other t d blankToo darkToo] at passed

theorem Denotes.cancel (text other rest behind : List Char) (a b : Datum) (first : Denotes text a)
    (second : Denotes other b) (stops : Stops rest) (stopsToo : Stops behind)
    (same : text ++ rest = other ++ behind) : text = other ∧ rest = behind := by
  have ends := first.skipped text a [] rest blank_nil stops
  have endsToo := second.skipped other b [] behind blank_nil stopsToo
  rw [List.nil_append] at ends endsToo
  rw [same, endsToo] at ends
  cases ends
  exact ⟨List.append_cancel_right same, rfl⟩

theorem written_cancel (pieces others : List Piece) (rest behind : List Char)
    (sound : ∀ piece ∈ pieces, piece.Sound) (soundToo : ∀ piece ∈ others, piece.Sound)
    (same : written pieces ++ rest = written others ++ behind) :
    meaning pieces = meaning others ∧ rest = behind := by
  simp only [written, List.cons_append, List.append_assoc, List.nil_append, List.cons.injEq,
    true_and] at same
  obtain ⟨row, passed⟩ := stringBody_over rest pieces sound
  obtain ⟨rowToo, passedToo⟩ := stringBody_over behind others soundToo
  rw [same, passedToo] at passed
  cases passed
  have read := stringBody_spelled rest pieces sound
  have readToo := stringBody_spelled rest others soundToo
  rw [same, readToo] at read
  refine ⟨?_, rfl⟩
  rw [meaning, meaning]
  cases made : spelled pieces <;> cases madeToo : spelled others <;> simp_all

theorem Member.cancel (member other : Member) (rest behind : List Char) (sound : member.Sound)
    (soundToo : other.Sound) (first : Denotes member.text member.datum)
    (second : Denotes other.text other.datum) (stops : Stops rest) (stopsToo : Stops behind)
    (same : member.chars ++ rest = other.chars ++ behind) :
    (Json.meaning member.name = Json.meaning other.name ∧ member.text = other.text) ∧
      rest = behind := by
  simp only [chars, List.append_assoc, List.cons_append] at same
  obtain ⟨named, same⟩ := written_cancel _ _ _ _ sound.name soundToo.name same
  have same := gap_cancel _ _ _ _ ':' ':' sound.before soundToo.before rfl rfl same
  obtain ⟨c, tail, front, starts⟩ := first.front
  obtain ⟨d, tailToo, frontToo, startsToo⟩ := second.front
  rw [List.cons_eq_cons, front, frontToo, List.cons_append, List.cons_append] at same
  have same := gap_cancel _ _ _ _ c d sound.after soundToo.after
    starts.dark.1 startsToo.dark.1 same.2
  rw [← List.cons_append, ← List.cons_append, ← front, ← frontToo] at same
  obtain ⟨text, ended⟩ := first.cancel _ _ _ _ _ _ second stops stopsToo same
  exact ⟨⟨named, text⟩, ended⟩

theorem Joined.stops_end (entries : List (List Char)) (inside : List Char)
    (joined : Joined false entries inside) : Stops inside := by
  have stops := joined.stops entries inside [] stops_nil
  rwa [List.append_nil] at stops

def Dark (text : List Char) : Prop := ∃ c tail, text = c :: tail ∧ isGap c = false

/-- Of two texts with something behind them, one does not go on where the other has ended. -/
def Apart (text other : List Char) : Prop :=
  ∀ rest behind, Stops rest → Stops behind → text ++ rest = other ++ behind →
    text = other ∧ rest = behind

theorem Dark.not_blank (text gap rest : List Char) (dark : Dark text) :
    ¬ Blank (gap ++ (text ++ rest)) := by
  obtain ⟨c, tail, rfl, unlike⟩ := dark
  intro blank
  have inside := blank c (by simp)
  rw [unlike] at inside
  cases inside

theorem comma_not_blank (gap rest : List Char) : ¬ Blank (gap ++ ',' :: rest) :=
  fun blank => absurd (blank ',' (by simp)) (by decide)

theorem Apart.cancel (text other gap before rest behind : List Char) (apart : Apart text other)
    (dark : Dark text) (darkToo : Dark other) (blank : Blank gap) (blankToo : Blank before)
    (stops : Stops rest) (stopsToo : Stops behind)
    (same : gap ++ (text ++ rest) = before ++ (other ++ behind)) :
    text = other ∧ rest = behind := by
  obtain ⟨c, tail, rfl, unlike⟩ := dark
  obtain ⟨d, tailToo, rfl, unlikeToo⟩ := darkToo
  exact apart _ _ stops stopsToo
    (gap_cancel gap before _ _ c d blank blankToo unlike unlikeToo same)

/-- What is joined can be taken apart in one way if every entry shows where it ends. -/
theorem Joined.entries (first : Bool) (entries others : List (List Char)) (inside place : List Char)
    (joined : Joined first entries inside) (again : Joined first others place)
    (same : inside = place) (dark : ∀ entry ∈ entries, Dark entry)
    (darkToo : ∀ other ∈ others, Dark other)
    (apart : ∀ entry ∈ entries, ∀ other ∈ others, Apart entry other) : entries = others := by
  -- Blanks hold no entry and no comma, so both rows come to their end together.
  induction joined generalizing others place with
  | done first gap blank =>
    subst same
    cases again with
    | done => rfl
    | first before other => exact absurd blank ((darkToo other List.mem_cons_self).not_blank _ _ _)
    | next => exact absurd blank (comma_not_blank _ _)
  | first gap entry entries more blank rest ih =>
    obtain ⟨here, later⟩ := List.forall_mem_cons.mp dark
    cases again with
    | done _ other blankToo => exact absurd (same ▸ blankToo) (here.not_blank _ _ _)
    | first before other others behind blankToo restToo =>
      obtain ⟨hereToo, laterToo⟩ := List.forall_mem_cons.mp darkToo
      have unlike := apart entry List.mem_cons_self other List.mem_cons_self
      obtain ⟨rfl, ended⟩ := unlike.cancel _ _ _ _ _ _
        here hereToo blank blankToo rest.stops_end restToo.stops_end same
      rw [ih others behind restToo ended later laterToo fun entry member other memberToo =>
        apart entry (.tail _ member) other (.tail _ memberToo)]
  | next comma gap entry entries more blank spaced rest ih =>
    obtain ⟨here, later⟩ := List.forall_mem_cons.mp dark
    cases again with
    | done _ other blankToo => exact absurd (same ▸ blankToo) (comma_not_blank _ _)
    | next commaToo before other others behind blankToo spacedToo restToo =>
      obtain ⟨hereToo, laterToo⟩ := List.forall_mem_cons.mp darkToo
      have same := gap_cancel comma commaToo _ _ ',' ',' blank blankToo rfl rfl same
      have unlike := apart entry List.mem_cons_self other List.mem_cons_self
      obtain ⟨rfl, ended⟩ := unlike.cancel _ _ _ _ _ _
        here hereToo spaced spacedToo rest.stops_end restToo.stops_end (List.cons.inj same).2
      rw [ih others behind restToo ended later laterToo fun entry member other memberToo =>
        apart entry (.tail _ member) other (.tail _ memberToo)]

/-! ## What the parts say -/

def Datum.sign : Datum → Char
  | .null => 'n'
  | .boolean true => 't'
  | .boolean false => 'f'
  | .number _ => '0'
  | .text _ => '"'
  | .list _ => '['
  | .object _ => '\x7b'

theorem Datum.Starts.sign (datum : Datum) (c : Char) (starts : datum.Starts c) :
    datum.sign = if c = '-' ∨ c.isDigit = true then '0' else c := by
  match datum with
  | .number _ => exact (if_pos starts).symm
  | .null | .boolean true | .boolean false | .text _ | .list _ | .object _ =>
    cases starts
    rfl

theorem Denotes.sign (text other : List Char) (a b : Datum) (first : Denotes text a)
    (second : Denotes other b) (same : text = other) : a.sign = b.sign := by
  obtain ⟨c, tail, front, starts⟩ := first.front
  obtain ⟨d, tailToo, frontToo, startsToo⟩ := second.front
  rw [front, frontToo] at same
  cases same
  rw [starts.sign, startsToo.sign]

theorem map_determined {α β γ : Type} (key : α → γ) (value : α → β) (xs ys : List α)
    (same : xs.map key = ys.map key)
    (each : ∀ x ∈ xs, ∀ y ∈ ys, key x = key y → value x = value y) :
    xs.map value = ys.map value := by
  induction xs generalizing ys with
  | nil =>
    cases ys with
    | nil => rfl
    | cons y ys => cases same
  | cons x xs ih =>
    cases ys with
    | nil => cases same
    | cons y ys =>
      obtain ⟨here, later⟩ := List.cons.inj same
      rw [List.map_cons, List.map_cons, each x List.mem_cons_self y List.mem_cons_self here,
        ih ys later fun x member y memberToo => each x (.tail _ member) y (.tail _ memberToo)]

theorem Numeral.written_unique (parts others : Numeral) (capital plus capitalToo plusToo : Bool)
    (sound : parts.Sound) (soundToo : others.Sound)
    (same : parts.written capital plus = others.written capitalToo plusToo) : parts = others := by
  have read := Numeral.numeral_written .endOfValue capital plus parts [] sound stops_nil
  rw [same, Numeral.numeral_written .endOfValue capitalToo plusToo others
    [] soundToo stops_nil] at read
  cases read
  rfl

theorem Denotes.dark (text : List Char) (datum : Datum) (denotes : Denotes text datum) :
    Dark text := by
  obtain ⟨c, tail, front, starts⟩ := denotes.front
  exact ⟨c, tail, front, starts.dark.1⟩

theorem Member.dark (member : Member) : Dark member.chars := ⟨'"', _, rfl, rfl⟩

/-- A text says one datum at most: its first character tells the kind, and no part goes on where
another has ended. -/
theorem Denotes.unique (text other : List Char) (a b : Datum) (first : Denotes text a)
    (second : Denotes other b) (same : text = other) : a = b := by
  have signs := first.sign _ _ _ _ second same
  induction first generalizing other b with
  | null => cases second with
    | null => rfl
    | _ => cases signs
  | yes => cases second with
    | yes => rfl
    | _ => cases signs
  | no => cases second with
    | no => rfl
    | _ => cases signs
  | number parts capital plus sound => cases second with
    | number others capitalToo plusToo soundToo =>
      rw [parts.written_unique others _ _ _ _ sound soundToo same]
    | _ => cases signs
  | text pieces sound => cases second with
    | text others soundToo =>
      have same := congrArg (· ++ []) same
      rw [(written_cancel pieces others [] [] sound soundToo same).1]
    | _ => cases signs
  | list items inside joined each ih => cases second with
    | list others place again eachToo =>
      have same := List.append_cancel_right (List.cons.inj same).2
      have texts := joined.entries _ _ _ _ _ again same
        (List.forall_mem_map.mpr fun item member => (each item member).dark)
        (List.forall_mem_map.mpr fun item member => (eachToo item member).dark)
        (List.forall_mem_map.mpr fun item member => List.forall_mem_map.mpr fun other memberToo =>
          fun _ _ => (each item member).cancel _ _ _ _ _ _ (eachToo other memberToo))
      rw [map_determined _ _ items others texts fun item member other memberToo here =>
        ih item member _ _ (eachToo other memberToo) here
          ((each item member).sign _ _ _ _ (eachToo other memberToo) here)]
    | _ => cases signs
  | object members inside joined sound each ih => cases second with
    | object others place again soundToo eachToo =>
      have same := List.append_cancel_right (List.cons.inj same).2
      -- A name ends at its quote and the value at its own end, so both agree before the rests do.
      have apart (member : Member) (inside : member ∈ members) (other : Member)
          (insideToo : other ∈ others) (rest behind : List Char) :=
        member.cancel other rest behind (sound member inside) (soundToo other insideToo)
          (each member inside) (eachToo other insideToo)
      have texts := joined.entries _ _ _ _ _ again same
        (List.forall_mem_map.mpr fun member _ => member.dark)
        (List.forall_mem_map.mpr fun other _ => other.dark)
        (List.forall_mem_map.mpr fun member inside =>
          List.forall_mem_map.mpr fun other insideToo => by
            intro rest behind stops stopsToo same
            obtain ⟨_, rfl⟩ := apart member inside other insideToo rest behind stops stopsToo same
            exact ⟨List.append_cancel_right same, rfl⟩)
      rw [map_determined _ _ members others texts fun member inside other insideToo here => by
        obtain ⟨⟨named, text⟩, _⟩ := apart member inside other insideToo [] [] stops_nil stops_nil
          (congrArg (· ++ []) here)
        rw [Member.said, Member.said, named, ih member inside _ _ (eachToo other insideToo) text
          ((each member inside).sign _ _ _ _ (eachToo other insideToo) text)]]
    | _ => cases signs

theorem Says.unique (text : String) (a b : Datum) (first : Says text a) (second : Says text b) :
    a = b := by
  obtain ⟨gap, body, back, blank, backBlank, whole, denotes⟩ := first
  obtain ⟨gapToo, bodyToo, backToo, blankToo, backBlankToo, wholeToo, denotesToo⟩ := second
  have apart : Apart body bodyToo := fun _ _ => denotes.cancel _ _ _ _ _ _ denotesToo
  obtain ⟨same, _⟩ := apart.cancel _ _ _ _ _ _ denotes.dark denotesToo.dark blank blankToo
    (stops_gap back backBlank) (stops_gap backToo backBlankToo) (whole.symm.trans wholeToo)
  exact denotes.unique _ _ _ _ denotesToo same

end HabitLedger.Json
