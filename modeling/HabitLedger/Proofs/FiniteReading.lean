import HabitLedger.Dashboard
import HabitLedger.Proofs.Rescaling

/-!
What can be read. A number of a text is finite: its digits are kept as long as they fit a word, a
power of ten only scales them down or is refused where it scales them too far up. A reader ensures a
property if all that it reads has it, and the readers of containers hand on what the readers of
their parts ensure, so every double of a document that has been read is finite.
-/

namespace HabitLedger.Json

open Binary64

/-! ## Numbers -/

theorem push_fits (kept : Kept) (c : Char) (fits : kept.value < UInt64.size) :
    (kept.push c).value < UInt64.size := by
  unfold Kept.push
  split
  · next room => exact room.2
  · exact fits

theorem row_fits (row : List Char) (kept : Kept) (fits : kept.value < UInt64.size) :
    (row.foldl Kept.push kept).value < UInt64.size := by
  induction row generalizing kept with
  | nil => exact fits
  | cons c row ih => exact ih _ (push_fits kept c fits)

theorem keepFraction_fits (row : List Char) (value : Nat) (fits : value < UInt64.size) :
    (keepFraction value row).1 < UInt64.size := by
  induction row generalizing value with
  | nil => exact fits
  | cons c row ih =>
    unfold keepFraction
    split
    · next room => exact ih _ room
    · exact fits

theorem ofQuotient_finite (negative : Bool) (num den : Nat) (small : roundUnits num den < limit) :
    (ofQuotient negative num den).isFinite = true := by
  rw [ofQuotient, dif_pos small]
  rfl

theorem neg_finite (x : Binary64) : (-x).isFinite = x.isFinite := by
  cases x <;> rfl

theorem holds_finite (x : Binary64) (units : Nat) (holds : Holds x units) : x.isFinite = true := by
  obtain ⟨m, rfl, _⟩ := holds
  rfl

section Word
variable (kept : Nat) (fits : kept < UInt64.size)
include fits

theorem word_small : wholeUnits kept < limit :=
  Nat.lt_of_le_of_lt (wholeUnits_grows kept UInt64.size (Nat.le_of_lt fits)) (by decide +kernel)

theorem wholeNumber_finite (negative : Bool) :
    (wholeNumber negative kept).toBinary64.isFinite = true := by
  have small := word_small kept fits
  unfold wholeNumber
  split
  · split
    · exact (neg_finite _).trans (holds_finite _ _ (ofInt_holds kept small))
    · refine ofQuotient_finite _ _ _ ?_
      rwa [Int.natAbs_neg, Int.natAbs_natCast]
  · exact holds_finite _ _ (ofInt_holds kept small)

end Word

/-- Scaling down leaves a number finite, and scaling up is refused where it does not. -/
theorem scale_finite (x y : Binary64) (power : Int) (units : Nat) (holds : Holds x units)
    (scaled : scale x power = .ok y) : y.isFinite = true := by
  have finite := holds_finite x units holds
  fun_induction scale x power generalizing units with
  | case1 => cases scaled; exact finite
  | case2 x power _ _ ih =>
    have smaller := over_power x units 308 holds (Nat.le_refl 308)
    exact ih _ smaller scaled (holds_finite _ _ smaller)
  | case3 x power _ below =>
    cases scaled
    exact holds_finite _ _ (over_power x units power.natAbs holds (by omega))
  | case4 x power _ _ _ product => cases scaled; exact product
  | case5 => cases scaled
  | case6 => cases scaled; exact finite
  | case7 => cases scaled

section Real
variable (negative : Bool) (kept : Nat) (power : Int) (fits : kept < UInt64.size) (n : Number)
include fits

theorem realNumber_finite (read : realNumber negative kept power = .ok n) :
    n.toBinary64.isFinite = true := by
  obtain ⟨x, scaled, rest⟩ := bind_eq_ok.mp read
  cases rest
  have finite := scale_finite _ x power _ (ofInt_holds kept (word_small kept fits)) scaled
  cases negative with
  | false => exact finite
  | true => exact (neg_finite x).trans finite

theorem exponentNumber_finite (exponent : Bool × List Char)
    (read : exponentNumber negative kept power exponent = .ok n) :
    n.toBinary64.isFinite = true := by
  unfold exponentNumber at read
  split at read
  · exact realNumber_finite negative kept _ fits n read
  · split at read
    · cases read
      rfl
    · cases read

end Real

/-- Whatever digits a number is written with, it is read as a finite one or not at all. -/
theorem Numeral.number_finite (numeral : Numeral) (n : Number) (read : numeral.number = .ok n) :
    n.toBinary64.isFinite = true := by
  obtain ⟨negative, whole, fraction, exponent⟩ := numeral
  have first : (whole.foldl Kept.push ⟨0, 0⟩).value < UInt64.size := row_fits whole _ (by decide)
  cases fraction with
  | none =>
    cases exponent with
    | none =>
      simp only [Numeral.number] at read
      split at read
      · cases read
        exact wholeNumber_finite _ first negative
      · exact realNumber_finite negative _ _ first n read
    | some exponent => exact exponentNumber_finite negative _ _ first n exponent read
  | some row =>
    have both := keepFraction_fits row _ first
    cases exponent with
    | none => exact realNumber_finite negative _ _ both n read
    | some exponent => exact exponentNumber_finite negative _ _ both n exponent read

theorem number_finite (s rest : List Char) (n : Number) (read : number s = .ok (n, rest)) :
    n.toBinary64.isFinite = true := by
  obtain ⟨⟨numeral, after⟩, _, read⟩ := bind_eq_ok.mp read
  obtain ⟨value, means, read⟩ := bind_eq_ok.mp read
  cases read
  exact numeral.number_finite _ means

/-! ## Readers -/

def Reader.Ensures {α : Type} (reader : Reader α) (P : α → Prop) : Prop :=
  ∀ s a rest, reader.run s = .ok (a, rest) → P a

namespace Reader
variable {α β : Type}

theorem ensures_check (reader : Reader α) (accept : α → Except Fault β) (P : α → Prop)
    (Q : β → Prop) (ensures : reader.Ensures P) (passes : ∀ a b, P a → accept a = .ok b → Q b) :
    (reader.check accept).Ensures Q := by
  intro s b rest read
  obtain ⟨⟨a, after⟩, first, read⟩ := bind_eq_ok.mp read
  obtain ⟨c, accepted, read⟩ := bind_eq_ok.mp read
  cases read
  exact passes a b (ensures s a rest first) accepted

theorem ensures_number (wanted : String) :
    (numberFor wanted).Ensures fun n => n.toBinary64.isFinite = true := by
  intro s n rest read
  change takeNumber wanted s = _ at read
  unfold takeNumber at read
  split at read
  · cases read
  · split at read
    · exact number_finite _ rest n read
    · cases read

theorem ensures_real : real.Ensures fun x => x.isFinite = true := by
  refine ensures_check _ _ _ _ (ensures_number "f64") ?_
  rintro n x finite ⟨⟩
  exact finite

theorem items_ensure (item : Reader α) (P : α → Prop) (ensures : item.Ensures P) (first : Bool)
    (s rest : List Char) (as : List α) (read : items item first s = .ok (as, rest)) :
    ∀ a ∈ as, P a := by
  fun_induction items item first s generalizing as with
  | case1 => cases read
  | case2 => cases read; exact fun _ none => absurd none List.not_mem_nil
  | case3 => cases read
  | case4 _ _ _ _ a _ taken ih =>
    obtain ⟨⟨more, last⟩, tail, read⟩ := bind_eq_ok.mp read
    cases read
    intro b member
    rcases List.mem_cons.mp member with rfl | later
    · exact ensures _ _ _ taken
    · exact ih more tail b later

theorem ensures_list (item : Nat → Reader α) (P : α → Prop)
    (ensures : ∀ room, (item room).Ensures P) (room : Nat) :
    (list item room).Ensures fun as => ∀ a ∈ as, P a := by
  intro s as rest read
  change takeList item room s = _ at read
  unfold takeList at read
  split at read
  · cases read
  · split at read
    · split at read
      · cases read
      · exact items_ensure _ P (ensures _) true _ rest as read
    · cases read

end Reader

/-! ## Records -/

@[reducible] def Properties : List Type → Type
  | [] => Unit
  | α :: rest => (α → Prop) × Properties rest

def Meet : {types : List Type} → Properties types → Values types → Prop
  | [], (), () => True
  | _ :: _, (first, more), (a, values) => first a ∧ Meet more values

def MeetSoFar : {types : List Type} → Properties types → Slots types → Prop
  | [], (), () => True
  | _ :: _, (first, more), (slot, slots) => (∀ a ∈ slot, first a) ∧ MeetSoFar more slots

structure Field.Ensures {α : Type} (field : Field α) (P : α → Prop) : Prop where
  value : ∀ room, (field.value room).Ensures P
  absent : ∀ a ∈ field.absent, P a
  cut : ∀ a ∈ field.cut, P a

namespace Field
variable {α : Type} (name : String) (value : Nat → Reader α) (P : α → Prop)

theorem ensures_required (ensures : ∀ room, (value room).Ensures P) :
    (required name value).Ensures P :=
  ⟨ensures, fun _ none => (nomatch none), fun _ none => (nomatch none)⟩

theorem ensures_withDefault (default : α) (ensures : ∀ room, (value room).Ensures P)
    (holds : P default) : (withDefault name value default).Ensures P := by
  refine ⟨ensures, ?_, ?_⟩ <;>
    · rintro a ⟨⟩
      exact holds

theorem ensures_nothing (field : Field α) : field.Ensures fun _ => True :=
  ⟨fun _ _ _ _ _ => trivial, fun _ _ => trivial, fun _ _ => trivial⟩

end Field

namespace Fields

def Ensure : {types : List Type} → Fields types → Properties types → Prop
  | _, .done, () => True
  | _, .field first more, (property, properties) =>
    first.Ensures property ∧ more.Ensure properties

theorem empty_meets : (types : List Type) → (properties : Properties types) →
    MeetSoFar properties (empty types)
  | [], () => trivial
  | _ :: rest, (_, properties) => ⟨fun _ none => (nomatch none), empty_meets rest properties⟩

variable {types : List Type} (fields : Fields types)

theorem fill_meets (properties : Properties types) (room : Nat) (slots after : Slots types)
    (name : String) (s rest : List Char) (ensure : fields.Ensure properties)
    (meet : MeetSoFar properties slots)
    (read : fields.fill room slots name s = .ok (after, rest)) : MeetSoFar properties after := by
  induction fields with
  | done => trivial
  | field first more ih =>
    unfold fill at read
    dsimp only at read
    split at read
    · split at read
      · cases read
      · obtain ⟨afterColon, _, read⟩ := bind_eq_ok.mp read
        obtain ⟨⟨a, last⟩, value, read⟩ := bind_eq_ok.mp read
        cases read
        refine ⟨?_, meet.2⟩
        rintro b ⟨⟩
        exact ensure.1.value room _ _ _ value
    · obtain ⟨⟨inner, last⟩, deeper, read⟩ := map_eq_ok.mp read
      cases read
      exact ⟨meet.1, ih properties.2 slots.2 inner ensure.2 meet.2 deeper⟩

theorem complete_meets (properties : Properties types) (slots : Slots types) (values : Values types)
    (ensure : fields.Ensure properties) (meet : MeetSoFar properties slots)
    (completed : fields.complete slots = .ok values) : Meet properties values := by
  induction fields with
  | done => trivial
  | field first more ih =>
    unfold complete at completed
    split at completed
    · cases completed
    · next a found =>
      obtain ⟨rest, deeper, completed⟩ := map_eq_ok.mp completed
      cases completed
      refine ⟨?_, ih properties.2 slots.2 rest ensure.2 meet.2 deeper⟩
      cases held : slots.1 with
      | none =>
        rw [held] at found
        exact ensure.1.absent a found
      | some b =>
        rw [held] at found
        cases found
        exact meet.1 a held

theorem cutOff_meets (properties : Properties types) (tooShort : Fault) (values : Values types)
    (ensure : fields.Ensure properties) (completed : fields.cutOff tooShort = .ok values) :
    Meet properties values := by
  induction fields with
  | done => trivial
  | field first more ih =>
    unfold cutOff at completed
    split at completed
    · cases completed
    · next a found =>
      obtain ⟨rest, deeper, completed⟩ := map_eq_ok.mp completed
      cases completed
      exact ⟨ensure.1.cut a found, ih properties.2 rest ensure.2 deeper⟩

theorem inOrder_meets (properties : Properties types) (room : Nat) (tooShort : Nat → Fault)
    (found : Nat) (s rest : List Char) (values : Values types) (ensure : fields.Ensure properties)
    (read : fields.inOrder room tooShort found s = .ok (values, rest)) :
    Meet properties values := by
  induction fields generalizing found s with
  | done => trivial
  | field first more ih =>
    unfold inOrder at read
    split at read
    · cases read
    · obtain ⟨inner, cut, read⟩ := map_eq_ok.mp read
      cases read
      exact cutOff_meets (.field first more) properties _ _ ensure cut
    · split at read
      · cases read
      · next value =>
        obtain ⟨⟨inner, last⟩, deeper, read⟩ := map_eq_ok.mp read
        cases read
        exact ⟨ensure.1.value room _ _ _ value, ih properties.2 _ _ inner ensure.2 deeper⟩

end Fields

theorem members_keep {σ : Type} (member : MemberReader σ) (Holds : σ → Prop)
    (step : ∀ state name s after rest, Holds state → member.run state name s = .ok (after, rest) →
      Holds after)
    (first : Bool) (state after : σ) (s rest : List Char) (start : Holds state)
    (read : members member first state s = .ok (after, rest)) : Holds after := by
  fun_induction members member first state s with
  | case1 => cases read
  | case2 => cases read; exact start
  | case3 => cases read
  | case4 => cases read
  | case5 _ _ _ _ _ _ _ _ _ _ taken ih => exact ih (step _ _ _ _ _ start taken) read

/-- All that is read as a record is built from values that have the properties of their fields. -/
theorem Record.ensures {α : Type} (record : Record α) (properties : Properties record.types)
    (ensure : record.fields.Ensure properties) (room : Nat) :
    (record.reader room).Ensures fun a =>
      ∃ values, Meet properties values ∧ record.build values = a := by
  intro s a rest read
  change record.take room s = _ at read
  unfold Record.take at read
  split at read
  · cases read
  · split at read
    · split at read
      · cases read
      · next room =>
        obtain ⟨⟨slots, after⟩, part, read⟩ := bind_eq_ok.mp read
        obtain ⟨values, complete, read⟩ := bind_eq_ok.mp read
        cases read
        -- The members read so far meet the properties of their fields.
        have meet := members_keep _ (MeetSoFar properties)
          (fun state name s after rest meet => record.fields.fill_meets properties room state after
            name s rest ensure meet) true _ slots _ rest (Fields.empty_meets _ properties) part
        exact ⟨values, record.fields.complete_meets properties slots values ensure meet complete,
          rfl⟩
    · split at read
      · split at read
        · cases read
        · next room =>
          obtain ⟨⟨values, after⟩, part, read⟩ := bind_eq_ok.mp read
          cases read
          exact ⟨values, record.fields.inOrder_meets properties room _ 0 _ _ values ensure part,
            rfl⟩
      · cases read

end HabitLedger.Json

namespace HabitLedger

open Json

structure Profile.Finite (profile : Profile) : Prop where
  monthlyIncome : profile.monthlyIncome.isFinite = true
  totalBudget : profile.totalBudget.isFinite = true
  savingsGoal : profile.savingsGoal.isFinite = true
  currentSavings : profile.currentSavings.isFinite = true

structure Snapshot.Finite (snapshot : Snapshot) : Prop where
  profile : snapshot.profile.Finite
  categories : ∀ category ∈ snapshot.categories, category.limit.isFinite = true

theorem Profile.ensures (room : Nat) : (record.reader room).Ensures Profile.Finite := by
  have double (name : String) :
      (Field.withDefault name (fun _ => Reader.real) 0).Ensures fun x => x.isFinite = true :=
    Field.ensures_withDefault name _ _ 0 (fun _ => Reader.ensures_real) (by decide +kernel)
  have ensure : record.fields.Ensure (fun _ => True, fun _ => True, fun _ => True,
      fun x => x.isFinite = true, fun x => x.isFinite = true, fun x => x.isFinite = true,
      fun x => x.isFinite = true, ()) :=
    ⟨Field.ensures_nothing _, Field.ensures_nothing _, Field.ensures_nothing _,
      double _, double _, double _, double _, trivial⟩
  intro s profile rest read
  obtain ⟨⟨id, email, fullName, monthlyIncome, totalBudget, savingsGoal, currentSavings, ⟨⟩⟩,
    ⟨_, _, _, income, budget, goal, savings, _⟩, rfl⟩ :=
      record.ensures _ ensure room s profile rest read
  exact ⟨income, budget, goal, savings⟩

theorem Category.ensures (room : Nat) :
    (record.reader room).Ensures fun category => category.limit.isFinite = true := by
  have ensure : record.fields.Ensure
      (fun _ => True, fun limit => limit.isFinite = true, fun _ => True, ()) :=
    ⟨Field.ensures_nothing _,
      Field.ensures_withDefault "limit" _ _ 0 (fun _ => Reader.ensures_real) (by decide +kernel),
      Field.ensures_nothing _, trivial⟩
  intro s category rest read
  obtain ⟨⟨name, limit, color, ⟨⟩⟩, ⟨_, finite, _, _⟩, rfl⟩ :=
    record.ensures _ ensure room s category rest read
  exact finite

theorem Snapshot.ensures (room : Nat) : (record.reader room).Ensures Snapshot.Finite := by
  have ensure : record.fields.Ensure (Profile.Finite,
      fun categories => ∀ category ∈ categories, category.limit.isFinite = true,
      fun _ => True, ()) :=
    ⟨Field.ensures_required "profile" _ _ Profile.ensures,
      Field.ensures_withDefault "categories" _ _ [] (Reader.ensures_list _ _ Category.ensures)
        (fun _ none => nomatch none),
      Field.ensures_nothing _, trivial⟩
  intro s snapshot rest read
  obtain ⟨⟨profile, categories, expenses, ⟨⟩⟩, ⟨profileFinite, limits, _, _⟩, rfl⟩ :=
    record.ensures _ ensure room s snapshot rest read
  exact ⟨profileFinite, limits⟩

theorem Json.decode_ensures {α : Type} (reader : Nat → Reader α) (P : α → Prop)
    (ensures : (reader deepest).Ensures P) (text : String) (a : α)
    (read : decode reader text = .ok a) : P a := by
  obtain ⟨⟨b, rest⟩, first, read⟩ := bind_eq_ok.mp read
  dsimp only at read
  split at read
  · cases read
    exact ensures _ _ _ first
  · cases read

theorem Snapshot.ofText_finite (text : String) (snapshot : Snapshot)
    (read : ofText text = .ok snapshot) : snapshot.Finite :=
  decode_ensures record.reader _ (ensures deepest) text snapshot read

end HabitLedger
