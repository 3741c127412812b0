import HabitLedger.Proofs.LayoutOnly

/-!
Minus signs in the text of a dashboard. A sum starts from `-0`, and only what is not `-0` itself
takes the sign away: where there is nothing to add up, as in a category without expenses, `-0.0` is
what the text shows. Nothing below zero is shown as spent, and every other sum and share of one is
written plainly.
-/

namespace HabitLedger

open Json Binary64

/-! ## Numbers inside a text -/

namespace Json

inductive NumberAt (parts : Numeral) : Datum → List Key → Prop where
  | here : NumberAt parts (.number parts) []
  | member {members : List (Option String × Datum)} {name : String}
      {datum : Datum} {path : List Key} : (some name, datum) ∈ members → NumberAt parts datum path →
        NumberAt parts (.object members) (.name name :: path)
  | item {items : List Datum} {index : Nat} {datum : Datum} {path : List Key} :
      items[index]? = some datum → NumberAt parts datum path →
        NumberAt parts (.list items) (.place index :: path)

section NumberAt
variable (parts : Numeral) (path : List Key)

theorem numberAt_object (members : List (String × Value)) (name : String) :
    NumberAt parts (Value.object members).datum (.name name :: path) ↔
      ∃ value, (name, value) ∈ members ∧ NumberAt parts value.datum path := by
  rw [Value.datum, Value.said_eq]
  constructor
  · rintro (_ | ⟨member, inner⟩)
    obtain ⟨⟨_, value⟩, written, same⟩ := List.mem_map.mp member
    cases same
    exact ⟨value, written, inner⟩
  · rintro ⟨value, written, inner⟩
    exact .member (List.mem_map.mpr ⟨_, written, rfl⟩) inner

theorem numberAt_list (items : List Value) (index : Nat) :
    NumberAt parts (Value.list items).datum (.place index :: path) ↔
      ∃ value, items[index]? = some value ∧ NumberAt parts value.datum path := by
  rw [Value.datum, Value.data_eq]
  constructor
  · rintro (_ | _ | ⟨found, inner⟩)
    rw [List.getElem?_map] at found
    obtain ⟨value, written, rfl⟩ := Option.map_eq_some_iff.mp found
    exact ⟨value, written, inner⟩
  · rintro ⟨value, written, inner⟩
    refine .item ?_ inner
    rw [List.getElem?_map, written]
    rfl

theorem numberAt_real (x : Binary64) :
    NumberAt parts (Value.real x).datum [] ↔ x.isFinite = true ∧ parts = (Number.real x).parts := by
  unfold Value.real
  split
  · next finite =>
    constructor
    · rintro ⟨⟩
      exact ⟨finite, rfl⟩
    · rintro ⟨_, rfl⟩
      exact .here
  · next large =>
    constructor
    · rintro ⟨⟩
    · exact fun ⟨present, _⟩ => absurd present large

theorem numberAt_optional {α : Type} (write : α → Value) (o : Option α) :
    NumberAt parts (Value.optional write o).datum path ↔
      ∃ a ∈ o, NumberAt parts (write a).datum path := by
  cases o with
  | none =>
    constructor
    · rintro ⟨⟩
    · rintro ⟨_, ⟨⟩, _⟩
  | some a => simp [Value.optional]

end NumberAt

end Json

/-! ## Signs -/

namespace Binary64

def isNegative : Binary64 → Bool
  | .nan => false
  | .infinite negative => negative
  | .finite negative _ => negative

theorem isNegative_ofQuotient (negative : Bool) (num den : Nat) :
    (ofQuotient negative num den).isNegative = negative := by
  unfold ofQuotient
  split <;> rfl

theorem isNegative_nonneg (x : Binary64) (nonneg : 0 ≤ x) :
    x.isNegative = true ↔ x = zero true := by
  rcases nonneg_shape x nonneg with rfl | rfl | ⟨m, rfl⟩
  · exact iff_of_true rfl rfl
  · exact iff_of_false nofun nofun
  · exact iff_of_false nofun nofun

section Operations
variable (x : Binary64) (number : x.isNaN = false) (m : Magnitude) (positive : 0 < m.units)
include number positive

theorem isNegative_div : (x / finite false m).isNegative = x.isNegative := by
  cases x with
  | nan => cases number
  | infinite negative => rw [div_infinite]
  | finite negative n =>
    rw [div_finite m positive, isNegative_ofQuotient]
    rfl

theorem isNegative_mul : (x * finite false m).isNegative = x.isNegative := by
  cases x with
  | nan => cases number
  | infinite negative => rw [mul_infinite m positive]
  | finite negative n =>
    rw [mul_finite, isNegative_ofQuotient]
    rfl

end Operations

theorem sum_eq_zero (terms : List Binary64) (amounts : ∀ x ∈ terms, IsAmount x) :
    sum terms = zero true ↔ ∀ x ∈ terms, x = zero true := by
  rw [sum, foldl_eq_zero terms _ start_nonneg.1 amounts]
  exact and_iff_right start_zero

end Binary64

/-- A share of a budget or a goal has the sign of what it is the share of, however small it gets. -/
theorem isNegative_share (part whole percent : Binary64) (number : part.isNaN = false)
    (share : percentage part whole = some percent) : percent.isNegative = part.isNegative := by
  obtain ⟨m, positive, rfl, rfl⟩ := percentage_some part whole percent share
  have hundred : 0 < 100 * one := Nat.mul_pos (by decide) Binary64.one_pos
  rw [ofNat_exact 100 (by decide), isNegative_mul _ (rank_div part number m positive).1 _ hundred,
    isNegative_div part number m positive]

theorem share_given (part whole : Binary64) (finite : whole.isFinite = true) :
    (∃ percent, percentage part whole = some percent) ↔ 0 < whole := by
  rw [← Option.ne_none_iff_exists', ne_eq, percentage_none part whole finite]
  have number := isNaN_of_isFinite whole finite
  have zero := (rank_ofNat 0 (Nat.zero_le _)).1
  rw [le_iff_rank, lt_iff_rank]
  simp only [number, zero, true_and, Int.not_le]

namespace Json

/-- A finite number is written with the sign it carries. -/
theorem Number.parts_negative (x : Binary64) (finite : x.isFinite = true) :
    (Number.real x).parts.negative = x.isNegative := by
  cases x with
  | nan => cases finite
  | infinite negative => cases finite
  | finite negative m =>
    rw [Number.parts]
    split
    · rfl
    · simp only [Numeral.ofDecimal]
      repeat' split
      all_goals rfl

theorem Number.parts_zero (negative : Bool) :
    (Number.real (Binary64.zero negative)).parts = .zero negative := by
  rw [Binary64.zero, Number.parts, if_pos rfl]

end Json

/-! ## What is shown as spent -/

theorem Totals.numberAt_spent (totals : Totals) (parts : Numeral) :
    NumberAt parts totals.toValue.datum [.name "spent"] ↔
      totals.spent.isFinite = true ∧ parts = (Number.real totals.spent).parts := by
  rw [toValue, numberAt_object, ← numberAt_real]
  simp

theorem Spending.numberAt_spent (row : Spending) (parts : Numeral) :
    NumberAt parts row.toValue.datum [.name "spent"] ↔
      row.spent.isFinite = true ∧ parts = (Number.real row.spent).parts := by
  rw [toValue, numberAt_object, ← numberAt_real]
  cases color : row.color <;> simp [Value.present]

theorem Dashboard.stated (dashboard : Dashboard) (pretty : Bool) :
    Says (if pretty then dashboard.toValue.toPretty else dashboard.toValue.toCompact)
      dashboard.toValue.datum := by
  split
  · exact dashboard.writable.pretty_stated
  · exact dashboard.writable.compact_stated

/-- Each of these goes by a name that no other member has. -/
theorem Dashboard.members_named (dashboard : Dashboard) :
    ∃ members, dashboard.toValue = .object members ∧ ∀ value,
      (("stats", value) ∈ members ↔ value = dashboard.totals.toValue) ∧
      (("budget_usage_percent", value) ∈ members ↔
        value = .optional .real dashboard.budgetPercent) ∧
      (("categories", value) ∈ members ↔
        value = .list (dashboard.spending.map Spending.toValue)) := by
  refine ⟨_, rfl, fun value => ?_⟩
  split <;> simp

inductive Figure where
  | total
  | usage
  | category (index : Nat)
  deriving DecidableEq

namespace Figure

def keys : Figure → List Key
  | total => [.name "stats", .name "spent"]
  | usage => [.name "budget_usage_percent"]
  | category index => [.name "categories", .place index, .name "spent"]

def shown (dashboard : Dashboard) : Figure → Option Binary64
  | total => some dashboard.totals.spent
  | usage => dashboard.budgetPercent
  | category index => dashboard.spending[index]?.map (·.spent)

def amounts (snapshot : Snapshot) : Figure → Option (List Binary64)
  | total => some ((snapshot.expenses.filterMap Intake.entryOf).map (·.2.1))
  | usage =>
    if 0 < snapshot.profile.totalBudget then
      some ((snapshot.expenses.filterMap Intake.entryOf).map (·.2.1))
    else none
  | category index => snapshot.categories[index]?.map fun category =>
      ((snapshot.expenses.filterMap Intake.entryOf).filter fun entry =>
        entry.2.2 = category.name).map (·.2.1)

/-- At the place of a figure stands its number, if it is shown and finite. -/
theorem numberAt_keys (figure : Figure) (dashboard : Dashboard) (parts : Numeral) :
    NumberAt parts dashboard.toValue.datum figure.keys ↔
      ∃ x ∈ figure.shown dashboard, x.isFinite = true ∧ parts = (Number.real x).parts := by
  obtain ⟨members, whole, named⟩ := dashboard.members_named
  rw [whole]
  cases figure with
  | total =>
    rw [keys, numberAt_object]
    simp only [(named _).1, exists_eq_left, Totals.numberAt_spent, shown,
      Option.mem_some, exists_eq_left']
  | usage =>
    rw [keys, numberAt_object]
    simp only [(named _).2.1, exists_eq_left, numberAt_optional, numberAt_real, shown]
  | category index =>
    rw [keys, numberAt_object]
    simp only [(named _).2.2, exists_eq_left, numberAt_list, List.getElem?_map]
    cases held : dashboard.spending[index]? with
    | none => simp [shown, held]
    | some row => simp [shown, held, row.numberAt_spent parts]

structure MadeFrom (x : Binary64) (amounts : List Binary64) : Prop where
  nonneg : 0 ≤ x
  sign : x.isNegative = true ↔ ∀ y ∈ amounts, y = zero true

theorem sum_madeFrom (amounts : List Binary64) (sound : ∀ x ∈ amounts, IsAmount x) :
    MadeFrom (sum amounts) amounts := by
  have nonneg := (rank_sum amounts sound).1
  exact ⟨nonneg, (isNegative_nonneg _ nonneg).trans (sum_eq_zero amounts sound)⟩

theorem share_madeFrom (part whole : Binary64) (amounts : List Binary64)
    (made : MadeFrom part amounts) (finite : whole.isFinite = true) :
    Option.Rel MadeFrom (percentage part whole) (if 0 < whole then some amounts else none) := by
  split
  · next positive =>
    obtain ⟨percent, share⟩ := (share_given part whole finite).mpr positive
    have sign := isNegative_share part whole percent ((nonneg_iff part).mp made.nonneg).1 share
    rw [share]
    exact .some ⟨percentage_nonneg part whole percent made.nonneg share, sign ▸ made.sign⟩
  · next nothing =>
    have absent := mt (share_given part whole finite).mp nothing
    rw [← Option.ne_none_iff_exists', ne_eq, not_not] at absent
    rw [absent]
    exact .none

/-- Every figure is made from the accepted amounts that belong to it. -/
theorem shown_madeFrom (figure : Figure) (snapshot : Snapshot) (today : Date) (sifted : Sifted)
    (usable : ¬ Dashboard.Unusable snapshot.profile.totalBudget)
    (sound : ∀ expense ∈ sifted.accepted, IsAmount expense.amount)
    (entries : sifted.accepted.map Expense.entry = snapshot.expenses.filterMap Intake.entryOf) :
    Option.Rel MadeFrom (figure.shown (Dashboard.ofSifted snapshot today sifted))
      (figure.amounts snapshot) := by
  have amounts : (snapshot.expenses.filterMap Intake.entryOf).map (·.2.1) =
      sifted.accepted.map (·.amount) := by
    rw [← entries, List.map_map]
    rfl
  have total := sum_madeFrom _ (List.forall_mem_map.mpr sound)
  cases figure with
  | total =>
    rw [Figure.amounts, amounts]
    exact .some total
  | usage =>
    rw [Figure.amounts, amounts]
    exact share_madeFrom _ _ _ total (usable_amount _ usable).isFinite
  | category index =>
    have rows : (Dashboard.ofSifted snapshot today sifted).spending[index]? =
        snapshot.categories[index]?.map (Spending.ofCategory sifted.accepted) := List.getElem?_map
    rw [shown, Figure.amounts, rows]
    cases snapshot.categories[index]? with
    | none => exact .none
    | some category =>
      refine .some ?_
      change MadeFrom (sum _) (List.map _ (List.filter _ _))
      rw [← entries, ← filed_entries]
      exact sum_madeFrom _ (List.forall_mem_map.mpr fun expense filed =>
        sound expense (List.mem_filter.mp filed).1)

theorem MadeFrom.minus (x : Binary64) (amounts : List Binary64) (made : MadeFrom x amounts) :
    x.isFinite = true ∧ (Number.real x).parts.negative = true ↔ ∀ y ∈ amounts, y = zero true := by
  rw [← made.sign]
  constructor
  · rintro ⟨finite, minus⟩
    rwa [Number.parts_negative x finite] at minus
  · intro minus
    obtain rfl := (isNegative_nonneg x made.nonneg).mp minus
    exact ⟨rfl, minus⟩

theorem MadeFrom.minus_zero (x : Binary64) (amounts : List Binary64) (made : MadeFrom x amounts)
    (finite : x.isFinite = true) (minus : (Number.real x).parts.negative = true) :
    (Number.real x).parts = .zero true := by
  rw [Number.parts_negative x finite, isNegative_nonneg x made.nonneg] at minus
  rw [minus, Number.parts_zero]

theorem minus_shown (shown : Option Binary64) (told : Option (List Binary64))
    (made : Option.Rel MadeFrom shown told) :
    ((∃ x ∈ shown, x.isFinite = true ∧ (Number.real x).parts.negative = true) ↔
        ∃ amounts ∈ told, ∀ y ∈ amounts, y = zero true) ∧
      ∀ x ∈ shown, x.isFinite = true → (Number.real x).parts.negative = true →
        (Number.real x).parts = .zero true := by
  cases made with
  | none => simp
  | some made =>
    constructor
    · simpa using made.minus
    · rintro _ ⟨⟩
      exact made.minus_zero

end Figure

/-! ## The texts -/

theorem Json.mapError_eq_ok {ε ε' α : Type} {f : ε → ε'} {result : Except ε α} {value : α} :
    result.mapError f = .ok value ↔ result = .ok value := by
  cases result <;> simp [Except.mapError]

namespace Run

theorem dashboardText_ok (fresh : Intake.Supply) (settings : Settings) (today : Date)
    (text out : String) :
    dashboardText fresh settings today text = .ok out ↔
      ∃ snapshot dashboard, Snapshot.ofText text = .ok snapshot ∧
        Dashboard.build fresh settings.intakeMode today snapshot = .ok dashboard ∧
        out = if settings.pretty then dashboard.toValue.toPretty else
          dashboard.toValue.toCompact := by
  unfold dashboardText
  constructor
  · intro given
    obtain ⟨snapshot, read, given⟩ := bind_eq_ok.mp given
    obtain ⟨dashboard, built, given⟩ := bind_eq_ok.mp given
    cases given
    exact ⟨snapshot, dashboard, mapError_eq_ok.mp read, mapError_eq_ok.mp built, rfl⟩
  · rintro ⟨snapshot, dashboard, read, built, rfl⟩
    exact bind_eq_ok.mpr ⟨snapshot, mapError_eq_ok.mpr read,
      bind_eq_ok.mpr ⟨dashboard, mapError_eq_ok.mpr built, rfl⟩⟩

/-- What the minus signs in a text of a dashboard tell about its document: which figures are made
from nothing but `-0`, and these read `-0.0`. -/
structure Signed (snapshot : Snapshot) (datum : Datum) : Prop where
  minus : ∀ figure : Figure, (∃ parts, NumberAt parts datum figure.keys ∧ parts.negative = true) ↔
    ∃ amounts ∈ figure.amounts snapshot, ∀ x ∈ amounts, x = zero true
  zero : ∀ (figure : Figure) (parts : Numeral), NumberAt parts datum figure.keys →
    parts.negative = true → parts.chars = ['-', '0', '.', '0']

theorem signed (fresh : Intake.Supply) (mode : IntakeMode) (today : Date) (snapshot : Snapshot)
    (dashboard : Dashboard) (built : Dashboard.build fresh mode today snapshot = .ok dashboard) :
    Signed snapshot dashboard.toValue.datum := by
  obtain ⟨usable, rfl⟩ := Dashboard.build_ok fresh today snapshot mode dashboard built
  have told (figure : Figure) := Figure.minus_shown _ _
    (figure.shown_madeFrom snapshot today _ usable
      (Intake.lenient_amounts fresh 0 snapshot.expenses) (Intake.accepted_entries fresh 0 _))
  constructor
  · intro figure
    simp only [← (told figure).1, Figure.numberAt_keys]
    constructor
    · rintro ⟨_, ⟨x, there, finite, rfl⟩, minus⟩
      exact ⟨x, there, finite, minus⟩
    · rintro ⟨x, there, finite, minus⟩
      exact ⟨_, ⟨x, there, finite, rfl⟩, minus⟩
  · intro figure parts written minus
    obtain ⟨x, there, finite, rfl⟩ := (figure.numberAt_keys _ parts).mp written
    rw [(told figure).2 x there finite minus]
    rfl

/-- In every text of a dashboard, whatever the mode and the layout, what is spent in all, in a
category or of the budget carries a minus sign exactly where nothing but `-0` was spent, and so
where no expense was accepted. It reads `-0.0` there: nothing below zero is shown. -/
theorem spending_signs (fresh : Intake.Supply) (settings : Settings)
    (today : Date) (text out : String) (given : dashboardText fresh settings today text = .ok out) :
    ∃ snapshot datum, Snapshot.ofText text = .ok snapshot ∧ (∀ said, Says out said ↔ said = datum) ∧
      Signed snapshot datum := by
  obtain ⟨snapshot, dashboard, read, built, rfl⟩ := (dashboardText_ok _ _ _ _ _).mp given
  exact ⟨snapshot, _, read, (dashboard.stated settings.pretty).only _ _, signed _ _ _ _ _ built⟩

/-- A lunch counts in all three figures, and none of them carries a minus sign. -/
theorem spending_signs_lunch :
    let snapshot := Dashboard.bought ["12.5"]
    ∃ out datum,
      dashboardText (fun _ => Uuid.zero) .standard someDay snapshot.toValue.toCompact = .ok out ∧
      Says out datum ∧ ∀ figure ∈ [Figure.total, .usage, .category 0],
        figure.amounts snapshot = some [OfNat.ofNat 125 / 10] ∧
        ¬ ∃ parts, NumberAt parts datum figure.keys ∧ parts.negative = true := by
  intro snapshot
  have read := Dashboard.bought_given_back ["12.5"]
  have built := Dashboard.build_lenient (fun _ => Uuid.zero) someDay snapshot
    (not_or.mpr (by decide +kernel))
  have given := (dashboardText_ok _ .standard _ _ _).mpr ⟨_, _, read, built, rfl⟩
  obtain ⟨_, datum, again, stated, signs⟩ := spending_signs _ _ _ _ _ given
  cases read.symm.trans again
  have amounts : ∀ figure ∈ [Figure.total, .usage, .category 0],
      figure.amounts snapshot = some [OfNat.ofNat 125 / 10] := by decide +kernel
  refine ⟨_, datum, given, (stated datum).mpr rfl, fun figure listed => ⟨amounts figure listed, ?_⟩⟩
  rw [signs.minus, amounts figure listed]
  decide +kernel

def lunchOnly : Snapshot :=
  { Dashboard.bought ["12.5"] with categories := [.plain "Food" 15, .plain "Fun" 50] }

theorem lunchOnly_given_back : Snapshot.ofText lunchOnly.toValue.toCompact = .ok lunchOnly := by
  have brief : ∀ count ∈ [0, 1, 15, 50], (OfNat.ofNat count : Binary64).Brief := by decide +kernel
  simp only [List.forall_mem_cons] at brief
  obtain ⟨nothing, one, fifteen, fifty, _⟩ := brief
  refine (lunchOnly.given_back ⟨⟨nothing, one, nothing, nothing⟩, ?_, ?_⟩).1
  · exact List.forall_mem_cons.mpr ⟨fifteen, List.forall_mem_singleton.mpr fifty⟩
  · refine List.forall_mem_singleton.mpr ?_
    rintro _ ⟨⟩
    trivial

/-- No expense was filed under the second category, and it is shown to have cost `-0.0`. -/
theorem unused_category_negative :
    ∃ out datum,
      dashboardText (fun _ => Uuid.zero) .standard someDay lunchOnly.toValue.toCompact = .ok out ∧
      Says out datum ∧ (Figure.category 1).amounts lunchOnly = some [] ∧
      NumberAt (.zero true) datum (Figure.category 1).keys ∧
      (Numeral.zero true).negative = true := by
  have built := Dashboard.build_lenient (fun _ => Uuid.zero) someDay lunchOnly
    (not_or.mpr (by decide +kernel))
  refine ⟨_, _, (dashboardText_ok _ .standard _ _ _).mpr ⟨_, _, lunchOnly_given_back, built, rfl⟩,
    Dashboard.stated _ true, by decide +kernel, ?_, rfl⟩
  refine ((Figure.category 1).numberAt_keys _ _).mpr
    ⟨zero true, ?_, rfl, (Number.parts_zero true).symm⟩
  decide +kernel

end Run

end HabitLedger
