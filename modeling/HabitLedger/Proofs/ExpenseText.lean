import HabitLedger.Expense
import HabitLedger.Proofs.Documents
import HabitLedger.Proofs.FewDigits
import HabitLedger.Proofs.Reread

/-!
Expenses read back from their texts. Everything but the amount is given back exactly, the amount as
a double beside it; an amount of few digits is given back exactly as well.
-/

namespace HabitLedger

namespace Binary64

/-- Of the same sign and at most the `2 ^ -50`th part or one unit away. -/
def Beside : Binary64 → Binary64 → Prop
  | .finite negative read, .finite negative' written =>
    negative = negative' ∧ Json.Near read.units written.units
  | _, _ => False

end Binary64

namespace Json

open Binary64

namespace Numeral

def zero (negative : Bool) : Numeral := ⟨negative, ['0'], some ['0'], none⟩

theorem zero_sound (negative : Bool) : (zero negative).Sound where
  whole := isRow_zero
  zero_alone _ := rfl
  fraction part member := by
    cases member
    exact isRow_zero
  exponent _ part := nomatch part

theorem zero_number (negative : Bool) :
    (zero negative).number = .ok (.real (Binary64.zero negative)) := by
  have small : wholeUnits 0 < limit := by decide +kernel
  have nothing : rescaled 0 (-1) = 0 := by decide +kernel
  obtain ⟨x, read, ⟨units, sound⟩, rfl, value⟩ := scale_down 0 small 1 (by decide) (by decide)
  have none : units = 0 := value.trans nothing
  subst none
  have number := number_pointed negative ['0'] ['0'] (by decide)
  change (zero negative).number = realNumber negative 0 (-1) at number
  have scaled : scale (Binary64.ofInt (0 : Nat)) (-1) = .ok (.finite false ⟨0, sound⟩) := read
  rw [number, realNumber, scaled]
  cases negative <;> rfl

theorem ofDecimal_text (negative : Bool) (m : Magnitude) (some : m.units ≠ 0) :
    (ofDecimal negative (Decimal.shortest .even m.units)).chars =
      (Binary64.finite negative m).chars .json := by
  rw [ofDecimal_chars]
  simp only [Binary64.chars, some, if_false, magnitudeText, leading]
  rfl

/-- The text of a finite double is a numeral, which stands for a double beside it. -/
theorem of_finite (x : Binary64) (finite : x.isFinite = true) :
    ∃ (n : Numeral) (y : Binary64), n.Sound ∧ n.chars = x.chars .json ∧ n.number = .ok (.real y) ∧
      Beside y x ∧ (Brief x → y = x) := by
  rcases x with _ | _ | ⟨negative, m⟩
  · cases finite
  · cases finite
  by_cases nothing : m.units = 0
  · obtain ⟨units, sound⟩ := m
    subst nothing
    refine ⟨zero negative, _, zero_sound negative, ?_, zero_number negative,
      ⟨rfl, ?_⟩, fun _ => rfl⟩
    · cases negative <;> rfl
    · simp [Near]
  · obtain ⟨read, number, beside, exact⟩ := reread negative m (Nat.pos_of_ne_zero nothing)
    have digits := Decimal.digits_of_readsAs m.units _ (Nat.pos_of_ne_zero nothing)
      (Decimal.shortest_reads .even m.units (Nat.pos_of_ne_zero nothing) m.sound.2)
    refine ⟨_, _, ofDecimal_sound negative _ digits, ofDecimal_text negative m nothing, number,
      ⟨rfl, beside⟩, fun brief => ?_⟩
    rcases brief with zero | short
    · exact absurd zero nothing
    · rw [exact short]

end Numeral

namespace Reader

theorem restores_real (n : Numeral) (x y : Binary64) (sound : n.Sound)
    (text : n.chars = x.chars .json) (finite : x.isFinite = true)
    (means : n.number = .ok (.real y)) : real.Restores (Value.real x) y := by
  rw [Value.real, if_pos finite]
  exact restores_check _ _ _ _ y (restores_number "f64" n (.real x) (.real y) sound text means) rfl

theorem restores_finite (x : Binary64) (finite : x.isFinite = true) :
    ∃ y, real.Restores (Value.real x) y ∧ Beside y x ∧ (Brief x → y = x) := by
  obtain ⟨n, y, sound, text, number, near⟩ := Numeral.of_finite x finite
  exact ⟨y, restores_real n x y sound text finite number, near⟩

theorem restores_brief (x : Binary64) (brief : x.Brief) : real.Restores (Value.real x) x := by
  obtain ⟨y, restores, _, exact⟩ := restores_finite x brief.finite
  exact exact brief ▸ restores

end Reader

end Json

namespace Expense

open Json Binary64

theorem restores (expense : Expense) (amount : Binary64) (room : Nat)
    (read : Reader.real.Restores (Value.real expense.amount) amount) :
    (record.reader (room + 1)).Restores expense.toValue { expense with amount } := by
  obtain ⟨id, day, written, category, color, notes⟩ := expense
  have text (t : String) : Reader.text.optional.Restores (.text t) (some t) :=
    Reader.restores_some _ _ _ nofun (Reader.restores_text _ t)
  refine record.restores room (id, day, amount, category, color, notes, ()) _ (by decide) ?_
  refine .kept (Reader.restores_uuid id) (.kept (Reader.restores_date day) (.kept read
    (.kept (Reader.restores_text _ category) ?_)))
  cases color with
  | none =>
    cases notes with
    | none => exact .left rfl (.left rfl .done)
    | some notes => exact .left rfl (.kept (text notes) .done)
  | some color =>
    cases notes with
    | none => exact .kept (text color) (.left rfl .done)
    | some notes => exact .kept (text color) (.kept (text notes) .done)

/-- An expense with a finite amount is given back by both of its texts, but for the last places of
the amount; an amount of few digits is given back exactly. -/
theorem reads_back (expense : Expense) (finite : expense.amount.isFinite = true) :
    ∃ amount, decode record.reader expense.toValue.toCompact = .ok { expense with amount } ∧
      decode record.reader expense.toValue.toPretty = .ok { expense with amount } ∧
      amount.Beside expense.amount ∧ (expense.amount.Brief → amount = expense.amount) := by
  obtain ⟨amount, read, beside, exact⟩ := Reader.restores_finite expense.amount finite
  have restored := expense.restores amount 126 read
  obtain ⟨compact, pretty⟩ := decode_both record.reader _ _ restored
  exact ⟨amount, compact, pretty, beside, exact⟩

/-- An expense whose amount was entered with few digits is given back as it is. -/
theorem entered_kept (expense : Expense) (negative : Bool) (digits places : Nat)
    (few : digits ≤ 900719925474099) (short : places ≤ 21)
    (entered : expense.amount = Decimal.toBinary64 negative ⟨digits, -places⟩) :
    decode record.reader expense.toValue.toCompact = .ok expense ∧
      decode record.reader expense.toValue.toPretty = .ok expense := by
  have brief : expense.amount.Brief := entered ▸ brief_entered negative digits places few short
  obtain ⟨amount, read, _, exact⟩ := Reader.restores_finite expense.amount brief.finite
  have restored := expense.restores amount 126 read
  rw [exact brief] at restored
  exact decode_both record.reader _ _ restored

section Hundredths

def hundredths (count : Nat) : Binary64 := Decimal.toBinary64 false ⟨count, -2⟩

def costing (amount : Binary64) : Expense :=
  plain Uuid.zero ⟨2025, 3, 14, by decide⟩ amount "Food"

/-- An amount of four digits is exact. -/
theorem reads_back_twelve_and_a_half :
    (costing (hundredths 1250)).amount.isFinite = true ∧
      decode record.reader (costing (hundredths 1250)).toValue.toCompact =
        .ok (costing (hundredths 1250)) := by
  have finite : (costing (hundredths 1250)).amount.isFinite = true := by decide +kernel
  obtain ⟨amount, compact, _, _, exact⟩ := reads_back (costing (hundredths 1250)) finite
  have brief : (costing (hundredths 1250)).amount.Brief := by decide +kernel
  rw [exact brief] at compact
  exact ⟨finite, compact⟩

/-- The sum is written with seventeen digits, more than a double holds; their nearest double lies on
the side of the shorter number. -/
theorem cents_lost :
    let expense := costing (hundredths 1 + hundredths 20)
    expense.amount.isFinite = true ∧ expense.amount ≠ hundredths 21 ∧
      decode record.reader expense.toValue.toCompact =
        .ok { expense with amount := hundredths 21 } := by
  intro expense
  have finite : expense.amount.isFinite = true := by decide +kernel
  refine ⟨finite, by decide +kernel, ?_⟩
  have text : (Numeral.ofDecimal false ⟨21000000000000002, -17⟩).chars =
      expense.amount.chars .json := by
    decide +kernel
  have quotient : Binary64.ofInt 21000000000000002 / powerOfTen 17 = hundredths 21 := by
    decide +kernel
  have number : (Numeral.ofDecimal false ⟨21000000000000002, -17⟩).number =
      .ok (.real (hundredths 21)) := by
    rw [Numeral.ofDecimal_number false _ (by decide) (by decide +kernel)]
    change realNumber false 21000000000000002 (-17) = _
    rw [realNumber, scale, if_neg (by decide), if_pos (by decide)]
    exact congrArg (fun x => Except.ok (Number.real x)) quotient
  have read := Reader.restores_real _ expense.amount (hundredths 21)
    (Numeral.ofDecimal_sound false _ (by decide)) text finite number
  exact (decode_both record.reader _ _ (expense.restores _ 126 read)).1

end Hundredths

end Expense

end HabitLedger
