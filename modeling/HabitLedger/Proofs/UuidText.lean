import HabitLedger.Proofs.Digits
import HabitLedger.Text.Blank
import HabitLedger.Uuid
import Mathlib.Data.List.Induction

/-!
The texts of an identifier. Its 32 digits stand in one row or in groups, the groups alone, between
braces or after the name of the scheme, and every letter is of either case. These are all the texts
that are read as it, and the one that is written is among them.
-/

namespace HabitLedger

namespace Text

/-! ## Letters of either case -/

theorem lower_fixed (c d : Char) (small : d.toNat < 97 ∨ 122 < d.toNat) (lower : c.toLower = d) :
    c = d := by
  rcases lower_cases c with same | ⟨above, below, moved⟩
  · rw [← lower, same]
  · rw [lower] at moved
    omega

theorem lower_size (c : Char) : c.toLower.utf8Size = c.utf8Size := by
  rcases lower_cases c with same | ⟨above, below, moved⟩
  · rw [same]
  · have capital : c.val ≤ 127 := UInt32.le_iff_toNat_le.mpr (Nat.le_trans below (by decide))
    have lower : c.toLower.val ≤ 127 := by
      refine UInt32.le_iff_toNat_le.mpr ?_
      change c.toLower.toNat ≤ 127
      omega
    rw [Char.utf8Size_eq_one_iff.mpr capital, Char.utf8Size_eq_one_iff.mpr lower]

theorem lower_blank (c : Char) : isBlank c.toLower = isBlank c := by
  rcases lower_cases c with same | ⟨above, below, moved⟩
  · rw [same]
  · have letter (d : Char) (more : 65 ≤ d.toNat) (ascii : d.toNat < 128) : isBlank d = false := by
      simp [isBlank, blankRanges]
      omega
    rw [letter c (by omega) (by omega), letter c.toLower (by omega) (by omega)]

/-! ## Digits -/

def Clean (c : Char) : Prop := c.utf8Size = 1 ∧ isBlank c = false ∧ c.toLower = c

instance (c : Char) : Decidable (Clean c) := inferInstanceAs (Decidable (_ ∧ _ ∧ _))

theorem hexChar_of_mem (width n : Nat) (c : Char) (member : c ∈ hexFixed width n) :
    ∃ value < 16, c = hexChar value := by
  induction width generalizing n with
  | zero => cases member
  | succ width ih =>
    rcases List.mem_append.mp member with front | last
    · exact ih (n / 16) front
    · exact ⟨n % 16, Nat.mod_lt n (by decide), List.mem_singleton.mp last⟩

theorem hexChar_clean (value : Nat) (small : value < 16) :
    hexChar value ≠ '-' ∧ Clean (hexChar value) :=
  (by decide : ∀ v < 16, hexChar v ≠ '-' ∧ Clean (hexChar v)) value small

theorem hexValue?_spelled (c : Char) (value : Nat) :
    hexValue? c = some value ↔ value < 16 ∧ c.toLower = hexChar value := by
  by_cases small : c.toNat < 128
  · have reads : ∀ n < 128, (hexValue? (Char.ofNat n)).all fun value =>
        value < 16 ∧ (Char.ofNat n).toLower = hexChar value := by decide +kernel
    have spells : ∀ n < 128, ∀ value < 16, (Char.ofNat n).toLower = hexChar value →
        hexValue? (Char.ofNat n) = some value := by decide +kernel
    have reads := reads c.toNat small
    have spells := spells c.toNat small value
    rw [Char.ofNat_toNat] at reads spells
    constructor
    · intro read
      rw [read] at reads
      simpa using reads
    · rintro ⟨digit, lower⟩
      exact spells digit lower
  · have beyond (d : Char) (ascii : d.toNat < 128) : ¬ c ≤ d := fun order => by
      have order : c.toNat ≤ d.toNat := UInt32.le_iff_toNat_le.mp order
      omega
    have hidden : hexValue? c = none := by
      rw [hexValue?, if_neg fun part => beyond '9' (by decide) part.2,
        if_neg fun part => beyond 'f' (by decide) part.2,
        if_neg fun part => beyond 'F' (by decide) part.2]
    have kept : c.toLower = c := by
      rcases lower_cases c with same | ⟨_, below, _⟩
      · exact same
      · omega
    rw [hidden, kept]
    refine ⟨nofun, ?_⟩
    rintro ⟨digit, rfl⟩
    exact absurd ((by decide : ∀ value < 16, (hexChar value).toNat < 128) value digit) small

theorem hexNumeral?_spelled (row : List Char) (n : Nat) :
    hexNumeral? row = some n ↔
      n < 16 ^ row.length ∧ row.map Char.toLower = hexFixed row.length n := by
  induction row using List.reverseRecOn generalizing n with
  | nil => simp [hexNumeral?, hexFixed, eq_comm]
  | append_singleton row c ih =>
    rw [hexNumeral?_append_digit]
    simp only [List.map_append, List.map_singleton, List.length_append,
      List.length_singleton, hexFixed]
    simp only [Option.bind_eq_some_iff, Option.map_eq_some_iff, ih, hexValue?_spelled]
    constructor
    · rintro ⟨front, ⟨low, rowEq⟩, last, ⟨digit, lower⟩, rfl⟩
      have quotient : (16 * front + last) / 16 = front := by omega
      have rest : (16 * front + last) % 16 = last := by omega
      rw [quotient, rest, rowEq, lower, Nat.pow_succ]
      exact ⟨by omega, rfl⟩
    · rintro ⟨low, equal⟩
      obtain ⟨rowEq, lower⟩ := List.append_inj' equal rfl
      rw [Nat.pow_succ] at low
      exact ⟨n / 16, ⟨by omega, rowEq⟩, n % 16, ⟨by omega, List.singleton_inj.mp lower⟩, by omega⟩

end Text

namespace Uuid

/-! ## Groups -/

theorem regroup (row : List Char) :
    row.take 8 ++ ((row.drop 8).take 4 ++ ((row.drop 12).take 4 ++ ((row.drop 16).take 4 ++
      row.drop 20))) = row := by
  have join (start size : Nat) :
      (row.drop start).take size ++ row.drop (start + size) = row.drop start := by
    rw [← List.drop_drop, List.take_append_drop]
  rw [join 16 4, join 12 4, join 8 4, List.take_append_drop]

theorem filter_grouped (row : List Char) (plain : ∀ c ∈ row, c ≠ '-') :
    (grouped row).filter (· ≠ '-') = row := by
  have kept (part : List Char) (inside : part ⊆ row) : part.filter (· ≠ '-') = part := by
    simpa using fun c member => plain c (inside member)
  have taken (from_ count : Nat) : (row.drop from_).take count ⊆ row := fun c member =>
    List.drop_subset from_ row (List.take_subset count _ member)
  simp only [grouped, List.filter_append, List.append_assoc, List.cons_append, ne_eq,
    not_true_eq_false, decide_false, Bool.false_eq_true, if_false, List.filter_cons]
  have first := kept (row.take 8) (List.take_subset 8 row)
  have second := kept _ (taken 8 4)
  have third := kept _ (taken 12 4)
  have fourth := kept _ (taken 16 4)
  have last := kept _ (List.drop_subset 20 row)
  simp only [ne_eq] at first second third fourth last
  rw [first, second, third, fourth, last]
  exact regroup row

theorem byteLength_plain (row : List Char) (plain : ∀ c ∈ row, c.utf8Size = 1) :
    byteLength row = row.length := by
  induction row with
  | nil => rfl
  | cons c row ih =>
    have first := plain c List.mem_cons_self
    have rest := ih fun d member => plain d (List.mem_cons_of_mem c member)
    simp only [byteLength, List.foldr_cons, List.length_cons] at rest ⊢
    omega

theorem length_grouped (row : List Char) (width : row.length = 32) :
    (grouped row).length = 36 := by
  simp [grouped, width]

/-! ## Spellings -/

inductive Shape where
  | plain
  | hyphens
  | braces
  | urn

def shaped (id : Uuid) : Shape → List Char
  | .plain => Text.hexFixed 32 id.bits.toNat
  | .hyphens => id.chars
  | .braces => '\x7b' :: (id.chars ++ ['\x7d'])
  | .urn => urn ++ id.chars

def Spelled (id : Uuid) (s : List Char) : Prop := ∃ shape, s.map Char.toLower = id.shaped shape

/-- A row of digits is an identifier exactly if in small letters it is the plain shape of it. -/
theorem ofDigits?_iff (row : List Char) (id : Uuid) :
    ofDigits? row = some id ↔ row.map Char.toLower = id.shaped .plain := by
  obtain ⟨bits⟩ := id
  have bound : (16 : Nat) ^ 32 = 2 ^ 128 := by decide
  rw [ofDigits?]
  constructor
  · intro read
    split at read
    · next width =>
      obtain ⟨n, digits, same⟩ := Option.map_eq_some_iff.mp read
      obtain ⟨small, spelled⟩ := (Text.hexNumeral?_spelled row n).mp digits
      rw [width] at small spelled
      cases same
      rw [spelled, shaped, BitVec.toNat_ofNat, Nat.mod_eq_of_lt (bound ▸ small)]
    · cases read
  · intro spelled
    have width : row.length = 32 := by
      rw [← List.length_map Char.toLower, spelled]
      exact Text.length_hexFixed 32 _
    have digits : Text.hexNumeral? row = some bits.toNat := by
      refine (Text.hexNumeral?_spelled row _).mpr ?_
      rw [width, bound]
      exact ⟨bits.isLt, spelled⟩
    rw [if_pos width, digits, Option.map_some, BitVec.ofNat_toNat, BitVec.setWidth_eq]

theorem split_mark (mark : Char) (fixed : mark.toNat < 97 ∨ 122 < mark.toNat)
    (s front back : List Char) (spelled : s.map Char.toLower = front ++ mark :: back) :
    ∃ before after, s = before ++ mark :: after ∧ before.map Char.toLower = front ∧
      after.map Char.toLower = back := by
  obtain ⟨before, rest, rfl, first, second⟩ := List.map_eq_append_iff.mp spelled
  obtain ⟨c, after, rfl, same, last⟩ := List.map_eq_cons_iff.mp second
  rw [Text.lower_fixed c mark fixed same]
  exact ⟨before, after, rfl, first, last⟩

theorem grouped_parts (a b c d e : List Char) (first : a.length = 8) (second : b.length = 4)
    (third : c.length = 4) (fourth : d.length = 4) :
    grouped (a ++ (b ++ (c ++ (d ++ e)))) =
      a ++ '-' :: (b ++ '-' :: (c ++ '-' :: (d ++ '-' :: e))) := by
  simp (disch := omega) [grouped, List.drop_append, List.drop_of_length_le, first, second, third]

theorem grouped_of_map (s digits : List Char) (width : digits.length = 32)
    (spelled : s.map Char.toLower = grouped digits) :
    ∃ row, s = grouped row ∧ row.map Char.toLower = digits := by
  have hyphen : '-'.toNat < 97 ∨ 122 < '-'.toNat := by decide
  simp only [grouped, List.append_assoc, List.cons_append] at spelled
  obtain ⟨a, s, rfl, first, spelled⟩ := split_mark '-' hyphen _ _ _ spelled
  obtain ⟨b, s, rfl, second, spelled⟩ := split_mark '-' hyphen _ _ _ spelled
  obtain ⟨c, s, rfl, third, spelled⟩ := split_mark '-' hyphen _ _ _ spelled
  obtain ⟨d, e, rfl, fourth, last⟩ := split_mark '-' hyphen _ _ _ spelled
  have size (part from_ : List Char) (same : part.map Char.toLower = from_) :
      part.length = from_.length := by
    rw [← same, List.length_map]
  have whole := regroup digits
  rw [← first, ← second, ← third, ← fourth, ← last] at whole
  refine ⟨a ++ (b ++ (c ++ (d ++ e))), (grouped_parts a b c d e ?_ ?_ ?_ ?_).symm, ?_⟩
  · simp [size a _ first, width]
  · simp [size b _ second, width]
  · simp [size c _ third, width]
  · simp [size d _ fourth, width]
  · simpa only [List.map_append] using whole

theorem grouped_map (row : List Char) :
    (grouped row).map Char.toLower = grouped (row.map Char.toLower) := by
  simp [grouped, List.map_take, List.map_drop]

section Row
variable (id : Uuid)

theorem digits_width : (id.shaped .plain).length = 32 := Text.length_hexFixed 32 _

theorem digits_clean (c : Char) (member : c ∈ id.shaped .plain) : c ≠ '-' ∧ Text.Clean c := by
  obtain ⟨value, small, rfl⟩ := Text.hexChar_of_mem 32 _ c member
  exact Text.hexChar_clean value small

/-- A row in groups is an identifier exactly if in small letters it is the shape of it with
hyphens. -/
theorem ofGroups?_iff (s : List Char) :
    ofGroups? s = some id ↔ s.map Char.toLower = id.shaped .hyphens := by
  change _ ↔ _ = grouped (id.shaped .plain)
  rw [ofGroups?]
  constructor
  · intro read
    split at read
    · next shape =>
      rw [shape, grouped_map, (ofDigits?_iff _ id).mp read]
    · cases read
  · intro spelled
    obtain ⟨row, rfl, digits⟩ := grouped_of_map s _ id.digits_width spelled
    have plain : ∀ c ∈ row, c ≠ '-' := by
      rintro c member rfl
      have lower := List.mem_map_of_mem (f := Char.toLower) member
      rw [digits] at lower
      exact (id.digits_clean _ lower).1 rfl
    simp only [filter_grouped row plain, if_true]
    exact (ofDigits?_iff row id).mpr digits

end Row

/-! ## Around the groups -/

theorem braced?_iff (s body : List Char) :
    braced? s = some body ↔ s = '\x7b' :: (body ++ ['\x7d']) := by
  constructor
  · intro found
    unfold braced? at found
    split at found
    · next rest =>
      split at found
      · next last =>
        obtain ⟨inside, rfl⟩ := List.getLast?_eq_some_iff.mp last
        rw [List.dropLast_concat] at found
        cases found
        rfl
      · cases found
    · cases found
  · rintro rfl
    simp [braced?]

theorem afterUrn?_iff (s body : List Char) :
    afterUrn? s = some body ↔ ∃ front, s = front ++ body ∧ front.map Char.toLower = urn := by
  unfold afterUrn?
  constructor
  · intro found
    split at found
    · next name =>
      cases found
      exact ⟨s.take urn.length, (List.take_append_drop _ s).symm, name⟩
    · cases found
  · rintro ⟨front, rfl, name⟩
    have size : front.length = urn.length := by
      rw [← name, List.length_map]
    rw [List.take_left' size, List.drop_left' size, if_pos name]

theorem byteLength_lower (s : List Char) : byteLength (s.map Char.toLower) = byteLength s := by
  induction s with
  | nil => rfl
  | cons c s ih =>
    simp only [byteLength, List.map_cons, List.foldr_cons, Text.lower_size] at ih ⊢
    rw [ih]

def Shape.size : Shape → Nat
  | .plain => 32
  | .hyphens => 36
  | .braces => 38
  | .urn => 45

section Shapes
variable (id : Uuid) (shape : Shape)

theorem shaped_length : (id.shaped shape).length = shape.size := by
  have digits := id.digits_width
  have groups : id.chars.length = 36 := length_grouped _ digits
  cases shape with
  | plain => exact digits
  | hyphens => exact groups
  | braces => simp [shaped, groups, Shape.size]
  | urn => simp [shaped, groups, Shape.size, urn]

theorem groups_clean (c : Char) (member : c ∈ id.chars) : Text.Clean c := by
  by_cases hyphen : c = '-'
  · rw [hyphen]
    decide
  · have row := filter_grouped _ fun c member => (id.digits_clean c member).1
    have digit : c ∈ id.chars.filter (· ≠ '-') :=
      List.mem_filter.mpr ⟨member, decide_eq_true hyphen⟩
    exact (id.digits_clean c (row ▸ digit)).2

theorem shaped_clean (c : Char) (member : c ∈ id.shaped shape) : Text.Clean c := by
  cases shape with
  | plain => exact (id.digits_clean c member).2
  | hyphens => exact id.groups_clean c member
  | braces =>
    rcases List.mem_cons.mp member with rfl | inside
    · decide
    rcases List.mem_append.mp inside with digit | last
    · exact id.groups_clean c digit
    · rw [List.mem_singleton.mp last]
      decide
  | urn =>
    rcases List.mem_append.mp member with name | digit
    · have known : Uuid.urn.all (fun c => Text.Clean c) = true := by decide
      exact of_decide_eq_true (List.all_eq_true.mp known c name)
    · exact id.groups_clean c digit

theorem spelled_shaped : id.Spelled (id.shaped shape) := by
  have lower : ∀ c ∈ id.shaped shape, c.toLower = c := fun c member =>
    (id.shaped_clean shape c member).2.2
  exact ⟨shape, (List.map_congr_left lower).trans (List.map_id _)⟩

variable (s : List Char) (spelled : s.map Char.toLower = id.shaped shape)
include spelled

theorem spelled_length : s.length = shape.size := by
  rw [← id.shaped_length shape, ← spelled, List.length_map]

theorem spelled_bytes : byteLength s = shape.size := by
  rw [← byteLength_lower, spelled, ← id.shaped_length shape]
  exact byteLength_plain _ fun c member => (id.shaped_clean shape c member).1

theorem spelled_dark (c : Char) (member : c ∈ s) : Text.isBlank c = false := by
  have lower := List.mem_map_of_mem (f := Char.toLower) member
  rw [spelled] at lower
  rw [← Text.lower_blank]
  exact (id.shaped_clean shape _ lower).2.1

theorem groups_of_spelled (apart : shape ≠ .plain) : (groups? s).bind ofGroups? = some id := by
  have bytes := id.spelled_bytes shape s spelled
  cases shape with
  | plain => exact absurd rfl apart
  | hyphens =>
    rw [Shape.size] at bytes
    rw [groups?, if_pos bytes]
    exact (id.ofGroups?_iff s).mpr spelled
  | braces =>
    rw [Shape.size] at bytes
    obtain ⟨c, rest, rfl, opening, inside⟩ := List.map_eq_cons_iff.mp spelled
    obtain rfl := Text.lower_fixed c '\x7b' (by decide) opening
    obtain ⟨body, after, rfl, digits, last⟩ := split_mark '\x7d' (by decide) _ _ _ inside
    obtain rfl := List.map_eq_nil_iff.mp last
    have found := (braced?_iff _ body).mpr rfl
    rw [groups?, if_neg (by rw [bytes]; decide), if_pos bytes, found]
    exact (id.ofGroups?_iff body).mpr digits
  | urn =>
    rw [Shape.size] at bytes
    obtain ⟨front, body, rfl, name, digits⟩ := List.map_eq_append_iff.mp spelled
    have found := (afterUrn?_iff _ body).mpr ⟨front, rfl, name⟩
    rw [groups?, if_neg (by rw [bytes]; decide), if_neg (by rw [bytes]; decide),
      if_pos bytes, found]
    exact (id.ofGroups?_iff body).mpr digits

end Shapes

theorem spelled_of_groups (id : Uuid) (s : List Char)
    (found : (groups? s).bind ofGroups? = some id) : id.Spelled s := by
  obtain ⟨body, place, groups⟩ := Option.bind_eq_some_iff.mp found
  have digits := (id.ofGroups?_iff body).mp groups
  unfold groups? at place
  split at place
  · cases place
    exact ⟨.hyphens, digits⟩
  split at place
  · obtain rfl := (braced?_iff s body).mp place
    refine ⟨.braces, ?_⟩
    rw [List.map_cons, List.map_append, digits]
    rfl
  split at place
  · obtain ⟨front, rfl, name⟩ := (afterUrn?_iff s body).mp place
    refine ⟨.urn, ?_⟩
    rw [List.map_append, name, digits]
    rfl
  · cases place

/-- A text is read as an identifier if and only if it is one of its spellings. -/
theorem read_iff (id : Uuid) (s : List Char) : read s = .ok id ↔ id.Spelled s := by
  have taken : read s = .ok id ↔ (ofDigits? s).or ((groups? s).bind ofGroups?) = some id := by
    unfold read
    cases (ofDigits? s).or ((groups? s).bind ofGroups?) <;> simp
  rw [taken, Option.or_eq_some_iff]
  constructor
  · rintro (digits | ⟨_, groups⟩)
    · exact ⟨.plain, (ofDigits?_iff s id).mp digits⟩
    · exact spelled_of_groups id s groups
  · rintro ⟨shape, spelled⟩
    by_cases plain : shape = .plain
    · exact .inl ((ofDigits?_iff s id).mpr (plain ▸ spelled))
    · have width := id.spelled_length shape s spelled
      refine .inr ⟨if_neg ?_, id.groups_of_spelled shape s spelled plain⟩
      rw [width]
      cases shape with
      | plain => exact absurd rfl plain
      | hyphens | braces | urn => decide

theorem read_chars (id : Uuid) : read id.chars = .ok id :=
  (read_iff id id.chars).mpr (id.spelled_shaped .hyphens)

end Uuid

end HabitLedger
