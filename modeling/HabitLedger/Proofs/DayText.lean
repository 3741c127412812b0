import HabitLedger.Calendar.DateText
import HabitLedger.Proofs.Digits

/-!
The text of a day read back. It holds whatever width the year takes: a year of up to four digits is
padded to four and has no sign, any other carries one and is read to its last digit.
-/

namespace HabitLedger

namespace Text

theorem digit_not_blank (c : Char) (digit : c.isDigit = true) : isBlank c = false := by
  have bounds := digit_bounds c digit
  simp [isBlank, blankRanges]
  omega

theorem trimStart_dark (c : Char) (s : List Char) (dark : isBlank c = false) :
    trimStart (c :: s) = c :: s :=
  List.dropWhile_cons_of_neg (by simp [dark])

end Text

namespace DateText

theorem row_of_take (most : Nat) (row rest : List Char) (digits : ∀ c ∈ row, c.isDigit = true)
    (short : row.length ≤ most)
    (ends : row.length = most ∨ ∀ c ∈ rest.head?, c.isDigit = false) :
    ((row ++ rest).take most).takeWhile Char.isDigit = row := by
  have after : (rest.take (most - row.length)).takeWhile Char.isDigit = [] := by
    rcases ends with full | stops
    · simp [full]
    · cases rest with
      | nil => simp
      | cons c rest =>
        cases most - row.length with
        | zero => rfl
        | succ _ => simp [stops c rfl]
  rw [List.take_append, List.take_of_length_le short, List.takeWhile_append_of_pos digits, after,
    List.append_nil]

theorem number_row (least most : Nat) (row rest : List Char)
    (digits : ∀ c ∈ row, c.isDigit = true) (enough : least ≤ row.length)
    (short : row.length ≤ most)
    (ends : row.length = most ∨ ∀ c ∈ rest.head?, c.isDigit = false)
    (fits : Text.numeral row < 0x8000000000000000) :
    number least most (row ++ rest) = .ok (Text.numeral row, rest) := by
  have taken := row_of_take most row rest digits short ends
  have long : ¬ (row ++ rest).length < least := by
    rw [List.length_append]
    omega
  simp only [number, taken, long, Nat.not_lt.mpr enough, fits, if_true, if_false, List.drop_left]

/-- Month and day: two digits, whatever follows them. -/
theorem part_padded (least most n : Nat) (rest : List Char) (bounds : least ≤ n ∧ n ≤ most)
    (small : n < 100) : part least most (Text.padded 2 n ++ rest) = .ok (n, rest) := by
  have width := Text.length_padded 2 n (Text.digitCount_le 2 n (by decide) small)
  have value := Text.numeral_padded 2 n
  have digits := Text.isDigit_padded 2 n
  have dark : Text.trimStart (Text.padded 2 n ++ rest) = Text.padded 2 n ++ rest := by
    obtain ⟨c, row, front, digit⟩ := Text.padded_front 2 n
    rw [front]
    exact Text.trimStart_dark c _ (Text.digit_not_blank c digit)
  have read := number_row 1 2 _ rest digits (by omega) (by omega) (Or.inl width) (by omega)
  simp only [part, dark, read, value, bind, Except.bind, bounds, and_self, if_true]

theorem digits_of_signed (year : Nat) (rest : List Char) (small : year ≤ 0x80000000) :
    number 1 (Text.padded 4 year ++ '-' :: rest).length (Text.padded 4 year ++ '-' :: rest) =
      .ok (year, '-' :: rest) := by
  have value := Text.numeral_padded 4 year
  obtain ⟨c, row, front, _⟩ := Text.padded_front 4 year
  have read := number_row 1 (Text.padded 4 year ++ '-' :: rest).length _ ('-' :: rest)
    (Text.isDigit_padded 4 year) (by simp [front]) (by simp)
    (Or.inr fun c next => by cases next; rfl) (by omega)
  rw [read, value]

theorem signedYear_text (year : Int) (rest : List Char)
    (small : -0x80000000 ≤ year ∧ year < 0x80000000) :
    signedYear (Date.yearText year ++ '-' :: rest) = .ok (year, '-' :: rest) := by
  unfold Date.yearText
  split
  · next plain =>
    have width := Text.length_padded 4 year.toNat
      (Text.digitCount_le 4 year.toNat (by decide) (by omega))
    have value := Text.numeral_padded 4 year.toNat
    have read := number_row 1 4 _ ('-' :: rest) (Text.isDigit_padded 4 year.toNat) (by omega)
      (by omega) (Or.inl width) (by omega)
    obtain ⟨c, row, front, digit⟩ := Text.padded_front 4 year.toNat
    unfold signedYear
    split
    · next equal =>
      rw [front] at equal
      cases equal
      exact absurd digit (by decide)
    · next equal =>
      rw [front] at equal
      cases equal
      exact absurd digit (by decide)
    · simp only [read, value, bind, Except.bind]
      rw [Int.toNat_of_nonneg plain.1]
  · have read := digits_of_signed year.natAbs rest (by omega)
    split
    · next negative =>
      simp only [List.cons_append, signedYear, read, bind, Except.bind]
      congr 2
      omega
    · next positive =>
      simp only [List.cons_append, signedYear, read, bind, Except.bind]
      congr 2
      omega

theorem year_text (y : Int) (rest : List Char) (small : -0x80000000 ≤ y ∧ y < 0x80000000) :
    year (Date.yearText y ++ '-' :: rest) = .ok (y, '-' :: rest) := by
  have dark : Text.trimStart (Date.yearText y ++ '-' :: rest) = Date.yearText y ++ '-' :: rest := by
    unfold Date.yearText
    split
    · obtain ⟨c, row, front, digit⟩ := Text.padded_front 4 y.toNat
      rw [front]
      exact Text.trimStart_dark c _ (Text.digit_not_blank c digit)
    · split <;> exact Text.trimStart_dark _ _ (by decide)
  simp only [year, dark, signedYear_text y rest small, bind, Except.bind, small, and_self, if_true]

theorem mark_hyphen (rest : List Char) : mark '-' (Text.trimStart ('-' :: rest)) = .ok rest := by
  rw [Text.trimStart_dark '-' rest (by decide)]
  rfl

theorem monthLength_le (year : Int) (month : Nat) : Calendar.monthLength year month ≤ 31 := by
  unfold Calendar.monthLength
  split
  · split <;> decide
  · split <;> decide

theorem strict_chars (date : Date) : strict date.chars = .ok date := by
  obtain ⟨year, month, day, sound⟩ := date
  have found : Date.ofParts? year month day = some ⟨year, month, day, sound⟩ := dif_pos sound
  obtain ⟨⟨first, last⟩, months, days⟩ := sound
  have short := Nat.le_trans days.2 (monthLength_le year month)
  simp only [Calendar.firstYear, Calendar.lastYear] at first last
  have yearRead := fun rest => year_text year rest (by omega)
  have monthRead := fun rest => part_padded 1 12 month rest months (by omega)
  have dayRead := part_padded 1 31 day [] ⟨days.1, short⟩ (by omega)
  rw [List.append_nil] at dayRead
  simp only [strict, Date.chars, parts, List.append_assoc, List.cons_append, yearRead, mark_hyphen,
    monthRead, dayRead, bind, Except.bind]
  simp [finish, Text.trimStart, found]

end DateText

end HabitLedger
