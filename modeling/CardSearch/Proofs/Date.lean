import CardSearch.Date
import CardSearch.Proofs.Number.Digits
import CardSearch.Text.Remainder

/-
  Dates are read back from their text.

  1. **Padding (`digitsValue_padded`)** — zeros at the front change no value, and a number that has
     no more digits than the width takes up just the width.
  2. **The crux (`takeDigits?_append`)** — a run of digits that is no longer than allowed is taken
     as a whole if no digit follows it.
  3. **Years (`takeYear?_yearText`)** — a year has a sign exactly if it may have more than four digits.
  4. **The result (`read?_text`)** — so year, month and day are taken as they were written.
-/

namespace CardSearch.Date

/-! ## Padded numbers -/

/-- A padded number is made of digits, those at its front being zeros. -/
theorem isDigit_of_mem_padded {width n : Nat} {c : Char} (h : c ∈ padded width n) :
    isDigit c = true := by
  rcases List.mem_append.mp h with hzero | hdigit
  · obtain rfl := List.eq_of_mem_replicate hzero
    decide
  · exact isDigit_of_mem_digits hdigit

theorem padded_ne_nil (width n : Nat) : padded width n ≠ [] :=
  List.append_ne_nil_of_right_ne_nil _ (digits_ne_nil n)

theorem exists_padded_eq_cons (width n : Nat) :
    ∃ c rest, padded width n = c :: rest ∧ isDigit c = true := by
  obtain ⟨c, rest, hpadded⟩ := List.exists_cons_of_ne_nil (padded_ne_nil width n)
  exact ⟨c, rest, hpadded, isDigit_of_mem_padded (hpadded ▸ List.mem_cons_self)⟩

/-- Zeros at the front change no value.  By induction on their number. -/
theorem digitsValue_padded (width n : Nat) : digitsValue (padded width n) = n := by
  have hzeros : ∀ k : Nat,
      (List.replicate k '0').foldl (fun n c => n * 10 + digitValue c) 0 = 0 := by
    intro k
    induction k with
    | zero => rfl
    | succ k ih => exact ih
  rw [digitsValue, padded, List.foldl_append, hzeros]
  exact digitsValue_digits n

/-- A number that has no more digits than the width takes up just the width. -/
theorem length_padded_le {width n : Nat} (hwidth : 0 < width) (h : n < Nat.pow 10 width) :
    (padded width n).length ≤ width := by
  have hdigits : (digits n).length ≤ width := (Nat.length_toDigits_le_iff (by decide) hwidth).mpr h
  rw [padded, List.length_append, List.length_replicate]
  omega

/-! ## Runs of digits -/

/-- A text with which a run of digits does not go on. -/
def EndsRun (rest : List Char) : Prop := ∀ c ∈ rest.head?, isDigit c = false

/-- **The crux**: a run of digits is taken whole, if it is no longer than allowed and no digit
    follows it.  What is taken is the longest run up to the bound, and both bounds of the run meet
    here. -/
theorem takeDigits?_append {most : Option Nat} {run rest : List Char} (hne : run ≠ [])
    (hrun : ∀ c ∈ run, isDigit c = true) (hmost : ∀ n ∈ most, run.length ≤ n)
    (hrest : EndsRun rest) : takeDigits? most (run ++ rest) = some (digitsValue run, rest) := by
  have hwhole : (run ++ rest).takeWhile isDigit = run := (Text.run_append_of_forall hrun hrest).1
  have hempty : run.isEmpty = false := by simpa using hne
  unfold takeDigits?
  rw [hwhole]
  cases most with
  | none =>
    dsimp only
    rw [hempty, if_neg Bool.false_ne_true, List.drop_left]
  | some n =>
    dsimp only
    rw [List.take_of_length_le (hmost n rfl), hempty, if_neg Bool.false_ne_true, List.drop_left]

theorem takeDigits?_padded {most : Option Nat} {width n : Nat} {rest : List Char}
    (hmost : ∀ m ∈ most, (padded width n).length ≤ m) (hrest : EndsRun rest) :
    takeDigits? most (padded width n ++ rest) = some (n, rest) := by
  rw [takeDigits?_append (padded_ne_nil width n) (fun _ hc => isDigit_of_mem_padded hc) hmost hrest,
    digitsValue_padded]

/-! ## Parts of a date -/

/-- How the year of a date is written. -/
def yearText (year : Int) : List Char :=
  if year < 0 then '-' :: padded 4 year.natAbs
  else if year > 9999 then '+' :: padded 4 year.natAbs
  else padded 4 year.natAbs

/-- After a sign a year may have any number of digits; a minus sign makes it negative. -/
theorem takeYear?_minus (text : List Char) :
    takeYear? ('-' :: text) = (takeDigits? none text).map fun run => (-(run.1 : Int), run.2) := rfl

theorem takeYear?_plus (text : List Char) :
    takeYear? ('+' :: text) = (takeDigits? none text).map fun run => ((run.1 : Int), run.2) := rfl

/-- Without one it has at most four. -/
theorem takeYear?_of_isDigit {c : Char} (hc : isDigit c = true) (text : List Char) :
    takeYear? (c :: text) =
      (takeDigits? (some 4) (c :: text)).map fun run => ((run.1 : Int), run.2) := by
  have htrim : Text.trimStart (c :: text) = c :: text :=
    List.dropWhile_cons_of_neg (by simp [not_isBlank_of_isDigit hc])
  rw [takeYear?, htrim]
  split
  · rename_i hsign
    obtain ⟨rfl, _⟩ := List.cons.inj hsign
    exact absurd hc (by decide)
  · rename_i hsign
    obtain ⟨rfl, _⟩ := List.cons.inj hsign
    exact absurd hc (by decide)
  · rfl

/-- A year is read back.  By cases on its sign: a year of more than four digits is written with
    one, so the bound never cuts it. -/
theorem takeYear?_yearText (year : Int) {rest : List Char} (hrest : EndsRun rest) :
    takeYear? (yearText year ++ rest) = some (year, rest) := by
  have hsigned : takeDigits? none (padded 4 year.natAbs ++ rest) = some (year.natAbs, rest) :=
    takeDigits?_padded (fun _ hm => nomatch hm) hrest
  rw [yearText]
  by_cases hnegative : year < 0
  · have hvalue : -(year.natAbs : Int) = year := by omega
    rw [if_pos hnegative, List.cons_append, takeYear?_minus, hsigned, Option.map_some, hvalue]
  have hvalue : (year.natAbs : Int) = year := by omega
  rw [if_neg hnegative]
  by_cases hlarge : year > 9999
  · rw [if_pos hlarge, List.cons_append, takeYear?_plus, hsigned, Option.map_some, hvalue]
  · -- such a year has four digits
    have hfits : year.natAbs < 10000 := by omega
    have hunsigned : takeDigits? (some 4) (padded 4 year.natAbs ++ rest) =
        some (year.natAbs, rest) := by
      refine takeDigits?_padded (fun m hm => ?_) hrest
      obtain rfl := Option.some.inj hm
      exact length_padded_le (by decide) hfits
    obtain ⟨c, ds, hds, hc⟩ := exists_padded_eq_cons 4 year.natAbs
    rw [hds, List.cons_append] at hunsigned
    rw [if_neg hlarge, hds, List.cons_append, takeYear?_of_isDigit hc, hunsigned, Option.map_some,
      hvalue]

/-- A month or a day is read back: its two digits are all that may be taken. -/
theorem takePart?_padded {n : Nat} (h : n < 100) {rest : List Char} (hrest : EndsRun rest) :
    takePart? ('-' :: (padded 2 n ++ rest)) = some (n, rest) := by
  have htrim : Text.trimStart (padded 2 n ++ rest) = padded 2 n ++ rest := by
    obtain ⟨c, ds, hds, hc⟩ := exists_padded_eq_cons 2 n
    rw [hds, List.cons_append]
    exact List.dropWhile_cons_of_neg (by simp [not_isBlank_of_isDigit hc])
  rw [takePart?, htrim]
  refine takeDigits?_padded (fun m hm => ?_) hrest
  obtain rfl := Option.some.inj hm
  exact length_padded_le (by decide) h

/-! ## Dates -/

theorem daysInMonth_le (year : Int) (month : Nat) : daysInMonth year month ≤ 31 := by
  rw [daysInMonth]
  split
  · split <;> decide
  · split <;> decide

/-- Months and days have at most two digits, as a date is one of the calendar. -/
theorem month_day_lt (d : Date) : d.month < 100 ∧ d.day < 100 := by
  have hvalid := d.valid
  simp only [isDate, Bool.and_eq_true, decide_eq_true_eq] at hvalid
  have hdays := daysInMonth_le d.year d.month
  omega

/-- The parts of the text of a date, each with what stands before the next one. -/
theorem text_eq (d : Date) :
    d.text = yearText d.year ++ '-' :: (padded 2 d.month ++ '-' :: (padded 2 d.day ++ [])) := by
  show yearText d.year ++ '-' :: padded 2 d.month ++ '-' :: padded 2 d.day = _
  rw [List.append_nil, List.append_assoc, List.cons_append]

/-- **A date is read back from its text.** Year, month and day are taken as they were written,
    and they are those of a date, so the reader's check of them succeeds. -/
theorem read?_text (d : Date) : read? d.text = some d := by
  obtain ⟨hmonth, hday⟩ := month_day_lt d
  have hdash : ∀ rest, EndsRun ('-' :: rest) := by
    intro rest c hc
    obtain rfl := Option.some.inj hc
    decide
  have hend : EndsRun [] := fun _ hc => nomatch hc
  have hdate : of? d.year d.month d.day = some d := dif_pos d.valid
  rw [read?, text_eq, takeYear?_yearText d.year (hdash _)]
  show (takePart? _).bind _ = _
  rw [takePart?_padded hmonth (hdash _)]
  show (takePart? _).bind _ = _
  rw [takePart?_padded hday hend]
  exact hdate

/-- No blank stands in the text of a date, so trimming leaves it as it is. -/
theorem not_isBlank_of_mem_text {d : Date} {c : Char} (h : c ∈ d.text) :
    Text.isBlank c = false := by
  have hpadded : ∀ width n, ∀ c ∈ padded width n, Text.isBlank c = false := fun _ _ _ hc =>
    not_isBlank_of_isDigit (isDigit_of_mem_padded hc)
  have hyear : ∀ c ∈ yearText d.year, Text.isBlank c = false := by
    rw [yearText]
    split
    · exact List.forall_mem_cons.mpr ⟨by decide, hpadded 4 _⟩
    split
    · exact List.forall_mem_cons.mpr ⟨by decide, hpadded 4 _⟩
    · exact hpadded 4 _
  have hdash : Text.isBlank '-' = false := by decide
  -- a character of the year, of a dash, of the month or of the day
  rw [text_eq, List.append_nil] at h
  rcases List.mem_append.mp h with h | h
  · exact hyear c h
  rcases List.mem_cons.mp h with rfl | h
  · exact hdash
  rcases List.mem_append.mp h with h | h
  · exact hpadded 2 _ c h
  rcases List.mem_cons.mp h with rfl | h
  · exact hdash
  · exact hpadded 2 _ c h

end CardSearch.Date
