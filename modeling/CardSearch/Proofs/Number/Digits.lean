import CardSearch.Number.Digits
import CardSearch.Text.Blank

/-
  Whole numbers are read back from their digits.

  1. **Digits (`digitsValue_digits`)** — the digits of a number have its value.
  2. **Signs (`naturalBelow?_of_isDigit`, `signed?_of_ne_minus`)** — a text that begins with a digit
     has no sign, so a bounded reader takes all of it.
  3. **Bounds (`naturalBelow?_digits`, `signed?_signedDigits`)** — so a number in the range of a
     reader is read back, and what a reader has read lies in its range.
  4. **Texts (`isIntegral_of_signed?`)** — and was written in digits and signs.
-/

namespace CardSearch

/-! ## Digits -/

theorem toNat_of_isDigit {c : Char} (h : isDigit c = true) : 48 ≤ c.toNat ∧ c.toNat ≤ 57 := by
  simp only [isDigit, Bool.and_eq_true, decide_eq_true_eq] at h
  exact h

theorem not_isBlank_of_isDigit {c : Char} (h : isDigit c = true) : Text.isBlank c = false := by
  obtain ⟨hlow, hhigh⟩ := toNat_of_isDigit h
  simp only [Text.isBlank, Bool.or_eq_false_iff, Bool.and_eq_false_iff, decide_eq_false_iff_not,
    beq_eq_false_iff_ne]
  omega

theorem digits_ne_nil (n : Nat) : digits n ≠ [] := Nat.toDigits_ne_nil

theorem isDigit_of_mem_digits {n : Nat} {c : Char} (h : c ∈ digits n) : isDigit c = true := by
  have hdigit : c.isDigit = true := Nat.isDigit_of_mem_toDigits (by decide) (by decide) h
  rw [isDigit, Bool.and_eq_true]
  rw [Char.isDigit, Bool.and_eq_true] at hdigit
  exact hdigit

/-- **The digits of a number have its value.** The library shows this for its own digits, which
    are the same. -/
theorem digitsValue_digits (n : Nat) : digitsValue (digits n) = n := by
  have hstep : (fun n c => n * 10 + digitValue c) = fun n c => 10 * n + (c.toNat - '0'.toNat) := by
    funext n c
    rw [Nat.mul_comm, digitValue]
  rw [digitsValue, hstep, digits, ← Nat.ofDigitChars_eq_foldl, Nat.ofDigitChars_ten_toDigits]

theorem exists_digits_eq_cons (n : Nat) :
    ∃ c rest, digits n = c :: rest ∧ isDigit c = true := by
  obtain ⟨c, rest, hdigits⟩ := List.exists_cons_of_ne_nil (digits_ne_nil n)
  have hmem : c ∈ digits n := by simp [hdigits]
  exact ⟨c, rest, hdigits, isDigit_of_mem_digits hmem⟩

theorem natural?_of_forall {text : List Char} (hne : text ≠ [])
    (h : ∀ c ∈ text, isDigit c = true) : natural? text = some (digitsValue text) := by
  have hempty : text.isEmpty = false := by simpa using hne
  rw [natural?, hempty, List.all_eq_true.mpr h]
  rfl

theorem natural?_digits (n : Nat) : natural? (digits n) = some n := by
  rw [natural?_of_forall (digits_ne_nil n) fun _ hc => isDigit_of_mem_digits hc, digitsValue_digits]

/-- A number with its sign begins with a digit or a minus sign; a plus sign is read but never
    written. -/
theorem exists_signedDigits_eq_cons (n : Int) :
    ∃ c rest, signedDigits n = c :: rest ∧ (isDigit c = true ∨ c = '-') := by
  rw [signedDigits]
  split
  · exact ⟨'-', digits n.natAbs, rfl, Or.inr rfl⟩
  · obtain ⟨c, rest, hdigits, hc⟩ := exists_digits_eq_cons n.natAbs
    exact ⟨c, rest, hdigits, Or.inl hc⟩

/-- And it is made of these alone. -/
theorem isDigit_of_mem_signedDigits {n : Int} {c : Char} (h : c ∈ signedDigits n) :
    isDigit c = true ∨ c = '-' := by
  rw [signedDigits] at h
  split at h
  · rcases List.mem_cons.mp h with hsign | hdigit
    · exact Or.inr hsign
    · exact Or.inl (isDigit_of_mem_digits hdigit)
  · exact Or.inl (isDigit_of_mem_digits h)

/-! ## Bounded readers -/

/-- Before a digit stands no sign, so all of the text is the number. -/
theorem naturalBelow?_of_isDigit {c : Char} (hc : isDigit c = true) (bound : Nat)
    (rest : List Char) :
    naturalBelow? bound (c :: rest) = (natural? (c :: rest)).filter (· < bound) := by
  unfold naturalBelow?
  split
  · rename_i hsign
    obtain ⟨rfl, _⟩ := List.cons.inj hsign
    exact absurd hc (by decide)
  · rfl

/-- After a minus sign the reader is that of natural numbers, the bound included: there is one
    negative number more than there are positive ones. -/
theorem signed?_minus (bits : Nat) (rest : List Char) :
    signed? bits ('-' :: rest) =
      ((natural? rest).filter (· ≤ Nat.pow 2 (bits - 1))).map fun n : Nat => -(n : Int) := by
  rw [signed?]
  cases (natural? rest).filter (· ≤ Nat.pow 2 (bits - 1)) <;> rfl

theorem signed?_of_ne_minus {text : List Char} (h : ∀ rest, text ≠ '-' :: rest) (bits : Nat) :
    signed? bits text =
      (naturalBelow? (Nat.pow 2 (bits - 1)) text).map fun n : Nat => (n : Int) := by
  unfold signed?
  split
  · exact absurd rfl (h _)
  · cases naturalBelow? (Nat.pow 2 (bits - 1)) text <;> rfl

/-- **A natural number below the bound is read back.** -/
theorem naturalBelow?_digits {bound n : Nat} (h : n < bound) :
    naturalBelow? bound (digits n) = some n := by
  obtain ⟨c, rest, hdigits, hc⟩ := exists_digits_eq_cons n
  rw [hdigits, naturalBelow?_of_isDigit hc, ← hdigits, natural?_digits]
  exact Option.filter_some_pos (decide_eq_true h)

theorem lt_of_naturalBelow? {bound n : Nat} {text : List Char}
    (h : naturalBelow? bound text = some n) : n < bound :=
  of_decide_eq_true (Option.filter_eq_some_iff.mp h).2

/-- **An integer in the range of the bits is read back.** By cases on its sign, each with its own
    bound. -/
theorem signed?_signedDigits {bits : Nat} {n : Int} (hlow : -(Nat.pow 2 (bits - 1) : Int) ≤ n)
    (hhigh : n < (Nat.pow 2 (bits - 1) : Int)) : signed? bits (signedDigits n) = some n := by
  rw [signedDigits]
  by_cases hn : n < 0
  · have hfits : n.natAbs ≤ Nat.pow 2 (bits - 1) := by omega
    have hvalue : -(n.natAbs : Int) = n := by omega
    rw [if_pos hn, signed?_minus, natural?_digits, Option.filter_some,
      if_pos (decide_eq_true hfits), Option.map_some, hvalue]
  · have hfits : n.natAbs < Nat.pow 2 (bits - 1) := by omega
    have hvalue : (n.natAbs : Int) = n := by omega
    have hminus : ∀ rest, digits n.natAbs ≠ '-' :: rest := by
      intro rest hdigits
      have hmem : '-' ∈ digits n.natAbs := by simp [hdigits]
      exact absurd (isDigit_of_mem_digits hmem) (by decide)
    rw [if_neg hn, signed?_of_ne_minus hminus, naturalBelow?_digits hfits, Option.map_some, hvalue]

/-- So is a natural number in that range, written without a sign. -/
theorem signed?_digits {bits n : Nat} (h : n < Nat.pow 2 (bits - 1)) :
    signed? bits (digits n) = some (n : Int) := by
  have hdigits : signedDigits (n : Int) = digits n := by
    rw [signedDigits, if_neg (by omega)]
    rfl
  rw [← hdigits]
  exact signed?_signedDigits (by omega) (by omega)

/-- And what is read lies in that range, whatever stands in the text. -/
theorem bounds_of_signed? {bits : Nat} {n : Int} {text : List Char}
    (h : signed? bits text = some n) :
    -(Nat.pow 2 (bits - 1) : Int) ≤ n ∧ n < (Nat.pow 2 (bits - 1) : Int) := by
  have hpos : 0 < Nat.pow 2 (bits - 1) := Nat.two_pow_pos (bits - 1)
  by_cases hminus : ∃ rest, text = '-' :: rest
  · obtain ⟨rest, rfl⟩ := hminus
    rw [signed?_minus] at h
    obtain ⟨m, hm, rfl⟩ := Option.map_eq_some_iff.mp h
    have hle : m ≤ Nat.pow 2 (bits - 1) :=
      of_decide_eq_true (Option.filter_eq_some_iff.mp hm).2
    omega
  · rw [signed?_of_ne_minus (not_exists.mp hminus)] at h
    obtain ⟨m, hm, rfl⟩ := Option.map_eq_some_iff.mp h
    have hlt := lt_of_naturalBelow? hm
    omega

/-! ## What is read -/

/-- A character of a written integer: a digit or a sign. -/
def IsIntegral (c : Char) : Prop := isDigit c = true ∨ c = '-' ∨ c = '+'

/-- A run of digits is what was read for a natural number, and not an empty one. -/
theorem isDigit_of_natural? {text : List Char} {n : Nat} (h : natural? text = some n) :
    text ≠ [] ∧ ∀ c ∈ text, isDigit c = true := by
  rw [natural?] at h
  split at h
  · cases h
  · rename_i hdigits
    rw [Bool.not_eq_true, Bool.or_eq_false_iff, Bool.not_eq_false', List.all_eq_true] at hdigits
    exact ⟨by simpa using hdigits.1, hdigits.2⟩

/-- A plus sign may stand before it. -/
theorem isIntegral_of_naturalBelow? {bound n : Nat} {text : List Char}
    (h : naturalBelow? bound text = some n) : text ≠ [] ∧ ∀ c ∈ text, IsIntegral c := by
  have hread := (Option.filter_eq_some_iff.mp h).1
  split at hread
  · have hdigits := (isDigit_of_natural? hread).2
    exact ⟨List.cons_ne_nil _ _,
      List.forall_mem_cons.mpr ⟨Or.inr (Or.inr rfl), fun c hc => Or.inl (hdigits c hc)⟩⟩
  · obtain ⟨hne, hdigits⟩ := isDigit_of_natural? hread
    exact ⟨hne, fun c hc => Or.inl (hdigits c hc)⟩

/-- **An integer is read from digits and signs only**, so a text with any other character is
    none. -/
theorem isIntegral_of_signed? {bits : Nat} {n : Int} {text : List Char}
    (h : signed? bits text = some n) : text ≠ [] ∧ ∀ c ∈ text, IsIntegral c := by
  by_cases hminus : ∃ rest, text = '-' :: rest
  · obtain ⟨rest, rfl⟩ := hminus
    rw [signed?_minus] at h
    obtain ⟨m, hm, -⟩ := Option.map_eq_some_iff.mp h
    have hdigits := (isDigit_of_natural? (Option.filter_eq_some_iff.mp hm).1).2
    exact ⟨List.cons_ne_nil _ _,
      List.forall_mem_cons.mpr ⟨Or.inr (Or.inl rfl), fun c hc => Or.inl (hdigits c hc)⟩⟩
  · rw [signed?_of_ne_minus (not_exists.mp hminus)] at h
    obtain ⟨m, hm, -⟩ := Option.map_eq_some_iff.mp h
    exact isIntegral_of_naturalBelow? hm

/-- Digits and signs stand in one stretch of the character table, with few others between them. -/
theorem IsIntegral.toNat {c : Char} (h : IsIntegral c) : 43 ≤ c.toNat ∧ c.toNat ≤ 57 := by
  rcases h with hdigit | rfl | rfl
  · have := toNat_of_isDigit hdigit
    omega
  · decide
  · decide

theorem IsIntegral.not_isBlank {c : Char} (h : IsIntegral c) : Text.isBlank c = false := by
  rcases h with hdigit | rfl | rfl
  · exact not_isBlank_of_isDigit hdigit
  · decide
  · decide

end CardSearch
