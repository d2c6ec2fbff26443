import CardSearch.Json.Write
import CardSearch.Proofs.Number.Digits
import CardSearch.Proofs.Json.Reading
import Mathlib.Data.List.TakeWhile

/-
  Numerals inside a document.

  How far a numeral goes is only known from what follows it, so a numeral that was read on its own
  must be shown to be read the same inside a document.

  1. **The crux (`leaves_readNumeral_append`)** — a text that does not go on with a numeral (`Ends`)
     can follow without being taken for a part of it.  Each part of a numeral has its own lemma.
  2. **Values (`Leaves.append`)** — so a value that is a number is read the same before such a text.
  3. **Whole numbers (`leaves_readValue_whole`)** — the digits of a whole number of 64 bits are read
     back.  Other numbers are said to be (`Number.ReadsBack`).
-/

namespace CardSearch

/-- What is written for a number is read as another one, or as the same. -/
def Number.ReadsAs (x y : Number) : Prop := Json.read x.json = .ok (.real y)

/-- What is written for a number is read as that number. -/
def Number.ReadsBack (x : Number) : Prop := Json.read x.json = .ok (.real x)

namespace Json

/-! ## Where numerals end -/

/-- A character that stands in no numeral after its sign, but for a sign of the exponent. -/
def endsNumeral (c : Char) : Bool := !(isDigit c || c == '.' || c == 'e' || c == 'E')

/-- A text with which a numeral does not go on. -/
def Ends (t : List Char) : Prop := ∀ c ∈ t.head?, endsNumeral c = true

theorem ends_cons {c : Char} {t : List Char} (h : endsNumeral c = true) : Ends (c :: t) := by
  intro d hd
  obtain rfl := Option.some.inj hd
  exact h

/-- Where no point comes next there is no fraction, and the text is left as it is. -/
theorem readFraction_eq_none {s : List Char} (h : ∀ rest, s ≠ '.' :: rest) :
    readFraction s = .ok (none, .all s) := by
  unfold readFraction
  split
  · exact absurd rfl (h _)
  · rfl

/-- Where no `e` comes next there is no exponent, and the text is left as it is. -/
theorem readExponent_eq_none {s : List Char} (h : ∀ c ∈ s.head?, c ≠ 'e' ∧ c ≠ 'E') :
    readExponent s = .ok (none, .all s) := by
  unfold readExponent
  split
  · rfl
  · rename_i c rest
    obtain ⟨he, hE⟩ := h c rfl
    rw [if_neg (by simp [he, hE])]

/-- After its letter an exponent is a power with or without a sign, whatever follows.  So what
    holds of powers holds of exponents, without the sign being looked at again. -/
theorem exists_power {c : Char} (he : (c == 'e' || c == 'E') = true) (d : Char) (more : List Char) :
    ∃ negative power, ∀ (t : List Char) {exponent : Option Int} {w : List Char},
      Leaves (readExponent (c :: d :: more ++ t)) exponent w ↔
        Leaves (readPower negative (power ++ t)) exponent w := by
  by_cases hplus : d = '+'
  · subst hplus
    refine ⟨false, more, fun t => ?_⟩
    rw [List.cons_append, List.cons_append, readExponent, if_pos he]
    exact leaves_map_iff (fun last : Text.Within _ => last.cons.cons) fun _ => rfl
  by_cases hminus : d = '-'
  · subst hminus
    refine ⟨true, more, fun t => ?_⟩
    rw [List.cons_append, List.cons_append, readExponent, if_pos he]
    exact leaves_map_iff (fun last : Text.Within _ => last.cons.cons) fun _ => rfl
  refine ⟨false, d :: more, fun t => ?_⟩
  rw [List.cons_append, List.cons_append, readExponent, if_pos he]
  · exact leaves_map_iff (fun last : Text.Within _ => last.cons) fun _ => rfl
  · exact fun _ hsign => hplus (List.cons.inj hsign).1
  · exact fun _ hsign => hminus (List.cons.inj hsign).1

theorem endsNumeral_iff {c : Char} :
    endsNumeral c = true ↔ isDigit c = false ∧ c ≠ '.' ∧ c ≠ 'e' ∧ c ≠ 'E' := by
  simp [endsNumeral, and_assoc]

/-- A numeral from its first digit on: its parts, and the value that they make.  A zero at the
    front can have no digit behind it. -/
theorem leaves_readNumeral_iff {negative : Bool} {first : Char} {s w : List Char} {value : Json} :
    Leaves (readNumeral negative first s) value w ↔
      (first == '0' && !(s.takeWhile isDigit).isEmpty) = false ∧
        ∃ fraction after exponent, Leaves (readFraction (s.dropWhile isDigit)) fraction after ∧
          Leaves (readExponent after) exponent w ∧
          numeral? negative (first :: s.takeWhile isDigit) fraction exponent = some value := by
  unfold readNumeral
  dsimp only
  split
  · -- a zero before another digit is refused
    rename_i hzero
    refine iff_of_false ?_ ?_
    · rintro ⟨_, h⟩
      cases h
    · rintro ⟨hnot, _⟩
      rw [hzero] at hnot
      cases hnot
  rename_i hzero
  constructor
  · rintro ⟨_, h⟩
    split at h
    · cases h
    rename_i fraction after hafter hfraction
    split at h
    · cases h
    rename_i exponent last hexponent
    split at h
    · rename_i found hvalue
      obtain ⟨rfl, rfl⟩ := eq_of_ok h
      exact ⟨Bool.eq_false_iff.mpr hzero, fraction, after, exponent, ⟨hafter, hfraction⟩,
        ⟨last.2, hexponent⟩, hvalue⟩
    · cases h
  · rintro ⟨_, fraction, after, exponent, ⟨_, hfraction⟩, ⟨_, hexponent⟩, hvalue⟩
    simp only [hfraction, hexponent, hvalue]
    exact ⟨_, rfl⟩

section Append

variable {t : List Char} (ht : Ends t)
include ht

/-- The digits at the start of a text are the same before such a text, and so is the rest. -/
theorem digitRun_append (s : List Char) :
    (s ++ t).takeWhile isDigit = s.takeWhile isDigit ∧
      (s ++ t).dropWhile isDigit = s.dropWhile isDigit ++ t :=
  Text.run_append (fun c hc => (endsNumeral_iff.mp (ht c hc)).1) s

/-- Digits of which one at least is wanted are the same before such a text. -/
theorem leaves_readDigits_append {s ds w : List Char} (h : Leaves (readDigits s) ds w) :
    Leaves (readDigits (s ++ t)) ds (w ++ t) := by
  obtain ⟨_, h⟩ := h
  obtain ⟨htake, hdrop⟩ := digitRun_append ht s
  unfold readDigits at h ⊢
  split at h
  · cases h
  rename_i hdigits
  obtain ⟨rfl, rfl⟩ := eq_of_ok h
  rw [htake, if_neg hdigits]
  refine ⟨?_, ?_⟩
  · rw [← hdrop]
    exact Text.length_dropWhile_le isDigit _
  · simp only [hdrop]

/-- A fraction is the same: behind its point there are digits, and none of the text that follows
    is taken for one. -/
theorem leaves_readFraction_append {s w : List Char} {fraction : Option (List Char)}
    (h : Leaves (readFraction s) fraction w) :
    Leaves (readFraction (s ++ t)) fraction (w ++ t) := by
  obtain ⟨_, h⟩ := h
  unfold readFraction at h
  split at h
  · rename_i rest
    split at h
    · cases h
    rename_i ds more hdigits
    obtain ⟨rfl, rfl⟩ := eq_of_ok h
    obtain ⟨_, hdigits⟩ := leaves_readDigits_append ht ⟨more.2, hdigits⟩
    simp only [List.cons_append, readFraction, hdigits]
    exact ⟨_, rfl⟩
  · -- no point comes next, here or in the longer text
    rename_i rest hpoint
    obtain ⟨rfl, rfl⟩ := eq_of_ok h
    rw [readFraction_eq_none]
    · exact ⟨_, rfl⟩
    intro more hmore
    cases s with
    | nil =>
      obtain rfl : t = '.' :: more := hmore
      exact absurd rfl (endsNumeral_iff.mp (ht '.' rfl)).2.1
    | cons c s => exact hpoint s (congrArg (· :: s) (List.cons.inj hmore).1)

/-- The power of an exponent is the same, as it is made of digits alone. -/
theorem leaves_readPower_append {negative : Bool} {s w : List Char} {power : Option Int}
    (h : Leaves (readPower negative s) power w) :
    Leaves (readPower negative (s ++ t)) power (w ++ t) := by
  obtain ⟨_, h⟩ := h
  unfold readPower at h
  split at h
  · cases h
  rename_i ds more hdigits
  obtain ⟨rfl, rfl⟩ := eq_of_ok h
  obtain ⟨_, hdigits⟩ := leaves_readDigits_append ht ⟨more.2, hdigits⟩
  simp only [readPower, hdigits]
  exact ⟨_, rfl⟩

/-- An exponent is the same.  Its sign is taken with its letter, so the text that follows cannot
    begin with the sign. -/
theorem leaves_readExponent_append {s w : List Char} {exponent : Option Int}
    (h : Leaves (readExponent s) exponent w) :
    Leaves (readExponent (s ++ t)) exponent (w ++ t) := by
  cases s with
  | nil =>
    -- nothing is left of the text, and what follows begins no exponent
    obtain ⟨_, h⟩ := h
    obtain ⟨rfl, rfl⟩ := eq_of_ok h
    have hends : ∀ c ∈ t.head?, c ≠ 'e' ∧ c ≠ 'E' :=
      fun c hc => (endsNumeral_iff.mp (ht c hc)).2.2
    rw [List.nil_append, readExponent_eq_none hends]
    exact ⟨_, rfl⟩
  | cons c rest =>
    by_cases he : (c == 'e' || c == 'E') = true
    · cases rest with
      | nil =>
        obtain ⟨_, h⟩ := h
        simp only [readExponent, if_pos he] at h
        cases h
      | cons d more =>
        -- from the second character on it is a power, before the text as well
        obtain ⟨negative, power, hpower⟩ := exists_power he d more
        rw [hpower]
        rw [← List.append_nil (c :: d :: more), hpower, List.append_nil] at h
        exact leaves_readPower_append ht h
    · have hhead : ∀ more : List Char, ∀ d ∈ (c :: more).head?, d ≠ 'e' ∧ d ≠ 'E' := by
        intro more d hd
        obtain rfl := Option.some.inj hd
        simpa using he
      obtain ⟨_, h⟩ := h
      rw [readExponent_eq_none (hhead rest)] at h
      obtain ⟨rfl, rfl⟩ := eq_of_ok h
      rw [List.cons_append, readExponent_eq_none (hhead (rest ++ t))]
      exact ⟨_, rfl⟩

/-- **A numeral is the same before a text with which no numeral goes on**, since each of its
    parts is. -/
theorem leaves_readNumeral_append {negative : Bool} {first : Char} {s w : List Char}
    {value : Json} (h : Leaves (readNumeral negative first s) value w) :
    Leaves (readNumeral negative first (s ++ t)) value (w ++ t) := by
  obtain ⟨hzero, fraction, after, exponent, hfraction, hexponent, hvalue⟩ :=
    leaves_readNumeral_iff.mp h
  obtain ⟨htake, hdrop⟩ := digitRun_append ht s
  refine leaves_readNumeral_iff.mpr ⟨by rwa [htake], fraction, after ++ t, exponent, ?_,
    leaves_readExponent_append ht hexponent, by rwa [htake]⟩
  rw [hdrop]
  exact leaves_readFraction_append ht hfraction

/-- And so is one behind a minus sign, which needs a digit next. -/
theorem leaves_readNegative_append {s w : List Char} {value : Json}
    (h : Leaves (readNegative s) value w) : Leaves (readNegative (s ++ t)) value (w ++ t) := by
  cases s with
  | nil =>
    obtain ⟨_, h⟩ := h
    cases h
  | cons c rest =>
    rw [List.cons_append]
    rw [readNegative] at h ⊢
    split at h
    · rename_i hc
      rw [if_pos hc]
      exact (leaves_map_iff (fun last : Text.Within _ => last.cons) fun _ => rfl).mpr
        (leaves_readNumeral_append ht
          ((leaves_map_iff (fun last : Text.Within _ => last.cons) fun _ => rfl).mp h))
    · obtain ⟨_, h⟩ := h
      cases h

end Append

/-! ## Values that are numbers -/

/-- A document that is a number. -/
def IsNumber : Json → Prop
  | .whole _ | .real _ => True
  | _ => False

/-- A word has the value that it stands for.  By induction on the word. -/
theorem value_of_readWord {value found : Json} {word s w : List Char}
    (h : Leaves (readWord value word s) found w) : found = value := by
  induction word generalizing s w with
  | nil =>
    obtain ⟨_, h⟩ := h
    exact (eq_of_ok h).1.symm
  | cons letter word ih =>
    obtain ⟨_, h⟩ := h
    cases s with
    | nil => cases h
    | cons c rest =>
      rw [readWord] at h
      split at h
      · split at h
        · cases h
        rename_i other more hword
        obtain ⟨rfl, _⟩ := eq_of_ok h
        exact ih ⟨more.2, hword⟩
      · cases h

/-- A number begins with a digit or a minus sign, for whatever begins otherwise is read as a
    document of another kind. -/
theorem leaves_readValue_isNumber {depth : Nat} {s w : List Char} {value : Json}
    (hvalue : value.IsNumber) (h : Leaves (readValue depth s) value w) :
    ∃ c r, skipSpace s = c :: r ∧
      ((isDigit c = true ∧ Leaves (readNumeral false c r) value w) ∨
        (c = '-' ∧ Leaves (readNegative r) value w)) := by
  cases hs : skipSpace s with
  | nil =>
    obtain ⟨_, h⟩ := h
    rw [readValue_of_nil hs] at h
    cases h
  | cons c r =>
    refine ⟨c, r, rfl, ?_⟩
    by_cases hdigit : isDigit c = true
    · exact Or.inl ⟨hdigit, (leaves_readValue_digit_iff hs hdigit).mp h⟩
    right
    have hbracket : c ≠ '[' := by
      rintro rfl
      obtain ⟨items, rfl⟩ := eq_list_of_leaves hs h
      exact hvalue
    have hbrace : c ≠ '\x7b' := by
      rintro rfl
      obtain ⟨members, rfl⟩ := eq_object_of_leaves hs h
      exact hvalue
    have hscalar := (leaves_readValue_scalar_iff hs hbracket hbrace
      (Bool.eq_false_iff.mpr hdigit)).mp h
    unfold readScalar at hscalar
    split at hscalar
    -- words and strings are no numbers
    · exact (value_of_readWord hscalar ▸ hvalue : IsNumber .null).elim
    · exact (value_of_readWord hscalar ▸ hvalue : IsNumber (.bool true)).elim
    · exact (value_of_readWord hscalar ▸ hvalue : IsNumber (.bool false)).elim
    · obtain ⟨_, hstring⟩ := hscalar
      cases hread : readString [] r with
      | error e =>
        rw [hread] at hstring
        cases hstring
      | ok found =>
        rw [hread] at hstring
        obtain ⟨rfl, _⟩ := eq_of_ok hstring
        exact hvalue.elim
    · exact ⟨rfl, hscalar⟩
    · obtain ⟨_, hnone⟩ := hscalar
      cases hnone

/-- **A number is read the same before a text with which no numeral goes on**, at any depth,
    since no number holds another document. -/
theorem leaves_readValue_append {depth depth' : Nat} {s s' t w : List Char} {value : Json}
    (hvalue : value.IsNumber) (ht : Ends t) (h : Leaves (readValue depth s) value w)
    (hs' : skipSpace s' = skipSpace (s ++ t)) : Leaves (readValue depth' s') value (w ++ t) := by
  obtain ⟨c, r, hs, hread⟩ := leaves_readValue_isNumber hvalue h
  have hskip : skipSpace (s ++ t) = c :: (r ++ t) := by
    rw [skipSpace] at hs ⊢
    rw [List.dropWhile_append, hs]
    rfl
  rw [hskip] at hs'
  rcases hread with ⟨hdigit, hread⟩ | ⟨rfl, hread⟩
  · exact (leaves_readValue_digit_iff hs' hdigit).mpr (leaves_readNumeral_append ht hread)
  · exact (leaves_readValue_scalar_iff hs' (by decide) (by decide) (by decide)).mpr
      (leaves_readNegative_append ht hread)

/-! ## Whole numbers -/

/-- Only zero begins with a zero.  By strong induction on the number, whose first digits are those
    of a tenth of it. -/
theorem eq_zero_of_digits {n : Nat} {ds : List Char} (h : digits n = '0' :: ds) : n = 0 := by
  induction n using Nat.strongRecOn generalizing ds with
  | ind n ih =>
    rw [digits, Nat.toDigits_eq_if (by decide)] at h
    split at h
    · exact Nat.digitChar_eq_zero.mp (List.cons.inj h).1
    · rename_i hlarge
      have hne : Nat.toDigits 10 (n / 10) ≠ [] := Nat.toDigits_ne_nil
      obtain ⟨c, rest, hrest⟩ := List.exists_cons_of_ne_nil hne
      rw [hrest] at h
      obtain ⟨rfl, _⟩ := List.cons.inj h
      have := ih (n / 10) (by omega) hrest
      omega

/-- More digits make no number smaller.  By induction on the digits. -/
theorem le_foldl_digits (ds : List Char) (coefficient : Nat) :
    coefficient ≤ ds.foldl (fun n c => n * 10 + digitValue c) coefficient := by
  induction ds generalizing coefficient with
  | nil => exact Nat.le_refl _
  | cons c rest ih =>
    rw [List.foldl_cons]
    have := ih (coefficient * 10 + digitValue c)
    omega

/-- Digits that fit 64 bits are all taken.  By induction on the digits: what is taken so far is no
    greater than the whole, so it fits as well. -/
theorem extend_eq {ds : List Char} {coefficient : Nat}
    (h : ds.foldl (fun n c => n * 10 + digitValue c) coefficient < coefficientBound) :
    extend coefficient ds = (ds.foldl (fun n c => n * 10 + digitValue c) coefficient, []) := by
  induction ds generalizing coefficient with
  | nil => rfl
  | cons c rest ih =>
    rw [List.foldl_cons] at h ⊢
    have hnext : coefficient * 10 + digitValue c < coefficientBound :=
      Nat.lt_of_le_of_lt (le_foldl_digits rest _) h
    rw [extend, if_pos hnext]
    exact ih h

theorem not_isSpace_of_isDigit {c : Char} (h : isDigit c = true) : isSpace c = false := by
  simp only [isSpace, Bool.or_eq_false_iff, beq_eq_false_iff_ne]
  refine ⟨⟨⟨?_, ?_⟩, ?_⟩, ?_⟩ <;> (rintro rfl; exact absurd h (by decide))

/-- The digits of a natural number as a numeral: no zero stands at the front, and there is no
    fraction and no exponent. -/
theorem leaves_readNumeral_digits {negative : Bool} {n : Nat} {c : Char} {ds : List Char}
    {value : Json} (hdigits : digits n = c :: ds)
    (hvalue : numeral? negative (digits n) none none = some value) :
    Leaves (readNumeral negative c ds) value [] := by
  have hall : ∀ d ∈ ds, isDigit d = true := fun d hd =>
    isDigit_of_mem_digits (n := n) (hdigits ▸ List.mem_cons_of_mem c hd)
  have htake : ds.takeWhile isDigit = ds := List.takeWhile_eq_self_iff.mpr hall
  have hdrop : ds.dropWhile isDigit = [] := List.dropWhile_eq_nil_iff.mpr hall
  refine leaves_readNumeral_iff.mpr ⟨?_, none, [], none, ?_, ⟨_, rfl⟩, ?_⟩
  · -- a zero stands alone
    rw [htake, Bool.and_eq_false_imp]
    intro hzero
    obtain rfl := beq_iff_eq.mp hzero
    obtain rfl := eq_zero_of_digits hdigits
    obtain ⟨_, rfl⟩ := List.cons.inj hdigits
    rfl
  · rw [hdrop]
    exact ⟨_, rfl⟩
  · rw [htake, ← hdigits, hvalue]

theorem extend_digits {n : Nat} (h : n < coefficientBound) : extend 0 (digits n) = (n, []) := by
  have hvalue := digitsValue_digits n
  rw [digitsValue] at hvalue
  rw [extend_eq (by rwa [hvalue]), hvalue]

/-- **The digits of a whole number of 64 bits are read back**, with a minus sign or without.  A
    negative one is read as such only down to the least of 64 bits. -/
theorem leaves_readValue_whole {n : Int} (hlow : -(Nat.pow 2 63 : Int) ≤ n)
    (hhigh : n < (coefficientBound : Int)) (depth : Nat) :
    Leaves (readValue depth (signedDigits n)) (.whole n) [] := by
  obtain ⟨c, ds, hdigits, hc⟩ := exists_digits_eq_cons n.natAbs
  have hspace : isSpace c = false := not_isSpace_of_isDigit hc
  have hbound : n.natAbs < coefficientBound := by
    have : coefficientBound = 2 * Nat.pow 2 63 := by decide
    omega
  rw [signedDigits]
  by_cases hn : n < 0
  · rw [if_pos hn]
    have hs : skipSpace ('-' :: digits n.natAbs) = '-' :: digits n.natAbs := rfl
    refine (leaves_readValue_scalar_iff hs (by decide) (by decide) (by decide)).mpr ?_
    rw [readScalar, hdigits, readNegative, if_pos hc]
    refine (leaves_map_iff (fun last : Text.Within _ => last.cons) fun _ => rfl).mpr ?_
    refine leaves_readNumeral_digits hdigits ?_
    have hnonzero : (n.natAbs == 0) = false := beq_eq_false_iff_ne.mpr (by omega)
    -- a negative number fits down to the least of 64 bits, and zero is not negative
    have hfits : ¬ n.natAbs > Nat.pow 2 63 := by omega
    simp only [numeral?, extend_digits hbound, hnonzero, hfits, decide_false, Bool.or_self,
      Bool.false_eq_true, if_false, Bool.not_true]
    rw [Int.ofNat_natAbs_of_nonpos (Int.le_of_lt hn), Int.neg_neg]
  · rw [if_neg hn]
    have hs : skipSpace (digits n.natAbs) = c :: ds := by
      simp [hdigits, skipSpace, hspace]
    refine (leaves_readValue_digit_iff hs hc).mpr (leaves_readNumeral_digits hdigits ?_)
    simp only [numeral?, extend_digits hbound, Bool.not_false, if_true]
    rw [Int.natAbs_of_nonneg (Int.not_lt.mp hn)]

/-! ## Other numbers -/

/-- A positive number is read as another one if its numeral is, as nothing follows the numeral. -/
theorem readsAs_of_leaves {x y : Number} {c : Char} {s : List Char} (hx : x.json = c :: s)
    (hc : isDigit c = true) (h : Leaves (readNumeral false c s) (.real y) []) : x.ReadsAs y := by
  have hs : skipSpace (c :: s) = c :: s :=
    List.dropWhile_cons_of_neg (by simp [not_isSpace_of_isDigit hc])
  obtain ⟨_, hread⟩ := (leaves_readValue_digit_iff hs hc).mpr h
  rw [Number.ReadsAs, Json.read, hx, hread]
  rfl

end Json

end CardSearch
