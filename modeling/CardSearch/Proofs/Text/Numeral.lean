import CardSearch.Proofs.Number.Digits
import CardSearch.Proofs.Text.Lower

/-
  Lower case and numerals.

  A symbol of a pool is put in lower case before it is tried as a number.  That changes no reading:
  a text of digits is its own lower case (`isSmall_of_isNumeral`), and a text with any other
  character keeps one, since no letter has a digit or a plus sign for its lower case
  (`exists_mem_lowerFrom`).  The mappings beyond ASCII are a table, so the second half rests on
  where the images of its stretches begin.
-/

namespace CardSearch.Text

/-! ## Characters of numerals -/

/-- The characters of a numeral: the digits, and the plus sign that may stand before them. -/
def isNumeral (c : Char) : Bool := isDigit c || c == '+'

/-- The characters of numerals stand in one stretch of the character table. -/
theorem toNat_of_isNumeral {c : Char} (h : isNumeral c = true) :
    43 ≤ c.toNat ∧ c.toNat ≤ 57 := by
  rcases Bool.or_eq_true_iff.mp h with hdigit | hplus
  · obtain ⟨hlow, hhigh⟩ := toNat_of_isDigit hdigit
    omega
  · obtain rfl := eq_of_beq hplus
    decide

theorem isSmall_of_toNat_le {c : Char} (h : c.toNat ≤ 64) : IsSmall c := by
  refine ⟨by omega, ?_⟩
  rcases toLower_cases c with ⟨_, _, _⟩ | ⟨_, hkept⟩
  · omega
  · exact hkept

theorem isSmall_of_isNumeral {c : Char} (h : isNumeral c = true) : IsSmall c := by
  have hrange := toNat_of_isNumeral h
  exact isSmall_of_toNat_le (by omega)

/-! ## No letter becomes a digit -/

theorem not_isNumeral_of_lt {c : Char} (h : 57 < c.toNat) : isNumeral c = false := by
  refine Bool.eq_false_iff.mpr fun hnumeral => ?_
  have hrange := toNat_of_isNumeral hnumeral
  omega

/-- Nor is a character given by a number above the digits, be the number a code point or not. -/
theorem not_isNumeral_ofNat {n : Nat} (h : 57 < n) : isNumeral (Char.ofNat n) = false := by
  unfold Char.ofNat
  by_cases hvalid : n.isValidChar
  · rw [dif_pos hvalid]
    exact not_isNumeral_of_lt h
  · rw [dif_neg hvalid]
    decide

/-- The lower case of a character that no numeral contains begins with such a character.  By cases
    on its rule; the images of the table lie above the digits, as its stretches show. -/
theorem exists_mem_lowerChar {c : Char} (h : isNumeral c = false) :
    ∃ d ∈ lowerChar c, isNumeral d = false := by
  rw [lowerChar]
  split
  · refine ⟨c.toLower, List.mem_singleton_self _, ?_⟩
    rcases toLower_cases c with ⟨_, _, hletter⟩ | ⟨_, hkept⟩
    · exact not_isNumeral_of_lt (by omega)
    · rw [hkept]
      exact h
  split
  · exact ⟨'i', List.mem_cons_self, by decide⟩
  split
  · rename_i image himage
    obtain ⟨r, hr, hcovers, rfl⟩ := exists_run_of_mapRuns himage
    have hcapital := (firstImage_lowerRuns r hr).1
    have hlow := (image_bounds hcovers).1
    exact ⟨_, List.mem_singleton_self _, not_isNumeral_ofNat (by omega)⟩
  · exact ⟨c, List.mem_singleton_self _, h⟩

/-- A text with a character that no numeral contains keeps one in lower case.  By induction on the
    text, as far as that character. -/
theorem exists_mem_lowerFrom {text : List Char} {c : Char} (hmem : c ∈ text)
    (h : isNumeral c = false) (before : List Char) :
    ∃ d ∈ lowerFrom before text, isNumeral d = false := by
  induction text generalizing before with
  | nil => cases hmem
  | cons first rest ih =>
    rw [lowerFrom]
    rcases List.mem_cons.mp hmem with rfl | hrest
    · by_cases hsigma : (c == 'Σ') = true
      · refine ⟨lowerSigma before rest, ?_, ?_⟩
        · rw [if_pos hsigma]
          exact List.mem_append_left _ (List.mem_singleton_self _)
        · rw [lowerSigma]
          split <;> decide
      · obtain ⟨d, hd, hnumeral⟩ := exists_mem_lowerChar h
        rw [if_neg hsigma]
        exact ⟨d, List.mem_append_left _ hd, hnumeral⟩
    · obtain ⟨d, hd, hnumeral⟩ := ih hrest (first :: before)
      exact ⟨d, List.mem_append_right _ hd, hnumeral⟩

/-! ## Numbers -/

/-- A run of digits has only characters of numerals. -/
theorem isNumeral_of_natural? {text : List Char} {n : Nat} (h : natural? text = some n) :
    ∀ c ∈ text, isNumeral c = true := by
  intro c hc
  rw [natural?] at h
  split at h
  · cases h
  · rename_i hall
    rw [Bool.or_eq_true, not_or, Bool.not_eq_true', Bool.not_eq_false] at hall
    exact Bool.or_eq_true_iff.mpr (Or.inl (List.all_eq_true.mp hall.2 c hc))

/-- So has every number. -/
theorem isNumeral_of_unsigned64? {text : List Char} {n : Nat} (h : unsigned64? text = some n) :
    ∀ c ∈ text, isNumeral c = true := by
  unfold unsigned64? naturalBelow? at h
  obtain ⟨hread, _⟩ := Option.filter_eq_some_iff.mp h
  split at hread
  · -- the sign, then the digits
    exact List.forall_mem_cons.mpr ⟨by decide, isNumeral_of_natural? hread⟩
  · exact isNumeral_of_natural? hread

theorem unsigned64?_eq_none {text : List Char} {c : Char} (hmem : c ∈ text)
    (h : isNumeral c = false) : unsigned64? text = none := by
  refine Option.eq_none_iff_forall_ne_some.mpr fun n hread => ?_
  exact absurd (isNumeral_of_unsigned64? hread c hmem) (Bool.eq_false_iff.mp h)

/-- **A text reads as the same number in lower case.** By cases on whether it has a character
    that no numeral contains: if so neither is a number, and if not both are the same text. -/
theorem unsigned64?_lower (text : List Char) : unsigned64? (lower text) = unsigned64? text := by
  by_cases hall : ∀ c ∈ text, isNumeral c = true
  · rw [lower_eq_self fun c hc => (isSmall_of_isNumeral (hall c hc)).isLowered]
  · -- one character keeps both from being numbers
    obtain ⟨c, hc⟩ := Classical.not_forall.mp hall
    obtain ⟨hmem, hnumeral⟩ := Classical.not_imp.mp hc
    obtain ⟨d, hd, hlower⟩ := exists_mem_lowerFrom hmem (Bool.eq_false_iff.mpr hnumeral) []
    rw [unsigned64?_eq_none hmem (Bool.eq_false_iff.mpr hnumeral)]
    exact unsigned64?_eq_none hd hlower

end CardSearch.Text
