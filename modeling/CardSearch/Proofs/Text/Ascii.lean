import CardSearch.Proofs.Text.Lower
import CardSearch.Text.Piece

/-
  Texts of ASCII characters, and one character put for another.

  1. **Case (`lower_of_ascii`, `upper_of_ascii`)** — in ASCII both mappings go character by character.
     In any text the ASCII letters may be put in lower case beforehand (`lower_lowerAscii`): a `Σ`
     among them takes the same form.
  2. **Exchange (`replace_char`, `join_splitBy`)** — to replace one character by another, and to cut a
     text at the one and join it with the other, is to exchange the characters one by one.
-/

namespace CardSearch.Text

/-! ## Case -/

/-- What holds of the first 128 characters holds of ASCII, so it can be decided for each of them. -/
theorem forall_ascii {P : Char → Prop} (h : ∀ n < 0x80, P (Char.ofNat n)) {c : Char}
    (hc : c.toNat < 0x80) : P c := by
  have hown := h c.toNat hc
  rwa [Char.ofNat_toNat] at hown

/-- In ASCII lower case goes character by character, whatever stands before.  By induction on the
    text, in which there is no `Σ`. -/
theorem lowerFrom_of_ascii {text : List Char} (h : ∀ c ∈ text, c.toNat < 0x80)
    (before : List Char) : lowerFrom before text = lowerAscii text := by
  induction text generalizing before with
  | nil => rfl
  | cons c rest ih =>
    obtain ⟨hc, hrest⟩ := List.forall_mem_cons.mp h
    have hsigma : c ≠ 'Σ' := by
      rintro rfl
      exact absurd hc (by decide)
    rw [lowerFrom, if_neg (by simp [hsigma]), lowerChar, if_pos hc, ih hrest]
    rfl

theorem lower_of_ascii {text : List Char} (h : ∀ c ∈ text, c.toNat < 0x80) :
    lower text = lowerAscii text :=
  lowerFrom_of_ascii h []

/-- And so it is in upper case. -/
theorem upper_of_ascii {text : List Char} (h : ∀ c ∈ text, c.toNat < 0x80) :
    upper text = text.map Char.toUpper := by
  induction text with
  | nil => rfl
  | cons c rest ih =>
    obtain ⟨hc, hrest⟩ := List.forall_mem_cons.mp h
    rw [upper, List.flatMap_cons, ← upper, ih hrest, upperChar, if_pos hc]
    rfl

/-- A letter is passed over or reached from a `Σ` in either case, so lower case does not change
    what is around one. -/
theorem isCased_toLower (c : Char) :
    isCased c.toLower = isCased c ∧ isCaseIgnorable c.toLower = isCaseIgnorable c := by
  by_cases hc : c.toNat < 0x80
  · have hall : ∀ n < 0x80, isCased (Char.ofNat n).toLower = isCased (Char.ofNat n) ∧
        isCaseIgnorable (Char.ofNat n).toLower = isCaseIgnorable (Char.ofNat n) := by
      decide +kernel
    have hown := hall c.toNat hc
    rwa [Char.ofNat_toNat] at hown
  · rcases toLower_cases c with ⟨_, _, _⟩ | ⟨_, hkept⟩
    · omega
    · rw [hkept]
      exact ⟨rfl, rfl⟩

/-- So a `Σ` sees the same text behind it.  By induction on that text. -/
theorem reachesCased_lowerAscii (text : List Char) :
    reachesCased (lowerAscii text) = reachesCased text := by
  induction text with
  | nil => rfl
  | cons c rest ih =>
    obtain ⟨hcased, hignorable⟩ := isCased_toLower c
    rw [reachesCased, reachesCased] at ih ⊢
    rw [lowerAscii, List.map_cons, List.dropWhile_cons, List.dropWhile_cons, hignorable]
    by_cases hpassed : isCaseIgnorable c = true
    · rw [if_pos hpassed, if_pos hpassed]
      exact ih
    · rw [if_neg hpassed, if_neg hpassed]
      exact hcased

/-- A character goes to the same lower case, whether its ASCII case is changed before or not. -/
theorem lowerChar_toLower (c : Char) : lowerChar c.toLower = lowerChar c := by
  rcases toLower_cases c with ⟨_, _, hletter⟩ | ⟨_, hkept⟩
  · have hc : c.toNat < 0x80 := by omega
    obtain ⟨hascii, hsmall⟩ := isSmall_toLower hc
    rw [lowerChar, lowerChar, if_pos hascii, if_pos hc, hsmall]
  · rw [hkept]

/-- Changing the case of ASCII makes no `Σ` and takes none away. -/
theorem toLower_beq_sigma (c : Char) : (c.toLower == 'Σ') = (c == 'Σ') := by
  rcases toLower_cases c with ⟨_, _, hletter⟩ | ⟨_, hkept⟩
  · have hother : ∀ d : Char, d.toNat < 0x80 → (d == 'Σ') = false := by
      rintro d hd
      refine beq_false_of_ne ?_
      rintro rfl
      exact absurd hd (by decide)
    rw [hother _ (by omega), hother _ (by omega)]
  · rw [hkept]

/-- The texts before and after may be changed together.  By induction on the text. -/
theorem lowerFrom_lowerAscii (text before : List Char) :
    lowerFrom (lowerAscii before) (lowerAscii text) = lowerFrom before text := by
  induction text generalizing before with
  | nil => rfl
  | cons c rest ih =>
    have hsigma : lowerSigma (lowerAscii before) (lowerAscii rest) = lowerSigma before rest := by
      rw [lowerSigma, lowerSigma, reachesCased_lowerAscii, reachesCased_lowerAscii]
    have hcons : ∀ d text, lowerAscii (d :: text) = d.toLower :: lowerAscii text := fun _ _ => rfl
    rw [hcons, lowerFrom, lowerFrom, toLower_beq_sigma, lowerChar_toLower, hsigma, ← hcons, ih]

/-- **ASCII letters may be put in lower case first.** The program does so for words that it looks
    up, before it lowers the whole text. -/
theorem lower_lowerAscii (text : List Char) : lower (lowerAscii text) = lower text :=
  lowerFrom_lowerAscii text []

/-! ## Exchange -/

/-- One character exchanged for another. -/
def exchange (a b c : Char) : Char := if c = a then b else c

/-- To replace one character by another is to exchange them one by one.  By induction on the text. -/
theorem replace_char (a b : Char) (text : List Char) :
    replace [a] [b] text = text.map (exchange a b) := by
  rw [replace]
  induction text with
  | nil => rw [replaceFrom, List.map_nil]
  | cons c rest ih =>
    have hfront : [a].isPrefixOf (c :: rest) = (a == c) := by simp [List.isPrefixOf]
    rw [replaceFrom, hfront, List.map_cons, exchange]
    by_cases hc : c = a
    · subst hc
      rw [if_pos (beq_self_eq_true c), if_pos rfl, List.length_nil, List.drop_zero, ih]
      rfl
    · rw [if_neg (by simpa using Ne.symm hc), if_neg hc, ih]

/-- And so is to cut at the one and to join with the other.  By induction on the text, whose first
    character starts a part or goes to the first one. -/
theorem join_splitBy (a b : Char) (text : List Char) :
    join [b] (splitBy (· == a) text) = text.map (exchange a b) := by
  induction text with
  | nil => rfl
  | cons c rest ih =>
    obtain ⟨part, parts, hparts⟩ := List.exists_cons_of_ne_nil (splitBy_ne_nil (· == a) rest)
    rw [splitBy, List.map_cons, exchange, ← ih, hparts]
    by_cases hc : c = a
    · rw [if_pos (beq_iff_eq.mpr hc), if_pos hc]
      rfl
    · rw [if_neg (by simpa using hc), if_neg hc]
      -- the character stands in front of the first part
      cases parts with
      | nil => rfl
      | cons next more => rfl

/-- What goes character by character goes part by part, the separators included. -/
theorem map_join (f : Char → Char) (separator : Char) (parts : List (List Char)) :
    (join [separator] parts).map f = join [f separator] (parts.map (List.map f)) := by
  induction parts with
  | nil => rfl
  | cons part rest ih =>
    cases rest with
    | nil => simp [join_eq_intercalate]
    | cons next more =>
      have hjoin : join [separator] (part :: next :: more) =
          part ++ separator :: join [separator] (next :: more) := by simp [join_eq_intercalate]
      rw [hjoin, List.map_append, List.map_cons, ih]
      simp [join_eq_intercalate]

end CardSearch.Text
