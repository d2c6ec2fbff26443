import CardSearch.Proofs.Query.Sets
import CardSearch.Proofs.Query.Single
import CardSearch.Proofs.Text.Numeral
import Mathlib.Data.Bool.AllAny

/-
  The words for sets of colors.

  A set is spelled by its letters, by `c` if it is empty, or by a name.

  1. **Spelling (`standsFor_iff`)** — names are looked up first, but no name is spelled by letters of
     colors, so the look-up hides no letters.
  2. **Codes (`colors?_of_standsFor`)** — a text is read as the codes of its letters, which depend on
     nothing but which letters there are.
  3. **Queries (`ofText_of_standsFor`)** — letters are no number, so after a color field they are
     colors and never how many.
  4. **The result (`colors?_spelled`)** — so texts with the same letters make queries with one tree.
-/

namespace CardSearch.Query

open Value

/-! ## Spelling -/

/-- The letters of the five colors. -/
def wheelLetters : List Char := Color.wheel.map Color.letter

/-- A text spells letters of colors: `c` none, and letters themselves. -/
inductive Spells : List Char → List Char → Prop where
  | none : Spells ['c'] []
  | letters {text : List Char} (nonempty : text ≠ []) (colored : ∀ c ∈ text, c ∈ wheelLetters) :
      Spells text text

/-- A text stands for letters of colors: for those that it spells, or for those of the name that it
    is. -/
def StandsFor (text letters : List Char) : Prop :=
  Spells text letters ∨ ∃ entry ∈ colorNames, text = entry.1.toList ∧ Spells entry.2.toList letters

/-- What is read for a name is what stands beside it in the table. -/
theorem colorLetters_of_name : ∀ entry ∈ colorNames,
    colorLetters entry.1.toList = entry.2.toList := by
  decide +kernel

/-- A name is not `c`, and has a letter that stands for no color and is in no number.  Beside it
    stand `c` or letters of colors. -/
theorem letters_of_name : ∀ entry ∈ colorNames,
    (entry.1.toList ≠ ['c'] ∧
      entry.1.toList.any (fun c => !wheelLetters.contains c && !Text.isNumeral c) = true) ∧
    (entry.2.toList = ['c'] ∨
      (entry.2.toList ≠ [] ∧ entry.2.toList.all wheelLetters.contains = true)) := by
  decide +kernel

/-- So a name has a character that is neither a color nor in a number, by which it is told from
    letters and from numbers. -/
theorem exists_foreign_of_name {entry : String × String} (h : entry ∈ colorNames) :
    ∃ c ∈ entry.1.toList, c ∉ wheelLetters ∧ Text.isNumeral c = false := by
  obtain ⟨c, hc, hboth⟩ := List.any_eq_true.mp (letters_of_name entry h).1.2
  rw [Bool.and_eq_true, Bool.not_eq_true', Bool.not_eq_true'] at hboth
  exact ⟨c, hc, fun hmem => by
    rw [List.contains_iff_mem.mpr hmem] at hboth
    exact absurd hboth.1 (by decide), hboth.2⟩

/-- What is no name is read as it is. -/
theorem colorLetters_cases (text : List Char) :
    colorLetters text = text ∨
      ∃ entry ∈ colorNames, text = entry.1.toList ∧ colorLetters text = entry.2.toList := by
  rw [colorLetters]
  cases hname : colorNames.lookup (String.ofList text) with
  | none => exact Or.inl rfl
  | some letters =>
    obtain ⟨before, after, hnames, _⟩ := List.lookup_eq_some_iff.mp hname
    refine Or.inr ⟨(String.ofList text, letters), ?_, String.toList_ofList.symm, rfl⟩
    rw [hnames]
    exact List.mem_append_right before List.mem_cons_self

/-- **No name is spelled by letters of colors**, so to look a text up among the names first hides
    no letters. -/
theorem not_spells_name : ∀ entry ∈ colorNames, ∀ letters, ¬ Spells entry.1.toList letters := by
  intro entry hentry letters hspells
  have hnone := (letters_of_name entry hentry).1.1
  obtain ⟨c, hc, hletter, _⟩ := exists_foreign_of_name hentry
  generalize entry.1.toList = text at hspells hnone hc
  cases hspells with
  | none => exact hnone rfl
  | letters _ hcolored => exact hletter (hcolored c hc)

/-- So the look-up finds what a text stands for: the letters beside a name, or the text itself. -/
theorem standsFor_iff {text letters : List Char} :
    StandsFor text letters ↔ Spells (colorLetters text) letters := by
  constructor
  · rintro (hspells | ⟨entry, hentry, rfl, hspells⟩)
    · rcases colorLetters_cases text with hkept | ⟨entry, hentry, rfl, _⟩
      · rwa [hkept]
      · exact absurd hspells (not_spells_name entry hentry letters)
    · rwa [colorLetters_of_name entry hentry]
  · intro hspells
    rcases colorLetters_cases text with hkept | ⟨entry, hentry, htext, hname⟩
    · exact Or.inl (hkept ▸ hspells)
    · exact Or.inr ⟨entry, hentry, htext, hname ▸ hspells⟩

/-- Every name stands for letters. -/
theorem exists_standsFor_iff {text : List Char} :
    (∃ letters, StandsFor text letters) ↔ (∃ entry ∈ colorNames, text = entry.1.toList) ∨
      text = ['c'] ∨ (text ≠ [] ∧ ∀ c ∈ text, c ∈ wheelLetters) := by
  constructor
  · rintro ⟨letters, hspells | ⟨entry, hentry, htext, _⟩⟩
    · cases hspells with
      | none => exact Or.inr (Or.inl rfl)
      | letters hnonempty hcolored => exact Or.inr (Or.inr ⟨hnonempty, hcolored⟩)
    · exact Or.inl ⟨entry, hentry, htext⟩
  · rintro (⟨entry, hentry, rfl⟩ | rfl | ⟨hnonempty, hcolored⟩)
    · rcases (letters_of_name entry hentry).2 with hnone | ⟨hnonempty, hcolored⟩
      · exact ⟨[], Or.inr ⟨entry, hentry, rfl, hnone ▸ .none⟩⟩
      · exact ⟨_, Or.inr ⟨entry, hentry, rfl, .letters hnonempty fun c hc =>
          List.contains_iff_mem.mp (List.all_eq_true.mp hcolored c hc)⟩⟩
    · exact ⟨[], Or.inl .none⟩
    · exact ⟨_, Or.inl (.letters hnonempty hcolored)⟩

/-! ## Codes -/

/-- The codes of the colors whose letters are in a list. -/
def codesOf (letters : List Char) : List String :=
  (Color.wheel.filter fun color => letters.contains color.letter).map Color.code

/-- Codes of letters: each once, in the order of the wheel, those of the letters and no others. -/
structure AreCodesOf (letters : List Char) (codes : List String) : Prop where
  nodup : codes.Nodup
  ordered : codes.Sublist ["W", "U", "B", "R", "G"]
  exact : ∀ color ∈ Color.wheel, color.code ∈ codes ↔ color.letter ∈ letters

/-- Going through the wheel gives the codes each once and in its order, whatever the order of the
    letters. -/
theorem areCodesOf_codesOf (letters : List Char) : AreCodesOf letters (codesOf letters) := by
  have hordered : (codesOf letters).Sublist ["W", "U", "B", "R", "G"] :=
    (List.filter_sublist (l := Color.wheel)).map Color.code
  refine ⟨hordered.nodup (by decide), hordered, fun color hcolor => ?_⟩
  have hinjective : ∀ a b : Color, a.code = b.code → a = b := by
    intro a b hcode
    cases a <;> cases b <;> first | rfl | exact absurd hcode (by decide)
  rw [codesOf, List.mem_map]
  constructor
  · rintro ⟨other, hother, hcode⟩
    obtain rfl := hinjective other color hcode
    exact List.contains_iff_mem.mp (List.mem_filter.mp hother).2
  · intro hletter
    exact ⟨color, List.mem_filter.mpr ⟨hcolor, List.contains_iff_mem.mpr hletter⟩, rfl⟩

/-- Which letters there are decides the codes, not how often they stand or in what order. -/
theorem codesOf_congr {letters others : List Char} (h : ∀ c, c ∈ letters ↔ c ∈ others) :
    codesOf letters = codesOf others := by
  refine congrArg (List.map Color.code) (List.filter_congr fun color _ => ?_)
  rw [Bool.eq_iff_iff, List.contains_iff_mem, List.contains_iff_mem, h]

/-- A text in the form in which it is read: without blank ends and in lower case. -/
def readForm (raw : String) : List Char := Text.lower (Text.trim raw.toList)

/-- **A text is read as the codes of the letters that it stands for.** By cases on whether it
    stands for `c` or for letters. -/
theorem colors?_of_standsFor {raw : String} {letters : List Char}
    (h : StandsFor (readForm raw) letters) : colors? raw.toList = some (codesOf letters) := by
  have hspells := standsFor_iff.mp h
  rw [readForm] at hspells
  rw [colors?]
  generalize colorLetters (Text.lower (Text.trim raw.toList)) = text at hspells
  cases hspells with
  | none => rfl
  | letters hnonempty hcolored =>
    have hnone : ¬ (letters == ['c']) = true := by
      intro hsame
      rw [eq_of_beq hsame] at hcolored
      exact absurd (hcolored 'c' List.mem_cons_self) (by decide)
    have hread : ¬ (letters.isEmpty || !letters.all wheelLetters.contains) = true := by
      have hall : letters.all wheelLetters.contains = true :=
        List.all_eq_true.mpr fun c hc => List.contains_iff_mem.mpr (hcolored c hc)
      rw [hall, List.isEmpty_eq_false_iff.mpr hnonempty]
      decide
    exact (if_neg hnone).trans (if_neg hread)

/-- What is read stands for letters. -/
theorem exists_standsFor_of_colors? {raw : String} {codes : List String}
    (h : colors? raw.toList = some codes) : ∃ letters, StandsFor (readForm raw) letters := by
  simp only [standsFor_iff, readForm]
  rw [colors?] at h
  generalize colorLetters (Text.lower (Text.trim raw.toList)) = text at h
  split at h
  · rename_i hnone
    exact ⟨[], eq_of_beq hnone ▸ .none⟩
  split at h
  · cases h
  · rename_i hread
    rw [Bool.or_eq_true, not_or, Bool.not_eq_true', Bool.not_eq_false] at hread
    obtain ⟨hnonempty, hall⟩ := hread
    refine ⟨text, .letters (fun hempty => hnonempty (List.isEmpty_iff.mpr hempty)) ?_⟩
    exact fun c hc => List.contains_iff_mem.mp (List.all_eq_true.mp hall c hc)

/-! ## Queries -/

/-- What stands for letters is no number. -/
theorem exists_other_of_standsFor {text letters : List Char} (h : StandsFor text letters) :
    ∃ c ∈ text, Text.isNumeral c = false := by
  rcases exists_standsFor_iff.mp ⟨letters, h⟩ with ⟨entry, hentry, rfl⟩ | rfl | ⟨hnonempty, hcolored⟩
  · obtain ⟨c, hc, _, hother⟩ := exists_foreign_of_name hentry
    exact ⟨c, hc, hother⟩
  · exact ⟨'c', List.mem_cons_self, by decide⟩
  · have hletters : ∀ c ∈ wheelLetters, Text.isNumeral c = false :=
      List.all_iff_forall_prop.mp (by decide)
    obtain ⟨first, rest, rfl⟩ := List.exists_cons_of_ne_nil hnonempty
    exact ⟨first, List.mem_cons_self, hletters first (hcolored first List.mem_cons_self)⟩

section

variable {raw : String} {letters : List Char} (h : StandsFor (readForm raw) letters)
include h

/-- What stands for letters is not empty, as not even `c` is. -/
theorem ne_empty_of_standsFor : raw ≠ "" := by
  rintro rfl
  obtain ⟨c, hc, _⟩ := exists_other_of_standsFor h
  have hnone : readForm "" = [] := by decide
  rw [hnone] at hc
  cases hc

/-- So it is colors to a color field, and not a number of them, which is tried first. -/
theorem ofKind?_of_standsFor : ofKind? .colors raw = some (.colors (codesOf letters)) := by
  obtain ⟨c, hc, hother⟩ := exists_other_of_standsFor h
  have hcount : unsigned64? (Text.trim raw.toList) = none := by
    rw [← Text.unsigned64?_lower]
    exact Text.unsigned64?_eq_none hc hother
  simp only [ofKind?, hcount, colors?_of_standsFor h, Option.map_some]

/-- **A query for colors is a query for the codes of their letters**, whatever the word and the
    operator. -/
theorem ofText_of_standsFor {text word : String} {field : Field} {operator : Operator}
    (hword : Field.ofAbbreviation? word = some field) (hkind : field.kind = .colors)
    (hcuts : Cuts text.toList [.comparison word operator raw]) :
    Filter.ofText text = .ok (some (.ofTree text
      (.condition ⟨field, operator, false, .colors (codesOf letters)⟩)
      (colorsTest field operator (codesOf letters)))) := by
  have hvalue : Value.ofText? field raw = some (.colors (codesOf letters)) := by
    rw [ofText?_of_kind hkind]
    exact ofKind?_of_standsFor h
  have hcondition : condition word operator raw =
      .ok ⟨field, operator, false, .colors (codesOf letters)⟩ :=
    condition_eq_ok_iff.mpr ⟨field, .colors (codesOf letters), hword,
      mem_operators_of_kind hkind operator, ne_empty_of_standsFor h, hvalue, rfl⟩
  exact ofText_of_condition hcuts hcondition (conditionTest_colors hkind operator _)

end

/-- **Color words depend only on the set of colors.**  The texts that are read are the names, `c`
    and the letters of colors, without regard to case and blank ends.  They are read as the codes of
    the letters that they stand for, each once and in the order of the wheel; `c` and `colorless` are
    none.  So words that stand for the same letters, in whatever order and however often, make
    filters with one tree, which match the same cards. -/
theorem colors?_spelled :
    (∀ raw : String, (∃ codes, colors? raw.toList = some codes) ↔
      (∃ entry ∈ colorNames, readForm raw = entry.1.toList) ∨ readForm raw = ['c'] ∨
        (readForm raw ≠ [] ∧ ∀ c ∈ readForm raw, c ∈ wheelLetters)) ∧
    (∀ (raw : String) (letters : List Char), StandsFor (readForm raw) letters →
      ∃ codes, colors? raw.toList = some codes ∧ AreCodesOf letters codes) ∧
    (∀ raw : String, readForm raw = ['c'] ∨ readForm raw = "colorless".toList →
      colors? raw.toList = some []) ∧
    ∀ (word : String) (field : Field), Field.ofAbbreviation? word = some field →
      field.kind = .colors → ∀ (first second : String) (letters others : List Char),
      StandsFor (readForm first) letters → StandsFor (readForm second) others →
      (∀ c, c ∈ letters ↔ c ∈ others) →
      ∀ (operator : Operator) (left right : String) (i j : Nat),
      tokenize left = .ok [⟨.comparison word operator first, i⟩] →
      tokenize right = .ok [⟨.comparison word operator second, j⟩] →
      ∃ f g, Filter.ofText left = .ok (some f) ∧ Filter.ofText right = .ok (some g) ∧
        f.query = g.query ∧ ∀ cards, select (some f) cards = select (some g) cards := by
  refine ⟨fun raw => ?_, fun raw letters h => ?_, fun raw h => ?_, ?_⟩
  · rw [← exists_standsFor_iff]
    constructor
    · rintro ⟨codes, hcodes⟩
      exact exists_standsFor_of_colors? hcodes
    · rintro ⟨letters, hletters⟩
      exact ⟨codesOf letters, colors?_of_standsFor hletters⟩
  · exact ⟨codesOf letters, colors?_of_standsFor h, areCodesOf_codesOf letters⟩
  · have hnone : StandsFor (readForm raw) [] := by
      rcases h with h | h
      · exact Or.inl (h ▸ .none)
      · exact Or.inr ⟨("colorless", "c"), by decide, h, .none⟩
    exact colors?_of_standsFor hnone
  · intro word field hword hkind first second letters others hfirst hsecond hsame operator left right
      i j hleft hright
    have hf := ofText_of_standsFor hfirst hword hkind (cuts_of_tokensFrom hleft)
    have hg := ofText_of_standsFor hsecond hword hkind (cuts_of_tokensFrom hright)
    rw [← codesOf_congr hsame] at hg
    exact ⟨_, _, hf, hg, rfl, fun cards => rfl⟩

/-- Two letters in disorder, one of them twice, are as good as the name of the pair. -/
theorem colors?_spelled_azorius :
    ∃ f g, Filter.ofText "c>=UwW" = .ok (some f) ∧ Filter.ofText "c>=Azorius" = .ok (some g) ∧
      f.query = g.query ∧ ∀ cards, select (some f) cards = select (some g) cards := by
  obtain ⟨-, -, -, hqueries⟩ := colors?_spelled
  have hletters : StandsFor (readForm "UwW") "uww".toList :=
    Or.inl (.letters (by decide) (List.all_iff_forall_prop.mp (by decide)))
  have hname : StandsFor (readForm "Azorius") "wu".toList :=
    Or.inr ⟨("azorius", "wu"), by decide, by decide +kernel,
      .letters (by decide) (List.all_iff_forall_prop.mp (by decide))⟩
  have hsame : ∀ c, c ∈ "uww".toList ↔ c ∈ "wu".toList := by
    intro c
    show c ∈ ['u', 'w', 'w'] ↔ c ∈ ['w', 'u']
    simp [or_comm]
  exact hqueries "c" .color (by decide) rfl "UwW" "Azorius" _ _ hletters hname hsame
    .greaterEqual "c>=UwW" "c>=Azorius" 0 0 (by decide +kernel) (by decide +kernel)

end CardSearch.Query
