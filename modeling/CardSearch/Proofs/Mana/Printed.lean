import CardSearch.Proofs.Mana.Items
import CardSearch.Proofs.Text.Ascii

/-
  The cost of a card is read back as it is printed.

  Cards spell a symbol with dashes and in any case, listings print it in braces, with slashes and in
  upper case, and queries read braces and slashes in lower case.

  1. **Symbols (`isCostGroup_normalizeSymbol`)** — a symbol of a card is cut at its dash into a group
     that a cost text can hold.
  2. **The crux (`lower_cost`)** — in lower case, what is printed for a cost are its groups in braces.
     A slash has taken the place of each dash, and that is how the parts of a group are joined.
  3. **Costs (`parseCost_cost`)** — so the reader of costs finds the groups of the card.
  4. **What is cut off (`parseCost_eq_none_of_dot`)** — a text with a dot in it is no cost.
-/

namespace CardSearch.Mana

/-! ## Symbols of cards -/

/-- A part of a symbol as cards spell it: a run of digits, or a letter in either case. -/
inductive IsCasedPart : List Char → Prop where
  | run {digits : List Char} (h : IsRun digits) : IsCasedPart digits
  | letter {c : Char} (h : IsLetter c.toLower) : IsCasedPart [c]

/-- A cost symbol as cards spell it: one part, or two with a dash between them. -/
def IsCardSymbol (symbol : String) : Prop :=
  ∃ parts : List (List Char), (parts.length = 1 ∨ parts.length = 2) ∧
    (∀ part ∈ parts, IsCasedPart part) ∧ symbol.toList = Text.join ['-'] parts

/-- A character of a part: a digit or a letter in either case. -/
def IsCasedChar (c : Char) : Prop := isDigit c = true ∨ IsLetter c.toLower

/-- A part consists of digits and letters. -/
theorem IsCasedPart.isCasedChar {part : List Char} (h : IsCasedPart part) {c : Char}
    (hc : c ∈ part) : IsCasedChar c := by
  cases h with
  | run hrun => exact Or.inl (hrun.all c hc)
  | letter hletter =>
    obtain rfl := List.mem_singleton.mp hc
    exact Or.inr hletter

/-- Only ASCII letters have a letter of costs for their lower case, so the whole symbol is ASCII
    and its case is simple. -/
theorem IsCasedChar.ascii {c : Char} (h : IsCasedChar c) : c.toNat < 0x80 := by
  rcases h with hdigit | hletter
  · have := (toNat_of_isDigit hdigit).2
    omega
  · rcases Text.toLower_cases c with ⟨_, hhigh, _⟩ | ⟨_, hkept⟩
    · omega
    · rw [hkept] at hletter
      have hcost : isCostChar c = true :=
        Bool.or_eq_true_iff.mpr (Or.inr (isCostLetter_iff.mpr hletter))
      exact (isCostChar_apart hcost).1.1.1

theorem lowerAscii_of_isRun {digits : List Char} (h : IsRun digits) :
    Text.lowerAscii digits = digits :=
  (List.map_congr_left fun c hc => (isInert_of_isDigit (h.all c hc)).1.2).trans (List.map_id digits)

/-- In lower case, a part is one that cost texts hold: a run stays, and a letter becomes one of
    the grammar. -/
theorem IsCasedPart.isCostPart {part : List Char} (h : IsCasedPart part) :
    isCostPart (Text.lowerAscii part) = true := by
  rw [isCostPart_iff]
  cases h with
  | run hrun =>
    rw [lowerAscii_of_isRun hrun]
    exact .run hrun
  | letter hletter => exact .letter hletter

/-- A symbol holds the characters of its parts and dashes, which are all ASCII. -/
theorem IsCardSymbol.ascii {symbol : String} (h : IsCardSymbol symbol) :
    ∀ c ∈ symbol.toList, c.toNat < 0x80 := by
  obtain ⟨parts, _, hparts, hsymbol⟩ := h
  intro c hc
  rw [hsymbol] at hc
  rcases Text.mem_join hc with rfl | ⟨part, hpart, hmem⟩
  · decide
  · exact ((hparts part hpart).isCasedChar hmem).ascii

/-- Lower case keeps the dashes, so a symbol is cut into its parts in lower case, one for each
    part as it is spelled. -/
theorem normalizeSymbol_of_parts {symbol : String} {parts : List (List Char)} (hne : parts ≠ [])
    (hparts : ∀ part ∈ parts, IsCasedPart part) (hascii : ∀ c ∈ symbol.toList, c.toNat < 0x80)
    (hsymbol : symbol.toList = Text.join ['-'] parts) :
    normalizeSymbol symbol = parts.map fun part => String.ofList (Text.lowerAscii part) := by
  have hdash : ∀ part ∈ parts.map Text.lowerAscii, '-' ∉ part := by
    intro part hpart hmem
    obtain ⟨cased, hcased, rfl⟩ := List.mem_map.mp hpart
    have hchar := isCostChar_of_isCostPart (hparts cased hcased).isCostPart '-' hmem
    exact absurd hchar (by decide)
  have hjoin : Text.lowerAscii (Text.join ['-'] parts) =
      Text.join ['-'] (parts.map Text.lowerAscii) := Text.map_join Char.toLower '-' parts
  rw [normalizeSymbol, Text.lower_of_ascii hascii, hsymbol, hjoin, Text.splitBy_eq_splitOn,
    Text.join_eq_intercalate, List.splitOn_intercalate '-' hdash (by simpa using hne), List.map_map]
  rfl

/-- **A symbol of a card is cut into a group of costs**, of one or two parts that the grammar of
    cost texts knows. -/
theorem isCostGroup_normalizeSymbol {symbol : String} (h : IsCardSymbol symbol) :
    IsCostGroup (normalizeSymbol symbol) := by
  have hascii := h.ascii
  obtain ⟨parts, hcount, hparts, hsymbol⟩ := h
  have hne : parts ≠ [] := by
    rintro rfl
    simp at hcount
  rw [normalizeSymbol_of_parts hne hparts hascii hsymbol]
  refine ⟨by simpa using hne, ?_, ?_⟩
  · rw [List.length_map]
    omega
  · intro part hpart
    obtain ⟨cased, hcased, rfl⟩ := List.mem_map.mp hpart
    rw [String.toList_ofList]
    exact (hparts cased hcased).isCostPart

/-- The marker of split costs is no symbol, since it is one part of five letters. -/
theorem IsCardSymbol.ne_split {symbol : String} (h : IsCardSymbol symbol) : symbol ≠ "split" := by
  rintro rfl
  obtain ⟨parts, _, hparts, hsymbol⟩ := h
  have hmem : 't' ∈ Text.join ['-'] parts := hsymbol ▸ (by decide)
  rcases Text.mem_join hmem with hdash | ⟨part, hpart, hin⟩
  · exact absurd hdash (by decide)
  · rcases (hparts part hpart).isCasedChar hin with hdigit | hletter
    · exact absurd hdigit (by decide)
    · exact absurd hletter (by decide)

theorem normalizeCost_of_symbols {symbols : List String}
    (h : ∀ symbol ∈ symbols, IsCardSymbol symbol) :
    normalizeCost symbols = symbols.map normalizeSymbol := by
  rw [normalizeCost, List.filter_eq_self.mpr fun symbol hsymbol =>
    bne_iff_ne.mpr (h symbol hsymbol).ne_split]

/-! ## Costs as they are printed -/

/-- What is printed for a character of a symbol. -/
def printedChar (c : Char) : Char := Text.exchange '-' '/' c.toUpper

/-- Upper case and the exchange of dashes are undone by lower case, up to the exchange.  This is
    checked for all ASCII characters. -/
theorem toLower_printedChar {c : Char} (h : c.toNat < 0x80) :
    (printedChar c).toLower = Text.exchange '-' '/' c.toLower ∧ (printedChar c).toNat < 0x80 :=
  Text.forall_ascii (P := fun c => (printedChar c).toLower = Text.exchange '-' '/' c.toLower ∧
    (printedChar c).toNat < 0x80) (by decide) h

/-- What is printed for a symbol, character by character: in ASCII neither the upper case nor the
    exchange looks at its neighbours. -/
theorem replace_upper {symbol : List Char} (h : ∀ c ∈ symbol, c.toNat < 0x80) :
    Text.replace ['-'] ['/'] (Text.upper symbol) = symbol.map printedChar := by
  rw [Text.upper_of_ascii h, Text.replace_char, List.map_map]
  rfl

/-- Between the braces of a group are the characters of its symbol, with slashes for the dashes,
    as cutting at the one and joining by the other is an exchange. -/
theorem slashed_normalizeSymbol {symbol : String} (h : ∀ c ∈ symbol.toList, c.toNat < 0x80) :
    slashed (normalizeSymbol symbol) =
      symbol.toList.map fun c => Text.exchange '-' '/' c.toLower := by
  have hwords : (normalizeSymbol symbol).map String.toList =
      Text.splitBy (· == '-') (Text.lower symbol.toList) := by
    simp [normalizeSymbol, Function.comp_def]
  rw [slashed, hwords, Text.join_splitBy, Text.lower_of_ascii h, Text.lowerAscii, List.map_map]
  rfl

/-- A printed cost is ASCII: braces, slashes and the characters of its symbols. -/
theorem ascii_of_mem_cost {symbols : List String}
    (h : ∀ symbol ∈ symbols, ∀ c ∈ symbol.toList, c.toNat < 0x80) :
    ∀ c ∈ Report.cost symbols, c.toNat < 0x80 := by
  intro c hc
  obtain ⟨symbol, hsymbol, hmem⟩ := List.mem_flatMap.mp hc
  rw [replace_upper (h symbol hsymbol), Report.braced, List.cons_append] at hmem
  rcases List.mem_cons.mp hmem with rfl | hmem
  · decide
  rcases List.mem_append.mp hmem with hmem | hmem
  · obtain ⟨d, hd, rfl⟩ := List.mem_map.mp hmem
    exact (toLower_printedChar (h symbol hsymbol d hd)).2
  · obtain rfl := List.mem_singleton.mp hmem
    decide

/-- **The crux**: in lower case, what is printed for a cost are its groups in braces.  So printing
    and reading meet in one text, that of the groups. -/
theorem lower_cost {symbols : List String}
    (h : ∀ symbol ∈ symbols, ∀ c ∈ symbol.toList, c.toNat < 0x80) :
    Text.lower (Report.cost symbols) = (symbols.map normalizeSymbol).flatMap spelled := by
  rw [Text.lower_of_ascii (ascii_of_mem_cost h), Report.cost, Text.lowerAscii, List.map_flatMap,
    List.flatMap_map]
  refine List.flatMap_congr fun symbol hsymbol => ?_
  have hsymbols := h symbol hsymbol
  have hlower : (symbol.toList.map printedChar).map Char.toLower =
      slashed (normalizeSymbol symbol) := by
    rw [slashed_normalizeSymbol hsymbols, List.map_map]
    exact List.map_congr_left fun c hc => (toLower_printedChar (hsymbols c hc)).1
  rw [replace_upper hsymbols, spelled, ← hlower]
  simp [Report.braced]

/-- Blanks have no case, so a text is without blanks if it is in lower case. -/
theorem isBlank_toLower {c : Char} (h : c.toNat < 0x80) :
    Text.isBlank c.toLower = Text.isBlank c :=
  Text.forall_ascii (P := fun c => Text.isBlank c.toLower = Text.isBlank c) (by decide) h

section

variable {symbols : List String} (h : ∀ symbol ∈ symbols, IsCardSymbol symbol)
include h

/-- The groups of a card whose symbols are spelled so are groups of costs. -/
theorem isCostGroup_of_symbols : ∀ group ∈ symbols.map normalizeSymbol, IsCostGroup group := by
  intro group hgroup
  obtain ⟨symbol, hsymbol, rfl⟩ := List.mem_map.mp hgroup
  exact isCostGroup_normalizeSymbol (h symbol hsymbol)

/-- A printed cost holds nothing that ends a value: neither a blank nor a closing parenthesis.  So
    it can stand in a query as it is. -/
theorem plain_of_mem_cost {c : Char} (hc : c ∈ Report.cost symbols) :
    Text.isBlank c = false ∧ c ≠ ')' := by
  have hascii := ascii_of_mem_cost fun symbol hsymbol => (h symbol hsymbol).ascii
  have hlower : c.toLower ∈ Text.lower (Report.cost symbols) := by
    rw [Text.lower_of_ascii hascii]
    exact List.mem_map_of_mem hc
  rw [lower_cost fun symbol hsymbol => (h symbol hsymbol).ascii] at hlower
  obtain ⟨group, hgroup, hmem⟩ := List.mem_flatMap.mp hlower
  have hcost := isCostGroup_of_symbols h group hgroup
  constructor
  · rw [← isBlank_toLower (hascii c hc)]
    exact (hcost.isInert_of_mem_spelled hmem).2
  · rintro rfl
    rw [spelled, Report.braced, List.cons_append, List.mem_cons, List.mem_append,
      List.mem_singleton] at hmem
    rcases hmem with hopen | hslashed | hclose
    · exact absurd hopen (by decide)
    · rcases hcost.mem_slashed hslashed with hslash | hchar
      · exact absurd hslash (by decide)
      · exact absurd hchar (by decide)
    · exact absurd hclose (by decide)

/-- **A printed cost is read as the groups of the card.** The reader puts it in lower case, and
    there it is the text of these groups. -/
theorem parseCost_cost (hne : symbols ≠ []) :
    parseCost (String.ofList (Report.cost symbols)) = some (normalizeCost symbols) := by
  rw [parseCost_eq_some_iff, String.toList_ofList,
    Text.trim_eq_self fun c hc => (plain_of_mem_cost h hc).1,
    lower_cost fun symbol hsymbol => (h symbol hsymbol).ascii, normalizeCost_of_symbols h]
  exact ⟨by simpa using hne, costFrom_spelled (isCostGroup_of_symbols h)⟩

end

/-! ## What is no cost -/

/-- No item holds a dot, in none of its parts and blanks. -/
theorem dot_not_mem_text (item : Item) : '.' ∉ item.text := by
  cases item with
  | braced parts count =>
    intro hmem
    rw [Item.text, List.cons_append, List.mem_cons, List.mem_append, List.mem_singleton] at hmem
    -- a brace, a slash, a blank beside a part, or a character of a part
    rcases hmem with hopen | hjoin | hclose
    · exact absurd hopen (by decide)
    · rcases Text.mem_join hjoin with hslash | ⟨piece, hpiece, hin⟩
      · exact absurd hslash (by decide)
      · obtain ⟨p, _, rfl⟩ := List.mem_map.mp hpiece
        rcases List.mem_append.mp hin with hin | hafter
        · rcases List.mem_append.mp hin with hbefore | hpart
          · exact absurd (p.isBlank_before '.' hbefore) (by decide)
          · exact absurd (p.isCostChar hpart) (by decide)
        · exact absurd (p.isBlank_after '.' hafter) (by decide)
    · exact absurd hclose (by decide)
  | run digits h => exact fun hmem => absurd (h.all '.' hmem) (by decide)
  | letter c h =>
    intro hmem
    obtain rfl := List.mem_singleton.mp hmem
    exact absurd h (by decide)

/-- **A text with a dot in it is no cost.** So a column that was cut off with three dots is
    refused, and not read as another cost. -/
theorem parseCost_eq_none_of_dot {text : String} (h : '.' ∈ text.toList) :
    parseCost text = none := by
  cases hread : parseCost text with
  | none => rfl
  | some cost =>
    obtain ⟨_, hcost⟩ := parseCost_eq_some_iff.mp hread
    obtain ⟨items, _, hwritten, _⟩ := exists_items hcost
    have htrimmed : '.' ∈ Text.trim text.toList := Text.mem_trim (by decide) h
    have hsmall : Text.IsSmall '.' := ⟨by decide, rfl⟩
    have hlower := Text.mem_lower hsmall.isLowered htrimmed
    rw [← hwritten] at hlower
    obtain ⟨item, _, hmem⟩ := List.mem_flatMap.mp hlower
    exact absurd hmem (dot_not_mem_text item)

end CardSearch.Mana
