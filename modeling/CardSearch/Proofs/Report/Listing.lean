import CardSearch.CommandLine.Run
import CardSearch.Proofs.Catalog.History
import CardSearch.Proofs.Query.Outcome
import CardSearch.Proofs.Report.Column

/-
  What a search shows.

  A page says how many cards matched and holds the first of them.  Its document says both numbers; its
  table gives a line to each card that is shown, and a last line that counts the others.

  1. **Pages (`cards_ofFilter`)** — a page holds the first cards that pass, as many as the limit lets
     through.
  2. **The crux (`row_ne_remainderLine`)** — a name is cut to its column, so the line of a card is never
     that of a remainder, whatever the card is called.
  3. **Tables (`getLast?_lines`, `table_eq_notice_iff`)** — so the last line and the notice that there
     are no cards can be told from the lines of cards.
  4. **Runs (`run_search`)** — said of what the program prints.  With a limit of zero it prints that
     there are no cards, also where some match (`run_limit_zero`).
-/

namespace CardSearch.Report.Page

/-! ## Pages -/

/-- How many cards of a number are shown under a limit. -/
def shownUnder (limit : Option Nat) (total : Nat) : Nat := (limit.map (min total)).getD total

section

variable (filter : Option Query.Filter) (cards : List Card) (limit : Option Nat)

/-- **A page holds the first cards that pass.** The program counts them all before it takes the
    first. -/
theorem cards_ofFilter :
    (ofFilter filter cards limit).cards =
      (Query.select filter cards).take (shownUnder limit (Query.select filter cards).length) := by
  cases limit with
  | none => exact List.take_length.symm
  | some n => exact List.take_eq_take_min.trans (congrArg (List.take · _) (Nat.min_comm _ _))

/-- So it holds as many as the limit lets through. -/
theorem length_cards_ofFilter :
    (ofFilter filter cards limit).cards.length =
      shownUnder limit (Query.select filter cards).length := by
  rw [cards_ofFilter, List.length_take]
  refine Nat.min_eq_left ?_
  cases limit with
  | none => exact Nat.le_refl _
  | some n => exact Nat.min_le_left _ _

end

/-! ## Lines -/

/-- The line of a remainder, as the table has it. -/
def remainderLine (colored : Bool) (count : Nat) : List Char :=
  paintIf colored .dim (remainder count)

/-- The line above the cards, as the table has it. -/
def headerLine (colored : Bool) : List Char := paintIf colored .dim header

/-- The notice that there are no cards. -/
def notice : List Char := "No cards found.".toList

theorem length_cell (name : List Char) : (pad 30 (truncate 30 name)).length = 30 := by
  have hlength := length_truncate_le (by decide : 3 ≤ 30) name
  rw [length_pad]
  omega

/-- What is trimmed at the end is the start of the text, so a character that is kept stands where
    it stood. -/
theorem getElem?_of_trimEnd {text kept : List Char} (h : Text.trimEnd text = kept) {i : Nat}
    (hi : i < kept.length) : text[i]? = kept[i]? := by
  obtain ⟨blanks, hblanks, -⟩ := Text.exists_append_trimEnd text
  rw [hblanks, h, List.getElem?_append_left hi]

/-- What turns the style of the name on, where colors are on. -/
def opening (colored : Bool) (style : Style) : List Char :=
  if colored then escape style.start else []

/-- Behind the cell of the name stands a blank, or what turns its style off. -/
theorem exists_behind (colored : Bool) (style : Style)
    (cell cost identity typeLine rarity set price : List Char) :
    ∃ next rest, columns (paintIf colored style cell) cost identity typeLine rarity set price =
      opening colored style ++ (cell ++ next :: rest) ∧ (next = ' ' ∨ next = '\x1b') := by
  cases colored with
  | false => exact ⟨' ', _, by simp [columns, paintIf, opening]; rfl, Or.inl rfl⟩
  | true => exact ⟨'\x1b', _, by simp [columns, paintIf, paint, opening, escape]; rfl, Or.inr rfl⟩

/-- **The line of a card is not the line of a remainder of none**: the name ends where the words
    of the remainder go on.  With and without colors its thirty first characters are compared with
    them. -/
theorem row_ne_remainderLine (colored : Bool) (card : Card) :
    row colored card ≠ remainderLine colored 0 := by
  intro hrow
  obtain ⟨next, rest, hline, hnext⟩ := exists_behind colored (identityStyle card.colorIdentity)
    (pad 30 (truncate 30 card.name.toList)) (truncate 14 (cost card.cost))
    (colors card.colorIdentity) (truncate 28 card.typeLine.toList) card.rarity.toList
    (Text.upper card.setCode.toList) (price card.price)
  have hwidth := length_cell card.name.toList
  rw [row, identityCell, hline] at hrow
  generalize pad 30 (truncate 30 card.name.toList) = cell at hrow hwidth
  generalize identityStyle card.colorIdentity = style at hrow
  have hplace : ∀ i < (remainderLine colored 0).length,
      (opening colored style ++ (cell ++ next :: rest))[i]? = (remainderLine colored 0)[i]? :=
    fun i hi => getElem?_of_trimEnd hrow hi
  have hbehind : (cell ++ next :: rest)[30]? = some next := by
    rw [← hwidth, List.getElem?_append_right (Nat.le_refl _), Nat.sub_self]
    rfl
  -- behind its first thirty characters the remainder has a letter of an option
  have hletter : next ≠ 'l' := by rcases hnext with rfl | rfl <;> decide
  cases colored with
  | false =>
    have hsame := hbehind.symm.trans (hplace 30 (by decide +kernel))
    exact hletter (Option.some.inj (hsame.trans (by decide +kernel)))
  | true =>
    by_cases hdim : style = .dim
    · subst hdim
      have hsame := hbehind.symm.trans (hplace 34 (by decide +kernel))
      exact hletter (Option.some.inj (hsame.trans (by decide +kernel)))
    · -- another style has another number
      have hnumber := hplace 2 (by decide +kernel)
      rw [List.getElem?_append_left (by cases style <;> decide)] at hnumber
      cases style <;> first | exact hdim rfl | exact absurd hnumber (by decide +kernel)

/-! ## Tables -/

section

variable {page : Page} (colored : Bool)

/-- A page with cards has a header, a line for each card, and one for the others if there are
    any. -/
theorem lines_of_cards (h : page.cards ≠ []) :
    page.lines colored = headerLine colored :: page.cards.map (row colored) ++
      if page.cards.length < page.total then
        [remainderLine colored (page.total - page.cards.length)]
      else [] := by
  rw [lines, if_neg (by simpa using h)]
  rfl

theorem lines_of_none (h : page.cards = []) : page.lines colored = [notice] := by
  rw [lines, if_pos (List.isEmpty_iff.mpr h)]
  rfl

/-- **The last line counts the cards that are not shown, exactly where some are and others are
    not.** It cannot be the line of a card that looks like it. -/
theorem getLast?_lines :
    (page.lines colored).getLast? =
        some (remainderLine colored (page.total - page.cards.length)) ↔
      page.cards ≠ [] ∧ page.cards.length < page.total := by
  by_cases hcards : page.cards = []
  · rw [lines_of_none colored hcards]
    refine iff_of_false (fun hlast => ?_) fun h => h.1 hcards
    have hline : notice = remainderLine colored _ := Option.some.inj hlast
    have hfirst : ∀ count, (remainderLine colored count).head? =
        some (if colored then '\x1b' else '.') := fun count => by cases colored <;> rfl
    have hsame := (congrArg List.head? hline).trans (hfirst _)
    cases colored <;> exact absurd hsame (by decide)
  rw [lines_of_cards colored hcards]
  by_cases hmore : page.cards.length < page.total
  · rw [if_pos hmore, List.getLast?_concat]
    exact iff_of_true rfl ⟨hcards, hmore⟩
  · -- all are shown, so the last line is that of a card
    refine iff_of_false (fun hlast => ?_) fun h => hmore h.2
    obtain ⟨others, card, hlist⟩ := (List.eq_nil_or_concat page.cards).resolve_left hcards
    rw [if_neg hmore, List.append_nil, Nat.sub_eq_zero_of_le (Nat.not_lt.mp hmore), hlist,
      List.map_concat, List.concat_eq_append, ← List.cons_append, List.getLast?_concat] at hlast
    exact row_ne_remainderLine colored card (Option.some.inj hlast)

/-- **The table is the notice exactly where no card is shown**, since the header is another line
    than the notice. -/
theorem table_eq_notice_iff : page.table colored = "No cards found.\n" ↔ page.cards = [] := by
  constructor
  · intro htable
    refine Classical.not_not.mp fun hcards => ?_
    have htext := congrArg String.toList htable
    rw [table, String.toList_ofList, lines_of_cards colored hcards, List.cons_append,
      List.flatMap_cons, List.append_assoc] at htext
    have hletter := congrArg (fun text : List Char => text[1]?) htext
    rw [List.getElem?_append_left (by cases colored <;> decide +kernel)] at hletter
    cases colored <;> exact absurd hletter (by decide)
  · intro hcards
    rw [table, lines_of_none colored hcards]
    rfl

end

/-! ## Documents -/

section

variable (page : Page)

theorem get?_total : page.toJson.get? "total" = some (.nat page.total) := rfl

theorem get?_shown : page.toJson.get? "shown" = some (.nat page.cards.length) := rfl

theorem get?_cards : page.toJson.get? "cards" = some (.list (page.cards.map cardJson)) := rfl

end

end CardSearch.Report.Page

namespace CardSearch.CommandLine

open Report Page

/-! ## Runs -/

/-- No card is shown where none passes, or the limit is zero and not lifted. -/
theorem shownUnder_eq_zero_iff {all : Bool} {limit setting : Option Nat} {total : Nat} :
    shownUnder (effectiveLimit all limit setting) total = 0 ↔
      total = 0 ∨ all = false ∧ limit.or setting = some 0 := by
  cases all with
  | true => simp [shownUnder, effectiveLimit]
  | false =>
    show min total ((limit.or setting).getD defaultLimit) = 0 ↔ _
    cases limit.or setting with
    | none =>
      have hlimit : 0 < defaultLimit := by decide
      simp only [Option.getD_none, reduceCtorEq, and_false, or_false]
      omega
    | some n =>
      simp only [Option.getD_some, Option.some.injEq, true_and]
      omega

section

variable {env : Environment} {d : Directory} {i : Invocation} {settings : Settings}
  {query path : String} {catalog : Option String} {limit : Option Nat} {all : Bool}
  {filter : Option Query.Filter} {cards : List Card}
  (hcommand : i.command = .search query catalog limit all)
  (hsettings : loadSettings env d = .ok settings)
  (hquery : Query.Filter.ofText query = .ok filter)
  (hpath : catalogPath env settings catalog = .ok path)
  (hcards : Catalog.load d path = .ok cards)
include hcommand hsettings hquery hpath hcards

/-- A search that can be made prints its page and changes nothing: settings, path and cards are
    read, and each of them could have failed. -/
theorem run_of_search (script : Shell → String) :
    run script env d i =
      let page := Page.ofFilter filter cards (effectiveLimit all limit settings.limit)
      let manner := Manner.of env settings i
      { directory := d, output := manner.print page.toJson (page.table manner.colored) } := by
  have hpage : searchPage env d settings query catalog limit all =
      .ok (.ofFilter filter cards (effectiveLimit all limit settings.limit)) := by
    simp only [searchPage, hquery, hpath, Except.mapError, bind, Except.bind, hcards]
    rfl
  simp only [run, hsettings, hcommand, runCommand, hpage]
  rfl

/-- **A search shows the first of the cards that pass, and says how many pass.**  The document gives
    both numbers.  The table has a line for each card that is shown, and its last line counts the
    others exactly where there are any, unless the limit is zero; then, and where no card passes, it
    is the notice that there are no cards. -/
theorem run_search (script : Shell → String) :
    (run script env d i).failure = none ∧ (run script env d i).directory = d ∧
      let matched := Query.select filter cards
      let total := matched.length
      let shown := if all then total else min total ((limit.or settings.limit).getD 50)
      let colored := (Manner.of env settings i).colored
      (i.json = true → ∃ document : Json, (run script env d i).output = document.pretty ++ "\n" ∧
        document.get? "total" = some (.nat total) ∧ document.get? "shown" = some (.nat shown) ∧
        document.get? "cards" = some (.list ((matched.take shown).map cardJson))) ∧
      (i.json = false → i.quiet = false → ∃ lines : List (List Char),
        (run script env d i).output = String.ofList (lines.flatMap (· ++ ['\n'])) ∧
        (0 < shown → lines = headerLine colored :: (matched.take shown).map (row colored) ++
          if shown < total then [remainderLine colored (total - shown)] else []) ∧
        (lines.getLast? = some (remainderLine colored (total - shown)) ↔
          0 < total - shown ∧ (all = true ∨ limit.or settings.limit ≠ some 0)) ∧
        ((run script env d i).output = "No cards found.\n" ↔
          total = 0 ∨ all = false ∧ limit.or settings.limit = some 0)) := by
  have hrun := run_of_search hcommand hsettings hquery hpath hcards script
  refine ⟨congrArg Outcome.failure hrun, congrArg Outcome.directory hrun, ?_⟩
  intro matched total shown colored
  have hshown : shownUnder (effectiveLimit all limit settings.limit) total = shown := by
    cases all <;> rfl
  have hpage : (Page.ofFilter filter cards (effectiveLimit all limit settings.limit)).cards =
      matched.take shown := by rw [← hshown]; exact cards_ofFilter filter cards _
  have hlength : (matched.take shown).length = shown := by
    rw [← hpage, ← hshown]; exact length_cards_ofFilter filter cards _
  have htotal : (Page.ofFilter filter cards (effectiveLimit all limit settings.limit)).total =
      total := rfl
  -- from here on only the cards of the page and its total are known of it
  generalize Page.ofFilter filter cards (effectiveLimit all limit settings.limit) = page
    at hrun hpage htotal
  have hzero : shown = 0 ↔ total = 0 ∨ all = false ∧ limit.or settings.limit = some 0 := by
    rw [← hshown]
    exact shownUnder_eq_zero_iff
  have hnone : page.cards = [] ↔ shown = 0 := by
    rw [hpage, ← List.length_eq_zero_iff, hlength]
  refine ⟨fun hjson => ?_, fun hjson hquiet => ?_⟩
  · have houtput : (run script env d i).output = page.toJson.pretty ++ "\n" :=
      (congrArg Outcome.output hrun).trans (if_pos hjson)
    refine ⟨page.toJson, houtput, ?_, ?_, ?_⟩
    · rw [get?_total, htotal]
    · rw [get?_shown, hpage, hlength]
    · rw [get?_cards, hpage]
  · have houtput : (run script env d i).output = page.table colored :=
      (congrArg Outcome.output hrun).trans
        ((if_neg (by simp [Manner.of, hjson])).trans (if_neg (by simp [Manner.of, hquiet])))
    refine ⟨page.lines colored, houtput, fun hsome => ?_, ?_, ?_⟩
    · rw [lines_of_cards colored (mt hnone.mp (Nat.ne_of_gt hsome)), hpage, hlength, htotal]
    · -- the last line is that of a remainder where some cards are shown and others are not
      have hlast := @getLast?_lines page colored
      rw [ne_eq, hnone, hpage, hlength, htotal, hzero, not_or,
        Classical.not_and_iff_not_or_not] at hlast
      rw [hlast, Nat.sub_pos_iff_lt, Bool.not_eq_false]
      exact ⟨fun h => ⟨h.2, h.1.2⟩, fun h => ⟨⟨by omega, h.2⟩, h.1⟩⟩
    · rw [houtput, table_eq_notice_iff, hnone, hzero]

end

/-! ## Two copies of a card -/

open Catalog (alone forest)

/-- The text of a catalog of two copies. -/
def copies : String := Catalog.toText [forest, forest]

/-- An environment without variables, in which only the home folder of the account is known. -/
def bare : Environment where
  value? _ := none
  accountHome := some "/home"

/-- A search of this catalog for all cards, without colors. -/
def listing (limit : Nat) : Invocation where
  command := .search "" (some "cards.json") (some limit) false
  noColor := true

theorem settings_alone (text : String) : loadSettings bare (alone text) = .ok {} := by rfl

theorem load_copies : Catalog.load (alone copies) "cards.json" = .ok [forest, forest] :=
  Catalog.load_alone (Catalog.ofText_toText (by simp [Catalog.storable_forest]))

theorem ofText_blank : Query.Filter.ofText "" = .ok none :=
  Query.ofText_eq_none_iff.mpr (by simp)

/-- With a limit of one, one copy is shown and one is counted. -/
theorem run_search_copies :
    (listing 1).command = .search "" (some "cards.json") (some 1) false ∧
      loadSettings bare (alone copies) = .ok {} ∧
      Query.Filter.ofText "" = .ok none ∧
      catalogPath bare {} (some "cards.json") = .ok "cards.json" ∧
      Catalog.load (alone copies) "cards.json" = .ok [forest, forest] ∧
      (run (fun _ => "") bare (alone copies) (listing 1)).output =
        String.ofList ([headerLine false, row false forest, remainderLine false 1].flatMap
          (· ++ ['\n'])) := by
  obtain ⟨-, -, -, htable⟩ := run_search rfl (settings_alone copies) ofText_blank rfl load_copies
    (fun _ => "") (i := listing 1)
  obtain ⟨lines, houtput, hlines, -⟩ := htable rfl rfl
  refine ⟨rfl, settings_alone copies, ofText_blank, rfl, load_copies, ?_⟩
  rw [houtput, hlines (by decide)]
  rfl

/-- **With a limit of zero the program says that there are no cards**, though both pass. -/
theorem run_limit_zero :
    Query.Filter.ofText "" = .ok none ∧
      Catalog.load (alone copies) "cards.json" = .ok [forest, forest] ∧
      (Query.select none [forest, forest]).length = 2 ∧
      (run (fun _ => "") bare (alone copies) (listing 0)).output = "No cards found.\n" := by
  refine ⟨ofText_blank, load_copies, rfl, ?_⟩
  rw [run_of_search rfl (settings_alone copies) ofText_blank rfl load_copies (i := listing 0)]
  exact (table_eq_notice_iff false).mpr rfl

end CardSearch.CommandLine
