import CardSearch.Proofs.Query.Origin
import CardSearch.Proofs.Query.Single
import CardSearch.Proofs.Report.Truncation
import CardSearch.Proofs.Report.Unescaped
import CardSearch.Proofs.Text.Trim
import CardSearch.Report.Outline
import CardSearch.Report.Page

/-
  What colors add to listings.

  Painted text shows the text that was painted, so a listing with colors would show the listing without
  them, were it not that the line of a card is trimmed when its name has been painted already.

  1. **The crux (`row_of_visible`, `row_of_blank`)** — where something stands behind the name, both lines
     are trimmed behind it.  Where all is blank, the plain line loses the blanks of the name too, and the
     colored one keeps them in front of the escape sequence.
  2. **Cards (`Bare`)** — said by what a card has: nothing behind its name that is no blank, and a name
     that leaves blanks in its column.
  3. **Tables (`strip_table`)** — so exactly the lines of bare cards are not shown as they are without
     colors; they have blanks behind them.
  4. **Outlines (`strip_outline`)** — nothing is trimmed in an outline, and it shows the same with
     colors.  The values in it are read from the text of the query, so this has to be looked at alone.
-/

namespace CardSearch.Report

/-- A text of blanks. -/
def Blank (text : List Char) : Prop := ∀ c ∈ text, Text.isBlank c = true

instance (text : List Char) : Decidable (Blank text) :=
  decidable_of_iff (text.all Text.isBlank = true) List.all_eq_true

theorem blank_nil : Blank [] := fun _ hc => nomatch hc

theorem blank_append {a b : List Char} : Blank (a ++ b) ↔ Blank a ∧ Blank b :=
  List.forall_mem_append

theorem blank_cons {c : Char} {text : List Char} :
    Blank (c :: text) ↔ Text.isBlank c = true ∧ Blank text :=
  List.forall_mem_cons

theorem blank_replicate (n : Nat) : Blank (List.replicate n ' ') := by
  intro c hc
  obtain rfl := List.eq_of_mem_replicate hc
  decide

theorem blank_pad {width : Nat} {text : List Char} : Blank (pad width text) ↔ Blank text :=
  blank_append.trans (and_iff_left (blank_replicate _))

namespace Page

/-! ## Rows -/

/-- The column of a name. -/
def nameCell (card : Card) : List Char := pad 30 (truncate 30 card.name.toList)

/-- What stands behind the name in the line of a card, before the line is trimmed. -/
def behindName (card : Card) : List Char :=
  columns [] (truncate 14 (cost card.cost)) (colors card.colorIdentity)
    (truncate 28 card.typeLine.toList) card.rarity.toList (Text.upper card.setCode.toList)
    (price card.price)

/-- A line is the cell of the name, painted or not, and what stands behind it, without the blanks
    at the end. -/
theorem row_eq (colored : Bool) (card : Card) : row colored card = Text.trimEnd
    (paintIf colored (identityStyle card.colorIdentity) (nameCell card) ++ behindName card) := by
  simp only [row, identityCell, nameCell, behindName, columns, List.append_assoc, List.cons_append,
    List.nil_append]

/-- The texts of a card that its line shows hold no escape character. -/
structure UnescapedCard (card : Card) : Prop where
  name : Unescaped card.name.toList
  cost : ∀ symbol ∈ card.cost, Unescaped symbol.toList
  identity : ∀ code ∈ card.colorIdentity, Unescaped code.toList
  typeLine : Unescaped card.typeLine.toList
  rarity : Unescaped card.rarity.toList
  set : Unescaped card.setCode.toList

section

variable {card : Card}

theorem UnescapedCard.nameCell (h : UnescapedCard card) : Unescaped (nameCell card) :=
  unescaped_pad (unescaped_truncate h.name 30) 30

/-- What stands behind the name is made of texts of the card, each cut, filled or put in upper
    case. -/
theorem UnescapedCard.behindName (h : UnescapedCard card) : Unescaped (behindName card) := by
  have hcost := unescaped_pad (unescaped_truncate (unescaped_cost h.cost) 14) 14
  have hidentity := unescaped_pad (unescaped_colors h.identity) 5
  have htypeLine := unescaped_pad (unescaped_truncate h.typeLine 28) 28
  have hrarity := unescaped_pad h.rarity 8
  have hset := unescaped_pad (unescaped_upper h.set) 5
  have hspace : ' ' ≠ escapeChar := by decide
  simp [Page.behindName, columns, hcost, hidentity, htypeLine, hrarity, hset, hspace,
    unescaped_price]

/-- Where something stands behind the name, both lines end there, so the blanks of the name stay
    in both. -/
theorem row_of_visible (hvisible : ¬ Blank (behindName card)) (colored : Bool) :
    row colored card =
      paintIf colored (identityStyle card.colorIdentity) (nameCell card) ++
        Text.trimEnd (behindName card) := by
  obtain ⟨c, hc⟩ := not_forall.mp hvisible
  obtain ⟨hmem, hblank⟩ := Classical.not_imp.mp hc
  rw [row_eq, Text.trimEnd_append hmem (Bool.eq_false_iff.mpr hblank)]

/-- Where all is blank behind it, the line ends with the name, or with the sequence that turns
    off its style.  That sequence is no blank, so nothing before it is trimmed. -/
theorem row_of_blank (hblank : Blank (behindName card)) :
    row true card = paint (identityStyle card.colorIdentity) (nameCell card) ∧
      row false card = Text.trimEnd (nameCell card) := by
  constructor
  · rw [row_eq, Text.trimEnd_append_blanks hblank]
    show Text.trimEnd (_ ++ ('\x1b' :: '[' :: (_ ++ ['m']))) = _ ++ ('\x1b' :: '[' :: (_ ++ ['m']))
    rw [← List.cons_append, ← List.cons_append, ← List.append_assoc]
    exact Text.trimEnd_concat _ (by decide)
  · rw [row_eq, Text.trimEnd_append_blanks hblank]
    rfl

/-! ## Bare cards -/

/-- A name that leaves no blanks in its column: it is cut there, or it just fills it and ends in no
    blank. -/
def FillsColumn (name : List Char) : Prop :=
  30 < name.length ∨ name.length = 30 ∧ Text.trimEnd name = name

instance (name : List Char) : Decidable (FillsColumn name) :=
  inferInstanceAs (Decidable (30 < name.length ∨ name.length = 30 ∧ Text.trimEnd name = name))

/-- A card of which nothing is to be seen behind its name, and whose name leaves blanks in its
    column. -/
structure Bare (card : Card) : Prop where
  cost : card.cost = []
  identity : card.colorIdentity ≠ [] ∧ ∀ code ∈ card.colorIdentity, Blank code.toList
  typeLine : card.typeLine.toList.length ≤ 28 ∧ Blank card.typeLine.toList
  rarity : Blank card.rarity.toList
  set : Blank (Text.upper card.setCode.toList)
  price : card.price = none
  name : ¬ FillsColumn card.name.toList

/-- A text that is cut ends in dots, so it is blank only if it fits. -/
theorem blank_truncate {width : Nat} {text : List Char} :
    Blank (truncate width text) ↔ text.length ≤ width ∧ Blank text := by
  rw [truncate]
  split
  · rename_i hlong
    refine iff_of_false (fun hblank => ?_) fun hboth => Nat.not_le.mpr hlong hboth.1
    exact absurd (blank_append.mp hblank).2 (by decide)
  · rename_i hshort
    exact (and_iff_right (Nat.not_lt.mp hshort)).symm

/-- A cost has braces around each symbol, so only the empty one is blank. -/
theorem blank_cost {symbols : List String} : Blank (Report.cost symbols) ↔ symbols = [] := by
  cases symbols with
  | nil => exact iff_of_true (fun c hc => nomatch hc) rfl
  | cons symbol rest =>
    refine iff_of_false (fun hblank => ?_) (List.cons_ne_nil symbol rest)
    exact absurd (hblank '\x7b' List.mem_cons_self) (by decide)

/-- The color identity is never blank, unless it has codes and all of them are: an empty one is
    shown as `C`. -/
theorem blank_colors {codes : List String} :
    Blank (colors codes) ↔ codes ≠ [] ∧ ∀ code ∈ codes, Blank code.toList := by
  cases codes with
  | nil => exact iff_of_false (by decide) fun hboth => hboth.1 rfl
  | cons code rest =>
    show Blank ((code :: rest).flatMap String.toList) ↔ _
    rw [and_iff_right (List.cons_ne_nil code rest)]
    constructor
    · exact fun h code hcode c hc => h c (List.mem_flatMap.mpr ⟨code, hcode, hc⟩)
    · intro h c hc
      obtain ⟨code, hcode, hc⟩ := List.mem_flatMap.mp hc
      exact h code hcode c hc

theorem blank_price {price : Option Number} : Blank (Report.price price) ↔ price = none := by
  cases price with
  | none => exact iff_of_true (fun c hc => nomatch hc) rfl
  | some x =>
    refine iff_of_false (fun hblank => ?_) (Option.some_ne_none x)
    exact absurd (hblank '$' List.mem_cons_self) (by decide)

/-- The cell of a name keeps its end exactly if the name fills it, or is cut, and has no blank
    there. -/
theorem trimEnd_nameCell_iff :
    Text.trimEnd (nameCell card) = nameCell card ↔ FillsColumn card.name.toList := by
  rw [nameCell, FillsColumn]
  generalize card.name.toList = name
  by_cases hlong : 30 < name.length
  · -- dots are not trimmed
    refine iff_of_true ?_ (Or.inl hlong)
    have hcut : pad 30 (truncate 30 name) = (name.take 27 ++ ['.', '.']) ++ ['.'] := by
      rw [pad, length_truncate, truncate, if_pos hlong, if_pos hlong]
      simp
    rw [hcut]
    exact Text.trimEnd_concat _ (by decide)
  have hwhole : truncate 30 name = name := by rw [truncate, if_neg hlong]
  rw [hwhole, or_iff_right hlong, pad, Text.trimEnd_append_blanks (blank_replicate _)]
  by_cases hfits : name.length = 30
  · rw [hfits, Nat.sub_self, List.replicate_zero, List.append_nil, and_iff_right rfl]
  · -- the filling is trimmed
    refine iff_of_false (fun hkept => ?_) fun hboth => hfits hboth.1
    have hlength := congrArg List.length hkept
    rw [List.length_append, List.length_replicate] at hlength
    have hle := Text.length_trimEnd_le name
    omega

/-- Every column adds its own text, and blanks; so all is blank behind the name if each column
    is. -/
theorem blank_behindName_iff : Blank (behindName card) ↔ card.cost = [] ∧
    (card.colorIdentity ≠ [] ∧ ∀ code ∈ card.colorIdentity, Blank code.toList) ∧
    (card.typeLine.toList.length ≤ 28 ∧ Blank card.typeLine.toList) ∧
    Blank card.rarity.toList ∧ Blank (Text.upper card.setCode.toList) ∧ card.price = none := by
  have hcost : Blank (truncate 14 (Report.cost card.cost)) ↔ card.cost = [] := by
    rw [blank_truncate, blank_cost]
    refine and_iff_right_of_imp fun hnone => ?_
    rw [hnone]
    decide
  have hspace : Text.isBlank ' ' = true := by decide
  simp only [behindName, columns, blank_append, blank_cons, blank_pad, hcost, blank_colors,
    blank_truncate, blank_price, hspace, blank_nil, true_and, and_assoc]

/-- So a card is bare if its line without colors ends within the name. -/
theorem bare_iff : Bare card ↔
    Blank (behindName card) ∧ Text.trimEnd (nameCell card) ≠ nameCell card := by
  show Bare card ↔ _ ∧ ¬ Text.trimEnd (nameCell card) = nameCell card
  rw [blank_behindName_iff, trimEnd_nameCell_iff]
  constructor
  · rintro ⟨hcost, hidentity, htypeLine, hrarity, hset, hprice, hname⟩
    exact ⟨⟨hcost, hidentity, htypeLine, hrarity, hset, hprice⟩, hname⟩
  · rintro ⟨⟨hcost, hidentity, htypeLine, hrarity, hset, hprice⟩, hname⟩
    exact ⟨hcost, hidentity, htypeLine, hrarity, hset, hprice, hname⟩

/-- **The crux**: a line with colors shows the line without them, and blanks behind it just where
    the card is bare.  By cases on whether anything stands behind the name. -/
theorem exists_row_shows (h : UnescapedCard card) :
    ∃ filling, Blank filling ∧ Shows (row true card) (row false card ++ filling) ∧
      (filling = [] ↔ ¬ Bare card) := by
  rw [bare_iff]
  by_cases hblank : Blank (behindName card)
  · obtain ⟨hcolored, hplain⟩ := row_of_blank hblank
    -- what is trimmed only without colors are the blanks that fill the cell
    obtain ⟨filling, hfilling, hfillingBlank⟩ := Text.exists_append_trimEnd (nameCell card)
    refine ⟨filling, hfillingBlank, ?_, ?_⟩
    · rw [hcolored, hplain, ← hfilling]
      exact h.nameCell.shows_paint _
    · rw [not_and, not_not, imp_iff_right hblank]
      constructor
      · rintro rfl
        rwa [List.append_nil, eq_comm] at hfilling
      · intro hkept
        rw [hkept] at hfilling
        exact List.self_eq_append_right.mp hfilling
  · refine ⟨[], (fun c hc => nomatch hc), ?_, iff_of_true rfl fun hboth => hblank hboth.1⟩
    -- both lines end behind the name, where nothing is painted
    have hend : Unescaped (Text.trimEnd (behindName card)) := by
      obtain ⟨blanks, htext, -⟩ := Text.exists_append_trimEnd (behindName card)
      have hwhole := h.behindName
      rw [htext] at hwhole
      exact (unescaped_append.mp hwhole).1
    rw [row_of_visible hblank, row_of_visible hblank, List.append_nil]
    exact (h.nameCell.shows_paint _).append hend.shows

end

/-! ## Tables -/

/-- A line with colors and the line without them, where the table differs in nothing but blanks
    behind the lines of bare cards. -/
def ShowsLine (cards : List Card) (colored plain : List Char) : Prop :=
  ∃ filling, Blank filling ∧ Shows colored (plain ++ filling) ∧
    (filling = [] ∨ ∃ card ∈ cards, Bare card ∧ colored = row true card ∧ plain = row false card)

theorem showsLine_paint {text : List Char} (h : Unescaped text) (cards : List Card) (style : Style) :
    ShowsLine cards (paint style text) text := by
  refine ⟨[], blank_nil, ?_, Or.inl rfl⟩
  rw [List.append_nil]
  exact h.shows_paint style

theorem unescaped_header : Unescaped header := by decide +kernel

theorem unescaped_remainder (count : Nat) : Unescaped (remainder count) := by
  have hstart : Unescaped "... ".toList := by decide
  have hend : Unescaped " more (use --limit or --all to show them)".toList := by decide
  exact unescaped_append.mpr ⟨unescaped_append.mpr ⟨hstart, unescaped_digits count⟩, hend⟩

variable {page : Page}

/-- The line of a card is shown as the table without colors has it, but for blanks of bare cards. -/
theorem showsLine_row {cards : List Card} {card : Card} (hmem : card ∈ cards)
    (h : UnescapedCard card) : ShowsLine cards (row true card) (row false card) := by
  obtain ⟨filling, hblank, hshows, hbare⟩ := exists_row_shows h
  refine ⟨filling, hblank, hshows, ?_⟩
  by_cases hcard : Bare card
  · exact Or.inr ⟨card, hmem, hcard, rfl, rfl⟩
  · exact Or.inl (hbare.mpr hcard)

/-- **Line by line**: the header, the rows, and the line of a remainder.  By induction on the
    cards of the page. -/
theorem showsLine_lines (h : ∀ card ∈ page.cards, UnescapedCard card) :
    List.Forall₂ (ShowsLine page.cards) (page.lines true) (page.lines false) := by
  have hrows : ∀ cards : List Card, cards ⊆ page.cards →
      List.Forall₂ (ShowsLine page.cards) (cards.map (row true)) (cards.map (row false)) := by
    intro cards hcards
    induction cards with
    | nil => exact .nil
    | cons card rest ih =>
      obtain ⟨hcard, hrest⟩ := List.cons_subset.mp hcards
      exact .cons (showsLine_row hcard (h card hcard)) (ih hrest)
  rw [lines, lines]
  split
  · have hnotice : Unescaped "No cards found.".toList := by decide
    refine .cons ⟨[], blank_nil, ?_, Or.inl rfl⟩ .nil
    rw [List.append_nil]
    exact hnotice.shows
  · refine List.rel_append (.cons (showsLine_paint unescaped_header _ .dim) (hrows _ fun _ hc => hc)) ?_
    split
    · exact .cons (showsLine_paint (unescaped_remainder _) _ .dim) .nil
    · exact .nil

/-- Lines that are shown as they are have rows that are, for the rows are some of the lines. -/
theorem rows_of_lines (h : (page.lines true).map strip = page.lines false) :
    ∀ card ∈ page.cards, strip (row true card) = row false card := by
  rw [lines, lines] at h
  by_cases hempty : page.cards.isEmpty = true
  · intro card hcard
    rw [List.isEmpty_iff.mp hempty] at hcard
    cases hcard
  · rw [if_neg hempty, if_neg hempty, List.map_append, List.map_cons, List.cons_append,
      List.cons_append, List.map_map] at h
    have hbehind := congrArg List.tail h
    rw [List.tail_cons, List.tail_cons] at hbehind
    have hrows := List.append_inj_left hbehind (by rw [List.length_map, List.length_map])
    intro card hcard
    have hrow := List.map_inj_left.mp hrows card hcard
    rwa [Function.comp_apply] at hrow

/-- **A table with colors shows the table without them, but for bare cards.**
    (1) Line by line, nothing but blanks is added, and these only behind the lines of bare cards.
    (2) All lines are shown as they are exactly if no card is bare.
    (3) So is the whole text. -/
theorem strip_table (page : Page) (h : ∀ card ∈ page.cards, UnescapedCard card) :
    List.Forall₂ (fun colored plain => ∃ filling, Blank filling ∧ strip colored = plain ++ filling ∧
      (filling = [] ∨ ∃ card ∈ page.cards, Bare card ∧ colored = row true card ∧
        plain = row false card)) (page.lines true) (page.lines false) ∧
    ((page.lines true).map strip = page.lines false ↔ ∀ card ∈ page.cards, ¬ Bare card) ∧
    (strip (page.table true).toList = (page.table false).toList ↔
      ∀ card ∈ page.cards, ¬ Bare card) := by
  have hlines := showsLine_lines h
  -- a row shows itself exactly if nothing fills it, and nothing does unless the card is bare
  have hkept : (page.lines true).map strip = page.lines false ↔
      ∀ card ∈ page.cards, ¬ Bare card := by
    constructor
    · intro hsame card hcard
      obtain ⟨filling, -, hshows, hbare⟩ := exists_row_shows (h card hcard)
      have hrow := rows_of_lines hsame card hcard
      rw [hshows.strip_eq, List.append_right_eq_self] at hrow
      exact hbare.mp hrow
    · intro hnone
      refine map_strip_of_shows (hlines.imp fun colored plain hline => ?_)
      obtain ⟨filling, -, hshows, rfl | ⟨card, hcard, hbare, -⟩⟩ := hline
      · rwa [List.append_nil] at hshows
      · exact absurd hbare (hnone card hcard)
  refine ⟨hlines.imp fun colored plain ⟨filling, hblank, hshows, hbare⟩ =>
    ⟨filling, hblank, hshows.strip_eq, hbare⟩, hkept, ?_⟩
  have htext : ∀ colored, (page.table colored).toList =
      stack (page.lines colored) := fun colored => String.toList_ofList
  rw [htext, htext, ← hkept]
  refine strip_stack_eq_iff (hlines.imp fun colored plain ⟨filling, _, hshows, _⟩ => ?_)
  exact ⟨filling, hshows⟩

end Page

/-! ## Outlines -/

namespace Outline

open Query

/-- The values of a tree show no escape character. -/
def UnescapedValues (leaves : List Condition) : Prop :=
  ∀ leaf ∈ leaves, Unescaped (value leaf.value)

/-- What stands before the text of a line shows the same with colors. -/
theorem shows_lead (depth : Nat) (connective : Option Connective) :
    Shows (lead true depth connective) (lead false depth connective) := by
  have hindent : Unescaped (List.replicate (2 * depth) ' ') := unescaped_replicate _ (by decide)
  have hspace : Unescaped [' '] := by decide
  cases connective with
  | none => exact hindent.shows.append unescaped_nil.shows
  | some connective =>
    have hword : Unescaped (Text.upper (word connective).toList) := by
      cases connective <;> decide
    exact hindent.shows.append ((hword.shows_paint .dim).append hspace.shows)

theorem unescaped_negation (negated : Bool) : Unescaped (Node.negation negated) := by
  cases negated <;> decide

/-- The text of a condition has the name of its field, its operator and its value. -/
theorem unescaped_leafText {leaf : Condition} (h : Unescaped (value leaf.value)) :
    Unescaped (leafText leaf) := by
  have hsymbol : Unescaped leaf.operator.symbol.toList := by
    cases leaf.operator <;> decide
  have hspace : ' ' ≠ escapeChar := by decide
  simp [leafText, unescaped_negation, unescaped_title, hsymbol, hspace, h]

mutual

/-- **The lines of a tree show the same with colors.** By induction on the tree, together with
    the further members of groups, at whatever depth they stand. -/
theorem shows_nodeLines (depth : Nat) (connective : Option Connective) : ∀ node : Node,
    UnescapedValues node.leaves →
    List.Forall₂ Shows (nodeLines true depth connective node) (nodeLines false depth connective node)
  | .condition leaf, h => by
    have hleaf := unescaped_leafText (h leaf (List.mem_singleton_self leaf))
    exact .cons ((shows_lead depth connective).append (hleaf.shows_paint .cyan)) .nil
  | .group negated first rest, h => by
    obtain ⟨hfirst, hrest⟩ := List.forall_mem_append.mp h
    have hgroup : Unescaped "group".toList := by decide
    have hhead := ((shows_lead depth connective).append (unescaped_negation negated).shows).append
      hgroup.shows
    exact .cons hhead (List.rel_append (shows_nodeLines (depth + 1) none first hfirst)
      (shows_memberLines (depth + 1) rest hrest))

theorem shows_memberLines (depth : Nat) : ∀ members : List (Connective × Node),
    UnescapedValues (Node.leavesOf members) →
    List.Forall₂ Shows (memberLines true depth members) (memberLines false depth members)
  | [], _ => .nil
  | (connective, node) :: rest, h => by
    obtain ⟨hnode, hrest⟩ := List.forall_mem_append.mp h
    exact List.rel_append (shows_nodeLines depth (some connective) node hnode)
      (shows_memberLines depth rest hrest)

end

/-- **An outline with colors shows the outline without them**, line by line and as a whole, since
    nothing in it is trimmed. -/
theorem strip_outline {filter : Filter} (htext : Unescaped filter.text.toList)
    (hvalues : UnescapedValues filter.query.leaves) :
    (lines filter true).map strip = lines filter false ∧
      strip (outline filter true).toList = (outline filter false).toList := by
  have hspace : Unescaped [' '] := by decide
  have hquery : Unescaped "Query:".toList := by decide
  have hfields : Unescaped "Fields:".toList := by decide
  have htree : Unescaped "Tree:".toList := by decide
  have hnames : Unescaped (Text.join [',', ' '] (filter.fieldsUsed.map (·.title.toList))) := by
    refine unescaped_join (by decide) fun name hname => ?_
    obtain ⟨field, -, rfl⟩ := List.mem_map.mp hname
    exact unescaped_title field
  have hlines : List.Forall₂ Shows (lines filter true) (lines filter false) :=
    .cons ((hquery.shows_paint .bold).append (hspace.shows.append htext.shows))
      (.cons ((hfields.shows_paint .bold).append (hspace.shows.append hnames.shows))
        (.cons (htree.shows_paint .bold) (shows_nodeLines 1 none filter.query hvalues)))
  refine ⟨map_strip_of_shows hlines, ?_⟩
  show strip (String.ofList (stack _)).toList = (String.ofList (stack _)).toList
  rw [String.toList_ofList, String.toList_ofList]
  exact (shows_stack hlines).strip_eq

/-- The values of a query are read from its text, so they show no escape character that it does
    not have. -/
theorem unescapedValues_of_ofText {text : String} {filter : Filter} (htext : Unescaped text.toList)
    (h : Filter.ofText text = .ok (some filter)) :
    filter.text = text ∧ UnescapedValues filter.query.leaves := by
  obtain ⟨hfilter, hparse, -⟩ := ofText_eq_some_iff.mp h
  have hsame : filter.text = text := congrArg Filter.text hfilter
  refine ⟨hsame, fun leaf hleaf => ?_⟩
  obtain ⟨raw, hraw, hvalue⟩ := exists_raw_of_parse hparse leaf hleaf
  exact unescaped_value (htext.mono hraw) hvalue

end Outline

/-! ## Listings -/

open Query in
/-- **Colors add nothing but escapes, except to the lines of bare cards.**  This is said of pages and
    filters without escape characters in their texts.
    (1) The lines of a table with colors show those without, with nothing but blanks behind them, and
    this only for cards that have nothing to be seen behind their names.
    (2) The lines are shown as they are, and so is the whole table, exactly if no card is such.
    (3) An outline is always shown as it is without colors: line by line and as a whole.  The texts of
    a query's values need not be looked at, since they come from its text. -/
theorem strip_colored (page : Page) (filter : Filter) :
    ((∀ card ∈ page.cards, Page.UnescapedCard card) →
      List.Forall₂ (fun colored plain =>
        ∃ filling, Blank filling ∧ strip colored = plain ++ filling ∧
          (filling = [] ∨ ∃ card ∈ page.cards, Page.Bare card ∧
            colored = Page.row true card ∧ plain = Page.row false card))
        (page.lines true) (page.lines false) ∧
      ((page.lines true).map strip = page.lines false ↔ ∀ card ∈ page.cards, ¬ Page.Bare card) ∧
      (strip (page.table true).toList = (page.table false).toList ↔
        ∀ card ∈ page.cards, ¬ Page.Bare card)) ∧
    (Unescaped filter.text.toList → Outline.UnescapedValues filter.query.leaves →
      (Outline.lines filter true).map strip = Outline.lines filter false ∧
      strip (Outline.outline filter true).toList = (Outline.outline filter false).toList) ∧
    ∀ text, Unescaped text.toList → Filter.ofText text = .ok (some filter) →
      (Outline.lines filter true).map strip = Outline.lines filter false ∧
      strip (Outline.outline filter true).toList = (Outline.outline filter false).toList := by
  refine ⟨Page.strip_table page, fun htext hvalues => ?_, fun text htext h => ?_⟩
  · exact Outline.strip_outline htext hvalues
  · obtain ⟨rfl, hvalues⟩ := Outline.unescapedValues_of_ofText htext h
    exact Outline.strip_outline htext hvalues

open Query in
/-- A card without a cost whose color identity is empty, since `C` stands behind its name, and a query
    of one condition. -/
theorem strip_colored_land :
    let page : Page := ⟨"", [], 3, [.ofPrinting { name := "Forest" }]⟩
    strip (page.table true).toList = (page.table false).toList ∧
      ∃ filter, Filter.ofText "t:Elf" = .ok (some filter) ∧
        strip (Outline.outline filter true).toList = (Outline.outline filter false).toList := by
  intro page
  have htexts : ∀ card ∈ page.cards, Page.UnescapedCard card :=
    List.forall_mem_singleton.mpr ⟨by decide, by decide, by decide, by decide, by decide, by decide⟩
  have hcuts : Cuts "t:Elf".toList [.comparison "t" .colon "Elf"] :=
    .token rfl (.term (by decide) rfl rfl rfl) .nil
  have hcondition : condition "t" .colon "Elf" = .ok ⟨.typeLine, .colon, false, .text "Elf"⟩ :=
    condition_eq_ok_iff.mpr
      ⟨.typeLine, .text "Elf", by decide +kernel, by decide, by decide, rfl, rfl⟩
  have hfilter := ofText_of_condition hcuts hcondition rfl
  obtain ⟨hpage, -, hquery⟩ := strip_colored page _
  obtain ⟨-, -, hwhole⟩ := hpage htexts
  refine ⟨hwhole.mpr ?_, _, hfilter, (hquery "t:Elf" (by decide) hfilter).2⟩
  exact List.forall_mem_singleton.mpr fun hbare => absurd rfl hbare.identity.1

/-- **A color identity without letters leaves a card bare**: with colors, blanks stay behind its
    name. -/
theorem strip_table_bare :
    let card : Card := .ofPrinting { name := "Forest", colorIdentity := [""] }
    let page : Page := ⟨"", [], 1, [card]⟩
    Page.UnescapedCard card ∧ strip (page.table true).toList ≠ (page.table false).toList := by
  intro card page
  have htexts : Page.UnescapedCard card :=
    ⟨by decide, by decide, by decide, by decide, by decide, by decide⟩
  have hbare : Page.Bare card :=
    ⟨by decide, by decide, by decide, by decide, by decide, by decide, by decide⟩
  obtain ⟨-, -, hwhole⟩ := Page.strip_table page (List.forall_mem_singleton.mpr htexts)
  exact ⟨htexts, fun hsame => hwhole.mp hsame card List.mem_cons_self hbare⟩

end CardSearch.Report
