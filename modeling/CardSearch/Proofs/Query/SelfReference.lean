import CardSearch.Proofs.Query.Complement
import CardSearch.Proofs.Query.Single
import CardSearch.Proofs.Text.Marking
import Mathlib.Data.Bool.AllAny
import Mathlib.Data.List.Infix

/-
  Searching rules text for the card itself.

  The query `o:"~"` asks for rules text that refers to its card: by its name, by its short name, as
  "this spell", or by the mark itself.

  1. **Short names (`shortName?_eq_some_iff`)** — a few cards are called by their first word, other
     legendary ones by what stands before the first comma of the name.
  2. **Replacements (`selfMarked_eq_markAll`)** — the references are replaced by the mark one kind
     after the other.  An empty name is none of them, but an empty short name is.
  3. **The result (`selfSearch_iff`)** — so the query finds the cards that refer to themselves, and
     those whose short name is empty: it stands in every text.
-/

namespace CardSearch.Query

/-! ## Short names -/

/-- The short name of a card. -/
inductive IsShortName (card : Card) : List Char → Prop where
  /-- The first word of the name, for the cards that are called by it. -/
  | firstWord {word rest : List Char} (hlisted : card.name ∈ firstNamed)
      (hname : card.name.toList = word ++ ' ' :: rest) (hword : ' ' ∉ word) : IsShortName card word
  /-- What stands before the first comma of the name, for other cards of a legendary type. -/
  | beforeComma {short rest : List Char} (hlisted : card.name ∉ firstNamed)
      (htype : "Legendary".toList <:+: card.typeLine.toList)
      (hname : card.name.toList = short ++ ',' :: rest) (hshort : ',' ∉ short) :
      IsShortName card short

/-- What stands before the first of a character that is there: it has none of them, and one comes
    next. -/
theorem takeWhile_ne_eq_iff {c : Char} {text before : List Char} (h : c ∈ text) :
    text.takeWhile (· != c) = before ↔ ∃ rest, text = before ++ c :: rest ∧ c ∉ before := by
  constructor
  · rintro rfl
    have hne : text.dropWhile (· != c) ≠ [] := by
      rw [Ne, List.dropWhile_eq_nil_iff]
      intro hall
      simpa using hall c h
    obtain ⟨d, rest, hdrop⟩ := List.exists_cons_of_ne_nil hne
    have hhead := List.head?_dropWhile_not (· != c) text
    rw [hdrop] at hhead
    obtain rfl : d = c := by simpa using hhead
    refine ⟨rest, ?_, fun hmem => ?_⟩
    · rw [← hdrop, List.takeWhile_append_dropWhile]
    · simpa using List.all_eq_true.mp List.all_takeWhile d hmem
  · rintro ⟨rest, rfl, hbefore⟩
    exact (Text.run_append_cons hbefore rest).1

/-- The names of cards that are called by their first word have a blank, but neither a blank nor a
    comma in front. -/
theorem blank_of_firstNamed {name : String} (h : name ∈ firstNamed) :
    ' ' ∈ name.toList ∧ name.toList.head? ≠ some ' ' ∧ name.toList.head? ≠ some ',' := by
  have hall : ∀ name ∈ firstNamed, ' ' ∈ name.toList ∧ name.toList.head? ≠ some ' ' ∧
      name.toList.head? ≠ some ',' := List.all_iff_forall_prop.mp (by decide)
  exact hall name h

/-- The short name is that of the list, or what stands before the first comma of a legend's name. -/
theorem shortName?_eq_some_iff {card : Card} {short : List Char} :
    shortName? card = some short ↔ IsShortName card short := by
  rw [shortName?]
  -- the list of names comes first, and only then the names of legends
  by_cases hlisted : card.name ∈ firstNamed
  · rw [if_pos (List.contains_iff_mem.mpr hlisted), Option.some.injEq,
      takeWhile_ne_eq_iff (blank_of_firstNamed hlisted).1]
    constructor
    · rintro ⟨rest, hname, hword⟩
      exact .firstWord hlisted hname hword
    · rintro (⟨_, hname, hword⟩ | ⟨hother, _, _, _⟩)
      · exact ⟨_, hname, hword⟩
      · exact absurd hlisted hother
  rw [if_neg (by simpa using hlisted)]
  by_cases hcomma : "Legendary".toList <:+: card.typeLine.toList ∧ ',' ∈ card.name.toList
  · obtain ⟨htype, hmem⟩ := hcomma
    rw [if_pos (by simpa [Category.mentions, Text.occurs_iff] using ⟨htype, hmem⟩),
      Option.some.injEq, takeWhile_ne_eq_iff hmem]
    constructor
    · rintro ⟨rest, hname, hshort⟩
      exact .beforeComma hlisted htype hname hshort
    · rintro (⟨hother, _, _⟩ | ⟨_, _, hname, hshort⟩)
      · exact absurd hother hlisted
      · exact ⟨_, hname, hshort⟩
  · rw [if_neg (by simpa [Category.mentions, Text.occurs_iff] using hcomma)]
    refine iff_of_false (by simp) ?_
    rintro (⟨hother, _, _⟩ | ⟨_, htype, hname, _⟩)
    · exact hlisted hother
    · exact hcomma ⟨htype, hname ▸ by simp⟩

/-! ## Replacements -/

/-- The references to a card that are replaced by the mark, in their order. -/
def selfPieces (card : Card) : List (List Char) :=
  (if card.name.toList.isEmpty then [] else [card.name.toList]) ++
    ["this spell".toList, "This spell".toList] ++ (shortName? card).toList

/-- The marked text is the text with the references replaced one after the other. -/
theorem selfMarked_eq_markAll (card : Card) :
    selfMarked card = Text.markAll '~' (selfPieces card) card.oracleText.toList := by
  by_cases hempty : card.name.toList.isEmpty = true
  · simp only [selfMarked, selfPieces, if_pos hempty]
    cases shortName? card <;> rfl
  · simp only [selfMarked, selfPieces, if_neg hempty]
    cases shortName? card <;> rfl

/-- What is replaced: the name if it is not empty, two ways to speak of a spell, and the short
    name if there is one. -/
theorem mem_selfPieces_iff {card : Card} {piece : List Char} :
    piece ∈ selfPieces card ↔ (card.name ≠ "" ∧ piece = card.name.toList) ∨
      piece = "this spell".toList ∨ piece = "This spell".toList ∨ IsShortName card piece := by
  have hname : piece ∈ (if card.name.toList.isEmpty then [] else [card.name.toList]) ↔
      card.name ≠ "" ∧ piece = card.name.toList := by
    by_cases hempty : card.name = "" <;> simp [hempty]
  rw [selfPieces, List.mem_append, List.mem_append, hname, List.mem_pair, Option.mem_toList,
    shortName?_eq_some_iff, or_assoc, or_assoc]

/-- Only the short name can be empty, for the name is guarded against it. -/
theorem nil_mem_selfPieces_iff {card : Card} : [] ∈ selfPieces card ↔ IsShortName card [] := by
  rw [mem_selfPieces_iff]
  constructor
  · rintro (⟨hne, hempty⟩ | hempty | hempty | hshort)
    · exact absurd (String.toList_eq_nil_iff.mp hempty.symm) hne
    · exact absurd hempty (by decide)
    · exact absurd hempty (by decide)
    · exact hshort
  · exact fun hshort => Or.inr (Or.inr (Or.inr hshort))

/-! ## Cards that refer to themselves -/

/-- The rules text of a card refers to the card. -/
inductive RefersToSelf (card : Card) : Prop where
  | byMark (h : '~' ∈ card.oracleText.toList)
  | byName (hne : card.name ≠ "") (h : card.name.toList <:+: card.oracleText.toList)
  | asSpell (h : "this spell".toList <:+: card.oracleText.toList)
  | asCapital (h : "This spell".toList <:+: card.oracleText.toList)
  | byShortName {short : List Char} (hshort : IsShortName card short) (hne : short ≠ [])
      (h : short <:+: card.oracleText.toList)

/-- The references are the pieces that are replaced, without the empty one, which refers to
    nothing. -/
theorem refersToSelf_iff {card : Card} : RefersToSelf card ↔ '~' ∈ card.oracleText.toList ∨
    ∃ piece ∈ selfPieces card, piece ≠ [] ∧ piece <:+: card.oracleText.toList := by
  simp only [mem_selfPieces_iff]
  constructor
  · rintro (hmark | ⟨hne, hoccurs⟩ | hoccurs | hoccurs | ⟨hshort, hne, hoccurs⟩)
    · exact Or.inl hmark
    · have hname : card.name.toList ≠ [] := fun hnil => hne (String.toList_eq_nil_iff.mp hnil)
      exact Or.inr ⟨_, Or.inl ⟨hne, rfl⟩, hname, hoccurs⟩
    · exact Or.inr ⟨_, Or.inr (Or.inl rfl), by decide, hoccurs⟩
    · exact Or.inr ⟨_, Or.inr (Or.inr (Or.inl rfl)), by decide, hoccurs⟩
    · exact Or.inr ⟨_, Or.inr (Or.inr (Or.inr hshort)), hne, hoccurs⟩
  · rintro (hmark | ⟨piece, ⟨hne, rfl⟩ | rfl | rfl | hshort, hnonempty, hoccurs⟩)
    · exact .byMark hmark
    · exact .byName hne hoccurs
    · exact .asSpell hoccurs
    · exact .asCapital hoccurs
    · exact .byShortName hshort hnonempty hoccurs

instance (card : Card) : Decidable (RefersToSelf card) := decidable_of_iff' _ refersToSelf_iff

/-- The mark is left by a reference to the card, or by an empty short name, which is replaced
    everywhere. -/
theorem mark_mem_selfMarked_iff {card : Card} :
    '~' ∈ selfMarked card ↔ RefersToSelf card ∨ IsShortName card [] := by
  rw [selfMarked_eq_markAll, Text.mem_markAll, refersToSelf_iff, ← nil_mem_selfPieces_iff]
  constructor
  · rintro (hmark | ⟨piece, hpiece, hoccurs⟩)
    · exact Or.inl (Or.inl hmark)
    · by_cases hempty : piece = []
      · exact Or.inr (hempty ▸ hpiece)
      · exact Or.inl (Or.inr ⟨piece, hpiece, hempty, hoccurs⟩)
  · rintro ((hmark | ⟨piece, hpiece, _, hoccurs⟩) | hempty)
    · exact Or.inl hmark
    · exact Or.inr ⟨piece, hpiece, hoccurs⟩
    · exact Or.inr ⟨[], hempty, List.nil_infix⟩

/-- The short name is empty where the name of a card of a legendary type begins with a comma; no
    name of the list does. -/
theorem isShortName_nil_iff {card : Card} : IsShortName card [] ↔
    "Legendary".toList <:+: card.typeLine.toList ∧ card.name.toList.head? = some ',' := by
  constructor
  · rintro (⟨hlisted, hname, _⟩ | ⟨_, htype, hname, _⟩)
    · exact absurd (hname ▸ rfl) (blank_of_firstNamed hlisted).2.1
    · exact ⟨htype, hname ▸ rfl⟩
  · rintro ⟨htype, hhead⟩
    obtain ⟨rest, hname⟩ := List.head?_eq_some_iff.mp hhead
    have hlisted : card.name ∉ firstNamed := fun hlisted =>
      (blank_of_firstNamed hlisted).2.2 hhead
    exact .beforeComma hlisted htype hname List.not_mem_nil

/-! ## The query -/

/-- What the mark is searched for in is lower case, which makes no mark and takes none away. -/
theorem mark_mem_lowered_iff {text : String} :
    Text.occurs (lowered "~") (lowered text) = true ↔ '~' ∈ text.toList := by
  have hmark : lowered "~" = ['~'] := by decide
  have hsmall : Text.IsSmall '~' := ⟨by decide, rfl⟩
  rw [hmark, Text.occurs_iff, List.singleton_infix_iff, lowered]
  constructor
  · exact Text.mem_of_mem_lower ⟨by decide, by decide⟩
  · exact Text.mem_lower hsmall.isLowered

/-- **The query searches the rules text with the references replaced**, and without them, where
    the mark may stand as well. -/
theorem exists_filter_selfSearch : ∃ filter, Filter.ofText "o:\"~\"" = .ok (some filter) ∧
    ∀ card, passes (some filter) card = true ↔ '~' ∈ selfMarked card := by
  have hcuts : Cuts "o:\"~\"".toList [.comparison "o" .colon "~"] :=
    cuts_quoted (by decide : "o" ≠ "") (List.all_eq_true.mp rfl) .colon "~"
  have hcondition : condition "o" .colon "~" = .ok ⟨.oracle, .colon, false, .text "~"⟩ :=
    condition_eq_ok_iff.mpr ⟨.oracle, .text "~", by decide, by decide, by decide, rfl, rfl⟩
  have htest : conditionTest .oracle .colon (.text "~") = .ok _ := oracleTest_eq_bind .colon "~"
  refine ⟨_, ofText_of_condition hcuts hcondition htest, fun card => ?_⟩
  show (_ || _) = true ↔ _
  rw [Bool.or_eq_true, mark_mem_lowered_iff, mark_mem_lowered_iff, String.toList_ofList]
  constructor
  · rintro (hplain | hmarked)
    · rw [selfMarked_eq_markAll, Text.mem_markAll]
      exact Or.inl hplain
    · exact hmarked
  · exact Or.inr

/-- **The search for self-references finds a card if its rules text refers to it**, and a legendary
    card whose name begins with a comma with any rules text. -/
theorem selfSearch_iff (card : Card) : ∃ filter, Filter.ofText "o:\"~\"" = .ok (some filter) ∧
    (passes (some filter) card = true ↔ RefersToSelf card ∨
      ("Legendary".toList <:+: card.typeLine.toList ∧ card.name.toList.head? = some ',')) := by
  obtain ⟨filter, hfilter, hpasses⟩ := exists_filter_selfSearch
  refine ⟨filter, hfilter, ?_⟩
  rw [hpasses, mark_mem_selfMarked_iff, isShortName_nil_iff]

/-- A legendary card is found by its short name, and a card that says nothing of itself is not. -/
theorem selfSearch_iff_hound :
    let hound : Card := .ofPrinting
      { name := "Isamaru, Hound of Konda", typeLine := "Legendary Creature"
        oracleText := "Whenever Isamaru attacks, it gets +1/+0." }
    let angel : Card := .ofPrinting { name := "Serra Angel", oracleText := "Flying, vigilance" }
    (∃ filter, Filter.ofText "o:\"~\"" = .ok (some filter) ∧ passes (some filter) hound = true) ∧
      ∃ filter, Filter.ofText "o:\"~\"" = .ok (some filter) ∧ passes (some filter) angel ≠ true := by
  intro hound angel
  constructor
  · obtain ⟨filter, hfilter, hfound⟩ := selfSearch_iff hound
    have hreferring : RefersToSelf hound := by decide
    exact ⟨filter, hfilter, hfound.mpr (Or.inl hreferring)⟩
  · obtain ⟨filter, hfilter, hfound⟩ := selfSearch_iff angel
    have hsilent : ¬ RefersToSelf angel := by decide
    have hnamed : angel.name.toList.head? ≠ some ',' := by decide
    refine ⟨filter, hfilter, fun hpasses => ?_⟩
    rcases hfound.mp hpasses with hrefers | ⟨_, hcomma⟩
    · exact hsilent hrefers
    · exact hnamed hcomma

/-- A legendary card with a comma in front of its name is found, though its rules text does not
    refer to it. -/
theorem selfSearch_nameless :
    let card : Card := .ofPrinting
      { name := ", the Nameless", typeLine := "Legendary Creature", oracleText := "Flying" }
    ¬ RefersToSelf card ∧ ∃ filter, Filter.ofText "o:\"~\"" = .ok (some filter) ∧
      passes (some filter) card = true := by
  intro card
  refine ⟨by decide, ?_⟩
  have hempty : IsShortName card [] := shortName?_eq_some_iff.mp (by decide)
  obtain ⟨filter, hfilter, hpasses⟩ := exists_filter_selfSearch
  exact ⟨filter, hfilter, (hpasses card).mpr (mark_mem_selfMarked_iff.mpr (Or.inr hempty))⟩

end CardSearch.Query
