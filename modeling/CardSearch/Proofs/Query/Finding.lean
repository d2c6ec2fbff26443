import CardSearch.Proofs.Query.Single
import CardSearch.Proofs.Text.Sigma

/-
  A piece of a card's own text as a query for the card.

  Names, type lines and artists are searched in lower case, and so is the text that they are searched
  for.  Each of the two is put in lower case on its own, as a whole.

  1. **Queries (`exists_filter_of_searchesFor`)** — a text in quotes, alone or behind `n:`, `t:` or
     `a:`, finds the cards whose attribute holds it when both are in lower case.
  2. **The result (`pieces_found_iff`)** — so a card is found by a piece of its text wherever the
     piece has the same lower case as alone.  That is so in every place exactly if its capital sigmas
     are settled within it; a piece without one is.
-/

namespace CardSearch.Query

/-- A condition with a text in quotes. -/
def quotedCondition (letter s : String) : String :=
  String.ofList (letter.toList ++ ':' :: quote s.toList)

/-- The queries for a text, with the attribute that they search: a condition with the text in quotes,
    and for names the quoted text alone. -/
inductive SearchesFor (s : String) : String → (Card → String) → Prop where
  | name : SearchesFor s (quotedCondition "n" s) Card.name
  | typeLine : SearchesFor s (quotedCondition "t" s) Card.typeLine
  | artist : SearchesFor s (quotedCondition "a" s) Card.artist
  | phrase : SearchesFor s (String.ofList (quote s.toList)) Card.name

/-- Every text is the attribute of some card, as names, type lines and artists are free texts. -/
theorem SearchesFor.exists_card {s text : String} {read : Card → String}
    (h : SearchesFor s text read) (own : String) : ∃ card, read card = own := by
  refine ⟨.ofPrinting { name := own, typeLine := own, artist := own }, ?_⟩
  cases h <;> rfl

/-- A condition of a text field, with the text in quotes behind its letter.  Whatever is in the
    quotes is one value, for quotes and backslashes in it are escaped. -/
theorem exists_filter_of_letter {s letter : String} {field : Field} {read : Card → String}
    (hne : s ≠ "") (hletter : letter ≠ "") (hlower : ∀ c ∈ letter.toList, c.isLower = true)
    (hfield : Field.ofAbbreviation? letter = some field) (hoperator : .colon ∈ field.operators)
    (hvalue : Value.ofText? field s = some (.text s))
    (htest : conditionTest field .colon (.text s) =
      .ok fun card => Text.occurs (lowered s) (lowered (read card))) :
    ∃ filter, Filter.ofText (quotedCondition letter s) = .ok (some filter) ∧
      ∀ card, passes (some filter) card = true ↔ lowered s <:+: lowered (read card) := by
  have hcuts : Cuts (quotedCondition letter s).toList [.comparison letter .colon s] := by
    rw [quotedCondition, String.toList_ofList]
    exact cuts_quoted hletter hlower .colon s
  have hcondition : condition letter .colon s = .ok ⟨field, .colon, false, .text s⟩ :=
    condition_eq_ok_iff.mpr ⟨field, .text s, hfield, hoperator, hne, hvalue, rfl⟩
  exact ⟨_, ofText_of_condition hcuts hcondition htest, fun card => Text.occurs_iff⟩

/-- **The queries for a text find the cards whose attribute holds it in lower case.** By cases on
    the query; a quoted text alone is a condition on the name. -/
theorem exists_filter_of_searchesFor {s text : String} {read : Card → String} (hne : s ≠ "")
    (h : SearchesFor s text read) :
    ∃ filter, Filter.ofText text = .ok (some filter) ∧
      ∀ card, passes (some filter) card = true ↔ lowered s <:+: lowered (read card) := by
  cases h with
  | name =>
    exact exists_filter_of_letter hne (by decide : "n" ≠ "") (List.all_eq_true.mp rfl) rfl
      (by decide) rfl rfl
  | typeLine =>
    exact exists_filter_of_letter hne (by decide : "t" ≠ "") (List.all_eq_true.mp rfl) rfl
      (by decide) rfl rfl
  | artist =>
    exact exists_filter_of_letter hne (by decide : "a" ≠ "") (List.all_eq_true.mp rfl) rfl
      (by decide) rfl rfl
  | phrase =>
    have htest : conditionTest .name .colon (.text s) =
        .ok fun card => Text.occurs (lowered s) (lowered card.name) := rfl
    exact ⟨_, ofText_quote (String.toList_ofList) htest, fun card => Text.occurs_iff⟩

/-- **A piece of a card's own text finds the card where its lower case is that of its place.**  For a
    text that is not empty and each of its queries:
    (1) the query is accepted, and finds the cards whose attribute holds the text in lower case;
    (2) so it finds a card in whose attribute the text stands with the lower case that it has alone;
    (3) it finds every card whose attribute contains the text exactly if its sigmas are settled. -/
theorem pieces_found_iff {s text : String} {read : Card → String} (hne : s ≠ "")
    (h : SearchesFor s text read) :
    ∃ filter, Filter.ofText text = .ok (some filter) ∧
      (∀ card, passes (some filter) card = true ↔ lowered s <:+: lowered (read card)) ∧
      (∀ card before after, (read card).toList = before ++ s.toList ++ after →
        Text.lowerWithin before.reverse s.toList after = lowered s →
          passes (some filter) card = true) ∧
      ((∀ card, s.toList <:+: (read card).toList → passes (some filter) card = true) ↔
        Text.Settled s.toList) := by
  obtain ⟨filter, hfilter, hfound⟩ := exists_filter_of_searchesFor hne h
  refine ⟨filter, hfilter, hfound, ?_, ?_⟩
  · intro card before after hplace hsame
    rw [hfound, ← hsame, lowered, hplace]
    exact Text.lowerWithin_infix_lower before s.toList after
  · rw [← Text.infix_lower_iff_settled]
    constructor
    · intro hall own hpiece
      obtain ⟨card, hcard⟩ := h.exists_card (String.ofList own)
      have hpasses := (hfound card).mp (hall card (by rwa [hcard, String.toList_ofList]))
      rwa [hcard, lowered, lowered, String.toList_ofList] at hpasses
    · exact fun hall card hpiece => (hfound card).mpr (hall _ hpiece)

/-- A sigma with a letter behind it is settled, and its piece is found inside of a name. -/
theorem pieces_found_iff_sigma : ∃ filter, Filter.ofText "n:\"ΣΑ\"" = .ok (some filter) ∧
    passes (some filter) (.ofPrinting { name := "ΑΣΑ" }) = true := by
  have hsettled : Text.Settled "ΣΑ".toList := by
    refine Text.forall_places_cons.mpr ⟨fun _ => Or.inr (Or.inl (by decide +kernel)), ?_⟩
    refine Text.forall_places_cons.mpr ⟨fun hsame => absurd hsame (by decide), ?_⟩
    exact fun p q hsplit => absurd hsplit (by simp)
  obtain ⟨filter, hfilter, _, _, hall⟩ := pieces_found_iff (by decide : "ΣΑ" ≠ "") .name
  have htext : quotedCondition "n" "ΣΑ" = "n:\"ΣΑ\"" := by decide
  rw [htext] at hfilter
  refine ⟨filter, hfilter, hall.mpr hsettled _ (Text.occurs_iff.mp ?_)⟩
  decide

/-- A sigma at the end of a piece has its final form there, and the piece is not found where it has a
    letter behind it, by the condition or by the quoted text alone. -/
theorem piece_not_found :
    let card : Card := .ofPrinting { name := "ΑΣΑ" }
    "ΑΣ".toList <:+: card.name.toList ∧
      (∃ filter, Filter.ofText "n:\"ΑΣ\"" = .ok (some filter) ∧ passes (some filter) card ≠ true) ∧
      ∃ filter, Filter.ofText "\"ΑΣ\"" = .ok (some filter) ∧ passes (some filter) card ≠ true := by
  intro card
  have hunlike : ¬ lowered "ΑΣ" <:+: lowered card.name := by
    rw [← Text.occurs_iff]
    decide +kernel
  refine ⟨Text.occurs_iff.mp (by decide), ?_, ?_⟩
  · obtain ⟨filter, hfilter, hfound⟩ :=
      exists_filter_of_searchesFor (by decide : "ΑΣ" ≠ "") .name
    have htext : quotedCondition "n" "ΑΣ" = "n:\"ΑΣ\"" := by decide
    exact ⟨filter, htext ▸ hfilter, fun hpasses => hunlike ((hfound card).mp hpasses)⟩
  · obtain ⟨filter, hfilter, hfound⟩ :=
      exists_filter_of_searchesFor (by decide : "ΑΣ" ≠ "") .phrase
    have htext : String.ofList (quote "ΑΣ".toList) = "\"ΑΣ\"" := by decide
    exact ⟨filter, htext ▸ hfilter, fun hpasses => hunlike ((hfound card).mp hpasses)⟩

end CardSearch.Query
