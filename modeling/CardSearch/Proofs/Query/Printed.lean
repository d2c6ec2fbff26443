import CardSearch.Proofs.Mana.Printed
import CardSearch.Proofs.Query.Pairing
import CardSearch.Proofs.Query.Single
import CardSearch.Proofs.Report.Column

/-
  A printed cost finds its card.

  1. **Values (`cuts_costQuery`)** — a printed cost begins with a brace and holds neither blank nor
     parenthesis, so behind `m=` or `m:` it is one value.
  2. **Whole costs (`exists_filter_of_cost`)** — that value is the cost of the card, which is equal to
     itself and has all of its own groups.
  3. **Cut costs (`ofText_cut`)** — a cost that is longer than the column ends there in dots,
     and is no cost.
-/

namespace CardSearch.Query

/-- The query for a cost text. -/
def costQuery (operator : Operator) (text : List Char) : String :=
  String.ofList ('m' :: operator.symbol.toList ++ text)

/-- The operators that a card's own cost satisfies. -/
def IsOwnOperator (operator : Operator) : Prop := operator = .equal ∨ operator = .colon

/-! ## Values -/

/-- A text that begins with a brace and holds nothing that ends a value is one value. -/
theorem cuts_costQuery (operator : Operator) {text : List Char} (hhead : text.head? = some '\x7b')
    (h : ∀ c ∈ text, endsValue c = false) :
    Cuts (costQuery operator text).toList [.comparison "m" operator (String.ofList text)] := by
  obtain ⟨rest, rfl⟩ := List.head?_eq_some_iff.mp hhead
  rw [costQuery, String.toList_ofList]
  exact cuts_plain (by decide : "m" ≠ "") (List.all_eq_true.mp rfl) operator rfl (by decide)
    (by decide) h

section

variable {operator : Operator} (hoperator : IsOwnOperator operator)
include hoperator

/-- The condition of a cost text, which is refused if the text is none. -/
theorem condition_cost {raw : String} (hne : raw ≠ "") :
    condition "m" operator raw = match Mana.parseCost raw with
      | some cost => .ok ⟨.cost, operator, false, .manaCost cost⟩
      | none => .error (.invalidValue .cost raw) := by
  have hfield : Field.ofAbbreviation? "m" = some .cost := by decide
  have hknown : (!Field.cost.operators.contains operator) = false := by
    rcases hoperator with rfl | rfl <;> rfl
  have hempty : ¬ raw.isEmpty = true := by simpa using hne
  have hvalue : Value.ofText? .cost raw = (Mana.parseCost raw).map .manaCost := rfl
  rw [condition, hfield]
  simp only [hknown, Bool.false_eq_true, if_false, if_neg hempty, hvalue]
  cases Mana.parseCost raw with
  | none => rfl
  | some cost => rfl

/-! ## Whole costs -/

/-- A cost is equal to itself and has its own groups, so a card passes the tests for its own
    cost. -/
theorem exists_test_of_cost (symbols : List String) :
    ∃ test, conditionTest .cost operator (.manaCost (Mana.normalizeCost symbols)) = .ok test ∧
      ∀ card : Card, card.cost = symbols → test card = true := by
  rcases hoperator with rfl | rfl
  · refine ⟨fun card => sameCost (Mana.normalizeCost card.cost) (Mana.normalizeCost symbols), rfl, ?_⟩
    rintro card rfl
    exact sameCost_iff_perm.mpr (.refl _)
  · refine ⟨fun card => includesCost (Mana.normalizeCost symbols) (Mana.normalizeCost card.cost),
      rfl, ?_⟩
    rintro card rfl
    exact includesCost_iff.mpr fun group hgroup => ⟨group, hgroup, fun _ => Iff.rfl⟩

end

section

variable {symbols : List String} (hne : symbols ≠ [])
  (hsymbols : ∀ symbol ∈ symbols, Mana.IsCardSymbol symbol)

include hne in
theorem head?_cost : (Report.cost symbols).head? = some '\x7b' := by
  obtain ⟨first, others, rfl⟩ := List.exists_cons_of_ne_nil hne
  rfl

include hsymbols in
theorem endsValue_of_mem_cost : ∀ c ∈ Report.cost symbols, endsValue c = false := by
  intro c hc
  obtain ⟨hblank, hclose⟩ := Mana.plain_of_mem_cost hsymbols hc
  rw [endsValue, hblank, Bool.false_or, beq_eq_false_iff_ne]
  exact hclose

include hne hsymbols

/-- **The query for a printed cost finds every card of the cost.** It is one comparison, and its
    value is read as the groups of the card. -/
theorem exists_filter_of_cost {operator : Operator} (hoperator : IsOwnOperator operator) :
    ∃ filter, Filter.ofText (costQuery operator (Report.cost symbols)) = .ok (some filter) ∧
      ∀ card : Card, card.cost = symbols → passes (some filter) card = true := by
  have hcuts := cuts_costQuery operator (head?_cost hne) (endsValue_of_mem_cost hsymbols)
  have hempty : String.ofList (Report.cost symbols) ≠ "" := by
    intro hempty
    have hhead := head?_cost hne
    rw [String.ofList_eq_empty_iff.mp hempty] at hhead
    cases hhead
  have hcondition := condition_cost hoperator hempty
  rw [Mana.parseCost_cost hsymbols hne] at hcondition
  obtain ⟨test, htest, hown⟩ := exists_test_of_cost hoperator symbols
  exact ⟨_, ofText_of_condition hcuts hcondition htest, hown⟩

/-! ## Cut costs -/

/-- **The query for a cut cost is refused.** The cut leaves a brace without its partner, or dots,
    and neither is part of a cost. -/
theorem ofText_cut {operator : Operator} (hoperator : IsOwnOperator operator)
    (hlong : 14 < (Report.cost symbols).length) :
    Filter.ofText (costQuery operator (Report.truncate 14 (Report.cost symbols))) =
      .error (.invalidValue .cost (String.ofList (Report.truncate 14 (Report.cost symbols)))) := by
  have hcut : Report.truncate 14 (Report.cost symbols) =
      (Report.cost symbols).take 11 ++ ['.', '.', '.'] := by rw [Report.truncate, if_pos hlong]
  have hhead : ((Report.cost symbols).take 11 ++ ['.', '.', '.']).head? = some '\x7b' := by
    obtain ⟨rest, hrest⟩ := List.head?_eq_some_iff.mp (head?_cost hne)
    rw [hrest]
    rfl
  -- neither the symbols nor the dots end a value, so all of the column is one
  have hplain : ∀ c ∈ (Report.cost symbols).take 11 ++ ['.', '.', '.'], endsValue c = false := by
    intro c hc
    rcases List.mem_append.mp hc with htaken | hdot
    · exact endsValue_of_mem_cost hsymbols c (List.mem_of_mem_take htaken)
    · obtain rfl : c = '.' := by simpa using hdot
      decide
  have hnone : Mana.parseCost (String.ofList ((Report.cost symbols).take 11 ++ ['.', '.', '.'])) =
      none := Mana.parseCost_eq_none_of_dot (by simp)
  have hempty : String.ofList ((Report.cost symbols).take 11 ++ ['.', '.', '.']) ≠ "" := by simp
  have hcondition := condition_cost hoperator hempty
  rw [hnone] at hcondition
  rw [hcut]
  exact ofText_of_refused (cuts_costQuery operator hhead hplain) hcondition

end

/-- **A printed cost finds its card.**  For a card whose cost has symbols, each of them one or two
    parts of costs:
    (1) its printed cost is read as its cost;
    (2) behind `m=` or `m:` it is a query, and every card of the same cost passes;
    (3) so is what stands in the cost column of its line, if the printed cost fits in there;
    (4) a longer one is cut there, and refused as a value. -/
theorem printedCost_finds (card : Card) (hne : card.cost ≠ [])
    (hsymbols : ∀ symbol ∈ card.cost, Mana.IsCardSymbol symbol) :
    Mana.parseCost (String.ofList (Report.cost card.cost)) = some (Mana.normalizeCost card.cost) ∧
    ∀ operator, IsOwnOperator operator →
      (∃ filter, Filter.ofText (costQuery operator (Report.cost card.cost)) = .ok (some filter) ∧
        ∀ other : Card, other.cost = card.cost → passes (some filter) other = true) ∧
      ∀ colored,
        ((Report.cost card.cost).length ≤ 14 → ∃ filter,
          Filter.ofText (costQuery operator (Report.costColumn colored card)) = .ok (some filter) ∧
            passes (some filter) card = true) ∧
        (14 < (Report.cost card.cost).length →
          Filter.ofText (costQuery operator (Report.costColumn colored card)) =
            .error (.invalidValue .cost (String.ofList (Report.costColumn colored card)))) := by
  refine ⟨Mana.parseCost_cost hsymbols hne, fun operator hoperator => ?_⟩
  have hwhole := exists_filter_of_cost hne hsymbols hoperator
  refine ⟨hwhole, fun colored => ⟨fun hfits => ?_, fun hlong => ?_⟩⟩
  · rw [Report.costColumn_eq, Report.truncate, if_neg (by omega)]
    obtain ⟨filter, hfilter, hown⟩ := hwhole
    exact ⟨filter, hfilter, hown card rfl⟩
  · rw [Report.costColumn_eq]
    exact ofText_cut hne hsymbols hoperator hlong

/-- Amounts, a letter in lower case and a hybrid, in a column that holds them all. -/
theorem printedCost_finds_hybrid :
    let card : Card := .ofPrinting { name := "Drake", parsedCost := ["10", "w", "W-u"] }
    ∃ filter, Filter.ofText "m:\x7b10\x7d\x7bW\x7d\x7bW/U\x7d" = .ok (some filter) ∧
      passes (some filter) card = true := by
  intro card
  have hten : Mana.IsRun ['1', '0'] := ⟨by decide, List.all_eq_true.mp (by decide)⟩
  have hw : Mana.IsCasedPart ['w'] := .letter (by decide)
  have hW : Mana.IsCasedPart ['W'] := .letter (by decide)
  have hu : Mana.IsCasedPart ['u'] := .letter (by decide)
  have hsymbols : ∀ symbol ∈ card.cost, Mana.IsCardSymbol symbol := by
    intro symbol hsymbol
    rcases hsymbol with _ | ⟨_, _ | ⟨_, _ | ⟨_, hmore⟩⟩⟩
    · exact ⟨[['1', '0']], Or.inl rfl, by simpa using .run hten, by decide⟩
    · exact ⟨[['w']], Or.inl rfl, by simpa using hw, by decide⟩
    · exact ⟨[['W'], ['u']], Or.inr rfl, by simpa using ⟨hW, hu⟩, by decide⟩
    · cases hmore
  obtain ⟨_, hqueries⟩ := printedCost_finds card (by decide) hsymbols
  obtain ⟨hfits, _⟩ := (hqueries .colon (Or.inr rfl)).2 false
  have hcolumn : costQuery .colon (Report.costColumn false card) =
      "m:\x7b10\x7d\x7bW\x7d\x7bW/U\x7d" := by
    rw [Report.costColumn_eq]
    decide +kernel
  rw [hcolumn] at hfits
  exact hfits (by decide +kernel)

/-- The column of a cost of three hybrids is cut, and what stands there is not accepted. -/
theorem ofText_cut_hybrids :
    let card : Card := .ofPrinting { name := "Drake", parsedCost := ["w-u", "w-u", "w-u"] }
    card.cost ≠ [] ∧ (∀ symbol ∈ card.cost, Mana.IsCardSymbol symbol) ∧
      Report.costColumn false card = "\x7bW/U\x7d\x7bW/U\x7d\x7b...".toList ∧
      Filter.ofText (costQuery .equal (Report.costColumn false card)) =
        .error (.invalidValue .cost "\x7bW/U\x7d\x7bW/U\x7d\x7b...") := by
  intro card
  have hw : Mana.IsCasedPart ['w'] := .letter (by decide)
  have hu : Mana.IsCasedPart ['u'] := .letter (by decide)
  have hsymbols : ∀ symbol ∈ card.cost, Mana.IsCardSymbol symbol := by
    intro symbol hsymbol
    have hsame : symbol ∈ List.replicate 3 "w-u" := hsymbol
    obtain rfl := List.eq_of_mem_replicate hsame
    exact ⟨[['w'], ['u']], Or.inr rfl, by simpa using ⟨hw, hu⟩, by decide⟩
  have hcut : Report.truncate 14 (Report.cost card.cost) =
      "\x7bW/U\x7d\x7bW/U\x7d\x7b...".toList := by decide +kernel
  have hrefused := ofText_cut (by decide) hsymbols (Or.inl rfl) (by decide +kernel)
  rw [hcut, String.ofList_toList] at hrefused
  rw [Report.costColumn_eq, hcut]
  exact ⟨by decide, hsymbols, rfl, hrefused⟩

end CardSearch.Query
