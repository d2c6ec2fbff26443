import CardSearch.Proofs.Query.Leaves

/-
  Queries of a single condition.

  A comparison with nothing beside it is a query: it gives the filter of its condition
  (`ofText_of_condition`), or the error by which the condition is refused (`ofText_of_refused`).
  Whatever a field can be tested against can be asked for in this way (`exists_filter_of_value`).
  So is a text in double quotes, which searches the names for it (`ofText_quote`).
-/

namespace CardSearch.Query

open Phrase

section

variable {text field raw : String} {operator : Operator}
  (hcuts : Cuts text.toList [.comparison field operator raw])
include hcuts

/-- A comparison alone has the tree of its condition, with no group around it. -/
theorem parse_of_condition {leaf : Condition} (h : condition field operator raw = .ok leaf) :
    parse text = .ok (.condition leaf) := by
  have hterm : IsTerm text.toList (.condition leaf) :=
    ⟨.comparison field operator raw, comparison_tree?_eq_some_iff.mpr ⟨leaf, h, rfl⟩, hcuts⟩
  exact hterm.parse

/-- A comparison alone that is refused is an error. -/
theorem parse_of_refused {e : Error} (h : condition field operator raw = .error e) :
    parse text = .error e := by
  obtain ⟨located, hlocated, htokens⟩ := tokensFrom_of_cuts hcuts 0
  obtain ⟨⟨token, position⟩, rfl, htoken⟩ := List.map_eq_singleton_iff.mp htokens
  obtain rfl : token = .comparison field operator raw := htoken
  have hblank : ¬ text.toList.all Text.isBlank = true := fun hblank =>
    List.cons_ne_nil _ _ (hcuts.eq_nil_of_blank hblank)
  have hread : Node.ofTokens [⟨.comparison field operator raw, position⟩] = .error e := by
    rw [Node.ofTokens, readAlternatives, readSequence, readTerm]
    simp only [h]
    rfl
  rw [parse, if_neg hblank, tokenize, hlocated]
  exact hread

theorem ofText_of_condition {known : Field} {value : Value} {test : Test}
    (h : condition field operator raw = .ok ⟨known, operator, false, value⟩)
    (htest : conditionTest known operator value = .ok test) :
    Filter.ofText text = .ok (some (.ofTree text (.condition ⟨known, operator, false, value⟩) test)) :=
  ofText_eq_some_iff.mpr
    ⟨rfl, parse_of_condition hcuts h, (test?_alone ⟨known, operator, false, value⟩).trans htest⟩

theorem ofText_of_refused {e : Error} (h : condition field operator raw = .error e) :
    Filter.ofText text = .error e := by
  have hblank : ¬ ∀ c ∈ text.toList, Text.isBlank c = true := fun hblank =>
    List.cons_ne_nil _ _ (hcuts.eq_nil_of_blank (List.all_eq_true.mpr hblank))
  exact (ofText_eq_error_iff hblank).mpr (parse_of_refused hcuts h)

end

/-- **Every value that a field can be tested against can be asked for**, by a query that is one
    comparison with the value in quotes. -/
theorem exists_filter_of_value {field : Field} {operator : Operator} {raw : String} {value : Value}
    {test : Test} (hoperator : operator ∈ field.operators) (hne : raw ≠ "")
    (hvalue : Value.ofText? field raw = some value)
    (htest : conditionTest field operator value = .ok test) :
    ∃ text filter, Filter.ofText text = .ok (some filter) ∧
      ∀ card, passes (some filter) card = test card := by
  have hcuts := cuts_condition field operator raw
  rw [← String.toList_ofList (l := field.title.toList ++ (operator.symbol.toList ++ _))] at hcuts
  have hcondition : condition field.title operator raw = .ok ⟨field, operator, false, value⟩ :=
    condition_eq_ok_iff.mpr
      ⟨field, value, Field.ofAbbreviation?_title field, hoperator, hne, hvalue, rfl⟩
  exact ⟨_, _, ofText_of_condition hcuts hcondition htest, fun _ => rfl⟩

/-- A text in double quotes searches the names for it, whatever stands in it. -/
theorem ofText_quote {text raw : String} (htext : text.toList = quote raw.toList) {test : Test}
    (htest : conditionTest .name .colon (.text raw) = .ok test) :
    Filter.ofText text = .ok (some (.ofTree text (.bare raw) test)) := by
  have hcuts : Cuts (quote raw.toList) [.quoted raw] := by
    have htakes : Takes '"' (escape raw.toList ++ ['"']) (.quoted (String.ofList raw.toList)) [] :=
      .quoted rfl (scanQuoted_escape raw.toList [])
    rw [String.ofList_toList] at htakes
    exact .token rfl htakes .nil
  have hterm : IsTerm text.toList (.bare raw) := ⟨.quoted raw, rfl, htext ▸ hcuts⟩
  exact ofText_eq_some_iff.mpr
    ⟨rfl, hterm.parse, (test?_alone ⟨.name, .colon, false, .text raw⟩).trans htest⟩

end CardSearch.Query
