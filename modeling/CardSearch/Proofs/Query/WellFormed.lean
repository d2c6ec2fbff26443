import CardSearch.Proofs.Query.Lexing

/-
  The trees that queries have.

  A tree can be built by other means than a query, and then it may hold anything.  The tree of a
  query cannot: its groups have further members and one kind of connective, and each of its
  conditions could have been written as a field, an operator of that field and the text of a value.
  `Node.WellFormed` says so, without reference to how texts are read.

  1. **Conditions (`condition_eq_ok_iff`)** — what `condition` asks for, and all that it does.
  2. **The crux (`wellFormed_of_phrase` …)** — the tree of a phrase is well-formed.  A chain is the
     only source of groups, and it makes one only of members joined alike: all by `or`, or none.
  3. **Queries (`wellFormed_of_parse`)** — so every tree that a text has is well-formed.
-/

namespace CardSearch.Query

open Phrase

/-! ## Well-formed trees -/

/-- A condition that a query can state: the field takes the operator, and the value is that of some
    text.  A name may also be asked to contain the empty text. -/
def Condition.WellFormed (leaf : Condition) : Prop :=
  (leaf.operator ∈ leaf.field.operators ∧
    ∃ raw, raw ≠ "" ∧ Value.ofText? leaf.field raw = some leaf.value) ∨
  (leaf.field = .name ∧ leaf.operator = .colon ∧ leaf.value = .text "")

/-- Members that are all joined by `or`, or none of them. -/
def JoinedAlike (members : List (Connective × Node)) : Prop :=
  (∀ member ∈ members, member.1 = .or) ∨
  (∀ member ∈ members, member.1 = .implicit ∨ member.1 = .and)

/-- A tree that a query can have. -/
inductive Node.WellFormed : Node → Prop where
  | condition {leaf : Condition} (stated : leaf.WellFormed) : WellFormed (.condition leaf)
  | group {negated : Bool} {first : Node} {rest : List (Connective × Node)}
      (further : rest ≠ []) (alike : JoinedAlike rest) (wellFirst : first.WellFormed)
      (wellRest : ∀ member ∈ rest, member.2.WellFormed) :
      WellFormed (.group negated first rest)

theorem Node.WellFormed.negate {node : Node} (h : node.WellFormed) : node.negate.WellFormed := by
  cases h with
  | condition stated => exact .condition stated
  | group further alike wellFirst wellRest => exact .group further alike wellFirst wellRest

theorem wellFormed_bare (text : String) : (Node.bare text).WellFormed := by
  have hcolon : Operator.colon ∈ Field.name.operators := by decide
  by_cases htext : text = ""
  · exact .condition (Or.inr ⟨rfl, rfl, by rw [htext]⟩)
  · exact .condition (Or.inl ⟨hcolon, text, htext, rfl⟩)

/-- A chain of well-formed members that are joined alike: it is its only member, or an un-negated
    group of two or more. -/
theorem wellFormed_chain {first : Node} {members : List (Connective × Node)}
    (hfirst : first.WellFormed) (halike : JoinedAlike members)
    (hmembers : ∀ member ∈ members, member.2.WellFormed) : (chain first members).WellFormed := by
  cases members with
  | nil => exact hfirst
  | cons second more => exact .group (List.cons_ne_nil second more) halike hfirst hmembers

/-! ## Conditions of comparisons -/

/-- **What a comparison means**: its field is known and takes the operator, its value is not empty
    and is a value of the field. -/
theorem condition_eq_ok_iff {field : String} {operator : Operator} {raw : String}
    {leaf : Condition} :
    condition field operator raw = .ok leaf ↔
      ∃ known value, Field.ofAbbreviation? field = some known ∧ operator ∈ known.operators ∧
        raw ≠ "" ∧ Value.ofText? known raw = some value ∧
        leaf = ⟨known, operator, false, value⟩ := by
  constructor
  · intro h
    unfold condition at h
    split at h
    · cases h
    rename_i known hknown
    split at h
    · cases h
    rename_i hoperator
    split at h
    · cases h
    rename_i hraw
    split at h
    · cases h
    rename_i value hvalue
    refine ⟨known, value, hknown, ?_, ?_, hvalue, (Except.ok.inj h).symm⟩
    · simpa using hoperator
    · rintro rfl
      exact hraw (by decide)
  · rintro ⟨known, value, hknown, hoperator, hraw, hvalue, rfl⟩
    have hempty : raw.isEmpty = false := by simpa using hraw
    simp [condition, hknown, hoperator, hempty, hvalue]

/-- The condition of a comparison is well-formed, and not negated. -/
theorem wellFormed_of_condition {field : String} {operator : Operator} {raw : String}
    {leaf : Condition} (h : condition field operator raw = .ok leaf) : leaf.WellFormed := by
  obtain ⟨known, value, _, hoperator, hraw, hvalue, rfl⟩ := condition_eq_ok_iff.mp h
  exact Or.inl ⟨hoperator, raw, hraw, hvalue⟩

/-! ## Trees of phrases -/

mutual

/-- The tree of a term is well-formed.  By induction on the phrase, together with the other rules
    of the grammar. -/
theorem wellFormed_of_term : ∀ (term : Term) {node : Node}, term.tree? = some node →
    node.WellFormed
  | .not inner, node, h => by
    rw [Term.tree?, Option.map_eq_some_iff] at h
    obtain ⟨node, htree, rfl⟩ := h
    exact (wellFormed_of_term inner htree).negate
  | .parens inner, node, h => wellFormed_of_phrase inner h
  | .comparison field operator value, node, h => by
    obtain ⟨leaf, hleaf, rfl⟩ := comparison_tree?_eq_some_iff.mp h
    exact .condition (wellFormed_of_condition hleaf)
  | .word text, node, h => by
    obtain rfl := Option.some.inj h
    exact wellFormed_bare text
  | .quoted text, node, h => by
    obtain rfl := Option.some.inj h
    exact wellFormed_bare text
  termination_by structural term => term

/-- Further terms: each is joined by `and` or by standing beside the last.  So the two connectives
    of a sequence never stand beside `or`. -/
theorem wellFormed_of_moreTerms : ∀ (more : MoreTerms) {members : List (Connective × Node)},
    more.members? = some members →
    ∀ member ∈ members, (member.1 = .implicit ∨ member.1 = .and) ∧ member.2.WellFormed
  | .none, members, h => by
    obtain rfl := Option.some.inj h
    exact fun member hmember => absurd hmember List.not_mem_nil
  | .beside next more, members, h => by
    obtain ⟨node, others, htree, hothers, rfl⟩ := MoreTerms.members?_beside_eq_some_iff.mp h
    exact List.forall_mem_cons.mpr
      ⟨⟨Or.inl rfl, wellFormed_of_term next htree⟩, wellFormed_of_moreTerms more hothers⟩
  | .and next more, members, h => by
    obtain ⟨node, others, htree, hothers, rfl⟩ := MoreTerms.members?_and_eq_some_iff.mp h
    exact List.forall_mem_cons.mpr
      ⟨⟨Or.inr rfl, wellFormed_of_term next htree⟩, wellFormed_of_moreTerms more hothers⟩
  termination_by structural more => more

/-- A sequence is a chain of such members. -/
theorem wellFormed_of_sequence : ∀ (phrase : Sequence) {node : Node}, phrase.tree? = some node →
    node.WellFormed
  | .mk first more, node, h => by
    obtain ⟨node, members, htree, hmembers, rfl⟩ := Sequence.tree?_eq_some_iff.mp h
    have hall := wellFormed_of_moreTerms more hmembers
    exact wellFormed_chain (wellFormed_of_term first htree)
      (Or.inr fun member hmember => (hall member hmember).1)
      (fun member hmember => (hall member hmember).2)
  termination_by structural phrase => phrase

/-- Further alternatives: each is joined by `or`. -/
theorem wellFormed_of_moreAlternatives : ∀ (more : MoreAlternatives)
    {members : List (Connective × Node)}, more.members? = some members →
    ∀ member ∈ members, member.1 = .or ∧ member.2.WellFormed
  | .none, members, h => by
    obtain rfl := Option.some.inj h
    exact fun member hmember => absurd hmember List.not_mem_nil
  | .or next more, members, h => by
    obtain ⟨node, others, htree, hothers, rfl⟩ := MoreAlternatives.members?_or_eq_some_iff.mp h
    exact List.forall_mem_cons.mpr
      ⟨⟨rfl, wellFormed_of_sequence next htree⟩, wellFormed_of_moreAlternatives more hothers⟩
  termination_by structural more => more

/-- And alternatives are a chain of sequences, all joined by `or`. -/
theorem wellFormed_of_phrase : ∀ (phrase : Alternatives) {node : Node},
    phrase.tree? = some node → node.WellFormed
  | .mk first more, node, h => by
    obtain ⟨node, members, htree, hmembers, rfl⟩ := Alternatives.tree?_eq_some_iff.mp h
    have hall := wellFormed_of_moreAlternatives more hmembers
    exact wellFormed_chain (wellFormed_of_sequence first htree)
      (Or.inl fun member hmember => (hall member hmember).1)
      (fun member hmember => (hall member hmember).2)
  termination_by structural phrase => phrase

end

/-- **The tree of a query is well-formed**, for it is the tree of a phrase. -/
theorem wellFormed_of_parse {text : String} {tree : Node} (h : parse text = .ok tree) :
    tree.WellFormed := by
  obtain ⟨phrase, _, htree⟩ := parse_eq_ok_iff.mp h
  exact wellFormed_of_phrase phrase htree

end CardSearch.Query
