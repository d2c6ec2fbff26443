import CardSearch.Proofs.Mana.Order
import CardSearch.Proofs.Query.Outcome

/-
  Queries for what a pool pays.

  `cw=` and a pool find the cards whose cost the pool pays exactly.  How the symbols of a pool are
  ordered in the text is not meant to matter, and mostly does not: `castable_order_iff` says for
  which cards.  The crux is `Mana.orderFree_iff`; here it is carried from pools to queries.

  A symbol of three parts is enough for the exception (`canPay_three_parts`).
-/

namespace CardSearch.Query

/-- A query for the cards whose cost a pool pays exactly. -/
def casting (pool : Mana.Pool) : Node := .condition ⟨.castable, .equal, false, .manaPool pool⟩

/-- Such a query tests a card by its pool, which a pool text can hold.  The pool comes from the
    reader of pools, and the query passes it on to the test as it is. -/
theorem casting_of_ofText {text : String} {filter : Filter} {pool : Mana.Pool}
    (h : Filter.ofText text = .ok (some filter)) (hquery : filter.query = casting pool) :
    (∀ symbol ∈ pool, Mana.IsPoolSymbol symbol) ∧
      ∀ card, passes (some filter) card = Mana.canPay pool (Mana.normalizeCost card.cost) := by
  obtain ⟨_, hparse, htest⟩ := ofText_eq_some_iff.mp h
  rw [hquery] at hparse htest
  constructor
  · cases wellFormed_of_parse hparse with
    | condition stated =>
      rcases stated with ⟨_, raw, _, hvalue⟩ | ⟨hname, _⟩
      · obtain ⟨read, hread, hpool⟩ := Option.map_eq_some_iff.mp hvalue
        obtain rfl := Value.manaPool.inj hpool
        exact Mana.isPoolSymbol_of_parsePool hread
      · cases hname
  · intro card
    obtain htest := Except.ok.inj htest
    rw [passes, ← htest]
    exact Bool.bne_false _

/-- **For which cards the order of a pool does not matter.**
    (1) Those with a variable symbol that no color pays, and those where, of two variable symbols
    that share a color, the one that is tried first lists no color that the other lacks.
    (2) In particular those whose symbols have at most two parts.
    (3) Two queries whose pools hold the same symbols find the same of these cards. -/
theorem castable_order_iff (symbols : List String) :
    (Mana.OrderFree (Mana.normalizeCost symbols) ↔
      (∃ group ∈ Mana.colorGroups (Mana.normalizeCost symbols), ∀ color, Mana.IsColor color →
        .symbol color ∉ group) ∨
      Mana.Nested Mana.IsColor (Mana.colorGroups (Mana.normalizeCost symbols))) ∧
    ((∀ group ∈ Mana.normalizeCost symbols, group.length ≤ 2) →
      Mana.OrderFree (Mana.normalizeCost symbols)) ∧
    (Mana.OrderFree (Mana.normalizeCost symbols) →
      ∀ (left right : String) (f g : Filter) (pool pool' : Mana.Pool),
        Filter.ofText left = .ok (some f) → Filter.ofText right = .ok (some g) →
        f.query = casting pool → g.query = casting pool' → pool.Perm pool' →
        ∀ card, card.cost = symbols → passes (some f) card = passes (some g) card) := by
  refine ⟨Mana.orderFree_iff, Mana.orderFree_of_length_le, ?_⟩
  intro hfree left right f g pool pool' hleft hright hf hg hperm card hcard
  obtain ⟨hpool, hpasses⟩ := casting_of_ofText hleft hf
  obtain ⟨_, hpasses'⟩ := casting_of_ofText hright hg
  rw [hpasses, hpasses', hcard]
  exact (hfree pool pool' hpool hperm).symm

/-- Two groups of three parts that share white.  White first takes the group that blue needs, and
    the pool no longer pays. -/
theorem canPay_three_parts :
    Mana.parsePool "wu" = some ["w", "u"] ∧ Mana.parsePool "uw" = some ["u", "w"] ∧
      ["w", "u"].Perm ["u", "w"] ∧
      Mana.canPay ["w", "u"] (Mana.normalizeCost ["x-w-u", "x-w-b"]) = false ∧
      Mana.canPay ["u", "w"] (Mana.normalizeCost ["x-w-u", "x-w-b"]) = true := by
  have hcost : Mana.requirements (Mana.normalizeCost ["x-w-u", "x-w-b"]) =
      [[.symbol "x", .symbol "w", .symbol "u"], [.symbol "x", .symbol "w", .symbol "b"]] :=
    Mana.requirements_of_pairwise (by decide)
  refine ⟨by decide +kernel, by decide +kernel, .swap "u" "w" [], ?_, ?_⟩
  · rw [Mana.canPay, hcost]
    decide
  · rw [Mana.canPay, hcost]
    decide

end CardSearch.Query
