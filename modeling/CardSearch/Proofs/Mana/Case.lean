import CardSearch.Proofs.Mana.Fusing
import CardSearch.Proofs.Mana.Unlimited
import CardSearch.Proofs.Text.Ascii

/-
  Cost symbols in lower case.

  The reader of costs puts a symbol in lower case itself, so it makes nothing of the case of a symbol.
  Only what it does before that can tell the cases apart: it leaves out the marker between the halves
  of a split cost, which it knows in lower case alone.

  1. **Groups (`mem_normalizeCost_iff`)** — in lower case a cost has the same groups, without those
     of the markers in other cases.
  2. **Exact payment (`canPay_lower`)** — is not concerned, for a marker is no variable symbol.
  3. **The crux (`canPayColors_of_disguised`, `exists_pool_iff`)** — a marker in another case is asked
     for as a color that no pool has.  So a pool tells the cases apart exactly if the other groups
     could be paid, and whether some pool pays them can be seen from their parts.
-/

namespace CardSearch.Mana

/-- A symbol with its ASCII letters in lower case. -/
def lowerSymbol (symbol : String) : String := String.ofList (Text.lowerAscii symbol.toList)

/-- A symbol in either case has the same parts, since the reader of costs puts it in lower case
    itself. -/
theorem normalizeSymbol_lowerSymbol (symbol : String) :
    normalizeSymbol (lowerSymbol symbol) = normalizeSymbol symbol := by
  rw [normalizeSymbol, normalizeSymbol, lowerSymbol, String.toList_ofList, Text.lower_lowerAscii]

theorem lowerSymbol_split : lowerSymbol "split" = "split" := by decide

theorem ne_split_of_lowerSymbol {symbol : String} (h : lowerSymbol symbol ≠ "split") :
    symbol ≠ "split" := by
  rintro rfl
  exact h lowerSymbol_split

/-- The group of a marker that is read as a symbol. -/
def markerGroup : Group := ["split"]

/-- A marker in another case is read as a symbol with one part. -/
theorem normalizeSymbol_of_marker {symbol : String} (h : lowerSymbol symbol = "split") :
    normalizeSymbol symbol = markerGroup := by
  rw [← normalizeSymbol_lowerSymbol, h]
  decide +kernel

/-- A marker in another case is among the symbols. -/
def Disguised (symbols : List String) : Prop :=
  ∃ symbol ∈ symbols, symbol ≠ "split" ∧ lowerSymbol symbol = "split"

section

variable (symbols : List String)

/-! ## Groups -/

/-- In lower case a cost leaves out the markers of any case, because then it knows them all. -/
theorem normalizeCost_lower :
    normalizeCost (symbols.map lowerSymbol) =
      (symbols.filter (lowerSymbol · != "split")).map normalizeSymbol := by
  rw [normalizeCost, List.filter_map, List.map_map]
  exact List.map_congr_left fun symbol _ => normalizeSymbol_lowerSymbol symbol

/-- **The groups of a cost are those of its lower case and those of the markers in other cases.**
    Nothing else depends on the case. -/
theorem mem_normalizeCost_iff {group : Group} :
    group ∈ normalizeCost symbols ↔
      group ∈ normalizeCost (symbols.map lowerSymbol) ∨ Disguised symbols ∧ group = markerGroup := by
  rw [normalizeCost_lower, normalizeCost]
  simp only [List.mem_map, List.mem_filter, bne_iff_ne]
  constructor
  · rintro ⟨symbol, ⟨hsymbol, hmarker⟩, rfl⟩
    by_cases hlower : lowerSymbol symbol = "split"
    · exact Or.inr ⟨⟨symbol, hsymbol, hmarker, hlower⟩, normalizeSymbol_of_marker hlower⟩
    · exact Or.inl ⟨symbol, ⟨hsymbol, hlower⟩, rfl⟩
  · rintro (⟨symbol, ⟨hsymbol, hlower⟩, rfl⟩ | ⟨⟨symbol, hsymbol, hmarker, hlower⟩, rfl⟩)
    · exact ⟨symbol, ⟨hsymbol, ne_split_of_lowerSymbol hlower⟩, rfl⟩
    · exact ⟨symbol, ⟨hsymbol, hmarker⟩, normalizeSymbol_of_marker hlower⟩

variable {symbols}

/-- Without such a marker the cost is the same, group for group and in the same order. -/
theorem normalizeCost_lower_eq (h : ¬ Disguised symbols) :
    normalizeCost (symbols.map lowerSymbol) = normalizeCost symbols := by
  rw [normalizeCost_lower, normalizeCost]
  refine congrArg _ (List.filter_congr fun symbol hsymbol => ?_)
  rw [Bool.eq_iff_iff, bne_iff_ne, bne_iff_ne]
  exact ⟨ne_split_of_lowerSymbol, fun hmarker hlower => h ⟨symbol, hsymbol, hmarker, hlower⟩⟩

theorem ne_nil_of_mem_normalizeCost {group : Group} (h : group ∈ normalizeCost symbols) :
    group ≠ [] := by
  obtain ⟨symbol, _, rfl⟩ := List.mem_map.mp h
  rw [normalizeSymbol, ne_eq, List.map_eq_nil_iff]
  exact Text.splitBy_ne_nil _ _

/-! ## Exact payment -/

/-- **A pool pays a cost exactly in either case**: exact payment looks at variable groups only,
    and the group of a marker is not variable. -/
theorem canPay_lower (pool : Pool) (symbols : List String) :
    canPay pool (normalizeCost (symbols.map lowerSymbol)) = canPay pool (normalizeCost symbols) := by
  have hvariable : (normalizeCost (symbols.map lowerSymbol)).filter isVariable =
      (normalizeCost symbols).filter isVariable := by
    rw [normalizeCost_lower, normalizeCost, List.filter_map, List.filter_map, List.filter_filter,
      List.filter_filter]
    refine congrArg _ (List.filter_congr fun symbol _ => ?_)
    by_cases hlower : lowerSymbol symbol = "split"
    · -- in lower case the marker is left out; as a group it is no variable, so it is left out here too
      rw [Function.comp_apply, normalizeSymbol_of_marker hlower]
      rfl
    · rw [bne_iff_ne.mpr hlower, bne_iff_ne.mpr (ne_split_of_lowerSymbol hlower)]
  rw [canPay, canPay, requirements, requirements, hvariable]

/-! ## Payment with unlimited generic mana -/

/-- The marker is neither a letter nor a run of digits, so no pool text holds it. -/
theorem not_isPoolSymbol_split : ¬ IsPoolSymbol "split" := by
  rintro (⟨letter, _, hsplit⟩ | ⟨_, hdigits⟩)
  · have hletters : ['s', 'p', 'l', 'i', 't'] = [letter] := by
      rw [← String.toList_ofList (l := [letter]), ← hsplit]
      rfl
    cases hletters
  · exact absurd (hdigits 's' (by decide)) (by decide)

/-- **No pool pays for a marker.** It is asked for as a color, and the pools of texts have no
    such color. -/
theorem canPayColors_of_disguised (h : Disguised symbols) {pool : Pool}
    (hpool : ∀ symbol ∈ pool, IsPoolSymbol symbol) :
    canPayColors pool (normalizeCost symbols) = false := by
  refine Bool.eq_false_iff.mpr fun hpaid => ?_
  have hmarker : markerGroup ∈ normalizeCost symbols :=
    (mem_normalizeCost_iff symbols).mpr (Or.inr ⟨h, rfl⟩)
  obtain ⟨symbol, hsymbol, hmem⟩ :=
    canPayColors_iff_covered.mp hpaid markerGroup hmarker (by decide +kernel)
  rw [inLowerCase_of_isPoolSymbol (hpool symbol hsymbol)] at hmem
  obtain rfl := List.mem_singleton.mp hmem
  exact not_isPoolSymbol_split (hpool _ hsymbol)

/-- Every group that asks for a color has a part that a pool can hold. -/
def Castable (cost : Cost) : Prop :=
  ∀ group ∈ cost, needsColor group = true → ∃ part ∈ group, IsPoolSymbol part

/-- Symbols with a color between any two of them. -/
def spaced (parts : List String) : Pool := "w" :: parts.flatMap fun part => [part, "w"]

/-- Spaced symbols have no amounts for neighbours, since a letter stands between any two of them. -/
theorem separated_spaced (parts : List String) : Separated (spaced parts) := by
  have hletter : isRun "w" = false := by decide
  rw [spaced, Separated]
  induction parts with
  | nil => exact .singleton _
  | cons part rest ih =>
    rw [List.flatMap_cons, List.cons_append, List.cons_append, List.nil_append,
      List.isChain_cons_cons, List.isChain_cons_cons, hletter, Bool.false_and, Bool.and_false]
    exact ⟨rfl, rfl, ih⟩

/-- Symbols that are spaced are a pool with a text, so whatever a payment needs can be written as
    a query. -/
theorem parsePool_spaced {parts : List String} (h : ∀ part ∈ parts, IsPoolSymbol part) :
    parsePool (String.ofList (shown (spaced parts))) = some (spaced parts) := by
  have hsymbols : ∀ symbol ∈ spaced parts, IsPoolSymbol symbol := by
    have hletter : IsPoolSymbol "w" := Or.inl ⟨'w', by decide, rfl⟩
    refine List.forall_mem_cons.mpr ⟨hletter, fun symbol hsymbol => ?_⟩
    obtain ⟨part, hpart, hmem⟩ := List.mem_flatMap.mp hsymbol
    simp only [List.mem_cons, List.not_mem_nil, or_false] at hmem
    rcases hmem with rfl | rfl
    · exact h symbol hpart
    · exact hletter
  have hne : spaced parts ≠ [] := List.cons_ne_nil _ _
  rw [parsePool_symbols hne hsymbols, fuse_eq_self_iff.mpr (separated_spaced parts)]

/-- **Some pool pays a cost exactly if every group has a part for one.** A pool of all these
    parts does, and with unlimited generic mana no symbol is used up. -/
theorem exists_pool_iff {cost : Cost} :
    (∃ text pool, parsePool text = some pool ∧ canPayColors pool cost = true) ↔ Castable cost := by
  classical
  constructor
  · rintro ⟨text, pool, hpool, hpaid⟩ group hgroup hneeds
    obtain ⟨symbol, hsymbol, hmem⟩ := canPayColors_iff_covered.mp hpaid group hgroup hneeds
    have hown := isPoolSymbol_of_parsePool hpool symbol hsymbol
    rw [inLowerCase_of_isPoolSymbol hown] at hmem
    exact ⟨symbol, hmem, hown⟩
  · intro hcastable
    -- all the parts of the cost that a pool can hold
    let parts : List String := cost.flatten.filter (IsPoolSymbol ·)
    have hparts : ∀ part ∈ parts, IsPoolSymbol part := fun part hpart =>
      of_decide_eq_true (List.mem_filter.mp hpart).2
    refine ⟨_, _, parsePool_spaced hparts, canPayColors_iff_covered.mpr ?_⟩
    intro group hgroup hneeds
    obtain ⟨part, hpart, hsymbol⟩ := hcastable group hgroup hneeds
    have hmem : part ∈ parts :=
      List.mem_filter.mpr ⟨List.mem_flatten.mpr ⟨group, hgroup, hpart⟩, decide_eq_true hsymbol⟩
    refine ⟨part, List.mem_cons_of_mem _ (List.mem_flatMap.mpr ⟨part, hmem, ?_⟩), ?_⟩
    · exact List.mem_cons_self
    · rwa [inLowerCase_of_isPoolSymbol hsymbol]

end

end CardSearch.Mana
