import CardSearch.Proofs.Mana.Account

/-
  Paying with unlimited generic mana.

  Groups that generic or variable mana pays are dropped, and each symbol of the pool then clears every
  group that lists it.  A symbol is not used up, so what is left does not depend on how often or when
  it comes.

  1. **Groups (`needsColor_iff`)** — which groups are not dropped, said by their first two parts.
  2. **The crux (`mem_clearAll_iff`)** — a group is left exactly if no symbol is one of its parts.
     The loop shrinks the list symbol by symbol, and the statement holds for every list it starts at.
  3. **The result (`canPayColors_iff`)** — so a cost is paid if each group that is not dropped has a
     part in the pool.  Only the sets of symbols and of groups enter into that.
-/

namespace CardSearch.Mana

/-! ## Groups that ask for a color -/

/-- A group asks for a color if its first part is neither an amount nor a mark and its second part,
    if there is one, is not `2`. -/
theorem needsColor_iff {group : Group} :
    needsColor group = true ↔ ∃ first rest, group = first :: rest ∧ amount? first = none ∧
      first ∉ variableMarkers ∧ rest.head? ≠ some "2" := by
  cases group with
  | nil => simp [needsColor]
  | cons first rest => simp [needsColor, and_assoc]

/-! ## Clearing -/

/-- The groups that are left when every symbol in turn has cleared those that list it. -/
def clearAll (groups : Cost) (symbols : List String) : Cost :=
  symbols.foldl (fun remaining symbol => remaining.filter (!·.contains symbol)) groups

/-- **A group is left if no symbol is one of its parts.** By induction on the symbols, for every
    list of groups, as each symbol leaves a shorter one to the next. -/
theorem mem_clearAll_iff {groups : Cost} {symbols : List String} {group : Group} :
    group ∈ clearAll groups symbols ↔ group ∈ groups ∧ ∀ symbol ∈ symbols, symbol ∉ group := by
  induction symbols generalizing groups with
  | nil => simp [clearAll]
  | cons symbol rest ih =>
    have hstep : clearAll groups (symbol :: rest) =
        clearAll (groups.filter (!·.contains symbol)) rest := rfl
    have hkept : group ∈ groups.filter (!·.contains symbol) ↔ group ∈ groups ∧ symbol ∉ group := by
      simp
    rw [hstep, ih, hkept, List.forall_mem_cons, and_assoc]

/-- The loop of the program is this clearing, on the groups that ask for a color. -/
theorem canPayColors_iff_clearAll {pool : Pool} {cost : Cost} :
    canPayColors pool cost = true ↔
      clearAll (cost.filter needsColor) (pool.map inLowerCase) = [] :=
  List.isEmpty_iff

/-! ## Paying -/

/-- Every group that asks for a color has a part in the pool. -/
def ColorsCovered (pool : Pool) (cost : Cost) : Prop :=
  ∀ group ∈ cost, needsColor group = true → ∃ symbol ∈ pool, inLowerCase symbol ∈ group

/-- So nothing is left exactly if every such group has a part in the pool. -/
theorem canPayColors_iff_covered {pool : Pool} {cost : Cost} :
    canPayColors pool cost = true ↔ ColorsCovered pool cost := by
  rw [canPayColors_iff_clearAll, List.eq_nil_iff_forall_not_mem]
  refine forall_congr' fun group => ?_
  rw [mem_clearAll_iff, List.mem_filter, List.forall_mem_map]
  constructor
  · intro hcleared hgroup hneeds
    refine Classical.byContradiction fun hnone => hcleared ⟨⟨hgroup, hneeds⟩, ?_⟩
    exact fun symbol hsymbol hmem => hnone ⟨symbol, hsymbol, hmem⟩
  · rintro hcovered ⟨⟨hgroup, hneeds⟩, hunlisted⟩
    obtain ⟨symbol, hsymbol, hmem⟩ := hcovered hgroup hneeds
    exact hunlisted symbol hsymbol hmem

/-- More symbols cover more, and fewer groups ask for less.  So payment is monotone in both. -/
theorem ColorsCovered.mono {pool pool' : Pool} {cost cost' : Cost} (h : ColorsCovered pool cost)
    (hpool : pool ⊆ pool') (hcost : cost' ⊆ cost) : ColorsCovered pool' cost' := by
  intro group hgroup hneeds
  obtain ⟨symbol, hsymbol, hmem⟩ := h group (hcost hgroup) hneeds
  exact ⟨symbol, hpool hsymbol, hmem⟩

/-- **With unlimited generic mana a pool pays by what is in it.**
    (1) It pays a cost exactly if each group whose first part is neither an amount nor a mark, and
    whose second part is not `2`, has a part that is a symbol of the pool in lower case.
    (2) So neither the order nor the number of equal symbols or groups matters,
    (3) a pool with further symbols still pays,
    (4) and so does the pool when groups are left out. -/
theorem canPayColors_iff (pool : Pool) (cost : Cost) :
    (canPayColors pool cost = true ↔
      ∀ first rest, first :: rest ∈ cost → amount? first = none → first ∉ variableMarkers →
        rest.head? ≠ some "2" → ∃ symbol ∈ pool, inLowerCase symbol ∈ first :: rest) ∧
    (∀ pool' cost', (∀ symbol, symbol ∈ pool' ↔ symbol ∈ pool) →
      (∀ group, group ∈ cost' ↔ group ∈ cost) →
      canPayColors pool' cost' = canPayColors pool cost) ∧
    (∀ pool', pool ⊆ pool' → canPayColors pool cost = true → canPayColors pool' cost = true) ∧
    (∀ cost', cost' ⊆ cost → canPayColors pool cost = true → canPayColors pool cost' = true) := by
  refine ⟨?closed, ?same, ?more, ?fewer⟩
  case closed =>
    rw [canPayColors_iff_covered]
    constructor
    · intro hcovered first rest hgroup hamount hmarker htwo
      exact hcovered _ hgroup (needsColor_iff.mpr ⟨first, rest, rfl, hamount, hmarker, htwo⟩)
    · intro hlisted group hgroup hneeds
      obtain ⟨first, rest, rfl, hamount, hmarker, htwo⟩ := needsColor_iff.mp hneeds
      exact hlisted first rest hgroup hamount hmarker htwo
  case same =>
    intro pool' cost' hpool hcost
    rw [Bool.eq_iff_iff, canPayColors_iff_covered, canPayColors_iff_covered]
    constructor
    · exact fun h => h.mono (fun symbol => (hpool symbol).mp) fun group => (hcost group).mpr
    · exact fun h => h.mono (fun symbol => (hpool symbol).mpr) fun group => (hcost group).mp
  case more =>
    intro pool' hpool hpaid
    exact canPayColors_iff_covered.mpr
      ((canPayColors_iff_covered.mp hpaid).mono hpool (List.Subset.refl cost))
  case fewer =>
    intro cost' hcost hpaid
    exact canPayColors_iff_covered.mpr
      ((canPayColors_iff_covered.mp hpaid).mono (List.Subset.refl pool) hcost)

/-- A capital clears two groups, one of them by its third part; a mark, a `2` beside a color and a
    group without parts are not asked for.  Turned around and with symbols and groups twice, the same
    is paid. -/
theorem canPayColors_iff_thirdPart :
    canPayColors ["U", "b"] [["w", "u"], ["r", "g", "u"], ["b"], ["x"], ["g", "2"], []] = true ∧
      canPayColors ["b", "U", "b"]
        [[], ["b"], ["r", "g", "u"], ["b"], ["g", "2"], ["x"], ["w", "u"]] = true := by
  obtain ⟨hclosed, hsame, _⟩ := canPayColors_iff ["U", "b"]
    [["w", "u"], ["r", "g", "u"], ["b"], ["x"], ["g", "2"], []]
  have hpaid : canPayColors ["U", "b"]
      [["w", "u"], ["r", "g", "u"], ["b"], ["x"], ["g", "2"], []] = true := by
    refine hclosed.mpr fun first rest hgroup _ hmarker htwo => ?_
    simp only [List.mem_cons, List.not_mem_nil, or_false, List.cons.injEq, reduceCtorEq] at hgroup
    rcases hgroup with ⟨rfl, rfl⟩ | ⟨rfl, rfl⟩ | ⟨rfl, rfl⟩ | ⟨rfl, rfl⟩ | ⟨rfl, rfl⟩
    · exact ⟨"U", by decide, by decide⟩
    · exact ⟨"U", by decide, by decide⟩
    · exact ⟨"b", by decide, by decide⟩
    · exact absurd (by decide) hmarker
    · exact absurd rfl htwo
  refine ⟨hpaid, (hsame _ _ ?_ ?_).trans hpaid⟩
  · intro symbol
    simp only [List.mem_cons, List.not_mem_nil, or_false]
    tauto
  · intro group
    simp only [List.mem_cons, List.not_mem_nil, or_false]
    tauto

end CardSearch.Mana
