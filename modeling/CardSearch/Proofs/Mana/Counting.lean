import CardSearch.Proofs.Mana.Matching
import Mathlib.Data.List.Perm.Subperm

/-
  Paying the costs that occur on cards is counting.

  A variable symbol has one part or two: a mark alone, or a mark beside a `2` or a color.  Nothing in
  a pool pays a mark alone.  A mark beside a color lists one color only, so which group a color takes
  is no choice, and how often each color is asked for can be compared with how often it is there.

  1. **One color for a group (`covered_iff_subperm`)** — groups that list one color each are covered
     exactly when those colors are among the colors given out.
  2. **Pairs (`map_wanted_requirement`, `owed_requirement`)** — the accounts of a cost of pairs are
     counts of its second parts.
  3. **The result (`canPay_iff_affordable`)** — a pool pays a cost exactly when three conditions on
     counts hold (`Affordable`), so neither fixed groups nor the order of pool and cost matter.
-/

namespace CardSearch.Mana

/-! ## The conditions -/

/-- The second parts of groups, for the groups that have one. -/
def seconds (groups : Cost) : List String := groups.filterMap (·[1]?)

/-- The colors that groups ask for: second parts other than `2`. -/
def colorsAsked (groups : Cost) : List String := (seconds groups).filter (· != "2")

/-- What it takes to pay variable groups of one part or two. -/
structure Affordable (pool : Pool) (groups : Cost) : Prop where
  /-- No group is a mark alone. -/
  paired : ∀ group ∈ groups, group.length ≠ 1
  /-- A second part other than `2` is no amount, and the pool holds it as often as it is asked for. -/
  colors : ∀ second ∈ seconds groups, second ≠ "2" → amount? second = none ∧
    (seconds groups).count second ≤ (pool.map inLowerCase).count second
  /-- The amounts, and the colors that are left when each group that asks for one has taken it, pay
      two for every second part `2`. -/
  generic : 2 * (seconds groups).count "2" ≤
    (poolAmounts pool).sum + ((poolColors pool).length - (colorsAsked groups).length)

/-- The order of the pool and of the groups does not enter into the conditions, for each of them
    only counts or speaks of membership. -/
theorem Affordable.perm {pool pool' : Pool} {groups groups' : Cost} (h : Affordable pool groups)
    (hpool : pool.Perm pool') (hgroups : groups.Perm groups') : Affordable pool' groups' := by
  have hseconds : (seconds groups).Perm (seconds groups') := hgroups.filterMap _
  have hcolors : (poolColors pool).Perm (poolColors pool') := (hpool.filter _).map _
  have hamounts : (poolAmounts pool).sum = (poolAmounts pool').sum := (hpool.filterMap _).sum_nat
  refine ⟨fun group hgroup => h.paired group (hgroups.mem_iff.mpr hgroup), ?_, ?_⟩
  · intro second hsecond htwo
    rw [← hseconds.count_eq, ← (hpool.map inLowerCase).count_eq]
    exact h.colors second (hseconds.mem_iff.mpr hsecond) htwo
  · have hasked : (colorsAsked groups).length = (colorsAsked groups').length :=
      (hseconds.filter _).length_eq
    rw [← hseconds.count_eq, ← hamounts, ← hcolors.length_eq, ← hasked]
    exact h.generic

/-! ## One color for a group -/

section

variable {isColor : String → Prop} {wanted : List Part → String} {groups : List (List Part)}
  (hwanted : ∀ group ∈ groups, ∀ color, isColor color →
    (.symbol color ∈ group ↔ color = wanted group))
include hwanted

/-- Groups that list one color each are nested: if two share a color, it is the one color of
    both. -/
theorem nested_of_wanted : Nested isColor groups := by
  refine List.Pairwise.imp_of_mem ?_ (List.pairwise_of_forall fun _ _ => trivial)
  intro earlier later hearlier _ _ shared other hshared hother hsharedEarlier hsharedLater hmem
  have hsame : other = shared :=
    ((hwanted earlier hearlier other hother).mp hmem).trans
      ((hwanted earlier hearlier shared hshared).mp hsharedEarlier).symm
  exact hsame ▸ hsharedLater

/-- They are covered exactly when these colors are given out.  A group has no choice, so the
    matching is decided by counting, which is what `Subperm` says. -/
theorem covered_iff_subperm {colors : List String} (hcolors : ∀ color ∈ colors, isColor color) :
    Covered groups colors ↔ (groups.map wanted).Subperm colors := by
  constructor
  · intro h
    induction h with
    | nil => exact List.nil_subperm
    | @cons group groups colors rest color listed given others ih =>
      -- what is taken from the colors for a group is the color that it wants
      obtain ⟨hgroup, hgroups⟩ := List.forall_mem_cons.mp hwanted
      have hrest : ∀ other ∈ rest, isColor other := fun other hother =>
        hcolors other (given.mem_iff.mpr (List.mem_cons_of_mem color hother))
      have hcolor : isColor color := hcolors color (given.mem_iff.mpr List.mem_cons_self)
      rw [List.map_cons, ← (hgroup color hcolor).mp listed]
      exact ((List.subperm_cons color).mpr (ih hgroups hrest)).trans given.symm.subperm
  · intro h
    induction groups generalizing colors with
    | nil => exact .nil colors
    | cons group groups ih =>
      obtain ⟨hgroup, hgroups⟩ := List.forall_mem_cons.mp hwanted
      rw [List.map_cons] at h
      -- the color that a group wants is among the colors, and is erased from them
      have hmem : wanted group ∈ colors := h.subset List.mem_cons_self
      have hgiven := List.perm_cons_erase hmem
      refine .cons ((hgroup _ (hcolors _ hmem)).mpr rfl) hgiven (ih hgroups ?_ ?_)
      · exact fun color hcolor => hcolors color (List.mem_of_mem_erase hcolor)
      · exact (List.subperm_cons _).mp (h.trans hgiven.subperm)

end

/-! ## Pairs -/

/-- A variable group of two parts. -/
def IsPair (group : Group) : Prop := ∃ marker ∈ variableMarkers, ∃ second, group = [marker, second]

/-- The color that the parts of a pair list beside the mark. -/
def wantedColor : List Part → String
  | [_, .symbol color] => color
  | _ => ""

section

variable {groups : Cost} (h : ∀ group ∈ groups, IsPair group)
include h

/-- Pairs owe two for each second part `2`, and nothing for the others. -/
theorem owed_requirement : owed (groups.map requirement) = 2 * (seconds groups).count "2" := by
  induction groups with
  | nil => rfl
  | cons group rest ih =>
    obtain ⟨⟨marker, hmarker, second, rfl⟩, hrest⟩ := List.forall_mem_cons.mp h
    have hseconds : seconds ([marker, second] :: rest) = second :: seconds rest := rfl
    rw [List.map_cons, requirement_pair hmarker, hseconds, List.count_cons]
    by_cases htwo : second = "2"
    · rw [if_pos htwo, owed_cons_of_some rfl, ih hrest, if_pos (beq_iff_eq.mpr htwo)]
      omega
    · rw [if_neg htwo, owed_cons_of_none rfl, ih hrest, if_neg (mt eq_of_beq htwo)]
      rfl

/-- The other pairs ask for their second parts, in the order of the groups. -/
theorem map_wanted_requirement :
    (unnumbered (groups.map requirement)).map wantedColor = colorsAsked groups := by
  induction groups with
  | nil => rfl
  | cons group rest ih =>
    obtain ⟨⟨marker, hmarker, second, rfl⟩, hrest⟩ := List.forall_mem_cons.mp h
    have hasked : colorsAsked ([marker, second] :: rest) =
        (second :: seconds rest).filter (· != "2") := rfl
    rw [List.map_cons, requirement_pair hmarker, hasked]
    by_cases htwo : second = "2"
    · rw [if_pos htwo, unnumbered_cons_of_some rfl, ih hrest, List.filter_cons_of_neg (by simp [htwo])]
      rfl
    · rw [if_neg htwo, unnumbered_cons_of_none rfl, List.map_cons, ih hrest,
        List.filter_cons_of_pos (by simp [htwo])]
      rfl

end

/-- The groups of a cost are its variable groups in another order, since sorting is a
    permutation. -/
theorem requirements_perm (cost : Cost) :
    (requirements cost).Perm ((cost.filter isVariable).map requirement) :=
  List.mergeSort_perm _ _

section

variable {cost : Cost} (h : ∀ group ∈ cost.filter isVariable, IsPair group)
include h

/-- So a cost owes two for each `2` beside a mark, in whatever order its groups are tried. -/
theorem owed_requirements :
    owed (requirements cost) = 2 * (seconds (cost.filter isVariable)).count "2" := by
  rw [← owed_requirement h]
  exact (((requirements_perm cost).filterMap _).map _).sum_nat

/-- And the colors that it asks for are the other second parts. -/
theorem map_wanted_colorGroups :
    ((colorGroups cost).map wantedColor).Perm (colorsAsked (cost.filter isVariable)) := by
  rw [← map_wanted_requirement h]
  exact ((requirements_perm cost).filter _).map _

/-- A pair without a number lists one color, unless that is a mark too.  This is why pairs can be
    counted. -/
theorem mem_colorGroups_iff {group : List Part} (hgroup : group ∈ colorGroups cost) {color : String}
    (hcolor : color ∉ variableMarkers) : .symbol color ∈ group ↔ color = wantedColor group := by
  obtain ⟨hmem, hnone⟩ := List.mem_filter.mp hgroup
  obtain ⟨source, hsource, rfl⟩ := List.mem_map.mp ((requirements_perm cost).mem_iff.mp hmem)
  obtain ⟨marker, hmarker, second, rfl⟩ := h source hsource
  rw [requirement_pair hmarker] at hnone ⊢
  have hne : color ≠ marker := fun heq => hcolor (heq ▸ hmarker)
  by_cases htwo : second = "2"
  · rw [if_pos htwo] at hnone
    cases hnone
  · rw [if_neg htwo]
    simp [wantedColor, hne]

end

/-! ## Counting -/

/-- The colors of a pool are no amounts, so nothing of such a name is lost when the amounts are
    left out. -/
theorem count_poolColors {pool : Pool} {color : String} (h : amount? color = none) :
    (poolColors pool).count color = (pool.map inLowerCase).count color := by
  have hfilter : poolColors pool =
      (pool.map inLowerCase).filter fun symbol => (amount? symbol).isNone := by
    rw [List.filter_map, poolColors]
    refine congrArg _ (List.filter_congr fun symbol _ => ?_)
    rw [Function.comp, amount?_inLowerCase]
  rw [hfilter, List.count_filter (by simp [h])]

theorem amount?_of_mem_poolColors {pool : Pool} {color : String} (h : color ∈ poolColors pool) :
    amount? color = none := by
  obtain ⟨symbol, hsymbol, rfl⟩ := List.mem_map.mp h
  rw [amount?_inLowerCase]
  exact Option.isNone_iff_eq_none.mp (List.mem_filter.mp hsymbol).2

theorem not_mem_markers_of_mem_poolColors {pool : Pool}
    (hpool : ∀ symbol ∈ pool, inLowerCase symbol ∉ variableMarkers) :
    ∀ color ∈ poolColors pool, color ∉ variableMarkers := by
  intro color hcolor
  obtain ⟨symbol, hsymbol, rfl⟩ := List.mem_map.mp hcolor
  exact hpool symbol (List.mem_filter.mp hsymbol).1

/-- The colors asked for are in the pool exactly when each is there often enough.  An amount among
    them is never there, since the colors of a pool are no amounts. -/
theorem subperm_poolColors_iff {groups : Cost} {pool : Pool} :
    (colorsAsked groups).Subperm (poolColors pool) ↔
      ∀ second ∈ seconds groups, second ≠ "2" → amount? second = none ∧
        (seconds groups).count second ≤ (pool.map inLowerCase).count second := by
  have hcount : ∀ second, second ≠ "2" →
      (colorsAsked groups).count second = (seconds groups).count second := fun second htwo =>
    List.count_filter (by simp [htwo])
  rw [List.subperm_ext_iff]
  constructor
  · intro h second hsecond htwo
    have hasked : second ∈ colorsAsked groups := List.mem_filter.mpr ⟨hsecond, by simp [htwo]⟩
    have hle := h second hasked
    have hpos := List.count_pos_iff.mpr hasked
    have hamount := amount?_of_mem_poolColors
      (List.count_pos_iff.mp (Nat.lt_of_lt_of_le hpos hle))
    rw [hcount second htwo, count_poolColors hamount] at hle
    exact ⟨hamount, hle⟩
  · intro h second hasked
    obtain ⟨hsecond, htwo⟩ := List.mem_filter.mp hasked
    have htwo : second ≠ "2" := by simpa using htwo
    obtain ⟨hamount, hle⟩ := h second hsecond htwo
    rw [hcount second htwo, count_poolColors hamount]
    exact hle

/-- A mark alone is never paid: its group lists nothing but the mark, and a pool holds no marks. -/
theorem not_covered_of_single {cost : Cost} {colors : List String}
    (hcolors : ∀ color ∈ colors, color ∉ variableMarkers) {group : Group}
    (hgroup : group ∈ cost.filter isVariable) (hsingle : group.length = 1) :
    ¬ Covered (colorGroups cost) colors := by
  intro hcovered
  obtain ⟨hmem, hvariable⟩ := List.mem_filter.mp hgroup
  obtain ⟨marker, hmarker, rest, rfl⟩ := isVariable_iff.mp hvariable
  obtain rfl : rest = [] := List.length_eq_zero_iff.mp (by simpa using hsingle)
  have hlisted : [.symbol marker] ∈ colorGroups cost := List.mem_filter.mpr
    ⟨mem_requirements.mpr ⟨_, hmem, hvariable, requirement_single hmarker⟩, rfl⟩
  obtain ⟨color, hcolor, hown⟩ := hcovered.exists_mem hlisted
  obtain rfl : color = marker := by simpa using hown
  exact hcolors color hcolor hmarker

/-- A variable group of at most two parts is a mark alone or a pair, so one of the two if the
    first is excluded. -/
theorem isPair_of_length {group : Group} (hvariable : isVariable group = true)
    (hlength : group.length ≤ 2) (hpaired : group.length ≠ 1) : IsPair group := by
  obtain ⟨marker, hmarker, rest, rfl⟩ := isVariable_iff.mp hvariable
  match rest with
  | [] => exact absurd rfl hpaired
  | [second] => exact ⟨marker, hmarker, second, rfl⟩
  | _ :: _ :: _ => simp at hlength

section

variable {pool : Pool} {cost : Cost}
  (hcost : ∀ group ∈ cost, isVariable group = true → group.length ≤ 2)
  (hpool : ∀ symbol ∈ pool, inLowerCase symbol ∉ variableMarkers)
include hcost hpool

/-- The conditions on counts are the two accounts of the payment.  The colors cover the pairs
    without a number if each is there often enough, and the worth that remains is compared with
    twice the number of the others. -/
theorem canPay_iff_conditions :
    canPay pool cost = true ↔ Affordable pool (cost.filter isVariable) := by
  have hcolors := not_mem_markers_of_mem_poolColors hpool
  by_cases hpaired : ∀ group ∈ cost.filter isVariable, group.length ≠ 1
  · have hpairs : ∀ group ∈ cost.filter isVariable, IsPair group := fun group hgroup =>
      isPair_of_length (List.mem_filter.mp hgroup).2
        (hcost group (List.mem_filter.mp hgroup).1 (List.mem_filter.mp hgroup).2)
        (hpaired group hgroup)
    have hwanted : ∀ group ∈ colorGroups cost, ∀ color, color ∉ variableMarkers →
        (.symbol color ∈ group ↔ color = wantedColor group) := fun group hgroup color hcolor =>
      mem_colorGroups_iff hpairs hgroup hcolor
    have hperm := map_wanted_colorGroups hpairs
    have hlength : (colorGroups cost).length = (colorsAsked (cost.filter isVariable)).length := by
      rw [← hperm.length_eq, List.length_map]
    -- the colors clear the groups exactly if those that are wanted are among them; what is left of
    -- the worth goes to the amounts
    rw [canPay_iff hpool, dischargeAll_eq_nil_iff (nested_of_wanted hwanted) hcolors,
      covered_iff_subperm hwanted hcolors, hperm.subperm_right, owed_requirements hpairs, hlength]
    constructor
    · rintro ⟨hsubperm, hworth⟩
      have hle := hsubperm.length_le
      refine ⟨hpaired, subperm_poolColors_iff.mp hsubperm, ?_⟩
      rw [worth] at hworth
      omega
    · rintro ⟨_, hcounts, hgeneric⟩
      have hsubperm := subperm_poolColors_iff.mpr hcounts
      have hle := hsubperm.length_le
      refine ⟨hsubperm, ?_⟩
      rw [worth]
      omega
  · -- a variable group of one part lists nothing that a pool has
    refine iff_of_false (fun hpaid => ?_) fun h => hpaired h.paired
    obtain ⟨group, hgroup⟩ := Classical.not_forall.mp hpaired
    obtain ⟨hmem, hsingle⟩ := Classical.not_imp.mp hgroup
    exact not_covered_of_single hcolors hmem (Classical.not_not.mp hsingle)
      (covered_of_dischargeAll ((canPay_iff hpool cost).mp hpaid).1)

/-- Fixed groups and the order of pool and cost do not enter into the conditions, and hence not
    into the payment. -/
theorem canPay_eq_of_perm {pool' : Pool} {cost' : Cost} (hpools : pool.Perm pool')
    (hcosts : (cost.filter isVariable).Perm (cost'.filter isVariable)) :
    canPay pool' cost' = canPay pool cost := by
  have hpool' : ∀ symbol ∈ pool', inLowerCase symbol ∉ variableMarkers := fun symbol hsymbol =>
    hpool symbol (hpools.mem_iff.mpr hsymbol)
  have hcost' : ∀ group ∈ cost', isVariable group = true → group.length ≤ 2 := by
    intro group hgroup hvariable
    have hmem := hcosts.mem_iff.mpr (List.mem_filter.mpr ⟨hgroup, hvariable⟩)
    exact hcost group (List.mem_filter.mp hmem).1 hvariable
  refine Bool.eq_iff_iff.mpr ?_
  rw [canPay_iff_conditions hcost hpool, canPay_iff_conditions hcost' hpool']
  exact ⟨fun h => h.perm hpools.symm hcosts.symm, fun h => h.perm hpools hcosts⟩

/-- **Paying is counting.**  A pool pays a cost whose variable groups have at most two parts exactly
    when the three conditions hold.  So fixed groups never matter, and the order of the pool and of
    the cost does not either. -/
theorem canPay_iff_affordable :
    (canPay pool cost = true ↔ Affordable pool (cost.filter isVariable)) ∧
    ∀ pool' cost', pool.Perm pool' → (cost.filter isVariable).Perm (cost'.filter isVariable) →
      canPay pool' cost' = canPay pool cost :=
  ⟨canPay_iff_conditions hcost hpool, fun _ _ hpools hcosts =>
    canPay_eq_of_perm hcost hpool hpools hcosts⟩

end

/-- A capital pays for its small letter, and a color that no group asks for pays half of a `2`. -/
theorem canPay_iff_affordable_mixed :
    (∀ group ∈ [["2", "g"], ["y", "w"], ["x", "2"]], isVariable group = true → group.length ≤ 2) ∧
    (∀ symbol ∈ ["u", "1", "W"], inLowerCase symbol ∉ variableMarkers) ∧
    canPay ["u", "1", "W"] [["2", "g"], ["y", "w"], ["x", "2"]] = true ∧
    canPay ["W", "u", "1"] [["x", "2"], ["y", "w"], ["b", "p", "r"]] = true := by
  have hcost : ∀ group ∈ [["2", "g"], ["y", "w"], ["x", "2"]],
      isVariable group = true → group.length ≤ 2 := by decide
  have hpool : ∀ symbol ∈ ["u", "1", "W"], inLowerCase symbol ∉ variableMarkers := by decide
  obtain ⟨hiff, horder⟩ := canPay_iff_affordable hcost hpool
  have hpaid : canPay ["u", "1", "W"] [["2", "g"], ["y", "w"], ["x", "2"]] = true :=
    hiff.mpr ⟨by decide, by decide, by decide⟩
  refine ⟨hcost, hpool, hpaid, (horder _ _ ?_ ?_).trans hpaid⟩
  · decide
  · decide

end CardSearch.Mana
