import CardSearch.Mana.Payment
import CardSearch.Proofs.Text.Numeral
import Mathlib.Algebra.GroupWithZero.Nat

/-
  What a cost asks for, what a pool gives, and when the one covers the other.

  The groups that are still to be paid are of two kinds.  A numbered group is paid with generic mana
  and lists no symbol of a pool; every other group is discharged by one color that it lists.  The
  two kinds never meet (`Apart`), so a payment is two accounts kept side by side.

  1. **Generic mana (`owed_spendGeneric`)** — an amount takes itself off the sum of the numbers, as
     far as that goes, and touches no other group.
  2. **One symbol (`settles_spend`)** — an amount is generic mana; a color takes the first group
     that lists it from the groups without a number, or else is one generic mana.
  3. **A whole pool (`settles_pool`)** — by induction: the groups without a number see the colors in
     turn (`dischargeAll`), and what they leave over is generic mana.
  4. **The crux (`canPay_iff`)** — a pool pays a cost exactly when its colors discharge the groups
     without a number and it is worth as much as is asked for altogether.
  5. **More mana (`canPay_insert`)** — both conditions survive a further symbol.
-/

namespace CardSearch.Mana

/-! ## What a pool gives -/

/-- A symbol in lower case, as it is spent. -/
def inLowerCase (symbol : String) : String := String.ofList (Text.lower symbol.toList)

/-- A symbol is the same amount in lower case: only symbols of digits are amounts, and digits
    have no case. -/
theorem amount?_inLowerCase (symbol : String) : amount? (inLowerCase symbol) = amount? symbol := by
  rw [amount?, inLowerCase, String.toList_ofList]
  exact Text.unsigned64?_lower symbol.toList

/-- The amounts of a pool. -/
def poolAmounts (pool : Pool) : List Nat := pool.filterMap amount?

/-- The colors of a pool, in lower case: all its symbols that are no amounts. -/
def poolColors (pool : Pool) : List String :=
  (pool.filter fun symbol => (amount? symbol).isNone).map inLowerCase

/-- What a pool is worth: its amounts, and one for each color. -/
def worth (pool : Pool) : Nat := (poolAmounts pool).sum + (poolColors pool).length

section

variable {symbol : String} (pool : Pool)

theorem poolColors_cons_of_some {n : Nat} (h : amount? symbol = some n) :
    poolColors (symbol :: pool) = poolColors pool := by
  simp [poolColors, h]

/-- Any other symbol at the front is a color, however it is written. -/
theorem poolColors_cons_of_none (h : amount? symbol = none) :
    poolColors (symbol :: pool) = inLowerCase symbol :: poolColors pool := by
  simp [poolColors, h]

theorem worth_cons_of_some {n : Nat} (h : amount? symbol = some n) :
    worth (symbol :: pool) = n + worth pool := by
  simp [worth, poolAmounts, poolColors, h, Nat.add_assoc]

/-- A color is worth one, as it can always be spent as generic mana. -/
theorem worth_cons_of_none (h : amount? symbol = none) :
    worth (symbol :: pool) = 1 + worth pool := by
  simp [worth, poolAmounts, poolColors, h]
  omega

end

/-! ## What groups ask for -/

/-- The generic mana that the numbers in groups ask for. -/
def owed (groups : List (List Part)) : Nat := ((groups.filterMap numbered?).map Prod.fst).sum

/-- The groups without a number, in the order in which colors try them. -/
def unnumbered (groups : List (List Part)) : List (List Part) :=
  groups.filter fun group => (numbered? group).isNone

section

variable {group : List Part} {groups : List (List Part)}

theorem owed_cons_of_none (h : numbered? group = none) : owed (group :: groups) = owed groups := by
  simp [owed, h]

theorem owed_cons_of_some {needed : Nat} {others : List Part}
    (h : numbered? group = some (needed, others)) :
    owed (group :: groups) = needed + owed groups := by
  simp [owed, h]

theorem unnumbered_cons_of_none (h : numbered? group = none) :
    unnumbered (group :: groups) = group :: unnumbered groups := by
  simp [unnumbered, h]

theorem unnumbered_cons_of_some {needed : Nat} {others : List Part}
    (h : numbered? group = some (needed, others)) :
    unnumbered (group :: groups) = unnumbered groups := by
  simp [unnumbered, h]

end

/-! ## Generic mana -/

/-- **Generic mana takes itself off the sum of the numbers**, as far as that goes.  By induction
    over the groups as they are passed: a group that it pays in full is dropped with its number,
    and the one at which it ends keeps the difference. -/
theorem owed_spendGeneric (amount : Nat) (groups : List (List Part)) :
    owed (spendGeneric amount groups) = owed groups - amount := by
  fun_induction spendGeneric amount groups with
  | case1 amount => exact (Nat.zero_sub amount).symm
  | case2 amount group rest hzero =>
    obtain rfl := eq_of_beq hzero
    rfl
  | case3 amount group rest _ hnone ih =>
    rw [owed_cons_of_none hnone, owed_cons_of_none hnone, ih]
  | case4 amount group rest _ needed others hsome hcovered ih =>
    rw [owed_cons_of_some hsome, ih]
    omega
  | case5 amount group rest _ needed others hsome hpart =>
    have hleft : numbered? (.amount (needed - amount) :: others) = some (needed - amount, others) :=
      rfl
    rw [owed_cons_of_some hsome, owed_cons_of_some hleft]
    omega

/-- Generic mana touches no group without a number; it passes over them and only drops groups
    that have one. -/
theorem unnumbered_spendGeneric (amount : Nat) (groups : List (List Part)) :
    unnumbered (spendGeneric amount groups) = unnumbered groups := by
  fun_induction spendGeneric amount groups with
  | case1 => rfl
  | case2 => rfl
  | case3 amount group rest _ hnone ih =>
    rw [unnumbered_cons_of_none hnone, unnumbered_cons_of_none hnone, ih]
  | case4 amount group rest _ needed others hsome _ ih =>
    rw [unnumbered_cons_of_some hsome, ih]
  | case5 amount group rest _ needed others hsome =>
    have hleft : numbered? (.amount (needed - amount) :: others) = some (needed - amount, others) :=
      rfl
    rw [unnumbered_cons_of_some hsome, unnumbered_cons_of_some hleft]

/-! ## Numbers and colors are apart -/

/-- Generic mana and colors pay different groups: a numbered group still asks for something, and the
    symbols beside its number are the marks of variable amounts. -/
def Apart (groups : List (List Part)) : Prop :=
  ∀ group ∈ groups, ∀ needed others, numbered? group = some (needed, others) →
    0 < needed ∧ ∀ symbol, .symbol symbol ∈ others → symbol ∈ variableMarkers

theorem Apart.tail {group : List Part} {groups : List (List Part)} (h : Apart (group :: groups)) :
    Apart groups :=
  fun other hother => h other (List.mem_cons_of_mem group hother)

/-- One more group may stand in front if its own number and symbols are apart. -/
theorem Apart.cons {group : List Part} {groups : List (List Part)}
    (hgroup : ∀ needed others, numbered? group = some (needed, others) →
      0 < needed ∧ ∀ symbol, .symbol symbol ∈ others → symbol ∈ variableMarkers)
    (hgroups : Apart groups) : Apart (group :: groups) :=
  List.forall_mem_cons.mpr ⟨hgroup, hgroups⟩

/-- What is left of a number is more than nothing, as a group whose number is used up is dropped
    whole. -/
theorem apart_spendGeneric {groups : List (List Part)} (h : Apart groups) (amount : Nat) :
    Apart (spendGeneric amount groups) := by
  fun_induction spendGeneric amount groups with
  | case1 => exact h
  | case2 => exact h
  | case3 amount group rest _ _ ih => exact .cons (h group List.mem_cons_self) (ih h.tail)
  | case4 amount group rest _ _ _ _ _ ih => exact ih h.tail
  | case5 amount group rest _ needed others hsome hpart =>
    refine .cons ?_ h.tail
    intro left beside hleft
    obtain ⟨rfl, rfl⟩ := Prod.mk.inj (Option.some.inj hleft)
    exact ⟨by omega, (h group List.mem_cons_self needed others hsome).2⟩

/-- The symbols of a numbered group stand beside its number, since the number itself is no
    symbol. -/
theorem symbol_mem_others {group others : List Part} {needed : Nat} {symbol : String}
    (h : numbered? group = some (needed, others)) (hmem : .symbol symbol ∈ group) :
    .symbol symbol ∈ others := by
  unfold numbered? at h
  split at h
  · obtain ⟨_, rfl⟩ := Prod.mk.inj (Option.some.inj h)
    simpa using hmem
  · obtain ⟨_, rfl⟩ := Prod.mk.inj (Option.some.inj h)
    simpa using hmem
  · cases h

/-- So a group that lists a color has no number: beside a number there are only marks. -/
theorem Apart.numbered?_eq_none {groups : List (List Part)} (h : Apart groups) {group : List Part}
    (hgroup : group ∈ groups) {color : String} (hcolor : color ∉ variableMarkers)
    (hmem : .symbol color ∈ group) : numbered? group = none := by
  cases hnumber : numbered? group with
  | none => rfl
  | some number =>
    obtain ⟨needed, others⟩ := number
    exact absurd ((h group hgroup needed others hnumber).2 color (symbol_mem_others hnumber hmem))
      hcolor

/-! ## Colors -/

/-- The groups without the first one that lists a color. -/
def discharge (groups : List (List Part)) (color : String) : List (List Part) :=
  groups.eraseP (·.contains (.symbol color))

/-- The groups that the colors leave, each taking the first group that lists it. -/
def dischargeAll (groups : List (List Part)) (colors : List String) : List (List Part) :=
  colors.foldl discharge groups

section

variable {group : List Part} {groups : List (List Part)} {color : String}

theorem discharge_cons_of_mem (h : .symbol color ∈ group) :
    discharge (group :: groups) color = groups :=
  List.eraseP_cons_of_pos (List.contains_iff_mem.mpr h)

/-- Otherwise the first group stays, and the color goes on to the next one. -/
theorem discharge_cons_of_not_mem (h : .symbol color ∉ group) :
    discharge (group :: groups) color = group :: discharge groups color :=
  List.eraseP_cons_of_neg (mt List.contains_iff_mem.mp h)

/-- A color that no group lists changes nothing; it is then spent as generic mana. -/
theorem discharge_of_forall_not_mem (h : ∀ group ∈ groups, .symbol color ∉ group) :
    discharge groups color = groups :=
  List.eraseP_of_forall_not fun group hgroup => mt List.contains_iff_mem.mp (h group hgroup)

theorem discharge_sublist : (discharge groups color).Sublist groups := List.eraseP_sublist

end

theorem dischargeAll_cons (groups : List (List Part)) (color : String) (colors : List String) :
    dischargeAll groups (color :: colors) = dischargeAll (discharge groups color) colors :=
  rfl

theorem dischargeAll_append (groups : List (List Part)) (colors more : List String) :
    dischargeAll groups (colors ++ more) = dischargeAll (dischargeAll groups colors) more :=
  List.foldl_append

/-- A color discharges a group without a number, as if there were no others, and leaves the sum
    of the numbers alone.  So the account of colors and that of generic mana can be kept side by
    side. -/
theorem discharge_apart {groups : List (List Part)} (h : Apart groups) {color : String}
    (hcolor : color ∉ variableMarkers) :
    unnumbered (discharge groups color) = discharge (unnumbered groups) color ∧
      owed (discharge groups color) = owed groups := by
  induction groups with
  | nil => exact ⟨rfl, rfl⟩
  | cons group rest ih =>
    obtain ⟨ihunnumbered, ihowed⟩ := ih h.tail
    by_cases hmem : .symbol color ∈ group
    · -- the group that the color takes has no number, so it owes nothing
      have hnone := h.numbered?_eq_none List.mem_cons_self hcolor hmem
      rw [discharge_cons_of_mem hmem, unnumbered_cons_of_none hnone, discharge_cons_of_mem hmem,
        owed_cons_of_none hnone]
      exact ⟨rfl, rfl⟩
    rw [discharge_cons_of_not_mem hmem]
    cases hnumber : numbered? group with
    | none =>
      rw [unnumbered_cons_of_none hnumber, unnumbered_cons_of_none hnumber,
        discharge_cons_of_not_mem hmem, owed_cons_of_none hnumber, owed_cons_of_none hnumber,
        ihunnumbered]
      exact ⟨rfl, ihowed⟩
    | some number =>
      obtain ⟨needed, others⟩ := number
      -- a numbered group lists no color, and stays in both accounts
      rw [unnumbered_cons_of_some hnumber, unnumbered_cons_of_some hnumber,
        owed_cons_of_some hnumber, owed_cons_of_some hnumber, ihowed]
      exact ⟨ihunnumbered, rfl⟩

theorem apart_discharge {groups : List (List Part)} (h : Apart groups) (color : String) :
    Apart (discharge groups color) :=
  fun group hgroup => h group (discharge_sublist.subset hgroup)

/-! ## Payments -/

/-- What colors and a worth of mana make of groups: the groups without a number see the colors in
    turn, and every color that finds no group there is generic mana. -/
structure Settles (before : List (List Part)) (colors : List String) (mana : Nat)
    (after : List (List Part)) : Prop where
  apart : Apart after
  unnumbered_eq : unnumbered after = dischargeAll (unnumbered before) colors
  generic : ∃ generic, owed after = owed before - generic ∧
    generic + (unnumbered before).length = mana + (unnumbered after).length

theorem Settles.refl {groups : List (List Part)} (h : Apart groups) : Settles groups [] 0 groups :=
  ⟨h, rfl, 0, rfl, rfl⟩

/-- **Payments add up.** What is settled first leaves groups on which the second payment is
    settled, and both colors and mana are those of the two together. -/
theorem Settles.trans {before middle after : List (List Part)} {colors moreColors : List String}
    {mana moreMana : Nat} (h : Settles before colors mana middle)
    (hmore : Settles middle moreColors moreMana after) :
    Settles before (colors ++ moreColors) (mana + moreMana) after := by
  obtain ⟨generic, howed, hmana⟩ := h.generic
  obtain ⟨moreGeneric, hmoreOwed, hmoreMana⟩ := hmore.generic
  refine ⟨hmore.apart, ?_, generic + moreGeneric, by omega, by omega⟩
  rw [hmore.unnumbered_eq, h.unnumbered_eq, dischargeAll_append]

theorem settles_spendGeneric {groups : List (List Part)} (h : Apart groups) (amount : Nat) :
    Settles groups [] amount (spendGeneric amount groups) := by
  refine ⟨apart_spendGeneric h amount, ?_, amount, owed_spendGeneric amount groups, ?_⟩
  · exact unnumbered_spendGeneric amount groups
  · rw [unnumbered_spendGeneric]

theorem spend_of_some {groups : List (List Part)} {symbol : String} {n : Nat}
    (h : amount? symbol = some n) : spend groups symbol = spendGeneric n groups := by
  have hlower : amount? (String.ofList (Text.lower symbol.toList)) = some n :=
    (amount?_inLowerCase symbol).trans h
  simp only [spend, hlower]

/-- A color takes the first group that lists it, and is spent as one generic mana if none does. -/
theorem spend_of_none {groups : List (List Part)} {symbol : String} (h : amount? symbol = none) :
    spend groups symbol =
      if groups.any (·.contains (.symbol (inLowerCase symbol))) then
        discharge groups (inLowerCase symbol)
      else spendGeneric 1 groups := by
  have hlower : amount? (String.ofList (Text.lower symbol.toList)) = none :=
    (amount?_inLowerCase symbol).trans h
  simp only [spend, hlower]
  rfl

/-- **One symbol.** A color is spent on the first group that lists it, or as one generic mana.  A
    numbered group that listed it would have been taken too, but a color is no mark, so the
    groups without a number decide alone. -/
theorem settles_spend {groups : List (List Part)} (h : Apart groups) {symbol : String}
    (hsymbol : inLowerCase symbol ∉ variableMarkers) :
    Settles groups (poolColors [symbol]) (worth [symbol]) (spend groups symbol) := by
  cases hamount : amount? symbol with
  | some n =>
    rw [spend_of_some hamount, poolColors_cons_of_some [] hamount, worth_cons_of_some [] hamount]
    exact settles_spendGeneric h n
  | none =>
    rw [spend_of_none hamount, poolColors_cons_of_none [] hamount, worth_cons_of_none [] hamount]
    obtain ⟨hunnumbered, howed⟩ := discharge_apart h hsymbol
    split
    · -- the color takes one group, and none of it is generic mana
      rename_i hlisted
      obtain ⟨group, hgroup, hcontains⟩ := List.any_eq_true.mp hlisted
      have hmem := List.contains_iff_mem.mp hcontains
      have hunlisted : group ∈ unnumbered groups := by
        refine List.mem_filter.mpr ⟨hgroup, ?_⟩
        rw [h.numbered?_eq_none hgroup hsymbol hmem]
        rfl
      have hlength : (discharge (unnumbered groups) (inLowerCase symbol)).length =
          (unnumbered groups).length - 1 := List.length_eraseP_of_mem hunlisted hcontains
      have hpos := List.length_pos_of_mem hunlisted
      refine ⟨apart_discharge h _, hunnumbered, 0, howed, ?_⟩
      rw [hunnumbered, hlength]
      show 0 + _ = 1 + 0 + _
      omega
    · -- no group lists the color, so looking for one among those without a number changes nothing
      rename_i hnowhere
      have hnot : ∀ group ∈ unnumbered groups, .symbol (inLowerCase symbol) ∉ group := by
        intro group hgroup hmem
        refine hnowhere (List.any_eq_true.mpr ⟨group, (List.mem_filter.mp hgroup).1, ?_⟩)
        exact List.contains_iff_mem.mpr hmem
      obtain ⟨hapart, hkept, hgeneric⟩ := settles_spendGeneric h 1
      refine ⟨hapart, ?_, hgeneric⟩
      rw [hkept]
      exact (discharge_of_forall_not_mem hnot).symm

/-- **A whole pool**, by induction on its symbols: the colors go through the groups without a
    number in their order, and all else is counted together. -/
theorem settles_pool {pool : Pool} (hpool : ∀ symbol ∈ pool, inLowerCase symbol ∉ variableMarkers)
    {groups : List (List Part)} (h : Apart groups) :
    Settles groups (poolColors pool) (worth pool) (pool.foldl spend groups) := by
  induction pool generalizing groups with
  | nil => exact .refl h
  | cons symbol rest ih =>
    obtain ⟨hsymbol, hrest⟩ := List.forall_mem_cons.mp hpool
    -- one symbol first, then the rest on what it leaves, which is still apart
    have hstep := settles_spend h hsymbol
    have hrun := hstep.trans (ih hrest hstep.apart)
    cases hamount : amount? symbol with
    | some n =>
      rw [poolColors_cons_of_some [] hamount, worth_cons_of_some [] hamount] at hrun
      rw [poolColors_cons_of_some rest hamount, worth_cons_of_some rest hamount]
      exact hrun
    | none =>
      rw [poolColors_cons_of_none [] hamount, worth_cons_of_none [] hamount] at hrun
      rw [poolColors_cons_of_none rest hamount, worth_cons_of_none rest hamount]
      exact hrun

/-! ## What a cost asks for -/

theorem amount?_of_marker {marker : String} (h : marker ∈ variableMarkers) :
    amount? marker = none := by
  simp only [variableMarkers, List.mem_cons, List.not_mem_nil, or_false] at h
  rcases h with rfl | rfl | rfl <;> decide

theorem isVariable_iff {group : Group} :
    isVariable group = true ↔ ∃ marker ∈ variableMarkers, ∃ rest, group = marker :: rest := by
  cases group with
  | nil => simp [isVariable]
  | cons first rest => simp [isVariable]

/-- A list of symbols has no number, whatever the symbols are. -/
theorem numbered?_map_symbol (parts : List String) : numbered? (parts.map .symbol) = none := by
  match parts with
  | [] => rfl
  | [_] => rfl
  | [_, _] => rfl
  | _ :: _ :: _ :: _ => rfl

/-- The parts of a mark and what stands beside it: `2` is read as an amount, and all else as a
    symbol. -/
theorem requirement_pair {marker : String} (h : marker ∈ variableMarkers) (second : String) :
    requirement [marker, second] =
      [.symbol marker, if second = "2" then .amount 2 else .symbol second] := by
  have hfirst : (marker == "2") = false := by
    refine beq_eq_false_iff_ne.mpr ?_
    rintro rfl
    exact absurd h (by decide)
  rw [requirement, hfirst, if_neg Bool.false_ne_true]
  by_cases htwo : second = "2"
  · rw [if_pos (beq_iff_eq.mpr htwo), if_pos htwo]
  · rw [if_neg (mt eq_of_beq htwo), if_neg htwo]

theorem requirement_single {marker : String} (h : marker ∈ variableMarkers) :
    requirement [marker] = [.symbol marker] := by
  rw [requirement, amount?_of_marker h]

/-- The parts of a variable group: a mark beside a `2`, or symbols only.  Only in a pair is a `2`
    an amount. -/
theorem requirement_of_isVariable {group : Group} (h : isVariable group = true) :
    (∃ marker ∈ variableMarkers, requirement group = [.symbol marker, .amount 2]) ∨
      requirement group = group.map .symbol := by
  obtain ⟨marker, hmarker, rest, rfl⟩ := isVariable_iff.mp h
  match rest with
  | [] => exact Or.inr (requirement_single hmarker)
  | [second] =>
    rw [requirement_pair hmarker]
    by_cases htwo : second = "2"
    · exact Or.inl ⟨marker, hmarker, by rw [if_pos htwo]⟩
    · exact Or.inr (by rw [if_neg htwo]; rfl)
  | _ :: _ :: _ => exact Or.inr rfl

/-- What a cost asks for are the requirements of its variable groups; sorting them changes only
    their order. -/
theorem mem_requirements {cost : Cost} {parts : List Part} :
    parts ∈ requirements cost ↔
      ∃ group ∈ cost, isVariable group = true ∧ requirement group = parts := by
  simp [requirements, and_assoc]

/-- A requirement has as many parts as its group. -/
theorem length_requirement (group : Group) : (requirement group).length = group.length := by
  unfold requirement
  split
  · split <;> rfl
  · split
    · rfl
    split <;> rfl
  · exact List.length_map _

/-- Variable groups that stand in order of length are asked for as they stand, for sorting a
    sorted list changes nothing. -/
theorem requirements_of_pairwise {cost : Cost}
    (h : (cost.filter isVariable).Pairwise fun a b => a.length ≤ b.length) :
    requirements cost = (cost.filter isVariable).map requirement := by
  refine List.mergeSort_of_pairwise ?_
  rw [List.pairwise_map]
  refine h.imp fun {a b} hab => ?_
  rw [length_requirement, length_requirement]
  exact decide_eq_true hab

/-- Generic mana and colors pay different groups of every cost: a number in a requirement is a
    `2`, and beside it stands a mark. -/
theorem apart_requirements (cost : Cost) : Apart (requirements cost) := by
  intro parts hparts needed others hnumber
  obtain ⟨group, _, hvariable, rfl⟩ := mem_requirements.mp hparts
  rcases requirement_of_isVariable hvariable with ⟨marker, hmarker, heq⟩ | heq
  · rw [heq] at hnumber
    obtain ⟨rfl, rfl⟩ := Prod.mk.inj (Option.some.inj hnumber)
    refine ⟨by decide, fun symbol hsymbol => ?_⟩
    obtain rfl : symbol = marker := by simpa using hsymbol
    exact hmarker
  · rw [heq, numbered?_map_symbol] at hnumber
    cases hnumber

/-! ## Paying -/

/-- Nothing is left when neither account has anything left.  A group with a number would owe
    something, and one without would still be seen by the colors. -/
theorem Apart.eq_nil_iff {groups : List (List Part)} (h : Apart groups) :
    groups = [] ↔ unnumbered groups = [] ∧ owed groups = 0 := by
  constructor
  · rintro rfl
    exact ⟨rfl, rfl⟩
  · rintro ⟨hunnumbered, howed⟩
    cases groups with
    | nil => rfl
    | cons group rest =>
      cases hnumber : numbered? group with
      | none =>
        rw [unnumbered_cons_of_none hnumber] at hunnumbered
        cases hunnumbered
      | some number =>
        obtain ⟨needed, others⟩ := number
        have hpos := (h group List.mem_cons_self needed others hnumber).1
        rw [owed_cons_of_some hnumber] at howed
        omega

/-- The groups of a cost that colors discharge, in the order in which they are tried. -/
def colorGroups (cost : Cost) : List (List Part) := unnumbered (requirements cost)

/-- **When a pool pays a cost.** Its colors discharge the groups that ask for one, and it is
    worth one mana for each of these and the numbers of the others.  The two conditions are the
    two accounts of `Settles`, read at the end of the pool. -/
theorem canPay_iff {pool : Pool} (hpool : ∀ symbol ∈ pool, inLowerCase symbol ∉ variableMarkers)
    (cost : Cost) :
    canPay pool cost = true ↔ dischargeAll (colorGroups cost) (poolColors pool) = [] ∧
      owed (requirements cost) + (colorGroups cost).length ≤ worth pool := by
  obtain ⟨hapart, hcolors, generic, howed, hworth⟩ :=
    settles_pool hpool (apart_requirements cost)
  rw [canPay, List.isEmpty_iff, hapart.eq_nil_iff, hcolors, colorGroups]
  -- with every color group gone, what the colors did not take is the worth without their number
  refine and_congr_right fun hnil => ?_
  rw [hcolors, hnil] at hworth
  simp only [List.length_nil] at hworth
  omega

/-! ## More mana -/

theorem dischargeAll_sublist_self (groups : List (List Part)) (colors : List String) :
    (dischargeAll groups colors).Sublist groups := by
  induction colors generalizing groups with
  | nil => exact List.Sublist.refl groups
  | cons color rest ih => exact (ih (discharge groups color)).trans discharge_sublist

/-- Fewer groups stay fewer, whatever colors are spent on both: a color may find another group
    among the fewer, but not more of them. -/
theorem dischargeAll_sublist {fewer groups : List (List Part)} (h : fewer.Sublist groups)
    (colors : List String) : (dischargeAll fewer colors).Sublist (dischargeAll groups colors) := by
  induction colors generalizing fewer groups with
  | nil => exact h
  | cons color rest ih => exact ih h.eraseP

/-- **Further colors spoil nothing**: what they take away leaves fewer groups to the colors after
    them. -/
theorem dischargeAll_insert {groups : List (List Part)} {before after : List String}
    (h : dischargeAll groups (before ++ after) = []) (more : List String) :
    dischargeAll groups (before ++ (more ++ after)) = [] := by
  rw [dischargeAll_append] at h
  rw [dischargeAll_append, dischargeAll_append]
  have hfewer := dischargeAll_sublist
    (dischargeAll_sublist_self (dischargeAll groups before) more) after
  rw [h] at hfewer
  exact List.sublist_nil.mp hfewer

/-- The colors of two pools together, in the order of the symbols. -/
theorem poolColors_append (before after : Pool) :
    poolColors (before ++ after) = poolColors before ++ poolColors after := by
  simp [poolColors]

theorem worth_append (before after : Pool) : worth (before ++ after) = worth before + worth after := by
  simp [worth, poolAmounts, poolColors]
  omega

/-- **More mana never hurts.** A pool that pays a cost still pays it with one more symbol in it,
    wherever that is spent.  The symbol may displace others from the groups that they had, so the
    proof compares what is left to pay, and not who paid for it. -/
theorem canPay_insert (before after : Pool) {symbol : String} {cost : Cost}
    (hpool : ∀ other ∈ before ++ symbol :: after, inLowerCase other ∉ variableMarkers)
    (h : canPay (before ++ after) cost = true) :
    canPay (before ++ symbol :: after) cost = true := by
  have hfewer : ∀ other ∈ before ++ after, inLowerCase other ∉ variableMarkers := by
    intro other hother
    refine hpool other ?_
    rw [List.mem_append] at hother ⊢
    exact hother.imp_right (List.mem_cons_of_mem symbol)
  obtain ⟨hcolors, hworth⟩ := (canPay_iff hfewer cost).mp h
  refine (canPay_iff hpool cost).mpr ⟨?_, ?_⟩
  · rw [poolColors_append] at hcolors
    rw [List.append_cons, poolColors_append, poolColors_append, List.append_assoc]
    exact dischargeAll_insert hcolors (poolColors [symbol])
  · rw [List.append_cons, worth_append, worth_append]
    rw [worth_append] at hworth
    omega

/-- A color put before the others takes the group that blue had; the next white then takes the
    other group, and blue is left over.  The cost is paid all the same. -/
theorem canPay_insert_displaced :
    canPay ["u", "w", "2"] [["x", "2"], ["x", "w", "u"], ["x", "w", "b"]] = true ∧
      canPay ["w", "u", "w", "2"] [["x", "2"], ["x", "w", "u"], ["x", "w", "b"]] = true := by
  have hfewer :
      canPay ["u", "w", "2"] [["x", "2"], ["x", "w", "u"], ["x", "w", "b"]] = true := by
    rw [canPay, requirements_of_pairwise (by decide)]
    decide
  exact ⟨hfewer, canPay_insert [] ["u", "w", "2"] (by decide) hfewer⟩

end CardSearch.Mana
