import CardSearch.Proofs.Mana.Account

/-
  Colors that are spent as they come, and colors that are given out with foresight.

  `dischargeAll` looks at one color at a time and gives it to the first group that lists it.
  `Covered` asks whether the colors can be given out at all, a color of its own to every group; the
  order of the colors does not enter into it.

  1. **Soundness (`covered_of_dischargeAll`)** — what colors discharge in turn they cover.
  2. **The crux (`Covered.discharge`)** — when a group that is tried earlier shares a color with a
     later one and lists nothing else that the later one lacks (`Nested`), giving it the shared color
     spoils nothing: if the color was meant for the later group, the two exchange.
  3. **Completeness (`dischargeAll_eq_nil_iff`)** — so nested groups are discharged by exactly the
     colors that cover them, whatever order these come in.
-/

namespace CardSearch.Mana

/-! ## Colors for groups -/

/-- Every group can be given a color that it lists, and each color is given once. -/
inductive Covered : List (List Part) → List String → Prop where
  | nil (colors : List String) : Covered [] colors
  | cons {group : List Part} {groups : List (List Part)} {colors rest : List String} {color : String}
      (listed : .symbol color ∈ group) (given : colors.Perm (color :: rest))
      (others : Covered groups rest) : Covered (group :: groups) colors

/-- The order of the colors does not matter: a color is taken out of the list wherever it stands.
    So the list may be put into any order that suits a proof. -/
theorem Covered.perm {groups : List (List Part)} {colors colors' : List String}
    (h : Covered groups colors) (hperm : colors.Perm colors') : Covered groups colors' := by
  cases h with
  | nil => exact .nil colors'
  | cons listed given others => exact .cons listed (hperm.symm.trans given) others

/-- Every group of a covered list has its color among those given out, which shows what a group
    must find in the pool. -/
theorem Covered.exists_mem {groups : List (List Part)} {colors : List String}
    (h : Covered groups colors) {group : List Part} (hgroup : group ∈ groups) :
    ∃ color ∈ colors, .symbol color ∈ group := by
  induction h with
  | nil => cases hgroup
  | cons listed given _ ih =>
    rcases List.mem_cons.mp hgroup with rfl | hgroup
    · exact ⟨_, given.mem_iff.mpr List.mem_cons_self, listed⟩
    · obtain ⟨color, hcolor, hmem⟩ := ih hgroup
      exact ⟨color, given.mem_iff.mpr (List.mem_cons_of_mem _ hcolor), hmem⟩

/-! ## What is discharged is covered -/

/-- The color that discharges a group is the one to give it.  By recursion on the groups: those
    before it keep what they were given. -/
theorem covered_of_discharge {color : String} {colors : List String} :
    ∀ {groups : List (List Part)}, Covered (discharge groups color) colors →
      Covered groups (color :: colors)
  | [], _ => .nil _
  | group :: groups, h => by
    by_cases hmem : .symbol color ∈ group
    · rw [discharge_cons_of_mem hmem] at h
      exact .cons hmem (.refl _) h
    · rw [discharge_cons_of_not_mem hmem] at h
      cases h with
      | @cons _ _ _ rest own listed given others =>
        refine .cons listed ?_ (covered_of_discharge others)
        exact (given.cons color).trans (.swap own color rest)

/-- **What colors discharge in turn they cover.** This direction needs nothing of the groups, as
    each color is spent once and on a group that lists it. -/
theorem covered_of_dischargeAll {colors : List String} {groups : List (List Part)}
    (h : dischargeAll groups colors = []) : Covered groups colors := by
  induction colors generalizing groups with
  | nil =>
    obtain rfl : groups = [] := h
    exact .nil []
  | cons color rest ih => exact covered_of_discharge (ih h)

/-! ## Nested groups -/

/-- Of two groups that share a color, the one that is tried earlier lists no color that the other
    lacks.  Only the colors that a pool may hold count. -/
def Nested (isColor : String → Prop) (groups : List (List Part)) : Prop :=
  groups.Pairwise fun earlier later => ∀ shared other, isColor shared → isColor other →
    .symbol shared ∈ earlier → .symbol shared ∈ later → .symbol other ∈ earlier →
      .symbol other ∈ later

/-- Two colors put before lists that then hold the same each stand in the other list; the rest of
    both lists is the same. -/
theorem exists_perm_of_ne {own color : String} {left rest : List String}
    (hsame : (own :: left).Perm (color :: rest)) (hne : own ≠ color) :
    ∃ others, left.Perm (color :: others) ∧ rest.Perm (own :: others) := by
  have hmem : color ∈ left := by
    rcases List.mem_cons.mp (hsame.mem_iff.mpr List.mem_cons_self) with h | h
    · exact absurd h.symm hne
    · exact h
  have hleft : left.Perm (color :: left.erase color) := List.perm_cons_erase hmem
  refine ⟨left.erase color, hleft, ?_⟩
  exact List.Perm.cons_inv (hsame.symm.trans ((hleft.cons own).trans (.swap color own _)))

/-- A color can be exchanged for one that is listed wherever it is.  By induction on the covering:
    the group that had the old color takes the new one. -/
theorem Covered.exchange {groups : List (List Part)} {colors rest : List String}
    {old new : String} (h : Covered groups colors) (hold : colors.Perm (old :: rest))
    (hlisted : ∀ group ∈ groups, .symbol old ∈ group → .symbol new ∈ group) :
    Covered groups (new :: rest) := by
  induction h generalizing rest with
  | nil => exact .nil _
  | @cons group groups colors left own listed given others ih =>
    obtain ⟨hgroup, hgroups⟩ := List.forall_mem_cons.mp hlisted
    have hsame : (own :: left).Perm (old :: rest) := given.symm.trans hold
    by_cases heq : own = old
    · subst heq
      exact .cons (hgroup listed) (.refl _) (others.perm hsame.cons_inv)
    · -- the group keeps its color, and the exchange is made among the others
      obtain ⟨_, hleft, hrest⟩ := exists_perm_of_ne hsame heq
      refine .cons listed ?_ (ih hleft hgroups)
      exact (hrest.cons new).trans (.swap own new _)

/-- **A color may be spent on the first group that lists it.** If the groups are nested, the
    others are still covered by the other colors.  If the covering gave that group another color,
    then the group that had ours lists this other color as well, since it is tried later, and the
    two change places. -/
theorem Covered.discharge {isColor : String → Prop} {groups : List (List Part)}
    {colors rest : List String} {color : String} (hnested : Nested isColor groups)
    (hcolors : ∀ color ∈ colors, isColor color) (h : Covered groups colors)
    (hcolor : colors.Perm (color :: rest)) : Covered (discharge groups color) rest := by
  induction h generalizing rest with
  | nil => exact .nil _
  | @cons group groups colors left own listed given others ih =>
    obtain ⟨hfirst, hnested⟩ := List.pairwise_cons.mp hnested
    have hsame : (own :: left).Perm (color :: rest) := given.symm.trans hcolor
    have hisColor : isColor color := hcolors color (hcolor.mem_iff.mpr List.mem_cons_self)
    have hisOwn : isColor own := hcolors own (given.mem_iff.mpr List.mem_cons_self)
    by_cases heq : own = color
    · subst heq
      rw [discharge_cons_of_mem listed]
      exact others.perm hsame.cons_inv
    obtain ⟨_, hleft, hrest⟩ := exists_perm_of_ne hsame heq
    by_cases hgroup : .symbol color ∈ group
    · -- the color was meant for a later group, which takes this group's color instead
      rw [discharge_cons_of_mem hgroup]
      refine Covered.perm (others.exchange hleft ?_) hrest.symm
      intro later hlater hshared
      exact hfirst later hlater color own hisColor hisOwn hgroup hshared listed
    · rw [discharge_cons_of_not_mem hgroup]
      refine .cons listed hrest (ih hnested ?_ hleft)
      exact fun other hother => hcolors other (given.mem_iff.mpr (List.mem_cons_of_mem own hother))

/-- **Nested groups are discharged by the colors that cover them**, in any order of the colors.
    So for such groups the greedy choice is as good as the best one. -/
theorem dischargeAll_eq_nil_iff {isColor : String → Prop} {groups : List (List Part)}
    (hnested : Nested isColor groups) {colors : List String}
    (hcolors : ∀ color ∈ colors, isColor color) :
    dischargeAll groups colors = [] ↔ Covered groups colors := by
  refine ⟨covered_of_dischargeAll, fun h => ?_⟩
  induction colors generalizing groups with
  | nil =>
    cases h with
    | nil => rfl
    | cons _ given => cases given.symm.eq_nil
  | cons color rest ih =>
    have hless : Nested isColor (Mana.discharge groups color) := hnested.sublist discharge_sublist
    exact ih hless (fun other hother => hcolors other (List.mem_cons_of_mem color hother))
      (h.discharge hnested hcolors (.refl _))

end CardSearch.Mana
