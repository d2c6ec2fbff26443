import CardSearch.Query.Meaning
import Mathlib.Data.Finset.Dedup
import Mathlib.Data.List.Perm.Basic

/-
  Comparing two costs is pairing their groups.

  `sameCost` takes the groups of the first cost in turn, gives each the first partner of the same
  parts that is left, and lets the last of the others move into the gap.  That this finds a pairing
  where there is one is not clear at once: a group might take the only partner of a later group.

  1. **Groups (`sameSet_iff`)** — two groups are partners if they have the same set of parts.  That is
     equality of sets (`toFinset`), so groups with a partner in common are partners of each other.
  2. **Gaps (`perm_swapRemove`)** — the list after a removal is the others, in another order.
  3. **Soundness (`paired_of_findsPartners`)** — the partners that are taken make a pairing.
  4. **The crux (`findsPartners_of_perm`)** — a pairing makes the two lists of sets the same up to
     their order, and whichever partner a group takes, the sets that are left agree as well: equal
     sets are exchanged.
  5. **The result (`sameCost_iff_paired`)** — so equality of costs is that of the multisets of sets.
-/

namespace CardSearch.Query

/-! ## Groups -/

section

variable {α : Type} [BEq α] [LawfulBEq α] {a b : List α}

/-- The check goes through the elements of the one and looks for each in the other. -/
theorem isSubset_iff : isSubset a b = true ↔ a ⊆ b := by
  rw [isSubset, List.all_eq_true]
  exact forall_congr' fun x => imp_congr_right fun _ => List.contains_iff_mem

/-- Two lists are the same set if they have the same elements, however often. -/
theorem sameSet_iff : sameSet a b = true ↔ ∀ x, x ∈ a ↔ x ∈ b := by
  rw [sameSet, Bool.and_eq_true, isSubset_iff, isSubset_iff]
  constructor
  · rintro ⟨hab, hba⟩ x
    exact ⟨fun h => hab h, fun h => hba h⟩
  · intro h
    exact ⟨fun x => (h x).mp, fun x => (h x).mpr⟩

end

/-- Two groups have the same set of parts. -/
def SameParts (a b : Mana.Group) : Prop := ∀ part, part ∈ a ↔ part ∈ b

/-- Groups have the same parts if their sets are equal, so having the same parts is an
    equivalence. -/
theorem sameParts_iff {a b : Mana.Group} : SameParts a b ↔ a.toFinset = b.toFinset := by
  rw [Finset.ext_iff]
  refine forall_congr' fun part => ?_
  rw [List.mem_toFinset, List.mem_toFinset]

theorem sameSet_iff_toFinset {a b : Mana.Group} :
    sameSet a b = true ↔ a.toFinset = b.toFinset :=
  sameSet_iff.trans sameParts_iff

/-! ## Gaps -/

/-- **What is left after a removal are the others**, whichever of them has moved.  By cases on
    whether the one that is removed is the last. -/
theorem perm_swapRemove {α : Type} {list : List α} {i : Nat} (h : i < list.length) :
    list.Perm (list[i] :: swapRemove list i) := by
  obtain ⟨front, last, rfl⟩ : ∃ front last, list = front ++ [last] := by
    have hne : list ≠ [] := List.ne_nil_of_length_pos (by omega)
    exact ⟨_, _, (List.dropLast_append_getLast hne).symm⟩
  rw [swapRemove, List.getLast?_concat]
  show (front ++ [last]).Perm ((front ++ [last])[i] :: ((front ++ [last]).set i last).dropLast)
  by_cases hfront : i < front.length
  · -- the last element moves into the gap
    have hset : ((front ++ [last]).set i last).dropLast = front.set i last := by
      rw [List.set_append_left _ _ hfront, List.dropLast_concat]
    have hget : (front ++ [last])[i] = front[i] := List.getElem_append_left hfront
    rw [hset, hget]
    calc
      (front ++ [last]).Perm (last :: front) := List.perm_append_singleton last front
      List.Perm _ (last :: front[i] :: front.eraseIdx i) :=
        (List.getElem_cons_eraseIdx_perm hfront).symm.cons last
      List.Perm _ (front[i] :: last :: front.eraseIdx i) := .swap _ _ _
      List.Perm _ (front[i] :: front.set i last) :=
        (List.set_perm_cons_eraseIdx hfront last).symm.cons _
  · -- the last element is the one that is removed
    have hi : i = front.length := by
      rw [List.length_append, List.length_singleton] at h
      omega
    subst hi
    have hset : ((front ++ [last]).set front.length last).dropLast = front := by
      rw [List.set_append_right _ _ (Nat.le_refl _), Nat.sub_self]
      exact List.dropLast_concat
    have hget : (front ++ [last])[front.length] = last := by
      rw [List.getElem_append_right (Nat.le_refl _)]
      simp
    rw [hset, hget]
    exact List.perm_append_singleton last front

/-! ## Pairings -/

/-- The groups of two costs stand in pairs, one of each cost, and the two of a pair have the same
    set of parts. -/
def Paired (a b : Mana.Cost) : Prop :=
  ∃ pairs : List (Mana.Group × Mana.Group), (pairs.map Prod.fst).Perm a ∧
    (pairs.map Prod.snd).Perm b ∧ ∀ pair ∈ pairs, SameParts pair.1 pair.2

/-- The partner that is found has the same set of parts as the group that is looked for. -/
theorem findIdx?_sameSet {group : Mana.Group} {unmatched : Mana.Cost} {i : Nat}
    (h : unmatched.findIdx? (sameSet group) = some i) :
    ∃ hi : i < unmatched.length, group.toFinset = unmatched[i].toFinset := by
  obtain ⟨hi, hsame, _⟩ := List.findIdx?_eq_some_iff_getElem.mp h
  exact ⟨hi, sameSet_iff_toFinset.mp hsame⟩

/-- **The partners that are taken make a pairing.** By induction on the first cost: its first
    group and the partner make a pair, and the groups that are left are paired. -/
theorem paired_of_findsPartners {a b : Mana.Cost} (hlength : a.length = b.length)
    (h : findsPartners a b = true) : Paired a b := by
  induction a generalizing b with
  | nil =>
    obtain rfl : b = [] := List.length_eq_zero_iff.mp hlength.symm
    exact ⟨[], .refl _, .refl _, fun _ hpair => absurd hpair List.not_mem_nil⟩
  | cons group rest ih =>
    rw [findsPartners] at h
    cases hfound : b.findIdx? (sameSet group) with
    | none =>
      rw [hfound] at h
      cases h
    | some i =>
      rw [hfound] at h
      obtain ⟨hi, hsame⟩ := findIdx?_sameSet hfound
      -- the others are paired among themselves, whichever of them has moved into the gap
      have hperm := perm_swapRemove hi
      have hless : rest.length = (swapRemove b i).length := by
        have hlen := hperm.length_eq
        simp only [List.length_cons] at hlen hlength
        omega
      obtain ⟨pairs, hfirst, hsecond, hpairs⟩ := ih hless h
      refine ⟨(group, b[i]) :: pairs, hfirst.cons group, ?_, ?_⟩
      · exact (hsecond.cons b[i]).trans hperm.symm
      · exact List.forall_mem_cons.mpr ⟨sameParts_iff.mpr hsame, hpairs⟩

/-- Paired costs have the same sets of parts, up to their order: those of the pairs. -/
theorem Paired.perm {a b : Mana.Cost} (h : Paired a b) :
    (a.map List.toFinset).Perm (b.map List.toFinset) := by
  obtain ⟨pairs, hfirst, hsecond, hpairs⟩ := h
  have hsame : (pairs.map Prod.fst).map List.toFinset = (pairs.map Prod.snd).map List.toFinset := by
    rw [List.map_map, List.map_map]
    exact List.map_congr_left fun pair hpair => sameParts_iff.mp (hpairs pair hpair)
  have ha := hfirst.map List.toFinset
  have hb := hsecond.map List.toFinset
  rw [hsame] at ha
  exact ha.symm.trans hb

/-- **A group may take any partner.** By induction on the first cost: whichever partner is taken
    has the set of the group, so what is left to the others has the same sets of parts. -/
theorem findsPartners_of_perm {a b : Mana.Cost}
    (h : (a.map List.toFinset).Perm (b.map List.toFinset)) : findsPartners a b = true := by
  induction a generalizing b with
  | nil => rfl
  | cons group rest ih =>
    rw [List.map_cons] at h
    obtain ⟨other, hother, hsame⟩ := List.mem_map.mp (h.subset List.mem_cons_self)
    cases hfound : b.findIdx? (sameSet group) with
    | none =>
      have hnone := List.findIdx?_eq_none_iff.mp hfound other hother
      rw [sameSet_iff_toFinset.mpr hsame.symm] at hnone
      cases hnone
    | some i =>
      obtain ⟨hi, htaken⟩ := findIdx?_sameSet hfound
      have hleft := (perm_swapRemove hi).map List.toFinset
      rw [List.map_cons, ← htaken] at hleft
      rw [findsPartners, hfound]
      exact ih (h.trans hleft).cons_inv

/-- Equality of costs is equality of the multisets of their groups, each as a set; the lengths
    are compared first, which such costs pass. -/
theorem sameCost_iff_perm {a b : Mana.Cost} :
    sameCost a b = true ↔ (a.map List.toFinset).Perm (b.map List.toFinset) := by
  rw [sameCost, Bool.and_eq_true, beq_iff_eq]
  constructor
  · rintro ⟨hlength, hfound⟩
    exact (paired_of_findsPartners hlength hfound).perm
  · intro hperm
    have hlength := hperm.length_eq
    rw [List.length_map, List.length_map] at hlength
    exact ⟨hlength, findsPartners_of_perm hperm⟩

/-- So equality of costs is a pairing of their groups. -/
theorem sameCost_eq_true_iff_paired {a b : Mana.Cost} : sameCost a b = true ↔ Paired a b := by
  constructor
  · intro h
    rw [sameCost, Bool.and_eq_true, beq_iff_eq] at h
    exact paired_of_findsPartners h.1 h.2
  · exact fun h => sameCost_iff_perm.mpr h.perm

/-- Costs with the same sets of parts, up to their order, are equal to the same costs. -/
theorem sameCost_congr {a a' b b' : Mana.Cost}
    (ha : (a.map List.toFinset).Perm (a'.map List.toFinset))
    (hb : (b.map List.toFinset).Perm (b'.map List.toFinset)) : sameCost a' b' = sameCost a b := by
  rw [Bool.eq_iff_iff, sameCost_iff_perm, sameCost_iff_perm]
  constructor
  · exact fun h => (ha.trans h).trans hb.symm
  · exact fun h => (ha.symm.trans h).trans hb

theorem map_toFinset_of_forall₂ {a a' : Mana.Cost} (h : List.Forall₂ List.Perm a a') :
    a.map List.toFinset = a'.map List.toFinset := by
  induction h with
  | nil => rfl
  | cons hgroup _ ih => rw [List.map_cons, List.map_cons, List.toFinset_eq_of_perm _ _ hgroup, ih]

/-! ## Conditions -/

/-- A cost has another if each group of that has a partner in it; here one partner may serve
    several groups. -/
theorem includesCost_iff {value cost : Mana.Cost} :
    includesCost value cost = true ↔ ∀ group ∈ value, ∃ other ∈ cost, SameParts group other := by
  rw [includesCost, List.all_eq_true]
  refine forall_congr' fun group => imp_congr_right fun _ => ?_
  rw [List.any_eq_true]
  exact exists_congr fun other => and_congr_right fun _ => sameSet_iff

/-- Every group of a cost has a partner in a cost that is equal to it. -/
theorem Paired.exists_partner {cost value : Mana.Cost} (h : Paired cost value) :
    ∀ group ∈ value, ∃ other ∈ cost, SameParts group other := by
  obtain ⟨pairs, hfirst, hsecond, hpairs⟩ := h
  intro group hgroup
  obtain ⟨pair, hpair, rfl⟩ := List.mem_map.mp (hsecond.mem_iff.mpr hgroup)
  refine ⟨pair.1, hfirst.mem_iff.mp (List.mem_map_of_mem hpair), ?_⟩
  exact fun part => (hpairs pair hpair part).symm

/-- **Equality of costs is a pairing of their groups.**
    (1) Two costs are equal exactly if all their groups stand in pairs of the same set of parts.
    (2) So equality is reflexive, symmetric and transitive,
    (3) and neither the order of the groups nor that of the parts within them matters.
    (4) For every cost in a query, `=` and `!=` are opposed, `=` implies `:`, and `:` holds of a card
    exactly if each group of the query has the parts of some group of the card's cost. -/
theorem sameCost_iff_paired (a b : Mana.Cost) :
    (sameCost a b = true ↔ Paired a b) ∧
    sameCost a a = true ∧
    sameCost b a = sameCost a b ∧
    (∀ c, sameCost a b = true → sameCost b c = true → sameCost a c = true) ∧
    (∀ a' b', a.Perm a' → b.Perm b' → sameCost a' b' = sameCost a b) ∧
    (∀ a' b', List.Forall₂ List.Perm a a' → List.Forall₂ List.Perm b b' →
      sameCost a' b' = sameCost a b) ∧
    ∀ value : Mana.Cost, ∃ includes equal notEqual,
      conditionTest .cost .colon (.manaCost value) = .ok includes ∧
      conditionTest .cost .equal (.manaCost value) = .ok equal ∧
      conditionTest .cost .notEqual (.manaCost value) = .ok notEqual ∧
      ∀ card, (equal card = true ↔ Paired (Mana.normalizeCost card.cost) value) ∧
        (notEqual card = !equal card) ∧
        (equal card = true → includes card = true) ∧
        (includes card = true ↔
          ∀ group ∈ value, ∃ other ∈ Mana.normalizeCost card.cost, SameParts group other) := by
  refine ⟨sameCost_eq_true_iff_paired, ?reflexive, ?symmetric, ?transitive, ?groups, ?parts, ?_⟩
  case reflexive => exact sameCost_iff_perm.mpr (.refl _)
  case symmetric =>
    rw [Bool.eq_iff_iff, sameCost_iff_perm, sameCost_iff_perm]
    exact List.perm_comm
  case transitive =>
    intro c hab hbc
    exact sameCost_iff_perm.mpr ((sameCost_iff_perm.mp hab).trans (sameCost_iff_perm.mp hbc))
  case groups => exact fun a' b' ha hb => sameCost_congr (ha.map _) (hb.map _)
  case parts =>
    intro a' b' ha hb
    exact sameCost_congr (.of_eq (map_toFinset_of_forall₂ ha)) (.of_eq (map_toFinset_of_forall₂ hb))
  intro value
  -- the tests of `:`, `=` and `!=`
  refine ⟨fun card => includesCost value (Mana.normalizeCost card.cost),
    fun card => sameCost (Mana.normalizeCost card.cost) value,
    fun card => !sameCost (Mana.normalizeCost card.cost) value, rfl, rfl, rfl, fun card => ?_⟩
  refine ⟨sameCost_eq_true_iff_paired, rfl, ?_, includesCost_iff⟩
  intro hequal
  exact includesCost_iff.mpr (sameCost_eq_true_iff_paired.mp hequal).exists_partner

/-- Neither the halves of a hybrid nor two groups that are alike are told apart by their places. -/
theorem sameCost_iff_paired_hybrid :
    sameCost [["w", "u"], ["2"], ["2"]] [["2"], ["u", "w"], ["2"]] = true ∧
      sameCost [["2"], ["u", "w"], ["2"]] [["2"], ["2"], ["w", "u"]] = true ∧
      sameCost [["w", "u"], ["2"], ["2"]] [["2"], ["2"], ["w", "u"]] = true ∧
      Paired [["w", "u"], ["2"], ["2"]] [["2"], ["u", "w"], ["2"]] := by
  obtain ⟨hpaired, _, _, htransitive, _⟩ :=
    sameCost_iff_paired [["w", "u"], ["2"], ["2"]] [["2"], ["u", "w"], ["2"]]
  have hfirst : sameCost [["w", "u"], ["2"], ["2"]] [["2"], ["u", "w"], ["2"]] = true := by
    decide +kernel
  have hsecond : sameCost [["2"], ["u", "w"], ["2"]] [["2"], ["2"], ["w", "u"]] = true := by
    decide +kernel
  exact ⟨hfirst, hsecond, htransitive _ hfirst hsecond, hpaired.mp hfirst⟩

end CardSearch.Query
