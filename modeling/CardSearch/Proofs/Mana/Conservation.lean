import CardSearch.Proofs.Mana.Account
import Mathlib.Data.Nat.PSub

/-
  Generic mana is conserved.

  An amount goes over the groups from the left.  It covers one number after the other until it runs
  out, and a number amid which it does so keeps what is short.  Nothing is paid twice and nothing is
  lost, so it makes no difference in how many parts an amount is spent.

  1. **One group (`spendGeneric_of_none`, `spendGeneric_of_le`, `spendGeneric_of_lt`)** — a group
     without a number is passed over; a number is covered, or covered in part.
  2. **Two amounts (`spendGeneric_add`)** — one spent after the other is their sum spent at once.
  3. **Subtractions (`spendChecked_eq`)** — none of them goes below zero.
  4. **The crux (`spendGeneric_split`)** — the groups fall in two: those before the place where the
     amount runs out lose all numbered ones, and those behind it stay as they are, but for a number
     that is covered in part.
  5. **What is left (`spendGeneric_conserves`)** — where a group lists at most one number, above zero
     and alone or beside a symbol, this says what becomes of the numbers and of what is beside them.
-/

namespace CardSearch.Mana

/-! ## One group -/

/-- No mana changes nothing, as the first group is not even looked at. -/
theorem spendGeneric_zero (groups : List (List Part)) : spendGeneric 0 groups = groups := by
  cases groups <;> rfl

section

variable {amount needed : Nat} {group others : List Part} (rest : List (List Part))

/-- A group without a number is passed over with the amount as it is. -/
theorem spendGeneric_of_none (h : numbered? group = none) :
    spendGeneric amount (group :: rest) = group :: spendGeneric amount rest := by
  by_cases hzero : amount = 0
  · rw [hzero, spendGeneric_zero, spendGeneric_zero]
  · rw [spendGeneric, if_neg (mt eq_of_beq hzero), h]

/-- A number that is covered takes its group away, and the rest of the amount goes on. -/
theorem spendGeneric_of_le (h : numbered? group = some (needed, others)) (hpos : amount ≠ 0)
    (hle : needed ≤ amount) :
    spendGeneric amount (group :: rest) = spendGeneric (amount - needed) rest := by
  rw [spendGeneric, if_neg (mt eq_of_beq hpos), h]
  exact if_pos hle

/-- A number that is covered in part keeps the rest, and comes first in its group.  The amount
    ends there, so the groups behind stay as they are. -/
theorem spendGeneric_of_lt (h : numbered? group = some (needed, others)) (hpos : amount ≠ 0)
    (hlt : amount < needed) :
    spendGeneric amount (group :: rest) = (.amount (needed - amount) :: others) :: rest := by
  rw [spendGeneric, if_neg (mt eq_of_beq hpos), h]
  exact if_neg (Nat.not_le.mpr hlt)

end

/-! ## Two amounts -/

/-- **An amount may be spent in two parts.** By induction on the way of the first part; where it
    ends amid a number, the second part finds what is left of this number before all other
    numbers. -/
theorem spendGeneric_add (amount more : Nat) (groups : List (List Part)) :
    spendGeneric more (spendGeneric amount groups) = spendGeneric (amount + more) groups := by
  fun_induction spendGeneric amount groups with
  | case1 => rfl
  | case2 amount group rest hzero =>
    obtain rfl := eq_of_beq hzero
    rw [Nat.zero_add]
  | case3 amount group rest _ hnone ih =>
    rw [spendGeneric_of_none _ hnone, spendGeneric_of_none _ hnone, ih]
  | case4 amount group rest hpos needed others hsome hle ih =>
    have hamount : amount ≠ 0 := mt beq_iff_eq.mpr hpos
    rw [ih, spendGeneric_of_le _ hsome (by omega) (by omega), Nat.sub_add_comm hle]
  | case5 amount group rest hpos needed others hsome hpart =>
    have hamount : amount ≠ 0 := mt beq_iff_eq.mpr hpos
    -- the second amount meets the rest of the number, unless there is no second amount
    by_cases hmore : more = 0
    · rw [hmore, spendGeneric_zero, Nat.add_zero, spendGeneric_of_lt _ hsome hamount (by omega)]
    have hleft : numbered? (.amount (needed - amount) :: others) = some (needed - amount, others) :=
      rfl
    by_cases hcovered : needed ≤ amount + more
    · rw [spendGeneric_of_le _ hleft hmore (by omega),
        spendGeneric_of_le _ hsome (by omega) hcovered]
      congr 1
      omega
    · rw [spendGeneric_of_lt _ hleft hmore (by omega),
        spendGeneric_of_lt _ hsome (by omega) (by omega), Nat.sub_sub]

/-! ## Subtractions -/

/-- Spends generic mana as `spendGeneric` does, with subtractions that fail below zero. -/
def spendChecked (amount : Nat) : List (List Part) → Option (List (List Part))
  | [] => some []
  | group :: rest =>
    if amount == 0 then some (group :: rest)
    else match numbered? group with
      | none => (spendChecked amount rest).map (group :: ·)
      | some (needed, others) =>
        if needed ≤ amount then (Nat.psub amount needed).bind fun more => spendChecked more rest
        else (Nat.psub needed amount).map fun short => (.amount short :: others) :: rest

/-- **No subtraction goes below zero.** Each takes a number from an amount that covers it, or an
    amount from a number that it does not reach. -/
theorem spendChecked_eq (amount : Nat) (groups : List (List Part)) :
    spendChecked amount groups = some (spendGeneric amount groups) := by
  fun_induction spendGeneric amount groups with
  | case1 => rfl
  | case2 amount group rest hzero => rw [spendChecked, if_pos hzero]
  | case3 amount group rest hpos hnone ih =>
    rw [spendChecked, if_neg hpos, hnone]
    show (spendChecked amount rest).map _ = _
    rw [ih]
    rfl
  | case4 amount group rest hpos needed others hsome hle ih =>
    rw [spendChecked, if_neg hpos, hsome]
    show (if needed ≤ amount then _ else _) = _
    rw [if_pos hle, Nat.psub_eq_sub hle]
    exact ih
  | case5 amount group rest hpos needed others hsome hpart =>
    rw [spendChecked, if_neg hpos, hsome]
    show (if needed ≤ amount then _ else _) = _
    rw [if_neg hpart, Nat.psub_eq_sub (Nat.le_of_not_le hpart)]
    rfl

/-! ## Where an amount runs out -/

/-- How an amount comes to its end, with the groups that it has not passed and what is left of them. -/
inductive RunsOut : Nat → List (List Part) → List (List Part) → Prop
  /-- All groups are passed, and what is left of the amount is lost. -/
  | behind (amount : Nat) : RunsOut amount [] []
  /-- It was just enough for the groups that are passed. -/
  | between (groups : List (List Part)) : RunsOut 0 groups groups
  /-- It is not enough for the next number. -/
  | amid {amount needed : Nat} {group others : List Part} (rest : List (List Part))
      (hnumber : numbered? group = some (needed, others)) (hlt : amount < needed) :
      RunsOut amount (group :: rest) ((.amount (needed - amount) :: others) :: rest)

/-- **The place where an amount runs out.** It covers all numbers before that place, and the
    groups behind it stay as they are.  So each statement about what is left is one about these
    two parts. -/
theorem spendGeneric_split (amount : Nat) (groups : List (List Part)) :
    ∃ before after more left, groups = before ++ after ∧ amount = owed before + more ∧
      spendGeneric amount groups = unnumbered before ++ left ∧ RunsOut more after left := by
  fun_induction spendGeneric amount groups with
  | case1 amount => exact ⟨[], [], amount, [], rfl, (Nat.zero_add amount).symm, rfl, .behind amount⟩
  | case2 amount group rest hzero =>
    obtain rfl := eq_of_beq hzero
    exact ⟨[], group :: rest, 0, group :: rest, rfl, rfl, rfl, .between (group :: rest)⟩
  | case3 amount group rest _ hnone ih =>
    obtain ⟨before, after, more, left, rfl, hamount, hspent, hout⟩ := ih
    refine ⟨group :: before, after, more, left, rfl, ?_, ?_, hout⟩
    · rw [owed_cons_of_none hnone]
      exact hamount
    · rw [unnumbered_cons_of_none hnone, hspent, List.cons_append]
  | case4 amount group rest _ needed others hsome hle ih =>
    -- the number is one more of those before the place, and so its group is one more that is lost
    obtain ⟨before, after, more, left, rfl, hamount, hspent, hout⟩ := ih
    refine ⟨group :: before, after, more, left, rfl, ?_, ?_, hout⟩
    · rw [owed_cons_of_some hsome]
      omega
    · rw [unnumbered_cons_of_some hsome, hspent]
  | case5 amount group rest _ needed others hsome hpart =>
    exact ⟨[], group :: rest, amount, _, rfl, (Nat.zero_add amount).symm, rfl,
      .amid rest hsome (Nat.lt_of_not_le hpart)⟩

/-- The numbered groups that remain are the last ones, with the same parts beside their numbers:
    a number that is covered in part has its own group still. -/
theorem others_spendGeneric (amount : Nat) (groups : List (List Part)) :
    ((spendGeneric amount groups).filterMap numbered?).map Prod.snd <:+
      (groups.filterMap numbered?).map Prod.snd := by
  obtain ⟨before, after, _, left, rfl, -, hspent, hout⟩ := spendGeneric_split amount groups
  have hbefore : (unnumbered before).filterMap numbered? = [] := by
    refine List.filterMap_eq_nil_iff.mpr fun group hgroup => ?_
    exact Option.isNone_iff_eq_none.mp (List.mem_filter.mp hgroup).2
  -- a number that is covered in part is still beside the same parts
  have hkept : (left.filterMap numbered?).map Prod.snd =
      (after.filterMap numbered?).map Prod.snd := by
    cases hout with
    | behind => rfl
    | between => rfl
    | @amid _ needed _ others rest hnumber _ =>
      rw [List.filterMap_cons_some hnumber]
      rfl
  rw [hspent, List.filterMap_append, hbefore, List.nil_append, hkept, List.filterMap_append,
    List.map_append]
  exact List.suffix_append _ _

/-! ## Groups that are asked for -/

/-- The number that a part is. -/
def Part.number? : Part → Option Nat
  | .amount n => some n
  | .symbol _ => none

/-- The numbers that a group lists. -/
def numbers (group : List Part) : List Nat := group.filterMap Part.number?

/-- The parts of a group that are no numbers. -/
def beside (group : List Part) : List Part := group.filter fun part => part.number?.isNone

/-- A group as it is asked for: it lists no number, or one above zero that is alone or beside a
    symbol. -/
inductive IsRequirement : List Part → Prop
  | plain {group : List Part} (h : numbers group = []) : IsRequirement group
  | alone {n : Nat} (h : 0 < n) : IsRequirement [.amount n]
  | ahead {n : Nat} (h : 0 < n) (symbol : String) : IsRequirement [.amount n, .symbol symbol]
  | behind {n : Nat} (h : 0 < n) (symbol : String) : IsRequirement [.symbol symbol, .amount n]

/-- A group that lists no number is not taken for a numbered one, whatever else it lists. -/
theorem numbered?_of_numbers_eq_nil {group : List Part} (h : numbers group = []) :
    numbered? group = none := by
  have hnone : ∀ part ∈ group, part.number? = none := List.filterMap_eq_nil_iff.mp h
  unfold numbered?
  split
  · exact absurd (hnone _ List.mem_cons_self) (Option.some_ne_none _)
  · exact absurd (hnone _ (List.mem_cons_of_mem _ List.mem_cons_self)) (Option.some_ne_none _)
  · rfl

/-- A payment finds the number of a group, and takes along what stands beside it.  So for these
    groups the program's reading and the plain one agree. -/
theorem IsRequirement.reading {group : List Part} (h : IsRequirement group) :
    (numbers group = [] ∧ numbered? group = none) ∨
      ∃ n, 0 < n ∧ numbers group = [n] ∧ numbered? group = some (n, beside group) := by
  cases h with
  | plain h => exact Or.inl ⟨h, numbered?_of_numbers_eq_nil h⟩
  | alone hpos | ahead hpos | behind hpos => exact Or.inr ⟨_, hpos, rfl, rfl⟩

/-- With another number above zero it is still such a group.  So the invariant is kept where a
    number is covered in part. -/
theorem IsRequirement.renumber {group others : List Part} {needed short : Nat}
    (h : IsRequirement group) (hnumber : numbered? group = some (needed, others))
    (hshort : 0 < short) : IsRequirement (.amount short :: others) := by
  cases h with
  | plain h =>
    rw [numbered?_of_numbers_eq_nil h] at hnumber
    cases hnumber
  | alone =>
    obtain ⟨-, rfl⟩ := Prod.mk.inj (Option.some.inj hnumber)
    exact .alone hshort
  | ahead _ symbol | behind _ symbol =>
    -- what is left of a number comes first, wherever the number stood
    obtain ⟨-, rfl⟩ := Prod.mk.inj (Option.some.inj hnumber)
    exact .ahead hshort symbol

/-- The groups that list no number. -/
def withoutNumber (groups : List (List Part)) : List (List Part) :=
  groups.filter fun group => (numbers group).isEmpty

/-- What stands beside the numbers, for each group that lists one. -/
def besideNumbers (groups : List (List Part)) : List (List Part) :=
  (groups.filter fun group => !(numbers group).isEmpty).map beside

/-- All numbers of groups together. -/
def total (groups : List (List Part)) : Nat := (groups.flatMap numbers).sum

section

variable {groups : List (List Part)} (h : ∀ group ∈ groups, IsRequirement group)
include h

/-- The groups that list no number are those that a payment finds without one. -/
theorem withoutNumber_eq_unnumbered : withoutNumber groups = unnumbered groups := by
  refine List.filter_congr fun group hgroup => ?_
  rcases (h group hgroup).reading with ⟨hnumbers, hnone⟩ | ⟨n, _, hnumbers, hsome⟩
  · rw [hnumbers, hnone]
    rfl
  · rw [hnumbers, hsome]
    rfl

/-- What stands beside the numbers is what a payment takes along. -/
theorem besideNumbers_eq_others :
    besideNumbers groups = (groups.filterMap numbered?).map Prod.snd := by
  induction groups with
  | nil => rfl
  | cons group rest ih =>
    obtain ⟨hgroup, hrest⟩ := List.forall_mem_cons.mp h
    rcases hgroup.reading with ⟨hnumbers, hnone⟩ | ⟨n, _, hnumbers, hsome⟩
    · rw [List.filterMap_cons_none hnone, ← ih hrest]
      simp [besideNumbers, hnumbers]
    · rw [List.filterMap_cons_some hsome, List.map_cons, ← ih hrest]
      simp [besideNumbers, hnumbers]

/-- And the total of the numbers is what a payment counts as owed. -/
theorem total_eq_owed : total groups = owed groups := by
  induction groups with
  | nil => rfl
  | cons group rest ih =>
    obtain ⟨hgroup, hrest⟩ := List.forall_mem_cons.mp h
    have hcons : total (group :: rest) = (numbers group).sum + total rest := by
      rw [total, List.flatMap_cons, List.sum_append, total]
    rcases hgroup.reading with ⟨hnumbers, hnone⟩ | ⟨n, _, hnumbers, hsome⟩
    · rw [hcons, hnumbers, owed_cons_of_none hnone, ih hrest, List.sum_nil, Nat.zero_add]
    · rw [hcons, hnumbers, owed_cons_of_some hsome, ih hrest, List.sum_singleton]

/-- **The invariant**: what a payment leaves is such a list again, so a second amount may be
    spent on it. -/
theorem isRequirement_spendGeneric (amount : Nat) :
    ∀ group ∈ spendGeneric amount groups, IsRequirement group := by
  obtain ⟨before, after, _, left, rfl, -, hspent, hout⟩ := spendGeneric_split amount groups
  obtain ⟨hbefore, hafter⟩ := List.forall_mem_append.mp h
  rw [hspent, List.forall_mem_append]
  refine ⟨fun group hgroup => hbefore group (List.mem_filter.mp hgroup).1, ?_⟩
  cases hout with
  | behind => exact hafter
  | between => exact hafter
  | amid rest hnumber hlt =>
    obtain ⟨hgroup, hrest⟩ := List.forall_mem_cons.mp hafter
    exact List.forall_mem_cons.mpr ⟨hgroup.renumber hnumber (Nat.sub_pos_of_lt hlt), hrest⟩

/-- The numbers that such groups list are above zero, or the groups would be no requirements. -/
theorem numbers_pos : ∀ group ∈ groups, ∀ n ∈ numbers group, 0 < n := by
  intro group hgroup n hn
  rcases (h group hgroup).reading with ⟨hnumbers, _⟩ | ⟨m, hpos, hnumbers, _⟩
  · rw [hnumbers] at hn
    cases hn
  · rw [hnumbers, List.mem_singleton] at hn
    exact hn ▸ hpos

/-! ## What is left -/

/-- **Generic mana is conserved.**  An amount that is spent on groups
    (1) leaves those without a number as they are, in their order,
    (2) leaves numbers above zero only,
    (3) leaves beside each number that remains what stood beside it,
    (4) takes the smaller of itself and the total of the numbers off that total,
    (5) takes no step that subtracts more than there is, and
    (6) may be spent in two parts, with the same groups left as if it were spent at once. -/
theorem spendGeneric_conserves (amount more : Nat) :
    withoutNumber (spendGeneric amount groups) = withoutNumber groups ∧
    (∀ group ∈ spendGeneric amount groups, ∀ n ∈ numbers group, 0 < n) ∧
    besideNumbers (spendGeneric amount groups) <:+ besideNumbers groups ∧
    total (spendGeneric amount groups) = total groups - min amount (total groups) ∧
    spendChecked amount groups = some (spendGeneric amount groups) ∧
    spendGeneric more (spendGeneric amount groups) = spendGeneric (amount + more) groups := by
  have hleft := isRequirement_spendGeneric h amount
  refine ⟨?_, numbers_pos hleft, ?_, ?_, spendChecked_eq amount groups,
    spendGeneric_add amount more groups⟩
  · rw [withoutNumber_eq_unnumbered hleft, withoutNumber_eq_unnumbered h, unnumbered_spendGeneric]
  · rw [besideNumbers_eq_others hleft, besideNumbers_eq_others h]
    exact others_spendGeneric amount groups
  · rw [total_eq_owed hleft, total_eq_owed h, owed_spendGeneric]
    omega

end

/-- Three mana cover a number and half of the next, and two more cover the rest of it; the group
    without a number stays through both. -/
theorem spendGeneric_conserves_halves :
    let groups : List (List Part) :=
      [[.amount 2, .symbol "x"], [.symbol "x", .amount 2], [.symbol "x"], [.amount 5]]
    let left : List (List Part) := [[.amount 1, .symbol "x"], [.symbol "x"], [.amount 5]]
    (∀ group ∈ groups, IsRequirement group) ∧ spendGeneric 3 groups = left ∧
      withoutNumber left = withoutNumber groups ∧
      (∀ group ∈ left, ∀ n ∈ numbers group, 0 < n) ∧
      besideNumbers left <:+ besideNumbers groups ∧
      total left = total groups - min 3 (total groups) ∧
      spendChecked 3 groups = some left ∧ spendGeneric 2 left = spendGeneric 5 groups := by
  intro groups left
  have hgroups : ∀ group ∈ groups, IsRequirement group := by
    simp only [groups, List.forall_mem_cons]
    exact ⟨.ahead (by decide) "x", .behind (by decide) "x", .plain rfl, .alone (by decide), by simp⟩
  have hspent : spendGeneric 3 groups = left := by decide
  have hkept := spendGeneric_conserves hgroups 3 2
  rw [hspent] at hkept
  exact ⟨hgroups, hspent, hkept⟩

end CardSearch.Mana
