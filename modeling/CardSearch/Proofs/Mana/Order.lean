import CardSearch.Proofs.Mana.Counting

/-
  When the order of a pool matters.

  A color takes the first group that lists it.  If it could have taken another group, and the color
  that the first group then lacks is of no use to that other, a cost that one order of the pool pays
  is left unpaid by another.

  1. **Pools (`isPoolSymbol_of_parsePool`)** — the symbols of a pool text are color letters and runs
     of digits, and each is its own lower case.
  2. **Nested groups (`orderFree_of_nested`)** — if of two groups that share a color the earlier lists
     no color that the later lacks, colors discharge what they cover, and covering knows no order.
  3. **The crux (`countP_dischargeAll_lt`)** — else let a group list a shared and another color, and
     a later group only the shared one.  Spend the shared color first, as often as there are groups
     with it and without the other.  One of these goes to a group that lists the other color, and
     then there are too few groups left for all that is there of the other color.
  4. **The result (`orderFree_iff`)** — so order matters for exactly the costs that could be paid and
     are not nested.
-/

namespace CardSearch.Mana

/-! ## Symbols of pools -/

/-- A symbol that a pool text can hold: the letter of a color or a run of digits. -/
def IsPoolSymbol (symbol : String) : Prop :=
  (∃ letter ∈ colorLetters, symbol = String.ofList [letter]) ∨
    symbol.toList ≠ [] ∧ ∀ c ∈ symbol.toList, isDigit c = true

/-- A symbol of a pool text that is no amount: a letter, or a number of more than 64 bits. -/
def IsColor (color : String) : Prop := IsPoolSymbol color ∧ amount? color = none

/-- Every symbol that is read is a letter of a color, or digits up to the next other character. -/
theorem isPoolSymbol_of_poolFrom {text : List Char} {pool : Pool} (h : poolFrom text = some pool) :
    ∀ symbol ∈ pool, IsPoolSymbol symbol := by
  fun_induction poolFrom text generalizing pool with
  | case1 =>
    obtain rfl := Option.some.inj h
    exact fun _ hsymbol => absurd hsymbol List.not_mem_nil
  | case2 c rest _ ih => exact ih h
  | case3 c rest _ hdigit ih =>
    obtain ⟨more, hmore, rfl⟩ := Option.map_eq_some_iff.mp h
    refine List.forall_mem_cons.mpr ⟨Or.inr ?_, ih hmore⟩
    rw [String.toList_ofList]
    refine ⟨List.cons_ne_nil _ _, List.forall_mem_cons.mpr ⟨hdigit, fun d hd => ?_⟩⟩
    exact List.all_eq_true.mp List.all_takeWhile d hd
  | case4 c rest _ _ hletter ih =>
    obtain ⟨more, hmore, rfl⟩ := Option.map_eq_some_iff.mp h
    exact List.forall_mem_cons.mpr
      ⟨Or.inl ⟨c, List.contains_iff_mem.mp hletter, rfl⟩, ih hmore⟩
  | case5 => cases h

/-- The symbols of a pool text are letters of colors and runs of digits. -/
theorem isPoolSymbol_of_parsePool {text : String} {pool : Pool} (h : parsePool text = some pool) :
    ∀ symbol ∈ pool, IsPoolSymbol symbol :=
  isPoolSymbol_of_poolFrom (Option.filter_eq_some_iff.mp h).1

/-- A pool text is put in lower case before it is read, so its symbols stay as they are when they
    are spent. -/
theorem inLowerCase_of_isPoolSymbol {symbol : String} (h : IsPoolSymbol symbol) :
    inLowerCase symbol = symbol := by
  have hsmall : ∀ c ∈ symbol.toList, Text.IsSmall c := by
    rcases h with ⟨letter, hletter, rfl⟩ | ⟨_, hdigits⟩
    · rw [String.toList_ofList, List.forall_mem_singleton]
      simp only [colorLetters, List.mem_cons, List.not_mem_nil, or_false] at hletter
      rcases hletter with rfl | rfl | rfl | rfl | rfl | rfl <;> exact ⟨by decide, by decide⟩
    · intro c hc
      exact Text.isSmall_of_isNumeral (Bool.or_eq_true_iff.mpr (Or.inl (hdigits c hc)))
  rw [inLowerCase, Text.lower_eq_self fun c hc => (hsmall c hc).isLowered,
    String.ofList_toList]

/-- A symbol of one character is a letter of a color or a digit. -/
theorem isPoolSymbol_single {c : Char} :
    IsPoolSymbol (String.ofList [c]) ↔ c ∈ colorLetters ∨ isDigit c = true := by
  rw [IsPoolSymbol, String.toList_ofList, List.forall_mem_singleton]
  refine or_congr ?_ (and_iff_right (List.cons_ne_nil c []))
  constructor
  · rintro ⟨letter, hletter, hsame⟩
    obtain rfl : c = letter := List.singleton_inj.mp (String.ofList_injective hsame)
    exact hletter
  · exact fun hletter => ⟨c, hletter, rfl⟩

/-- The marks of variable amounts are no letters of colors, so a pool text holds none of them. -/
theorem not_mem_markers_of_isPoolSymbol {symbol : String} (h : IsPoolSymbol symbol) :
    symbol ∉ variableMarkers := by
  intro hmarker
  simp only [variableMarkers, List.mem_cons, List.not_mem_nil, or_false] at hmarker
  rcases hmarker with rfl | rfl | rfl
  · exact absurd ((isPoolSymbol_single (c := 'x')).mp h) (by decide)
  · exact absurd ((isPoolSymbol_single (c := 'y')).mp h) (by decide)
  · exact absurd ((isPoolSymbol_single (c := 'z')).mp h) (by decide)

/-! ## Pools of such symbols -/

section

variable {pool : Pool} (h : ∀ symbol ∈ pool, IsPoolSymbol symbol)
include h

theorem markerless : ∀ symbol ∈ pool, inLowerCase symbol ∉ variableMarkers := by
  intro symbol hsymbol
  rw [inLowerCase_of_isPoolSymbol (h symbol hsymbol)]
  exact not_mem_markers_of_isPoolSymbol (h symbol hsymbol)

/-- Such a pool has colors in the sense of `IsColor`, which a run of digits too long for an
    amount is too. -/
theorem isColor_of_mem_poolColors : ∀ color ∈ poolColors pool, IsColor color := by
  intro color hcolor
  refine ⟨?_, amount?_of_mem_poolColors hcolor⟩
  obtain ⟨symbol, hsymbol, rfl⟩ := List.mem_map.mp hcolor
  have hown := h symbol (List.mem_filter.mp hsymbol).1
  rw [inLowerCase_of_isPoolSymbol hown]
  exact hown

end

/-- A list of colors is a pool of just these, without amounts and already in lower case. -/
theorem poolColors_of_isColor {colors : List String} (h : ∀ color ∈ colors, IsColor color) :
    poolColors colors = colors := by
  induction colors with
  | nil => rfl
  | cons color rest ih =>
    obtain ⟨hcolor, hrest⟩ := List.forall_mem_cons.mp h
    rw [poolColors_cons_of_none rest hcolor.2, ih hrest, inLowerCase_of_isPoolSymbol hcolor.1]

/-- Single generic mana is worth itself and has no color, so it can be added to a pool to pay for
    the numbers alone. -/
theorem poolColors_ones (n : Nat) : poolColors (List.replicate n "1") = [] := by
  rw [poolColors, List.filter_replicate]
  rfl

/-- Any number of them is worth that number. -/
theorem worth_ones (n : Nat) : worth (List.replicate n "1") = n := by
  induction n with
  | zero => rfl
  | succ n ih =>
    have hone : amount? "1" = some 1 := by decide
    rw [List.replicate_succ, worth_cons_of_some _ hone, ih]
    omega

/-! ## Costs for which order does not matter -/

/-- The order of a pool does not matter for a cost. -/
def OrderFree (cost : Cost) : Prop :=
  ∀ pool pool' : Pool, (∀ symbol ∈ pool, IsPoolSymbol symbol) → pool.Perm pool' →
    canPay pool' cost = canPay pool cost

/-- Paying a nested cost is covering it, and having the worth for the rest. -/
theorem canPay_iff_covered {cost : Cost} (h : Nested IsColor (colorGroups cost)) {pool : Pool}
    (hpool : ∀ symbol ∈ pool, IsPoolSymbol symbol) :
    canPay pool cost = true ↔ Covered (colorGroups cost) (poolColors pool) ∧
      owed (requirements cost) + (colorGroups cost).length ≤ worth pool := by
  rw [canPay_iff (markerless hpool),
    dischargeAll_eq_nil_iff h (isColor_of_mem_poolColors hpool)]

/-- **Order does not matter for nested costs**: neither the covering nor the worth depends on it. -/
theorem orderFree_of_nested {cost : Cost} (h : Nested IsColor (colorGroups cost)) :
    OrderFree cost := by
  intro pool pool' hpool hperm
  have hpool' : ∀ symbol ∈ pool', IsPoolSymbol symbol := fun symbol hsymbol =>
    hpool symbol (hperm.mem_iff.mpr hsymbol)
  have hcolors : (poolColors pool).Perm (poolColors pool') := (hperm.filter _).map _
  have hworth : worth pool' = worth pool := by
    rw [worth, worth, ← hcolors.length_eq]
    exact congrArg (· + _) (hperm.filterMap amount?).sum_nat.symm
  refine Bool.eq_iff_iff.mpr ?_
  rw [canPay_iff_covered h hpool, canPay_iff_covered h hpool', hworth]
  exact and_congr_left fun _ => ⟨fun hc => hc.perm hcolors.symm, fun hc => hc.perm hcolors⟩

/-- Nor for costs that no pool pays, since a group lists no color at all.  Whatever the order, the
    cost is refused. -/
theorem orderFree_of_unpayable {cost : Cost} {group : List Part} (hgroup : group ∈ colorGroups cost)
    (h : ∀ color, IsColor color → .symbol color ∉ group) : OrderFree cost := by
  have hnever : ∀ pool : Pool, (∀ symbol ∈ pool, IsPoolSymbol symbol) →
      canPay pool cost = false := by
    intro pool hpool
    refine Bool.eq_false_iff.mpr fun hpaid => ?_
    have hcovered := covered_of_dischargeAll ((canPay_iff (markerless hpool) cost).mp hpaid).1
    obtain ⟨color, hcolor, hmem⟩ := hcovered.exists_mem hgroup
    exact h color (isColor_of_mem_poolColors hpool color hcolor) hmem
  intro pool pool' hpool hperm
  rw [hnever pool hpool, hnever pool' fun symbol hsymbol =>
    hpool symbol (hperm.mem_iff.mpr hsymbol)]

/-! ## Costs for which it does -/

/-- Whether a group lists a color. -/
def lists (color : String) (group : List Part) : Bool := group.contains (.symbol color)

theorem lists_iff {color : String} {group : List Part} :
    lists color group = true ↔ .symbol color ∈ group :=
  List.contains_iff_mem

/-- Whether a group lists one color and not the other. -/
def listsOnly (shared other : String) (group : List Part) : Bool :=
  lists shared group && !lists other group

/-- Colors in the order of the groups they are meant for discharge them: each finds its own group
    in front. -/
theorem dischargeAll_map {own : List Part → String} {groups : List (List Part)}
    (h : ∀ group ∈ groups, .symbol (own group) ∈ group) :
    dischargeAll groups (groups.map own) = [] := by
  induction groups with
  | nil => rfl
  | cons group rest ih =>
    obtain ⟨hgroup, hrest⟩ := List.forall_mem_cons.mp h
    rw [List.map_cons, dischargeAll_cons, discharge_cons_of_mem hgroup]
    exact ih hrest

/-- If there are no more colors than groups to cover, each has a group that lists it.  So no color
    is there more often than groups list it. -/
theorem Covered.count_le {groups : List (List Part)} {colors : List String}
    (h : Covered groups colors) (hlength : colors.length ≤ groups.length) (color : String) :
    colors.count color ≤ groups.countP (lists color) := by
  induction h with
  | nil colors =>
    obtain rfl := List.length_eq_zero_iff.mp (Nat.le_zero.mp hlength)
    exact Nat.le_refl 0
  | @cons group groups colors rest own listed given _ ih =>
    have hlen := given.length_eq
    simp only [List.length_cons] at hlen hlength
    have hrest := ih (by omega)
    rw [given.count_eq, List.count_cons, List.countP_cons]
    by_cases hown : own = color
    · subst hown
      rw [if_pos (beq_self_eq_true own), if_pos (lists_iff.mpr listed)]
      omega
    · rw [if_neg (mt eq_of_beq hown)]
      omega

/-- A color takes no more than one group, so fewer colors than groups leave some. -/
theorem length_dischargeAll (groups : List (List Part)) (colors : List String) :
    groups.length ≤ (dischargeAll groups colors).length + colors.length := by
  induction colors generalizing groups with
  | nil => exact Nat.le_refl _
  | cons color rest ih =>
    have hstep : groups.length - 1 ≤ (discharge groups color).length := List.le_length_eraseP
    have hrest := ih (discharge groups color)
    rw [dischargeAll_cons, List.length_cons]
    omega

/-- A group that does not list a color is passed over, as often as that color is spent. -/
theorem dischargeAll_cons_of_not_mem {group : List Part} {color : String}
    (h : .symbol color ∉ group) (groups : List (List Part)) (n : Nat) :
    dischargeAll (group :: groups) (List.replicate n color) =
      group :: dischargeAll groups (List.replicate n color) := by
  induction n generalizing groups with
  | zero => rfl
  | succ n ih =>
    rw [List.replicate_succ, dischargeAll_cons, dischargeAll_cons, discharge_cons_of_not_mem h]
    exact ih (discharge groups color)

theorem countP_dischargeAll_le (groups : List (List Part)) (colors : List String)
    (holds : List Part → Bool) :
    (dischargeAll groups colors).countP holds ≤ groups.countP holds :=
  (dischargeAll_sublist_self groups colors).countP_le

/-- **A shared color that is spent often enough reaches a group that lists the other color.** It
    is enough to have it once more than there are groups before with the shared color only.  By
    induction on the groups before: one that lists both colors is such a group itself, and one
    with the shared color only costs one of the shared color. -/
theorem countP_dischargeAll_lt {shared other : String} {group : List Part}
    (hshared : .symbol shared ∈ group) (hother : .symbol other ∈ group)
    (after : List (List Part)) (before : List (List Part)) {n : Nat}
    (hn : before.countP (listsOnly shared other) < n) :
    (dischargeAll (before ++ group :: after) (List.replicate n shared)).countP (lists other) <
      (before ++ group :: after).countP (lists other) := by
  induction before generalizing n with
  | nil =>
    obtain ⟨n, rfl⟩ := Nat.exists_eq_succ_of_ne_zero (Nat.ne_of_gt (Nat.lt_of_le_of_lt
      (Nat.zero_le _) hn))
    rw [List.replicate_succ, List.nil_append, dischargeAll_cons, discharge_cons_of_mem hshared,
      List.countP_cons_of_pos (lists_iff.mpr hother)]
    exact Nat.lt_succ_of_le (countP_dischargeAll_le after _ _)
  | cons first before ih =>
    rw [List.countP_cons] at hn
    rw [List.cons_append, List.countP_cons]
    by_cases hfirst : .symbol shared ∈ first
    · obtain ⟨n, rfl⟩ := Nat.exists_eq_succ_of_ne_zero (Nat.ne_of_gt (Nat.lt_of_le_of_lt
        (Nat.zero_le _) hn))
      rw [List.replicate_succ, dischargeAll_cons, discharge_cons_of_mem hfirst]
      have hlists : lists shared first = true := lists_iff.mpr hfirst
      by_cases hboth : lists other first = true
      · -- the shared color went to a group that lists the other one
        rw [if_pos hboth]
        exact Nat.lt_succ_of_le (countP_dischargeAll_le _ _ _)
      · -- it took one of the groups that are counted, so one of both is gone
        have hless : before.countP (listsOnly shared other) < n := by
          rw [listsOnly, hlists, Bool.eq_false_iff.mpr hboth] at hn
          exact Nat.lt_of_succ_lt_succ hn
        exact Nat.lt_add_right _ (ih hless)
    · have hlists : lists shared first = false :=
        Bool.eq_false_iff.mpr (mt lists_iff.mp hfirst)
      have hless : before.countP (listsOnly shared other) < n := by
        rw [listsOnly, hlists] at hn
        exact hn
      rw [dischargeAll_cons_of_not_mem hfirst, List.countP_cons]
      exact Nat.add_lt_add_right (ih hless) _

/-- The color meant for a group: the other color if it lists that, else the shared one, else any. -/
def meant (shared other : String) (any : List Part → String) (group : List Part) : String :=
  if lists other group then other else if lists shared group then shared else any group

section

variable {shared other : String} {any : List Part → String} {group : List Part}
  (hany : .symbol (any group) ∈ group)
include hany

/-- The color meant for a group is one that it lists. -/
theorem meant_listed : .symbol (meant shared other any group) ∈ group := by
  rw [meant]
  split
  · rename_i hother
    exact lists_iff.mp hother
  split
  · rename_i hshared
    exact lists_iff.mp hshared
  · exact hany

theorem meant_beq_other : (meant shared other any group == other) = lists other group := by
  refine Bool.eq_iff_iff.mpr ⟨fun h => ?_, fun h => ?_⟩
  · exact lists_iff.mpr (eq_of_beq h ▸ meant_listed hany)
  · rw [meant, if_pos h]
    exact beq_self_eq_true other

/-- The shared one is meant for those that list it without the other. -/
theorem meant_beq_shared (hne : other ≠ shared) :
    (meant shared other any group == shared) = listsOnly shared other group := by
  rw [listsOnly]
  by_cases hother : lists other group = true
  · rw [meant, if_pos hother, hother, Bool.not_true, Bool.and_false]
    exact beq_eq_false_iff_ne.mpr hne
  · rw [Bool.eq_false_iff.mpr hother, Bool.not_false, Bool.and_true]
    refine Bool.eq_iff_iff.mpr ⟨fun h => ?_, fun h => ?_⟩
    · exact lists_iff.mpr (eq_of_beq h ▸ meant_listed hany)
    · rw [meant, if_neg hother, if_pos h]
      exact beq_self_eq_true shared

end

/-- The colors meant for groups, in the order of the groups. -/
def allMeant (shared other : String) (any : List Part → String) (groups : List (List Part)) :
    List String :=
  groups.map (meant shared other any)

/-- The same colors with the shared one first. -/
def sharedFirst (shared other : String) (any : List Part → String) (groups : List (List Part)) :
    List String :=
  List.replicate ((allMeant shared other any groups).count shared) shared ++
    (allMeant shared other any groups).filter (· != shared)

/-- With the shared color first these are the same colors in another order. -/
theorem allMeant_perm (shared other : String) (any : List Part → String)
    (groups : List (List Part)) :
    (allMeant shared other any groups).Perm (sharedFirst shared other any groups) := by
  rw [sharedFirst, ← List.filter_beq]
  exact (List.filter_append_perm _ _).symm

section

variable {shared other : String} {any : List Part → String} {groups : List (List Part)}
  (hany : ∀ group ∈ groups, .symbol (any group) ∈ group)
include hany

/-- In the order of the groups they discharge them, each taking the group that it is meant for. -/
theorem dischargeAll_allMeant : dischargeAll groups (allMeant shared other any groups) = [] :=
  dischargeAll_map fun group hgroup => meant_listed (hany group hgroup)

/-- The shared color is there once for each group that lists it without the other. -/
theorem count_shared_allMeant (hne : other ≠ shared) :
    (allMeant shared other any groups).count shared = groups.countP (listsOnly shared other) := by
  rw [allMeant, List.count, List.countP_map]
  refine List.countP_congr fun group hgroup => ?_
  rw [Function.comp, meant_beq_shared (hany group hgroup) hne]

/-- The other color is there once for each group that lists it. -/
theorem count_other_allMeant :
    (allMeant shared other any groups).count other = groups.countP (lists other) := by
  rw [allMeant, List.count, List.countP_map]
  refine List.countP_congr fun group hgroup => ?_
  rw [Function.comp, meant_beq_other (hany group hgroup)]

/-- **Spending a shared color first can leave a group unpaid.** It does when an earlier group
    lists the other color as well and a later one does not: there are no more colors than groups,
    and one of the other color for each group that lists it.  The shared color reaches the earlier
    group, and one of the other color finds no group that is left. -/
theorem dischargeAll_sharedFirst {before after : List (List Part)} {earlier later : List Part}
    (hgroups : groups = before ++ earlier :: after) (hlater : later ∈ after)
    (hsharedEarlier : .symbol shared ∈ earlier) (hotherEarlier : .symbol other ∈ earlier)
    (hsharedLater : .symbol shared ∈ later) (hotherLater : .symbol other ∉ later) :
    dischargeAll groups (sharedFirst shared other any groups) ≠ [] := by
  intro hnil
  have hne : other ≠ shared := by
    rintro rfl
    exact hotherLater hsharedLater
  have hlength : (sharedFirst shared other any groups).length = groups.length := by
    rw [← (allMeant_perm shared other any groups).length_eq, allMeant, List.length_map]
  have hcount : ((allMeant shared other any groups).filter (· != shared)).count other =
      groups.countP (lists other) := by
    rw [List.count_filter (by simpa using hne), count_other_allMeant hany]
  -- the later group is one of those that list the shared color only
  have hpos : 0 < after.countP (listsOnly shared other) := by
    refine List.countP_pos_iff.mpr ⟨later, hlater, ?_⟩
    rw [listsOnly, lists_iff.mpr hsharedLater, Bool.eq_false_iff.mpr (mt lists_iff.mp hotherLater)]
    rfl
  have hoften : before.countP (listsOnly shared other) <
      (allMeant shared other any groups).count shared := by
    rw [count_shared_allMeant hany hne, hgroups, List.countP_append, List.countP_cons]
    omega
  have hfewer := countP_dischargeAll_lt hsharedEarlier hotherEarlier after before hoften
  rw [← hgroups] at hfewer
  have htaken := length_dischargeAll groups
    (List.replicate ((allMeant shared other any groups).count shared) shared)
  rw [sharedFirst, dischargeAll_append] at hnil
  rw [sharedFirst, List.length_append] at hlength
  have hle := (covered_of_dischargeAll hnil).count_le (by omega) other
  omega

end

/-- If the order of pools does not matter, neither does that of colors: the numbers can be paid
    with generic mana beside them, so that only the colors decide. -/
theorem dischargeAll_of_orderFree {cost : Cost} (h : OrderFree cost) {colors colors' : List String}
    (hcolors : ∀ color ∈ colors, IsColor color) (hperm : colors.Perm colors')
    (hnil : dischargeAll (colorGroups cost) colors = []) :
    dischargeAll (colorGroups cost) colors' = [] := by
  -- with an amount of one for each piece of generic mana that is owed, the colors only have to
  -- clear the groups
  let ones := List.replicate (owed (requirements cost)) "1"
  have hones : ∀ symbol ∈ ones, IsPoolSymbol symbol := by
    intro symbol hsymbol
    obtain rfl := List.eq_of_mem_replicate hsymbol
    exact (isPoolSymbol_single (c := '1')).mpr (Or.inr (by decide))
  have hcolors' : ∀ color ∈ colors', IsColor color := fun color hcolor =>
    hcolors color (hperm.mem_iff.mpr hcolor)
  have hpool : ∀ {colors : List String}, (∀ color ∈ colors, IsColor color) →
      ∀ symbol ∈ ones ++ colors, IsPoolSymbol symbol := fun hcolors =>
    List.forall_mem_append.mpr ⟨hones, fun color hcolor => (hcolors color hcolor).1⟩
  have hpoolColors : ∀ {colors : List String}, (∀ color ∈ colors, IsColor color) →
      poolColors (ones ++ colors) = colors := by
    intro colors hcolors
    rw [poolColors_append, poolColors_ones, poolColors_of_isColor hcolors, List.nil_append]
  have hpaid : canPay (ones ++ colors) cost = true := by
    refine (canPay_iff (markerless (hpool hcolors)) cost).mpr ⟨?_, ?_⟩
    · rw [hpoolColors hcolors]
      exact hnil
    · have hlength := length_dischargeAll (colorGroups cost) colors
      rw [hnil] at hlength
      rw [worth_append, worth_ones, worth, poolColors_of_isColor hcolors]
      simp only [List.length_nil] at hlength
      omega
  have hsame := h _ _ (hpool hcolors) (hperm.append_left ones)
  have hpaid' := (canPay_iff (markerless (hpool hcolors')) cost).mp (hsame.trans hpaid)
  rw [hpoolColors hcolors'] at hpaid'
  exact hpaid'.1

/-- **Order matters for costs that are not nested.** If every group lists a color, two orders of
    the colors that are meant for the groups pay differently: that of the groups discharges them
    all, and that with the shared color first does not. -/
theorem nested_of_orderFree {cost : Cost} (h : OrderFree cost)
    (hpayable : ∀ group ∈ colorGroups cost, ∃ color, IsColor color ∧ .symbol color ∈ group) :
    Nested IsColor (colorGroups cost) := by
  refine List.pairwise_iff_forall_sublist.mpr ?_
  intro earlier later hsublist shared other hisShared hisOther hsharedEarlier hsharedLater
    hotherEarlier
  refine Classical.byContradiction fun hotherLater => ?_
  -- every other group is given some color of its own
  have hexists : ∀ group, ∃ color, group ∈ colorGroups cost →
      IsColor color ∧ .symbol color ∈ group := by
    intro group
    by_cases hgroup : group ∈ colorGroups cost
    · exact (hpayable group hgroup).imp fun _ hcolor _ => hcolor
    · exact ⟨"", fun hmem => absurd hmem hgroup⟩
  obtain ⟨any, hany⟩ := Classical.skolem.mp hexists
  have hlisted : ∀ group ∈ colorGroups cost, .symbol (any group) ∈ group := fun group hgroup =>
    (hany group hgroup).2
  have hisColor : ∀ color ∈ allMeant shared other any (colorGroups cost), IsColor color := by
    intro color hcolor
    obtain ⟨group, hgroup, rfl⟩ := List.mem_map.mp hcolor
    rw [meant]
    split
    · exact hisOther
    split
    · exact hisShared
    · exact (hany group hgroup).1
  -- with the other color in its place the groups are cleared, so they are in any order of the
  -- colors
  have hspent := dischargeAll_of_orderFree h hisColor
    (allMeant_perm shared other any (colorGroups cost)) (dischargeAll_allMeant hlisted)
  -- but with the shared color first it takes the earlier group, and a group is left
  obtain ⟨front, back, hsplit, hearlier, hback⟩ := List.cons_sublist_iff.mp hsublist
  obtain ⟨before, middle, rfl⟩ := List.append_of_mem hearlier
  have hgroups : colorGroups cost = before ++ earlier :: (middle ++ back) := by
    rw [hsplit, List.append_assoc, List.cons_append]
  have hlater : later ∈ middle ++ back :=
    List.mem_append_right middle (List.singleton_sublist.mp hback)
  exact dischargeAll_sharedFirst hlisted hgroups hlater hsharedEarlier hotherEarlier hsharedLater
    hotherLater hspent

/-- **For which costs the order of a pool does not matter.**  Those with a group that no color pays,
    and those where, of two groups that share a color, the one that is tried first lists no color
    that the other lacks. -/
theorem orderFree_iff {cost : Cost} :
    OrderFree cost ↔
      (∃ group ∈ colorGroups cost, ∀ color, IsColor color → .symbol color ∉ group) ∨
      Nested IsColor (colorGroups cost) := by
  constructor
  · intro h
    refine Classical.or_iff_not_imp_left.mpr fun hnone => nested_of_orderFree h ?_
    intro group hgroup
    refine Classical.byContradiction fun hcolorless => hnone ⟨group, hgroup, ?_⟩
    exact fun color hcolor hmem => hcolorless ⟨color, hcolor, hmem⟩
  · rintro (⟨group, hgroup, hcolorless⟩ | hnested)
    · exact orderFree_of_unpayable hgroup hcolorless
    · exact orderFree_of_nested hnested

/-- It does not for groups of at most two parts: beside its mark such a group lists one color, so
    two that share it list the same. -/
theorem orderFree_of_length_le {cost : Cost} (h : ∀ group ∈ cost, group.length ≤ 2) :
    OrderFree cost := fun _ _ hpool hperm =>
  canPay_eq_of_perm (fun group hgroup _ => h group hgroup) (markerless hpool) hperm (.refl _)

end CardSearch.Mana
