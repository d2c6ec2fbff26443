import CardSearch.Proofs.Mana.Fusing
import CardSearch.Proofs.Mana.Unlimited

/-
  How far a run of digits counts as the number that it denotes.

  A text of a cost or of a pool may hold a run of digits of any length.  Such a run is an amount as
  long as its number has 64 bits (`amount?_of_isDigitRun`); a longer one is taken for a color that
  has the run for its name.

  1. **Replacing a symbol (`canPay_replace`)** — an amount may be replaced by whatever is worth as
     much: the colors that discharge a cost still do with one more among them.
  2. **Where it fails** — a run that is no amount is worth one mana.  So it is too little for a mark
     beside a `2` (`canPay_pair_iff`), and it does not pay for a mark beside another such run
     (`canPay_run_iff`).
  3. **The crux (`raise_iff`)** — hence a run in a pool may be replaced by one of a larger value
     exactly if that has 64 bits, or the run denoted at most one.
  4. **Costs (`canPayColors_runs_iff`)** — with unlimited generic mana every amount is paid, but a run
     that is no amount is asked for as a color.
-/

namespace CardSearch.Mana

/-! ## Runs of digits -/

/-- A run of digits. -/
def IsDigitRun (symbol : String) : Prop :=
  symbol.toList ≠ [] ∧ ∀ c ∈ symbol.toList, isDigit c = true

instance (symbol : String) : Decidable (IsDigitRun symbol) :=
  decidable_of_iff (symbol.toList ≠ [] ∧ symbol.toList.all isDigit = true)
    (and_congr_right fun _ => List.all_eq_true)

/-- The number that a run of digits denotes, whatever its length. -/
def denoted (run : String) : Nat := digitsValue run.toList

/-- **A run of digits is an amount if its number has 64 bits.** Zeros at its start do not count
    against it, as only the number is bounded. -/
theorem amount?_of_isDigitRun {run : String} (h : IsDigitRun run) :
    amount? run = if denoted run < Nat.pow 2 64 then some (denoted run) else none := by
  obtain ⟨hne, hdigits⟩ := h
  obtain ⟨c, rest, hrun⟩ := List.exists_cons_of_ne_nil hne
  have hread : natural? run.toList = some (denoted run) := natural?_of_forall hne hdigits
  have hc : isDigit c = true := hdigits c (by rw [hrun]; exact List.mem_cons_self)
  rw [hrun] at hread
  rw [amount?, unsigned64?, hrun, naturalBelow?_of_isDigit hc, hread, Option.filter_some]
  simp only [decide_eq_true_eq]

/-- A run that denotes few enough is the amount that it denotes. -/
theorem amount?_of_fits {run : String} (h : IsDigitRun run) (hfits : denoted run < Nat.pow 2 64) :
    amount? run = some (denoted run) := by
  rw [amount?_of_isDigitRun h, if_pos hfits]

theorem amount?_of_not_fits {run : String} (h : IsDigitRun run)
    (hlong : ¬ denoted run < Nat.pow 2 64) : amount? run = none := by
  rw [amount?_of_isDigitRun h, if_neg hlong]

/-- A run alone is the text of a pool, whatever number it denotes. -/
theorem parsePool_run {run : String} (h : IsDigitRun run) : parsePool run = some [run] := by
  have hsymbol : ∀ symbol ∈ [run], IsPoolSymbol symbol :=
    List.forall_mem_singleton.mpr (Or.inr h)
  have hshown : String.ofList (shown [run]) = run := by
    rw [shown, List.flatMap_singleton, String.ofList_toList]
  have hread := parsePool_symbols (List.cons_ne_nil _ _) hsymbol
  rw [hshown] at hread
  exact hread

/-- It can stand beside a mark in a cost, so that the cost asks for this very run. -/
theorem isCostGroup_marked {run : String} (h : IsDigitRun run) : IsCostGroup ["x", run] := by
  have hpart : isCostPart run.toList = true := by
    obtain ⟨hne, hdigits⟩ := h
    obtain ⟨c, rest, hrun⟩ := List.exists_cons_of_ne_nil hne
    rw [hrun] at hdigits ⊢
    obtain ⟨hc, hrest⟩ := List.forall_mem_cons.mp hdigits
    have htaken : rest.takeWhile isDigit = rest := List.takeWhile_eq_self_iff.mpr hrest
    rw [← htaken]
    exact isCostPart_run hc rest
  refine ⟨List.cons_ne_nil _ _, Nat.le_refl 2, ?_⟩
  rw [List.forall_mem_cons, List.forall_mem_singleton]
  exact ⟨by decide, hpart⟩

/-! ## Replacing a symbol -/

section

variable {small large : String} {before after : Pool} {cost : Cost}

/-- **An amount may be replaced by what is worth as much**, be it an amount or a color.  A further
    color spoils nothing for those after it, and the worth does not fall. -/
theorem canPay_replace {n : Nat}
    (hpool : ∀ symbol ∈ before ++ large :: after, inLowerCase symbol ∉ variableMarkers)
    (hsmall : amount? small = some n) (hworth : n ≤ worth [large])
    (h : canPay (before ++ small :: after) cost = true) :
    canPay (before ++ large :: after) cost = true := by
  have hmarker : inLowerCase small ∉ variableMarkers := by
    intro hmem
    have hnone := amount?_of_marker hmem
    rw [amount?_inLowerCase, hsmall] at hnone
    cases hnone
  have hpool' : ∀ symbol ∈ before ++ small :: after, inLowerCase symbol ∉ variableMarkers := by
    intro symbol hsymbol
    rcases List.mem_append.mp hsymbol with hbefore | hmem
    · exact hpool symbol (List.mem_append_left _ hbefore)
    rcases List.mem_cons.mp hmem with rfl | hafter
    · exact hmarker
    · exact hpool symbol (List.mem_append_right _ (List.mem_cons_of_mem _ hafter))
  obtain ⟨hcolors, hpaid⟩ := (canPay_iff hpool' cost).mp h
  refine (canPay_iff hpool cost).mpr ⟨?_, ?_⟩
  · rw [poolColors_append, poolColors_cons_of_some after hsmall] at hcolors
    rw [List.append_cons, poolColors_append, poolColors_append, List.append_assoc]
    exact dischargeAll_insert hcolors (poolColors [large])
  · rw [worth_append, worth_cons_of_some after hsmall] at hpaid
    rw [List.append_cons, worth_append, worth_append]
    omega

end

/-- A mark beside another part is paid as all groups of two parts are, so by counting. -/
theorem canPay_marked_iff {pool : Pool} (hpool : ∀ symbol ∈ pool, IsPoolSymbol symbol)
    (second : String) : canPay pool [["x", second]] = true ↔ Affordable pool [["x", second]] :=
  canPay_iff_conditions (List.forall_mem_singleton.mpr fun _ => Nat.le_refl 2) (markerless hpool)

/-- Beside a `2` it asks for two mana of any kind, which any two symbols and any amount of two
    are. -/
theorem canPay_pair_iff {pool : Pool} (hpool : ∀ symbol ∈ pool, IsPoolSymbol symbol) :
    canPay pool [["x", "2"]] = true ↔ 2 ≤ worth pool := by
  have hcolors : colorsAsked [["x", "2"]] = [] := by decide
  have htwos : (seconds [["x", "2"]]).count "2" = 1 := by decide
  rw [canPay_marked_iff hpool, worth]
  constructor
  · rintro ⟨_, _, hgeneric⟩
    rw [hcolors, htwos] at hgeneric
    exact hgeneric
  · intro hworth
    refine ⟨List.forall_mem_singleton.mpr (Nat.succ_ne_self 1), ?_, ?_⟩
    · intro second hsecond htwo
      exact absurd (List.mem_singleton.mp hsecond) htwo
    · rw [hcolors, htwos]
      exact hworth

/-- Beside a run that is no amount it asks for that very run, as it would for a color. -/
theorem canPay_run_iff {run other : String} (hrun : IsColor run) (hother : IsColor other) :
    canPay [other] [["x", run]] = true ↔ other = run := by
  have htwo : run ≠ "2" := by
    rintro rfl
    exact absurd hrun.2 (by decide)
  have hseconds : seconds [["x", run]] = [run] := rfl
  have hlower : [other].map inLowerCase = [other] := by
    rw [List.map_singleton, inLowerCase_of_isPoolSymbol hother.1]
  rw [canPay_marked_iff (List.forall_mem_singleton.mpr hother.1)]
  constructor
  · -- the only color of the pool is the run that the group asks for
    rintro ⟨_, hcolors, _⟩
    obtain ⟨_, hcount⟩ := hcolors run List.mem_cons_self htwo
    rw [hseconds, hlower, List.count_singleton_self] at hcount
    have hmem : run ∈ [other] := List.count_pos_iff.mp hcount
    exact (List.mem_singleton.mp hmem).symm
  · rintro rfl
    refine ⟨List.forall_mem_singleton.mpr (Nat.succ_ne_self 1), ?_, ?_⟩
    · intro second hsecond _
      obtain rfl := List.mem_singleton.mp hsecond
      rw [hseconds, hlower]
      exact ⟨hrun.2, Nat.le_refl _⟩
    · rw [hseconds, List.count_eq_zero_of_not_mem (by simp [htwo.symm])]
      exact Nat.zero_le _

/-! ## Pools -/

/-- Replacing a run by another never spoils a payment, for the costs and pools that texts hold. -/
def Raises (small large : String) : Prop :=
  ∀ costText poolText cost before after, parseCost costText = some cost →
    parsePool poolText = some (before ++ small :: after) →
    canPay (before ++ small :: after) cost = true → canPay (before ++ large :: after) cost = true

/-- A run that is an amount may be replaced by one that is worth as much, for every cost and pool
    of texts: none of these pools holds a mark. -/
theorem raises_of_worth {small large : String} {n : Nat} (hlarge : IsDigitRun large)
    (hamount : amount? small = some n) (hworth : n ≤ worth [large]) : Raises small large := by
  intro _ poolText cost before after _ hpool hpaid
  have hsymbols := isPoolSymbol_of_parsePool hpool
  have hreplaced : ∀ symbol ∈ before ++ large :: after, IsPoolSymbol symbol := by
    obtain ⟨hbefore, hrest⟩ := List.forall_mem_append.mp hsymbols
    obtain ⟨_, hafter⟩ := List.forall_mem_cons.mp hrest
    exact List.forall_mem_append.mpr
      ⟨hbefore, List.forall_mem_cons.mpr ⟨Or.inr hlarge, hafter⟩⟩
  exact canPay_replace (markerless hreplaced) hamount hworth hpaid

section

variable {small large : String} (hsmall : IsDigitRun small) (hlarge : IsDigitRun large)
include hsmall hlarge

/-- An amount of two or more pays a mark beside a `2`, and a run that is no amount does not, for
    it is worth one. -/
theorem not_raises_of_amount (hfits : denoted small < Nat.pow 2 64)
    (hlong : ¬ denoted large < Nat.pow 2 64) (htwo : 2 ≤ denoted small) :
    ¬ Raises small large := by
  intro hraises
  have hgroup : IsCostGroup ["x", "2"] := isCostGroup_marked (by decide)
  have hcost := parseCost_spelled (List.cons_ne_nil _ _) (List.forall_mem_singleton.mpr hgroup)
  have hsmallPool : ∀ symbol ∈ [small], IsPoolSymbol symbol :=
    List.forall_mem_singleton.mpr (Or.inr hsmall)
  have hlargePool : ∀ symbol ∈ [large], IsPoolSymbol symbol :=
    List.forall_mem_singleton.mpr (Or.inr hlarge)
  have hpaid : canPay [small] [["x", "2"]] = true := by
    rw [canPay_pair_iff hsmallPool, worth_cons_of_some [] (amount?_of_fits hsmall hfits)]
    exact Nat.le_add_right_of_le htwo
  have hreplaced := hraises _ small _ [] [] hcost (parsePool_run hsmall) hpaid
  rw [List.nil_append, canPay_pair_iff hlargePool,
    worth_cons_of_none [] (amount?_of_not_fits hlarge hlong)] at hreplaced
  exact absurd hreplaced (by decide)

/-- A run that is no amount pays a mark beside itself, and no other run does.  So none of them can
    stand for another. -/
theorem not_raises_of_long (hlong : ¬ denoted small < Nat.pow 2 64)
    (hlong' : ¬ denoted large < Nat.pow 2 64) (hne : large ≠ small) : ¬ Raises small large := by
  intro hraises
  have hsmallColor : IsColor small := ⟨Or.inr hsmall, amount?_of_not_fits hsmall hlong⟩
  have hlargeColor : IsColor large := ⟨Or.inr hlarge, amount?_of_not_fits hlarge hlong'⟩
  have hgroup : IsCostGroup ["x", small] := isCostGroup_marked hsmall
  have hcost := parseCost_spelled (List.cons_ne_nil _ _) (List.forall_mem_singleton.mpr hgroup)
  have hpaid : canPay [small] [["x", small]] = true :=
    (canPay_run_iff hsmallColor hsmallColor).mpr rfl
  have hreplaced := hraises _ small _ [] [] hcost (parsePool_run hsmall) hpaid
  exact hne ((canPay_run_iff hsmallColor hlargeColor).mp hreplaced)

/-- **A run in a pool may be replaced by one of a larger value exactly if that one has 64 bits,
    or the run denotes at most one.** What is worth at most one can be replaced by any color.  For
    all other runs one of two costs tells them from the larger one. -/
theorem raise_iff (hless : denoted small < denoted large) :
    Raises small large ↔ denoted large < Nat.pow 2 64 ∨ denoted small ≤ 1 := by
  constructor
  · intro hraises
    refine Classical.byContradiction fun hneither => ?_
    obtain ⟨hlong, hmore⟩ := not_or.mp hneither
    by_cases hfits : denoted small < Nat.pow 2 64
    · exact not_raises_of_amount hsmall hlarge hfits hlong (by omega) hraises
    · have hne : large ≠ small := by
        rintro rfl
        exact Nat.lt_irrefl _ hless
      exact not_raises_of_long hsmall hlarge hfits hlong hne hraises
  · intro hcase
    have hpos : 1 < Nat.pow 2 64 := by decide
    have hfits : denoted small < Nat.pow 2 64 := by omega
    refine raises_of_worth hlarge (amount?_of_fits hsmall hfits) ?_
    by_cases hlong : denoted large < Nat.pow 2 64
    · rw [worth_cons_of_some [] (amount?_of_fits hlarge hlong)]
      omega
    · rw [worth_cons_of_none [] (amount?_of_not_fits hlarge hlong)]
      omega

end

/-! ## Costs of amounts -/

/-- **With unlimited generic mana a cost of runs is paid if each run that is no amount is in the
    pool.** The others are dropped before the pool is looked at. -/
theorem canPayColors_runs_iff {cost : Cost}
    (hcost : ∀ group ∈ cost, ∃ run, IsDigitRun run ∧ group = [run]) (pool : Pool) :
    canPayColors pool cost = true ↔
      ∀ run, [run] ∈ cost →
        denoted run < Nat.pow 2 64 ∨ ∃ symbol ∈ pool, inLowerCase symbol = run := by
  -- a group of one run asks for a color exactly if the run is too long for an amount
  have hneeds : ∀ run, [run] ∈ cost →
      (needsColor [run] = true ↔ ¬ denoted run < Nat.pow 2 64) := by
    intro run hmem
    obtain ⟨own, hrun, hsame⟩ := hcost [run] hmem
    obtain rfl := List.singleton_inj.mp hsame
    have hmarker : run ∉ variableMarkers := not_mem_markers_of_isPoolSymbol (Or.inr hrun)
    rw [needsColor, amount?_of_isDigitRun hrun]
    by_cases hfits : denoted run < Nat.pow 2 64
    · simp [hfits]
    · simp [hfits, hmarker]
  rw [canPayColors_iff_covered]
  constructor
  · intro hcovered run hmem
    by_cases hfits : denoted run < Nat.pow 2 64
    · exact Or.inl hfits
    · obtain ⟨symbol, hsymbol, hlisted⟩ := hcovered [run] hmem ((hneeds run hmem).mpr hfits)
      exact Or.inr ⟨symbol, hsymbol, List.mem_singleton.mp hlisted⟩
  · intro hruns group hmem hgroup
    obtain ⟨run, _, rfl⟩ := hcost group hmem
    rcases hruns run hmem with hfits | ⟨symbol, hsymbol, hlower⟩
    · exact absurd hfits ((hneeds run hmem).mp hgroup)
    · exact ⟨symbol, hsymbol, List.mem_singleton.mpr hlower⟩

/-- **How far a run of digits counts as the number that it denotes.**
    (1) A run in a pool may be replaced by one of a larger value, for the costs and pools that texts
    hold, exactly if the larger one has 64 bits or the smaller denotes at most one.
    (2) A cost of runs is paid with unlimited generic mana exactly if each run of more than 64 bits is
    a symbol of the pool,
    (3) and so by every pool exactly if all its runs have 64 bits. -/
theorem digitRun_counts (small large text : String) :
    (IsDigitRun small → IsDigitRun large → denoted small < denoted large →
      ((∀ costText poolText cost before after, parseCost costText = some cost →
          parsePool poolText = some (before ++ small :: after) →
          canPay (before ++ small :: after) cost = true →
          canPay (before ++ large :: after) cost = true) ↔
        denoted large < Nat.pow 2 64 ∨ denoted small ≤ 1)) ∧
    ∀ cost, parseCost text = some cost →
      (∀ group ∈ cost, ∃ run, IsDigitRun run ∧ group = [run]) →
      (∀ pool, canPayColors pool cost = true ↔ ∀ run, [run] ∈ cost →
        denoted run < Nat.pow 2 64 ∨ ∃ symbol ∈ pool, inLowerCase symbol = run) ∧
      ((∀ pool, canPayColors pool cost = true) ↔
        ∀ run, [run] ∈ cost → denoted run < Nat.pow 2 64) := by
  refine ⟨fun hsmall hlarge hless => raise_iff hsmall hlarge hless, ?_⟩
  intro cost _ hcost
  refine ⟨canPayColors_runs_iff hcost, ?_⟩
  constructor
  · intro hpaid run hmem
    -- an empty pool has nothing for a run that is no amount
    rcases (canPayColors_runs_iff hcost []).mp (hpaid []) run hmem with hfits | ⟨_, hsymbol, _⟩
    · exact hfits
    · cases hsymbol
  · intro hfits pool
    exact (canPayColors_runs_iff hcost pool).mpr fun run hmem => Or.inl (hfits run hmem)

/-- The greatest number of 64 bits still counts, also with zeros before it, and as a cost it is
    dropped. -/
theorem digitRun_counts_greatest :
    (parseCost "\x7bx/2\x7d" = some [["x", "2"]] ∧ parsePool "w7" = some ["w", "7"] ∧
      canPay ["w", "7"] [["x", "2"]] = true ∧
      canPay ["w", "0018446744073709551615"] [["x", "2"]] = true) ∧
    parseCost "\x7b18446744073709551615\x7d7" = some [["18446744073709551615"], ["7"]] ∧
      ∀ pool, canPayColors pool [["18446744073709551615"], ["7"]] = true := by
  obtain ⟨hraise, hcosts⟩ :=
    digitRun_counts "7" "0018446744073709551615" "\x7b18446744073709551615\x7d7"
  have hpair : parseCost "\x7bx/2\x7d" = some [["x", "2"]] := by decide +kernel
  have hpool : parsePool "w7" = some ["w", "7"] := by decide +kernel
  have hpaid : canPay ["w", "7"] [["x", "2"]] = true :=
    (canPay_pair_iff (isPoolSymbol_of_parsePool hpool)).mpr (by decide)
  have hreplaced : canPay ["w", "0018446744073709551615"] [["x", "2"]] = true :=
    (hraise (by decide) (by decide) (by decide)).mpr (Or.inl (by decide)) _ _ _ ["w"] []
      hpair hpool hpaid
  have hread : parseCost "\x7b18446744073709551615\x7d7" =
      some [["18446744073709551615"], ["7"]] := by decide +kernel
  have hruns : ∀ group ∈ [["18446744073709551615"], ["7"]],
      ∃ run, IsDigitRun run ∧ group = [run] := by
    intro group hgroup
    rcases List.mem_cons.mp hgroup with rfl | hgroup
    · exact ⟨_, by decide, rfl⟩
    · exact ⟨"7", by decide, List.mem_singleton.mp hgroup⟩
  refine ⟨⟨hpair, hpool, hpaid, hreplaced⟩, hread, (hcosts _ hread hruns).2.mpr ?_⟩
  intro run hrun
  rcases List.mem_cons.mp hrun with hrun | hrun
  · obtain rfl := List.singleton_inj.mp hrun
    decide
  · obtain rfl := List.singleton_inj.mp (List.mem_singleton.mp hrun)
    decide

/-- A run of more than 64 bits pays less than `2` does, and as a cost it is not paid: in both
    places it is a color of its own. -/
theorem canPay_longRun :
    (denoted "2" < denoted "18446744073709551617" ∧
      parseCost "\x7bx/2\x7d" = some [["x", "2"]] ∧
      parsePool "2" = some ["2"] ∧
      parsePool "18446744073709551617" = some ["18446744073709551617"] ∧
      canPay ["2"] [["x", "2"]] = true ∧
      canPay ["18446744073709551617"] [["x", "2"]] = false) ∧
    parseCost "18446744073709551616" = some [["18446744073709551616"]] ∧
      canPayColors ["2"] [["18446744073709551616"]] = false := by
  have hpool : parsePool "2" = some ["2"] := parsePool_run (by decide)
  have hlongPool : parsePool "18446744073709551617" = some ["18446744073709551617"] :=
    parsePool_run (by decide)
  have hpaid : canPay ["2"] [["x", "2"]] = true :=
    (canPay_pair_iff (isPoolSymbol_of_parsePool hpool)).mpr (by decide)
  have hunpaid : canPay ["18446744073709551617"] [["x", "2"]] = false := by
    refine Bool.eq_false_iff.mpr fun hpays => ?_
    exact absurd ((canPay_pair_iff (isPoolSymbol_of_parsePool hlongPool)).mp hpays) (by decide)
  exact ⟨⟨by decide, by decide +kernel, hpool, hlongPool, hpaid, hunpaid⟩, by decide +kernel,
    by decide⟩

end CardSearch.Mana
