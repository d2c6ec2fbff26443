import CardSearch.Proofs.Distinct
import CardSearch.Proofs.Mana.Case
import CardSearch.Proofs.Query.Counters
import CardSearch.Proofs.Query.Dependence
import CardSearch.Proofs.Query.Pairing

/-
  The case of cost symbols in queries.

  The fields for costs, pools, categories and the devotion read the cost of a card.  Costs and pools
  are compared with its groups, which are in lower case; the devotion and two of the categories look
  at the symbols as they are stored.

  1. **Costs (`exists_cost_iff`)** — a query asks for the whole of a cost exactly if each group has one
     or two different parts and a cost text can hold them.
  2. **Cards (`number_lowerCost`, `holds_lowerCost`)** — of the numbers only the devotion depends on
     the case, and of the categories the hybrids and the Phyrexian cards.
  3. **The crux (`alike_lowerCost`)** — so no condition depends on it, if these do not and a marker in
     another case hides nothing that can be asked for.
  4. **Queries that tell (`Indistinct.test_eq`)** — whatever a condition tests can be asked for: the
     devotion and the categories, the whole of a cost, and what a pool pays.
  5. **The result (`caseFree_iff_indistinct`)** — so the cases are told apart exactly where one of
     these differs; a capital color letter is enough (`devotion_capital`).
-/

namespace CardSearch

/-- A card with its cost symbols in lower case. -/
def Card.lowerCost (card : Card) : Card :=
  { card with
    printing := card.printing.map fun p =>
      { p with parsedCost := p.parsedCost.map Mana.lowerSymbol } }

namespace Query

open Mana (Disguised lowerSymbol normalizeCost)

/-! ## Costs -/

/-- Up to two different parts that a cost text can hold. -/
def IsNameable (group : Mana.Group) : Prop :=
  group.eraseDups.length ≤ 2 ∧ ∀ part ∈ group, Mana.isCostPart part.toList = true

/-- A cost that some query asks for. -/
def Nameable (cost : Mana.Cost) : Prop := cost ≠ [] ∧ ∀ group ∈ cost, IsNameable group

/-- A group has the parts of one that a text can hold, so it can be named, however often it
    repeats them. -/
theorem isNameable_of_sameParts {group other : Mana.Group} (hother : Mana.IsCostGroup other)
    (hsame : SameParts group other) : IsNameable group := by
  refine ⟨?_, fun part hpart => hother.isCostPart part ((hsame part).mp hpart)⟩
  rw [length_eraseDups, sameParts_iff.mp hsame]
  exact Nat.le_trans (List.toFinset_card_le other) hother.length_le

/-- Its parts without repetitions are such a group. -/
theorem isCostGroup_eraseDups {group : Mana.Group} (hne : group ≠ []) (h : IsNameable group) :
    Mana.IsCostGroup group.eraseDups := by
  refine ⟨fun hnil => ?_, h.1, fun part hpart => h.2 part (List.mem_eraseDups.mp hpart)⟩
  obtain ⟨part, rest, rfl⟩ := List.exists_cons_of_ne_nil hne
  have hpart : part ∈ (part :: rest).eraseDups := List.mem_eraseDups.mpr List.mem_cons_self
  rw [hnil] at hpart
  cases hpart

/-- Of two equal costs each group of the one has its parts in a group of the other. -/
theorem exists_of_sameCost {a b : Mana.Cost} (h : sameCost a b = true) :
    ∀ group ∈ a, ∃ other ∈ b, SameParts group other := by
  intro group hgroup
  have hmem := (sameCost_iff_perm.mp h).mem_iff.mp (List.mem_map_of_mem hgroup)
  obtain ⟨other, hother, hset⟩ := List.mem_map.mp hmem
  exact ⟨other, hother, sameParts_iff.mpr hset.symm⟩

theorem isCostGroup_of_parseCost {text : String} {value : Mana.Cost}
    (h : Mana.parseCost text = some value) : ∀ group ∈ value, Mana.IsCostGroup group :=
  Mana.isCostGroup_of_costFrom (Mana.parseCost_eq_some_iff.mp h).2

/-- **Which costs are asked for as a whole.** The query spells every group once, without its
    repetitions; and a group of more than two parts, or with a part that ends a group, is in no
    text. -/
theorem exists_cost_iff {cost : Mana.Cost} (hne : ∀ group ∈ cost, group ≠ []) :
    (∃ text value, Mana.parseCost text = some value ∧ sameCost cost value = true) ↔
      Nameable cost := by
  constructor
  · rintro ⟨text, value, hvalue, hsame⟩
    refine ⟨?_, fun group hgroup => ?_⟩
    · rintro rfl
      have hnil := (sameCost_iff_perm.mp hsame).length_eq
      rw [List.map_nil, List.length_nil, List.length_map] at hnil
      exact (Mana.parseCost_eq_some_iff.mp hvalue).1 (List.length_eq_zero_iff.mp hnil.symm)
    · obtain ⟨other, hother, hparts⟩ := exists_of_sameCost hsame group hgroup
      exact isNameable_of_sameParts (isCostGroup_of_parseCost hvalue other hother) hparts
  · rintro ⟨hcost, hgroups⟩
    -- the query spells every group once without its repetitions
    refine ⟨_, cost.map List.eraseDups, Mana.parseCost_spelled ?_ ?_, ?_⟩
    · rwa [ne_eq, List.map_eq_nil_iff]
    · intro group hgroup
      obtain ⟨own, hown, rfl⟩ := List.mem_map.mp hgroup
      exact isCostGroup_eraseDups (hne own hown) (hgroups own hown)
    · have hsets : (cost.map List.eraseDups).map List.toFinset = cost.map List.toFinset := by
        rw [List.map_map]
        refine List.map_congr_left fun group _ => ?_
        ext part
        simp
      rw [sameCost_iff_perm, hsets]

section

variable {symbols : List String} {text : String} {value : Mana.Cost}
  (hvalue : Mana.parseCost text = some value)
include hvalue

theorem not_sameParts_marker : ∀ group ∈ value, ¬ SameParts group Mana.markerGroup := by
  intro group hgroup hsame
  have hpart : "split" ∈ group := (hsame "split").mpr List.mem_cons_self
  have hread := (isCostGroup_of_parseCost hvalue group hgroup).isCostPart "split" hpart
  exact absurd hread (by decide)

/-- A cost has a group of a query in either case, for the costs differ in groups of markers only,
    and no query has one. -/
theorem includesCost_lower :
    includesCost value (normalizeCost (symbols.map lowerSymbol)) =
      includesCost value (normalizeCost symbols) := by
  rw [Bool.eq_iff_iff, includesCost_iff, includesCost_iff]
  refine forall_congr' fun group => imp_congr_right fun hgroup => ?_
  constructor
  · rintro ⟨other, hother, hsame⟩
    exact ⟨other, (Mana.mem_normalizeCost_iff symbols).mpr (Or.inl hother), hsame⟩
  · rintro ⟨other, hother, hsame⟩
    rcases (Mana.mem_normalizeCost_iff symbols).mp hother with hlower | ⟨_, rfl⟩
    · exact ⟨other, hlower, hsame⟩
    · exact absurd hsame (not_sameParts_marker hvalue group hgroup)

/-- A cost with a marker in another case is no cost of a query, as the marker stays a group of
    it. -/
theorem sameCost_of_disguised (h : Disguised symbols) :
    sameCost (normalizeCost symbols) value = false := by
  refine Bool.eq_false_iff.mpr fun hsame => ?_
  obtain ⟨other, hother, hparts⟩ := exists_of_sameCost hsame Mana.markerGroup
    ((Mana.mem_normalizeCost_iff symbols).mpr (Or.inr ⟨h, rfl⟩))
  exact not_sameParts_marker hvalue other hother fun part => (hparts part).symm

/-- So a query for a whole cost tells the cases apart only if it could ask for the cost without
    the marker. -/
theorem sameCost_lower
    (hmarker : Disguised symbols → ¬ Nameable (normalizeCost (symbols.map lowerSymbol))) :
    sameCost (normalizeCost (symbols.map lowerSymbol)) value =
      sameCost (normalizeCost symbols) value := by
  by_cases hdisguised : Disguised symbols
  · rw [sameCost_of_disguised hvalue hdisguised]
    refine Bool.eq_false_iff.mpr fun hsame => hmarker hdisguised ?_
    exact (exists_cost_iff fun _ => Mana.ne_nil_of_mem_normalizeCost).mp ⟨text, value, hvalue, hsame⟩
  · rw [Mana.normalizeCost_lower_eq hdisguised]

end

/-- And a pool does only if it could pay that cost; with the marker no pool can. -/
theorem canPayColors_lower {symbols : List String} {text : String} {pool : Mana.Pool}
    (hpool : Mana.parsePool text = some pool)
    (hmarker : Disguised symbols → ¬ Mana.Castable (normalizeCost (symbols.map lowerSymbol))) :
    Mana.canPayColors pool (normalizeCost (symbols.map lowerSymbol)) =
      Mana.canPayColors pool (normalizeCost symbols) := by
  by_cases hdisguised : Disguised symbols
  · rw [Mana.canPayColors_of_disguised hdisguised (Mana.isPoolSymbol_of_parsePool hpool)]
    refine Bool.eq_false_iff.mpr fun hpaid => hmarker hdisguised ?_
    exact Mana.exists_pool_iff.mp ⟨text, pool, hpool, hpaid⟩
  · rw [Mana.normalizeCost_lower_eq hdisguised]

/-! ## Cards -/

/-- Two cards that no query tells apart. -/
def Indistinct (a b : Card) : Prop :=
  ∀ text filter, Filter.ofText text = .ok filter → passes filter a = passes filter b

/-- Nothing that queries read depends on the case of the card's cost symbols: neither the devotion nor
    the two categories do, and a marker in another case hides neither a cost that a query can ask for
    nor one that a pool can pay. -/
structure CaseFree (card : Card) : Prop where
  devotion : ∀ color, card.lowerCost.devotion color = card.devotion color
  hybrid : Category.hybrid.holds card.lowerCost = Category.hybrid.holds card
  phyrexian : Category.phyrexian.holds card.lowerCost = Category.phyrexian.holds card
  unnamed : Disguised card.cost → ¬ Nameable (normalizeCost card.lowerCost.cost)
  uncastable : Disguised card.cost → ¬ Mana.Castable (normalizeCost card.lowerCost.cost)

/-- The fields that read the cost of a card. -/
def Field.readsCost : Field → Bool
  | .cost | .castable | .category | .devotion _ => true
  | _ => false

section

variable (card : Card)

theorem cost_lowerCost : card.lowerCost.cost = card.cost.map lowerSymbol := by
  obtain ⟨id, status, finish, cmc, typeLine, colors, rarity, tags, notes, printing⟩ := card
  cases printing <;> rfl

/-- To the other fields a card is the same. -/
theorem agrees_lowerCost {field : Field} (h : field.readsCost = false) :
    field.Agrees card.lowerCost card := by
  obtain ⟨id, status, finish, cmc, typeLine, colors, rarity, tags, notes, printing⟩ := card
  cases field with
  | cost | castable | category | devotion => cases h
  | oracle => cases printing <;> exact ⟨rfl, rfl, rfl⟩
  | legality => cases printing <;> exact ⟨rfl, rfl⟩
  | _ => cases printing <;> rfl

/-- A sign that is no letter stands in a symbol in either case, since lower case neither makes
    one nor takes it away. -/
theorem mentions_lowerSymbol {c : Char} (hc : c.toNat < 65) (symbol : String) :
    Category.mentions (lowerSymbol symbol) (String.ofList [c]) =
      Category.mentions symbol (String.ofList [c]) := by
  have hmem : c ∈ Text.lowerAscii symbol.toList ↔ c ∈ symbol.toList := by
    rw [Text.lowerAscii, List.mem_map]
    constructor
    · rintro ⟨d, hd, rfl⟩
      rcases Text.toLower_cases d with ⟨_, _, _⟩ | ⟨_, hkept⟩
      · omega
      · rwa [hkept]
    · exact fun hmem => ⟨c, hmem, (Text.isSmall_of_toNat_le (by omega)).2⟩
  rw [Bool.eq_iff_iff, Category.mentions, Category.mentions, Text.occurs_iff, Text.occurs_iff,
    lowerSymbol, String.toList_ofList, String.toList_ofList, List.singleton_infix_iff,
    List.singleton_infix_iff, hmem]

variable {card}

/-- **Only two categories depend on the case.** The others look at other attributes, or at signs
    that are no letters. -/
theorem holds_lowerCost
    (hhybrid : Category.hybrid.holds card.lowerCost = Category.hybrid.holds card)
    (hphyrexian : Category.phyrexian.holds card.lowerCost = Category.phyrexian.holds card)
    (category : Category) : category.holds card.lowerCost = category.holds card := by
  have hdash : ∀ symbol, Category.mentions (lowerSymbol symbol) "-" = Category.mentions symbol "-" :=
    mentions_lowerSymbol (c := '-') (by decide)
  have htwo : ∀ symbol, Category.mentions (lowerSymbol symbol) "2" = Category.mentions symbol "2" :=
    mentions_lowerSymbol (c := '2') (by decide)
  obtain ⟨id, status, finish, cmc, typeLine, colors, rarity, tags, notes, printing⟩ := card
  cases printing with
  | none => rfl
  | some p =>
    cases category with
    | hybrid => exact hhybrid
    | phyrexian => exact hphyrexian
    | gold =>
      -- these two look at the symbols of the cost for a dash or for a two
      show (_ && (p.parsedCost.map lowerSymbol).all (!Category.mentions · "-")) = (_ && _)
      rw [List.all_map]
      exact congrArg _ (List.all_congr rfl fun symbol => congrArg (!·) (hdash symbol))
    | twobrid =>
      show (p.parsedCost.map lowerSymbol).any _ = _
      rw [List.any_map]
      exact List.any_congr rfl fun symbol => congrArg₂ (· && ·) (hdash symbol) (htwo symbol)
    | _ => rfl

/-- **Only the devotion depends on the case**, of all the numbers. -/
theorem number_lowerCost (h : ∀ color, card.lowerCost.devotion color = card.devotion color)
    {field : Field} {read : Card → Option Number} (hread : field.number? = some read) :
    read card.lowerCost = read card := by
  cases hreads : field.readsCost with
  | false => exact number_congr hread (agrees_lowerCost card hreads)
  | true =>
    cases field with
    | devotion color =>
      obtain rfl := Option.some.inj hread
      exact congrArg (fun n => some (Number.ofNat n)) (h color)
    | cost | castable | category => cases hread
    | _ => cases hreads

/-! ## Conditions -/

theorem alike_of_unread (leaf : Condition)
    (h : ∀ field ∈ Node.fieldsOf leaf, field.readsCost = false) :
    Alike card.lowerCost card (conditionTest leaf.field leaf.operator leaf.value) :=
  alike_conditionTest fun field hfield => agrees_lowerCost card (h field hfield)

/-- The test of a cost that is read from a text.  By cases on the operator, of which some ask for
    the whole cost and some for its groups. -/
theorem alike_costTest {text : String} {value : Mana.Cost} (hvalue : Mana.parseCost text = some value)
    (h : Disguised card.cost → ¬ Nameable (normalizeCost card.lowerCost.cost))
    (operator : Operator) :
    Alike card.lowerCost card (conditionTest .cost operator (.manaCost value)) := by
  rw [cost_lowerCost] at h
  have hincludes : includesCost value (normalizeCost card.lowerCost.cost) =
      includesCost value (normalizeCost card.cost) := by
    rw [cost_lowerCost, includesCost_lower hvalue]
  have hsame : sameCost (normalizeCost card.lowerCost.cost) value =
      sameCost (normalizeCost card.cost) value := by
    rw [cost_lowerCost, sameCost_lower hvalue h]
  cases operator with
  | colon => exact alike_ok hincludes
  | equal => exact alike_ok hsame
  | notEqual | lessGreater => exact alike_ok (congrArg (!·) hsame)
  | _ => exact alike_error _

/-- The test of a pool that is read from a text.  With unlimited generic mana nothing depends on
    the case, and otherwise what the pool pays. -/
theorem alike_castableTest {text : String} {pool : Mana.Pool}
    (hpool : Mana.parsePool text = some pool)
    (h : Disguised card.cost → ¬ Mana.Castable (normalizeCost card.lowerCost.cost))
    (operator : Operator) :
    Alike card.lowerCost card (conditionTest .castable operator (.manaPool pool)) := by
  rw [cost_lowerCost] at h
  have hpays : Mana.canPay pool (normalizeCost card.lowerCost.cost) =
      Mana.canPay pool (normalizeCost card.cost) := by
    rw [cost_lowerCost, Mana.canPay_lower]
  have hcolors : Mana.canPayColors pool (normalizeCost card.lowerCost.cost) =
      Mana.canPayColors pool (normalizeCost card.cost) := by
    rw [cost_lowerCost, canPayColors_lower hpool h]
  cases operator with
  | equal => exact alike_ok hpays
  | notEqual | lessGreater => exact alike_ok (congrArg (!·) hpays)
  | colon | lessEqual => exact alike_ok hcolors
  | greater => exact alike_ok (congrArg (!·) hcolors)
  | _ => exact alike_error _

/-- **A condition that a query can state does not depend on the case.** By cases on its field:
    one of the four that read the cost, or one of the others. -/
theorem alike_lowerCost (h : CaseFree card) {leaf : Condition} (hleaf : leaf.WellFormed) :
    Alike card.lowerCost card (conditionTest leaf.field leaf.operator leaf.value) := by
  obtain ⟨field, operator, negated, value⟩ := leaf
  show Alike card.lowerCost card (conditionTest field operator value)
  cases value with
  | field other =>
    exact alike_comparison (fun _ => number_lowerCost h.devotion)
      (fun _ => number_lowerCost h.devotion) operator
  | integer n => exact alike_integer (fun _ => number_lowerCost h.devotion) operator n
  | manaCost value =>
    cases field with
    | cost =>
      obtain ⟨_, raw, _, hvalue⟩ | ⟨hname, _⟩ := hleaf
      · obtain ⟨read, hread, hcost⟩ := Option.map_eq_some_iff.mp hvalue
        obtain rfl := Value.manaCost.inj hcost
        exact alike_costTest hread h.unnamed operator
      · cases hname
    | _ => exact alike_error _
  | manaPool pool =>
    cases field with
    | castable =>
      obtain ⟨_, raw, _, hvalue⟩ | ⟨hname, _⟩ := hleaf
      · obtain ⟨read, hread, hpool⟩ := Option.map_eq_some_iff.mp hvalue
        obtain rfl := Value.manaPool.inj hpool
        exact alike_castableTest hread h.uncastable operator
      · cases hname
    | _ => exact alike_error _
  | category c =>
    cases field with
    | category => exact alike_read (holds_lowerCost h.hybrid h.phyrexian c)
    | _ => exact alike_error _
  | _ =>
    -- no field that reads the cost is tested against the other kinds of values
    cases hreads : field.readsCost with
    | false =>
      exact alike_of_unread ⟨field, operator, negated, _⟩ (List.forall_mem_singleton.mpr hreads)
    | true =>
      cases field with
      | cost | castable | category | devotion => exact alike_error _
      | _ => cases hreads

/-- **No query tells a card apart from its lower case**, if nothing that queries read depends on
    it: each of its conditions has the same answer, and so has the tree. -/
theorem indistinct_of_caseFree (h : CaseFree card) : Indistinct card.lowerCost card := by
  intro text filter haccepted
  cases filter with
  | none => rfl
  | some used =>
    obtain ⟨_, hparse, htest⟩ := ofText_eq_some_iff.mp haccepted
    refine test_eq_of_truth htest fun leaf hleaf => (alike_lowerCost h ?_).truth_eq
    exact wellFormed_of_mem_leaves (wellFormed_of_parse hparse) leaf hleaf

/-! ## Queries that tell -/

/-- A test that can be asked for has the same answer on cards that no query tells apart, since a
    query of this one condition is its test. -/
theorem Indistinct.test_eq {a b : Card} (h : Indistinct a b) {field : Field} {operator : Operator}
    {raw : String} {value : Value} {test : Test} (hoperator : operator ∈ field.operators)
    (hne : raw ≠ "") (hvalue : Value.ofText? field raw = some value)
    (htest : conditionTest field operator value = .ok test) : test a = test b := by
  obtain ⟨text, filter, hfilter, hpasses⟩ := exists_filter_of_value hoperator hne hvalue htest
  rw [← hpasses, ← hpasses]
  exact h text (some filter) hfilter

/-- A symbol counts once for a color at most, so the devotion is bounded by the number of
    symbols. -/
theorem devotion_le (card : Card) (color : Color) : card.devotion color ≤ card.cost.length := by
  rw [Card.devotion]
  refine Nat.le_trans (List.length_filter_le _ _) ?_
  split
  · rw [Card.afterSplit]
    split
    · exact Nat.le_refl _
    · rename_i rest hdrop
      have hsuffix : rest <:+ card.cost :=
        (List.suffix_cons _ rest).trans (hdrop ▸ List.dropWhile_suffix _)
      exact hsuffix.length_le
  · exact Nat.le_refl _

/-- **The devotion can be asked for**, where it is exact as a number: the query asks one card for
    the devotion of the other. -/
theorem Indistinct.devotion_eq {a b : Card} (h : Indistinct a b) {color : Color}
    (ha : a.devotion color < Nat.pow 2 53) (hb : b.devotion color < Nat.pow 2 53) :
    a.devotion color = b.devotion color := by
  have hsmall : ∀ n : Nat, n < Nat.pow 2 53 → (n : Int).natAbs.log2 < 1024 := fun n hn =>
    Nat.lt_trans (Number.log2_lt_of_lt (by decide) hn) (by decide)
  have hexact : ∀ n : Nat, n < Nat.pow 2 53 → Number.nearestInt (n : Int) = n := fun n hn =>
    Number.nearestInt_of_lt (show (n : Int).natAbs < _ from hn)
  have hliteral : signed64? (digits (b.devotion color)) = some (b.devotion color : Int) :=
    signed?_digits (Nat.lt_trans hb (by decide))
  have hne : String.ofList (digits (b.devotion color)) ≠ "" := by
    rw [ne_eq, String.ofList_eq_empty_iff]
    exact digits_ne_nil _
  -- the query asks for the devotion that the second card has
  have htest : conditionTest (.devotion color) .equal (.integer (b.devotion color)) =
      .ok fun card => ordering .equal (Number.ofInt (card.devotion color))
        (Number.ofInt (b.devotion color)) := rfl
  have hoperator : Operator.equal ∈ (Field.devotion color).operators :=
    (by decide : Operator.equal ∈ Operator.all)
  have hsame := h.test_eq hoperator hne (ofText?_literal rfl hliteral) htest
  have hown := (ordering_ofInt_iff (hsmall _ hb) (hsmall _ hb) .equal).mpr rfl
  have hequal : Number.nearestInt (a.devotion color) = Number.nearestInt (b.devotion color) :=
    (ordering_ofInt_iff (hsmall _ ha) (hsmall _ hb) .equal).mp (hsame.trans hown)
  rw [hexact _ ha, hexact _ hb] at hequal
  exact Int.ofNat.inj hequal

/-- Every category can be asked for by its name. -/
theorem Indistinct.holds_eq {a b : Card} (h : Indistinct a b) (category : Category) :
    category.holds a = category.holds b := by
  have hne : category.keyword ≠ "" := by cases category <;> decide
  have hvalue : Value.ofText? .category category.keyword = some (.category category) := by
    show (Category.ofKeyword? category.keyword).map Value.category = _
    rw [Category.ofKeyword?_keyword, Option.map_some]
  have htest : conditionTest .category .colon (.category category) =
      .ok fun card => category.holds card == true := rfl
  have hsame := h.test_eq (by decide) hne hvalue htest
  rwa [beq_true, beq_true] at hsame

/-- A whole cost can be asked for, if its groups can. -/
theorem Indistinct.sameCost_eq {a b : Card} (h : Indistinct a b) {text : String}
    {value : Mana.Cost} (hvalue : Mana.parseCost text = some value) :
    sameCost (normalizeCost a.cost) value = sameCost (normalizeCost b.cost) value := by
  have hne : text ≠ "" := by
    rintro rfl
    cases hvalue
  have hread : Value.ofText? .cost text = some (.manaCost value) := by
    show (Mana.parseCost text).map Value.manaCost = _
    rw [hvalue, Option.map_some]
  exact h.test_eq (by decide : Operator.equal ∈ Field.cost.operators) hne hread rfl

/-- So can what a pool pays. -/
theorem Indistinct.canPayColors_eq {a b : Card} (h : Indistinct a b) {text : String}
    {pool : Mana.Pool} (hpool : Mana.parsePool text = some pool) :
    Mana.canPayColors pool (normalizeCost a.cost) =
      Mana.canPayColors pool (normalizeCost b.cost) := by
  have hnone : Mana.parsePool "" = none := by decide +kernel
  have hne : text ≠ "" := by
    rintro rfl
    rw [hnone] at hpool
    cases hpool
  have hread : Value.ofText? .castable text = some (.manaPool pool) := by
    show (Mana.parsePool text).map Value.manaPool = _
    rw [hpool, Option.map_some]
  exact h.test_eq (by decide : Operator.colon ∈ Field.castable.operators) hne hread rfl

/-- **What queries read, some query asks for**, so cards that no query tells apart agree in all
    of it. -/
theorem caseFree_of_indistinct (hlength : card.cost.length < Nat.pow 2 53)
    (h : Indistinct card.lowerCost card) : CaseFree card := by
  refine ⟨fun color => ?_, h.holds_eq .hybrid, h.holds_eq .phyrexian, ?_, ?_⟩
  · refine h.devotion_eq (Nat.lt_of_le_of_lt (devotion_le _ color) ?_)
      (Nat.lt_of_le_of_lt (devotion_le _ color) hlength)
    rwa [cost_lowerCost, List.length_map]
  · -- some query asks for the cost in lower case, which the marker keeps the card itself from having
    intro hdisguised hnameable
    obtain ⟨text, value, hvalue, hsame⟩ :=
      (exists_cost_iff fun _ => Mana.ne_nil_of_mem_normalizeCost).mpr hnameable
    rw [h.sameCost_eq hvalue, sameCost_of_disguised hvalue hdisguised] at hsame
    cases hsame
  · intro hdisguised hcastable
    obtain ⟨text, pool, hpool, hpaid⟩ := Mana.exists_pool_iff.mpr hcastable
    rw [h.canPayColors_eq hpool, Mana.canPayColors_of_disguised hdisguised
      (Mana.isPoolSymbol_of_parsePool hpool)] at hpaid
    cases hpaid

end

/-- **For which cards the case of cost symbols does not matter.**
    (1) No query tells a card apart from the card with its symbols in lower case if the devotion to
    each color, the hybrids and the Phyrexian symbols are the same in lower case, and if the card has
    no marker in another case, or else neither a query for a cost nor a pool can ask for the rest.
    (2) Otherwise some query does, unless there are 2⁵³ symbols or more, of which the devotion is
    rounded. -/
theorem caseFree_iff_indistinct (card : Card) :
    (CaseFree card → Indistinct card.lowerCost card) ∧
      (card.cost.length < Nat.pow 2 53 → (Indistinct card.lowerCost card ↔ CaseFree card)) :=
  ⟨indistinct_of_caseFree,
    fun hlength => ⟨caseFree_of_indistinct hlength, indistinct_of_caseFree⟩⟩

/-- Capital amounts beside a small color letter are read alike; a capital color letter is not. -/
theorem caseFree_iff_indistinct_hydra :
    let hydra : Card := .ofPrinting { name := "Hydra", parsedCost := ["X", "X", "g"] }
    let growth : Card := .ofPrinting { name := "Growth", parsedCost := ["G"] }
    hydra.lowerCost ≠ hydra ∧ Indistinct hydra.lowerCost hydra ∧
      growth.cost.length < Nat.pow 2 53 ∧ ¬ Indistinct growth.lowerCost growth := by
  intro hydra growth
  have hplain : ¬ Disguised hydra.cost := by
    unfold Disguised
    decide
  have hfree : CaseFree hydra :=
    ⟨fun color => by cases color <;> decide, by decide, by decide,
      fun hdisguised => absurd hdisguised hplain, fun hdisguised => absurd hdisguised hplain⟩
  have hlength : growth.cost.length < Nat.pow 2 53 := by decide
  have hcounts : ¬ CaseFree growth := fun hfree => absurd (hfree.devotion .green) (by decide)
  obtain ⟨hsame, _⟩ := caseFree_iff_indistinct hydra
  obtain ⟨_, hexact⟩ := caseFree_iff_indistinct growth
  exact ⟨by decide, hsame hfree, hlength, fun h => hcounts ((hexact hlength).mp h)⟩

/-- **A capital color letter does not count**: the card is not found by its devotion, and in lower
    case it is. -/
theorem devotion_capital :
    let card : Card := .ofPrinting { name := "Growth", parsedCost := ["G"] }
    ∃ filter, Filter.ofText "dg=1" = .ok (some filter) ∧
      passes (some filter) card.lowerCost = true ∧ passes (some filter) card = false := by
  intro card
  have hcondition : condition "dg" .equal "1" =
      .ok ⟨.devotion .green, .equal, false, .integer 1⟩ :=
    condition_eq_ok_iff.mpr
      ⟨.devotion .green, .integer 1, by decide +kernel, by decide, by decide, by decide +kernel, rfl⟩
  have hcuts : Cuts "dg=1".toList [.comparison "dg" .equal "1"] :=
    .token rfl (.term (by decide) rfl rfl rfl) .nil
  exact ⟨_, ofText_of_condition hcuts hcondition rfl, by decide +kernel, by decide +kernel⟩

end Query

end CardSearch
