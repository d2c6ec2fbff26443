import CardSearch.Proofs.Distinct
import CardSearch.Proofs.Query.Complement
import CardSearch.Proofs.Query.Leaves

/-
  What the answer of a query can depend on.

  A filter lists the fields of its query.  Two cards that are the same to each of these fields are the
  same to the filter, whatever else is on them: no price changes the answer of a query that mentions
  no price.  The list is made from the tree and the test by binding each condition to an attribute of
  the card, and nothing but this module ties the two together.

  1. **Attributes (`Field.Agrees`)** — what a field reads, as two cards that agree on it.  Rules text
     is also searched with the card's references to itself marked, so it reads the name and the type
     line as well; formats are read together with those in which the card is restricted; a category
     reads the whole printing, and the finish that the copy itself states.
  2. **Tests (`Alike`)** — what is tested of such an attribute has the same answer on both cards.
  3. **The crux (`alike_conditionTest`)** — a condition reads what its field reads, and the field that
     it is compared with.  The cases are those of the values, and of the fields that are tested
     against such a value.
  4. **Trees (`holds_congr`)** — the list of a tree is made by a walk that goes on from what it met
     before (`foldl_push`), and has the fields of all conditions (`mem_fieldsUsed`).  A tree holds of
     both cards if the same of its conditions are true of them.
  5. **The result (`passes_eq_of_agrees`)** — said of the queries that are accepted.
-/

namespace CardSearch.Query

/-! ## Attributes -/

/-- Two cards agree on all that a field reads. -/
def Field.Agrees (a b : Card) : Field → Prop
  | .name => a.name = b.name
  | .oracle => a.oracleText = b.oracleText ∧ a.name = b.name ∧ a.typeLine = b.typeLine
  | .typeLine => a.typeLine = b.typeLine
  | .artist => a.artist = b.artist
  | .manaValue => a.manaValue = b.manaValue
  | .cost => a.cost = b.cost
  | .castable => a.cost = b.cost
  | .color => a.colorIdentity = b.colorIdentity
  | .identity => a.printedColorIdentity = b.printedColorIdentity
  | .set => a.setCode = b.setCode
  | .power => a.power = b.power
  | .toughness => a.toughness = b.toughness
  | .loyalty => a.loyalty = b.loyalty
  | .rarity => a.rarity = b.rarity
  | .tag => a.tags = b.tags
  | .status => a.status = b.status
  | .finish => a.finish = b.finish
  | .price => a.price = b.price
  | .priceFoil => a.priceFoil = b.priceFoil
  | .priceEur => a.priceEur = b.priceEur
  | .priceTix => a.priceTix = b.priceTix
  | .legality => a.legalIn = b.legalIn ∧ a.restrictedIn = b.restrictedIn
  | .banned => a.bannedIn = b.bannedIn
  | .restricted => a.restrictedIn = b.restrictedIn
  | .category => a.printing = b.printing ∧ a.ownFinish = b.ownFinish
  | .devotion _ => a.cost = b.cost ∧ a.layout = b.layout
  | .released => a.released = b.released
  | .elo => a.elo = b.elo
  | .popularity => a.popularity = b.popularity
  | .cubes => a.cubeCount = b.cubeCount
  | .picks => a.pickCount = b.pickCount
  | .words => a.wordCount = b.wordCount
  | .oracleId => a.oracleId = b.oracleId
  | .printingId => a.id = b.id
  | .layout => a.layout = b.layout

section

variable {a b : Card}

/-! ## What is computed from attributes -/

/-- The short name of a legend depends on its name and its type line. -/
theorem shortName?_congr (hname : a.name = b.name) (htype : a.typeLine = b.typeLine) :
    shortName? a = shortName? b := by
  unfold shortName?
  rw [hname, htype]

theorem selfMarked_congr (htext : a.oracleText = b.oracleText) (hname : a.name = b.name)
    (htype : a.typeLine = b.typeLine) : selfMarked a = selfMarked b := by
  unfold selfMarked
  rw [htext, hname, shortName?_congr hname htype]

theorem devotion_congr (hcost : a.cost = b.cost) (hlayout : a.layout = b.layout) (color : Color) :
    a.devotion color = b.devotion color := by
  unfold Card.devotion
  rw [hcost, hlayout]

/-- Only the categories of finishes look at the copy. -/
theorem holdsFor_congr (h : a.ownFinish = b.ownFinish) (category : Category) (p : Printing) :
    category.holdsFor a p = category.holdsFor b p := by
  have hfinish : ∀ finish printed : String,
      Category.hasFinish a p finish printed = Category.hasFinish b p finish printed := by
    intro finish printed
    unfold Category.hasFinish
    rw [h]
  cases category with
  | foil | nonFoil | etched => exact hfinish _ _
  | _ => rfl

/-- A category depends on the printing and on the finish of the copy. -/
theorem holds_category_congr (hprinting : a.printing = b.printing)
    (hfinish : a.ownFinish = b.ownFinish) (category : Category) :
    category.holds a = category.holds b := by
  unfold Category.holds
  rw [hprinting]
  cases b.printing with
  | none => rfl
  | some p => exact holdsFor_congr hfinish category p

/-- A copy that states no finish is not tested as one that states the default. -/
example :
    let p : Printing := { name := "Forest", finishes := ["foil"] }
    ({ printing := some p } : Card).finish =
        ({ ownFinish := some "Non-foil", printing := some p } : Card).finish ∧
      Category.foil.holds { printing := some p } = true ∧
      Category.foil.holds { ownFinish := some "Non-foil", printing := some p } = false := by
  decide

/-- The number of a field is all that it reads, so cards that agree on the field have the same. -/
theorem number_congr {field : Field} {read : Card → Option Number}
    (hread : field.number? = some read) (hagree : field.Agrees a b) : read a = read b := by
  cases field with
  | manaValue =>
    obtain rfl := Option.some.inj hread
    exact congrArg some hagree
  | power | toughness | loyalty | price | priceFoil | priceEur | priceTix | elo | popularity =>
    obtain rfl := Option.some.inj hread
    exact hagree
  | cubes | picks | words =>
    obtain rfl := Option.some.inj hread
    exact congrArg (fun n => some (Number.ofNat n)) hagree
  | devotion color =>
    obtain rfl := Option.some.inj hread
    obtain ⟨hcost, hlayout⟩ := hagree
    exact congrArg (fun n => some (Number.ofNat n)) (devotion_congr hcost hlayout color)
  | _ => cases hread

/-! ## Tests -/

/-- The test, if there is one, gives the same answer on two cards. -/
def Alike (a b : Card) (outcome : Except Error Test) : Prop :=
  ∀ test, outcome = .ok test → test a = test b

theorem alike_error (e : Error) : Alike a b (.error e) := by
  intro test htest
  cases htest

theorem alike_ok {test : Test} (h : test a = test b) : Alike a b (.ok test) := by
  intro other hother
  obtain rfl := Except.ok.inj hother
  exact h

/-- So is a test that is made from an outcome which no card has a part in. -/
theorem alike_bind {α : Type} {outcome : Except Error α} {next : α → Test}
    (h : ∀ x, next x a = next x b) : Alike a b (outcome >>= fun x => .ok (next x)) := by
  cases outcome with
  | error e => exact alike_error e
  | ok x => exact alike_ok (h x)

/-- **A family of tests is bound to an attribute on which the cards agree.** All but a few
    conditions are of this form. -/
theorem alike_read {α : Type} {family : Except Error (α → Bool)} {read : Card → α}
    (h : read a = read b) : Alike a b (family >>= fun test => .ok fun card => test (read card)) :=
  alike_bind fun test => congrArg test h

/-- Two numbers of the card are compared. -/
theorem alike_comparison {field other : Field}
    (hfield : ∀ read, field.number? = some read → read a = read b)
    (hother : ∀ read, other.number? = some read → read a = read b) (operator : Operator) :
    Alike a b (conditionTest field operator (.field other)) := by
  cases hleft : field.number? with
  | none =>
    simp only [conditionTest, hleft]
    exact alike_error _
  | some left =>
    cases hright : other.number? with
    | none =>
      simp only [conditionTest, hleft, hright]
      exact alike_error _
    | some right =>
      simp only [conditionTest, hleft, hright]
      refine alike_ok ?_
      rw [hfield left hleft, hother right hright]

/-- A number of the card is compared with an integer, or refused if the field is no number. -/
theorem alike_integer {field : Field}
    (hfield : ∀ read, field.number? = some read → read a = read b) (operator : Operator) (n : Int) :
    Alike a b (conditionTest field operator (.integer n)) := by
  cases hnumber : field.number? with
  | none =>
    simp only [conditionTest, hnumber]
    exact alike_error _
  | some read =>
    simp only [conditionTest, hnumber]
    exact alike_ok (congrArg (orderingOrMissing operator · _) (hfield read hnumber))

/-- A number is compared with a value that does not depend on the card. -/
theorem alike_number {field : Field} {read : Card → Option Number}
    (hread : field.number? = some read) (hagree : field.Agrees a b) (operator : Operator)
    (value : Option Number) :
    Alike a b (.ok fun card => orderingOrMissing operator (read card) value) :=
  alike_ok (congrArg (orderingOrMissing operator · value) (number_congr hread hagree))

/-- Rules text is tested as written and as marked, and the cards agree on both. -/
theorem alike_oracleTest (hagree : Field.Agrees a b .oracle) (operator : Operator)
    (value : String) : Alike a b (oracleTest operator value) := by
  obtain ⟨htext, hname, htype⟩ := hagree
  rw [oracleTest_eq_bind]
  refine alike_bind fun test => ?_
  rw [htext, selfMarked_congr htext hname htype]

/-- A legality is looked up in the table of the printing. -/
theorem alike_legalityTest (hagree : Field.Agrees a b .legality) (operator : Operator)
    (format : String) : Alike a b (legalityTest operator format) := by
  obtain ⟨hlegal, hrestricted⟩ := hagree
  unfold legalityTest
  by_cases hvintage : Text.lowerAscii format.toList == "vintage".toList
  · simp only [if_pos hvintage]
    have hboth : a.legalIn ++ a.restrictedIn = b.legalIn ++ b.restrictedIn := by
      rw [hlegal, hrestricted]
    exact alike_read hboth
  · simp only [if_neg hvintage]
    exact alike_read hlegal

/-! ## Conditions -/

theorem field_mem_fieldsOf (leaf : Condition) : leaf.field ∈ Node.fieldsOf leaf := by
  obtain ⟨field, operator, negated, value⟩ := leaf
  cases value <;> exact List.mem_cons_self

/-- **A condition reads what its fields read.** By cases on the value and then on the field, as
    the table of tests is; each test is bound to an attribute that the field reads. -/
theorem alike_conditionTest {leaf : Condition}
    (hagree : ∀ field ∈ Node.fieldsOf leaf, field.Agrees a b) :
    Alike a b (conditionTest leaf.field leaf.operator leaf.value) := by
  obtain ⟨field, operator, negated, value⟩ := leaf
  show Alike a b (conditionTest field operator value)
  have hown : field.Agrees a b := hagree field (field_mem_fieldsOf _)
  -- for each kind of value, the fields that take it; all others give an error for every card
  cases value with
  | field other =>
    have hother : other.Agrees a b := hagree other (List.mem_cons_of_mem _ List.mem_cons_self)
    exact alike_comparison (fun _ hread => number_congr hread hown)
      (fun _ hread => number_congr hread hother) operator
  | text s =>
    cases field with
    | name | typeLine | artist | tag | banned | restricted => exact alike_read hown
    | oracle => exact alike_oracleTest hown operator s
    | legality => exact alike_legalityTest hown operator s
    | _ => exact alike_error _
  | identifier s =>
    cases field with
    | set | layout => exact alike_read (congrArg lowered hown)
    | oracleId | printingId => exact alike_read hown
    | _ => exact alike_error _
  | status s =>
    cases field with
    | status => exact alike_read hown
    | _ => exact alike_error _
  | finish s =>
    cases field with
    | finish => exact alike_read hown
    | _ => exact alike_error _
  | colors codes =>
    cases field with
    | color | identity => exact alike_ok (congrArg (setTest _ codes) hown)
    | _ => exact alike_error _
  | count n =>
    cases field with
    | color | identity =>
      exact alike_ok (congrArg (fun codes => ordering operator (setSize codes) n) hown)
    | _ => exact alike_error _
  | rarity s =>
    cases field with
    | rarity => exact alike_read hown
    | _ => exact alike_error _
  | manaCost cost =>
    cases field with
    | cost => exact alike_read hown
    | _ => exact alike_error _
  | manaPool pool =>
    cases field with
    | castable => exact alike_read hown
    | _ => exact alike_error _
  | category c =>
    cases field with
    | category => exact alike_read (holds_category_congr hown.1 hown.2 c)
    | _ => exact alike_error _
  | date d =>
    cases field with
    | released => exact alike_ok (congrArg (orderingOrMissing operator · (some d)) hown)
    | _ => exact alike_error _
  | halfInteger x =>
    cases field with
    | manaValue | power | toughness => exact alike_number rfl hown operator (some x)
    | _ => exact alike_error _
  | dollars x =>
    cases field with
    | price | priceFoil | priceEur | priceTix => exact alike_number rfl hown operator (some x)
    | _ => exact alike_error _
  | integer n => exact alike_integer (fun _ hread => number_congr hread hown) operator n

/-- A condition whose test has the same answer is true of both cards or of neither. -/
theorem Alike.truth_eq {leaf : Condition}
    (h : Alike a b (conditionTest leaf.field leaf.operator leaf.value)) :
    Condition.truth a leaf = Condition.truth b leaf := by
  rw [← test?_alone] at h
  unfold Condition.truth
  cases htest : leaf.alone.test? with
  | error e => rfl
  | ok test => exact h test htest

/-- So a condition is true of both cards or of neither, if they agree on its fields. -/
theorem truth_congr {leaf : Condition} (hagree : ∀ field ∈ Node.fieldsOf leaf, field.Agrees a b) :
    Condition.truth a leaf = Condition.truth b leaf :=
  (alike_conditionTest hagree).truth_eq

end

/-! ## Trees -/

mutual

/-- **A tree is walked from condition to condition**, whatever was met before it.  By induction on
    the tree, together with the further members of groups. -/
theorem collect_eq_foldl : ∀ (node : Node) (met : List Field),
    node.collect met = (node.leaves.flatMap Node.fieldsOf).foldl Node.push met
  | .condition leaf, met => by
    rw [Node.collect, Node.leaves, List.flatMap_singleton]
  | .group _ first rest, met => by
    rw [Node.collect, Node.leaves, List.flatMap_append, List.foldl_append, collect_eq_foldl first,
      collectRest_eq_foldl rest]

/-- The further members of a group are walked after what was met in those before. -/
theorem collectRest_eq_foldl : ∀ (members : List (Connective × Node)) (met : List Field),
    Node.collectRest met members =
      ((Node.leavesOf members).flatMap Node.fieldsOf).foldl Node.push met
  | [], met => rfl
  | (_, node) :: rest, met => by
    rw [Node.collectRest, Node.leavesOf, List.flatMap_append, List.foldl_append,
      collect_eq_foldl node, collectRest_eq_foldl rest]

end

/-- A list of fields, followed by those of other fields that it does not have. -/
def withNew (listed more : List Field) : List Field := listed ++ more.filter (· ∉ listed)

theorem push_eq_append {met : List Field} {field : Field} (h : field ∉ met) :
    Node.push met field = met ++ [field] :=
  if_neg (by simpa using h)

theorem push_eq_self {met : List Field} {field : Field} (h : field ∈ met) :
    Node.push met field = met :=
  if_pos (by simpa using h)

/-- **What a walk adds to the fields met before it** are those that are new, each once.  The walk is
    taken back from its end, where all the fields before the last are met. -/
theorem foldl_push (met fields : List Field) :
    fields.foldl Node.push met = withNew met fields.eraseDups := by
  induction fields using List.reverseRecOn with
  | nil => exact (List.append_nil met).symm
  | append_singleton fields field ih =>
    have hmem : field ∈ withNew met fields.eraseDups ↔ field ∈ met ∨ field ∈ fields := by
      simp only [withNew, List.mem_append, List.mem_filter, List.mem_eraseDups, decide_eq_true_eq]
      tauto
    rw [List.foldl_concat, ih, eraseDups_concat]
    by_cases hfields : field ∈ fields
    · rw [if_pos hfields, push_eq_self (hmem.mpr (Or.inr hfields))]
    · rw [if_neg hfields]
      by_cases hmet : field ∈ met
      · rw [push_eq_self (hmem.mpr (Or.inl hmet)), withNew, withNew, List.filter_append,
          List.filter_cons_of_neg (by simpa using hmet), List.filter_nil, List.append_nil]
      · rw [push_eq_append fun h => (hmem.mp h).elim hmet hfields, withNew, withNew,
          List.filter_append, List.filter_cons_of_pos (by simpa using hmet), List.filter_nil,
          List.append_assoc]

theorem fieldsUsed_eq_eraseDups (node : Node) :
    node.fieldsUsed = (node.leaves.flatMap Node.fieldsOf).eraseDups := by
  rw [Node.fieldsUsed, collect_eq_foldl, foldl_push, withNew, List.nil_append]
  exact List.filter_eq_self.mpr fun _ _ => rfl

/-- **No field of a condition is missing** among the fields that are used. -/
theorem mem_fieldsUsed {node : Node} {field : Field} :
    field ∈ node.fieldsUsed ↔ ∃ leaf ∈ node.leaves, field ∈ Node.fieldsOf leaf := by
  rw [fieldsUsed_eq_eraseDups, List.mem_eraseDups, List.mem_flatMap]

mutual

/-- **A tree is decided by the truth of its conditions.** By induction on the tree; no connective
    looks at anything else. -/
theorem holds_congr {truth other : Condition → Bool} : ∀ node : Node,
    (∀ leaf ∈ node.leaves, truth leaf = other leaf) → node.holds truth = node.holds other
  | .condition leaf, h => by
    have hleaf : truth leaf = other leaf := h leaf List.mem_cons_self
    rw [Node.holds, Node.holds, hleaf]
  | .group negated first rest, h => by
    have hfirst := holds_congr first fun leaf hleaf => h leaf (List.mem_append_left _ hleaf)
    have hrest := joinAll_congr rest fun leaf hleaf => h leaf (List.mem_append_right _ hleaf)
    rw [Node.holds, Node.holds, hfirst, hrest]

/-- So are the further members of a group, after whatever was read before them. -/
theorem joinAll_congr {truth other : Condition → Bool} : ∀ members : List (Connective × Node),
    (∀ leaf ∈ Node.leavesOf members, truth leaf = other leaf) →
      ∀ left, Node.joinAll truth left members = Node.joinAll other left members
  | [], _, left => rfl
  | (connective, node) :: rest, h, left => by
    have hnode := holds_congr node fun leaf hleaf => h leaf (List.mem_append_left _ hleaf)
    have hrest := joinAll_congr rest fun leaf hleaf => h leaf (List.mem_append_right _ hleaf)
    rw [Node.joinAll, Node.joinAll, hnode, hrest]

end

theorem test_eq_of_truth {node : Node} {test : Test} (htest : node.test? = .ok test) {a b : Card}
    (h : ∀ leaf ∈ node.leaves, Condition.truth a leaf = Condition.truth b leaf) :
    test a = test b := by
  rw [test?_eq_verdict] at htest
  obtain ⟨_, rfl⟩ := verdict_eq_ok_iff.mp htest
  exact holds_congr node h

/-- The test of any tree, also of one that no text is read as: cards that agree on the fields
    that it uses have the same truth of each condition. -/
theorem test_eq_of_agrees {node : Node} {test : Test} (htest : node.test? = .ok test) {a b : Card}
    (hagree : ∀ field ∈ node.fieldsUsed, field.Agrees a b) : test a = test b := by
  refine test_eq_of_truth htest fun leaf hleaf => truth_congr fun field hfield => ?_
  exact hagree field (mem_fieldsUsed.mpr ⟨leaf, hleaf, hfield⟩)

/-- **A query depends on the fields that it uses.**  Two cards that agree on all that these fields
    read either both pass its filter or both do not. -/
theorem passes_eq_of_agrees {text : String} {filter : Option Filter}
    (haccepted : Filter.ofText text = .ok filter) {a b : Card}
    (hagree : ∀ used ∈ filter, ∀ field ∈ used.fieldsUsed, field.Agrees a b) :
    passes filter a = passes filter b := by
  cases filter with
  | none => rfl
  | some used =>
    obtain ⟨hfilter, _, htest⟩ := ofText_eq_some_iff.mp haccepted
    have hfields : used.fieldsUsed = used.query.fieldsUsed := congrArg Filter.fieldsUsed hfilter
    exact test_eq_of_agrees htest (hfields ▸ hagree used rfl)

/-- Cards of one size are not told apart by `pow>tou`, whatever their names. -/
theorem passes_eq_of_agrees_size :
    let giant : Card :=
      .ofPrinting { name := "Hill Giant", power := some "3", toughness := some "3" }
    let courser : Card :=
      .ofPrinting { name := "Centaur Courser", power := some "3", toughness := some "3" }
    ∃ filter, Filter.ofText "pow>tou" = .ok (some filter) ∧
      filter.fieldsUsed = [.power, .toughness] ∧ giant.name ≠ courser.name ∧
      passes (some filter) giant = passes (some filter) courser := by
  intro giant courser
  have hcondition : condition "pow" .greater "tou" =
      .ok ⟨.power, .greater, false, .field .toughness⟩ :=
    condition_eq_ok_iff.mpr
      ⟨.power, .field .toughness, by decide +kernel, by decide, by decide, by decide +kernel, rfl⟩
  have hterm : IsTerm "pow>tou".toList (.condition ⟨.power, .greater, false, .field .toughness⟩) :=
    ⟨.comparison "pow" .greater "tou",
      Phrase.comparison_tree?_eq_some_iff.mpr ⟨_, hcondition, rfl⟩,
      .token rfl (.term (by decide) rfl rfl rfl) .nil⟩
  have haccepted : Filter.ofText "pow>tou" = .ok (some (.ofTree "pow>tou" _ _)) :=
    ofText_eq_some_iff.mpr ⟨rfl, hterm.parse, rfl⟩
  refine ⟨_, haccepted, by decide, by decide, passes_eq_of_agrees haccepted ?_⟩
  intro used hused field hfield
  obtain rfl := Option.some.inj hused
  have hfields : field ∈ [Field.power, Field.toughness] := hfield
  simp only [List.mem_cons, List.not_mem_nil, or_false] at hfields
  rcases hfields with rfl | rfl
  · exact rfl
  · exact rfl

end CardSearch.Query
