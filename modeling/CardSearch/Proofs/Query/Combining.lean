import CardSearch.Proofs.Query.Outcome
import CardSearch.Proofs.Query.RoundTrip

/-
  Queries put together from queries.

  1. **Texts** — a query in parentheses is a term (`isTerm_parenthesized`), and two terms with a
     separator between them are the pair of their trees (`parse_pair`).  Without parentheses `or`
     still takes whole queries, since nothing binds looser: the alternatives of the second follow
     those of the first (`parse_or`).
  2. **Tests** — a chain tests its members from the left (`test?_chain`), whether they stand in a
     group of their own or the chain is its only member.
  3. **The crux (`foldTests_or`)** — what is tried before the first of several alternatives may as
     well be tried before the outcome of all of them.  So a flat chain of alternatives and two
     chains joined by `or` find the same cards.
  4. **Cards (`select_combined`)** — the combinations select by the combinations of the properties.
-/

namespace CardSearch.Query

open Phrase

/-! ## Terms side by side -/

/-- A query in parentheses. -/
def parenthesized (text : String) : String := "(" ++ text ++ ")"

/-- A query in parentheses is a term, and has the tree of the query.  Its tokens are put between
    two more, and the closing one ends them. -/
theorem isTerm_parenthesized {text : String} {tree : Node} (h : parse text = .ok tree) :
    IsTerm (parenthesized text).toList tree := by
  obtain ⟨phrase, hcuts, htree⟩ := parse_eq_ok_iff.mp h
  have htext : (parenthesized text).toList = '(' :: (text.toList ++ [')']) := by
    simp [parenthesized, String.toList_append]
  rw [htext]
  exact isTerm_parens htree (hcuts.append detached_closing cuts_closing)

/-- A dash before a query in parentheses makes the opposite tree. -/
theorem isTerm_negated {text : String} {tree : Node} (h : parse text = .ok tree) :
    IsTerm ("-" ++ parenthesized text).toList tree.negate := by
  rw [String.toList_append]
  exact (isTerm_parenthesized h).dashed true

/-- Two queries in parentheses with a separator between them are a pair, whatever is inside of
    the parentheses. -/
theorem parse_pair {left right text : String} {a b : Node} (connective : Connective)
    (hleft : parse left = .ok a) (hright : parse right = .ok b)
    (htext : text.toList =
      (parenthesized left).toList ++ (separator connective ++ (parenthesized right).toList)) :
    parse text = .ok (chain a [(connective, b)]) := by
  have hmembers : MemberTexts [(connective, b)]
      (separator connective ++ ((parenthesized right).toList ++ [])) :=
    .cons (isTerm_parenthesized hright) .nil
  have halike : JoinedAlike [(connective, b)] := by
    cases connective <;> simp [JoinedAlike]
  rw [List.append_nil] at hmembers
  exact parse_chain (isTerm_parenthesized hleft) hmembers halike htext

/-! ## Alternatives side by side -/

/-- **Two queries with `or` between them are one chain of all their alternatives**, those of the
    second behind those of the first.  Nothing binds looser than `or`, so each query keeps its
    sequences. -/
theorem parse_or {left right : String} {a b : Node} (hleft : parse left = .ok a)
    (hright : parse right = .ok b) :
    ∃ first members second others, a = chain first members ∧ b = chain second others ∧
      (∀ other ∈ others, other.1 = .or) ∧
      parse (left ++ " or " ++ right) = .ok (chain first (members ++ (.or, second) :: others)) := by
  obtain ⟨⟨leftFirst, leftMore⟩, hleftCuts, ha⟩ := parse_eq_ok_iff.mp hleft
  obtain ⟨⟨rightFirst, rightMore⟩, hrightCuts, hb⟩ := parse_eq_ok_iff.mp hright
  obtain ⟨first, members, hfirst, hmembers, rfl⟩ := Alternatives.tree?_eq_some_iff.mp ha
  obtain ⟨second, others, hsecond, hothers, rfl⟩ := Alternatives.tree?_eq_some_iff.mp hb
  refine ⟨first, members, second, others, rfl, rfl, ?_, ?_⟩
  · exact fun other hother => (wellFormed_of_moreAlternatives rightMore hothers other hother).1
  -- the second phrase is appended to the alternatives of the first
  refine parse_eq_ok_iff.mpr ⟨.mk leftFirst (leftMore.append rightFirst rightMore), ?_,
    Alternatives.tree?_eq_some_iff.mpr ⟨first, _, hfirst,
      MoreAlternatives.members?_append hsecond hothers leftMore _ hmembers, rfl⟩⟩
  have htext : (left ++ " or " ++ right).toList =
      left.toList ++ (separator .or ++ right.toList) := by
    simp [String.toList_append, separator]
  have htokens : (Alternatives.mk leftFirst (leftMore.append rightFirst rightMore)).tokens =
      (Alternatives.mk leftFirst leftMore).tokens ++
        (joiner .or ++ (Alternatives.mk rightFirst rightMore).tokens) := by
    rw [Alternatives.tokens, MoreAlternatives.tokens_append, ← List.append_assoc]
    rfl
  rw [htext, htokens]
  exact hleftCuts.append (detached_separator .or right.toList) (cuts_separator .or hrightCuts)

/-! ## Tests -/

theorem negateIf_false (test : Test) : negateIf false test = test :=
  funext fun card => Bool.bne_false (test card)

/-- The test of the opposite of a tree is the opposite test.  By cases on the tree, whose negation
    is the outermost mark. -/
theorem test?_negate {node : Node} {test : Test} (h : node.test? = .ok test) :
    node.negate.test? = .ok fun card => !test card := by
  have hflip : ∀ (negated : Bool) (inner : Test),
      negateIf (!negated) inner = fun card => !negateIf negated inner card := by
    intro negated inner
    funext card
    simp [negateIf]
  cases node with
  | condition leaf =>
    rw [Node.test?] at h
    obtain ⟨inner, hinner, h⟩ := bind_eq_ok_iff.mp h
    obtain rfl := Except.ok.inj h
    rw [Node.negate, Node.test?, hinner]
    exact congrArg _ (hflip leaf.negated inner)
  | group negated first rest =>
    rw [Node.test?] at h
    obtain ⟨left, hleft, h⟩ := bind_eq_ok_iff.mp h
    obtain ⟨inner, hinner, h⟩ := bind_eq_ok_iff.mp h
    obtain rfl := Except.ok.inj h
    rw [Node.negate, Node.test?, hleft]
    show (Node.foldTests left rest >>= _) = _
    rw [hinner]
    exact congrArg _ (hflip negated inner)

/-- A chain is tested from the left, whether it is a group or its only member. -/
theorem test?_chain {first : Node} {rest : List (Connective × Node)} {test : Test} :
    (chain first rest).test? = .ok test ↔
      ∃ left, first.test? = .ok left ∧ Node.foldTests left rest = .ok test := by
  rw [← bind_eq_ok_iff]
  cases rest with
  | nil =>
    -- a chain of one member is that member
    show first.test? = _ ↔ (first.test? >>= fun left => .ok left) = _
    cases first.test? with
    | error e => exact Iff.rfl
    | ok left => exact Iff.rfl
  | cons second more =>
    rw [chain, Node.test?]
    cases first.test? with
    | error e => exact Iff.rfl
    | ok left =>
      show (Node.foldTests left (second :: more) >>= fun test => .ok (negateIf false test)) = _ ↔
        Node.foldTests left (second :: more) = _
      cases Node.foldTests left (second :: more) with
      | error e => exact Iff.rfl
      | ok inner =>
        show Except.ok (negateIf false inner) = _ ↔ _
        rw [negateIf_false]

/-- A list of members is folded piece by piece.  By induction on the first piece. -/
theorem foldTests_append (first second : List (Connective × Node)) {left middle test : Test}
    (hfirst : Node.foldTests left first = .ok middle)
    (hsecond : Node.foldTests middle second = .ok test) :
    Node.foldTests left (first ++ second) = .ok test := by
  induction first generalizing left with
  | nil =>
    obtain rfl := Except.ok.inj hfirst
    exact hsecond
  | cons member rest ih =>
    rw [Node.foldTests] at hfirst
    obtain ⟨right, hright, hfirst⟩ := bind_eq_ok_iff.mp hfirst
    rw [List.cons_append, Node.foldTests]
    exact bind_eq_ok_iff.mpr ⟨right, hright, ih hfirst⟩

/-- **What is tried before the first of several alternatives may be tried before all of them.**
    By induction on the members: `or` may be put together from either side. -/
theorem foldTests_or {members : List (Connective × Node)} (h : ∀ member ∈ members, member.1 = .or)
    (before : Test) {left test : Test} (hfold : Node.foldTests left members = .ok test) :
    Node.foldTests (Connective.or.apply before left) members =
      .ok (Connective.or.apply before test) := by
  induction members generalizing left with
  | nil =>
    obtain rfl := Except.ok.inj hfold
    rfl
  | cons member rest ih =>
    obtain ⟨connective, node⟩ := member
    obtain ⟨hconnective, hrest⟩ := List.forall_mem_cons.mp h
    obtain rfl : connective = .or := hconnective
    rw [Node.foldTests] at hfold ⊢
    obtain ⟨right, hright, hfold⟩ := bind_eq_ok_iff.mp hfold
    have hassoc : Connective.or.apply (Connective.or.apply before left) right =
        Connective.or.apply before (Connective.or.apply left right) :=
      funext fun card => Bool.or_assoc (before card) (left card) (right card)
    refine bind_eq_ok_iff.mpr ⟨right, hright, ?_⟩
    rw [hassoc]
    exact ih hrest hfold

/-! ## Cards -/

/-- As many cards are counted as are selected. -/
theorem countMatches_eq_length (filter : Option Filter) (cards : List Card) :
    countMatches filter cards = (select filter cards).length := by
  cases filter with
  | none =>
    have hall : select none cards = cards := List.filter_eq_self.mpr fun _ _ => rfl
    rw [hall]
    rfl
  | some filter => exact List.countP_eq_length_filter

/-- A text selects the cards with a property, from every list of cards and in its order, and their
    number is counted. -/
def Selects (text : String) (wanted : Card → Bool) : Prop :=
  ∃ filter, Filter.ofText text = .ok (some filter) ∧ ∀ cards : List Card,
    select (some filter) cards = cards.filter wanted ∧
    countMatches (some filter) cards = (select (some filter) cards).length

theorem selects_of_parse {text : String} {tree : Node} {test : Test}
    (hparse : parse text = .ok tree) (htest : tree.test? = .ok test) : Selects text test :=
  ⟨.ofTree text tree test, ofText_eq_some_iff.mpr ⟨rfl, hparse, htest⟩,
    fun cards => ⟨rfl, countMatches_eq_length _ cards⟩⟩

section

variable {left right : String} {f g : Filter} (hleft : Filter.ofText left = .ok (some f))
  (hright : Filter.ofText right = .ok (some g))
include hleft hright

/-- A pair selects by both its tests, joined as the connective joins them. -/
theorem selects_pair {text : String} (connective : Connective)
    (htext : text.toList =
      (parenthesized left).toList ++ (separator connective ++ (parenthesized right).toList)) :
    Selects text (connective.apply f.test g.test) := by
  obtain ⟨_, hf, hftest⟩ := ofText_eq_some_iff.mp hleft
  obtain ⟨_, hg, hgtest⟩ := ofText_eq_some_iff.mp hright
  refine selects_of_parse (parse_pair connective hf hg htext) ?_
  refine test?_chain.mpr ⟨f.test, hftest, ?_⟩
  rw [Node.foldTests, hgtest]
  rfl

/-- So does a chain of alternatives without parentheses: what the first query finds is tried
    before all alternatives of the second. -/
theorem selects_or : Selects (left ++ " or " ++ right) (Connective.or.apply f.test g.test) := by
  obtain ⟨_, hf, hftest⟩ := ofText_eq_some_iff.mp hleft
  obtain ⟨_, hg, hgtest⟩ := ofText_eq_some_iff.mp hright
  obtain ⟨first, members, second, others, hfirst, hsecond, hor, hparse⟩ := parse_or hf hg
  rw [hfirst] at hftest
  rw [hsecond] at hgtest
  obtain ⟨a, ha, hmembers⟩ := test?_chain.mp hftest
  obtain ⟨b, hb, hothers⟩ := test?_chain.mp hgtest
  -- what the first query finds is tried before all alternatives of the second
  have hlast : Node.foldTests f.test ((.or, second) :: others) =
      .ok (Connective.or.apply f.test g.test) := by
    rw [Node.foldTests, hb]
    exact foldTests_or hor f.test hothers
  exact selects_of_parse hparse (test?_chain.mpr ⟨a, ha, foldTests_append _ _ hmembers hlast⟩)

/-- **Queries combine as the properties they select by.**  Two queries in parentheses, side by side
    or with `and` between them, select what both select, and so does one after the other; with `or`
    between them, with or without parentheses, they select what either selects; and a dash before
    one in parentheses selects what it does not.  Parentheses, and two dashes, change no tree. -/
theorem select_combined :
    Selects (parenthesized left ++ " " ++ parenthesized right)
      (fun card => passes (some f) card && passes (some g) card) ∧
    Selects (parenthesized left ++ " and " ++ parenthesized right)
      (fun card => passes (some f) card && passes (some g) card) ∧
    (∀ cards, select (some g) (select (some f) cards) =
      cards.filter fun card => passes (some f) card && passes (some g) card) ∧
    Selects (parenthesized left ++ " or " ++ parenthesized right)
      (fun card => passes (some f) card || passes (some g) card) ∧
    Selects (left ++ " or " ++ right)
      (fun card => passes (some f) card || passes (some g) card) ∧
    Selects ("-" ++ parenthesized left) (fun card => !passes (some f) card) ∧
    parse left = .ok f.query ∧
    parse (parenthesized left) = parse left ∧
    parse ("-" ++ parenthesized ("-" ++ parenthesized left)) = parse left := by
  obtain ⟨_, hf, hftest⟩ := ofText_eq_some_iff.mp hleft
  have htexts : ∀ middle : String, (parenthesized left ++ middle ++ parenthesized right).toList =
      (parenthesized left).toList ++ (middle.toList ++ (parenthesized right).toList) := by
    intro middle
    rw [String.toList_append, String.toList_append, List.append_assoc]
  refine ⟨selects_pair hleft hright .implicit (htexts " "),
    selects_pair hleft hright .and (htexts " and "), ?_,
    selects_pair hleft hright .or (htexts " or "), selects_or hleft hright, ?_, hf, ?_, ?_⟩
  · intro cards
    rw [select, select, List.filter_filter]
    exact List.filter_congr fun card _ => Bool.and_comm _ _
  · exact selects_of_parse (isTerm_negated hf).parse (test?_negate hftest)
  · rw [(isTerm_parenthesized hf).parse, hf]
  · rw [(isTerm_negated (isTerm_negated hf).parse).parse, hf, Node.negate_negate]

end

/-- Alternatives beside a pair with a dash in it, with and without parentheses. -/
theorem select_combined_alternatives :
    ∃ f g, Filter.ofText "elf or orc" = .ok (some f) ∧
      Filter.ofText "dwarf -cat" = .ok (some g) ∧
      Selects "(elf or orc) (dwarf -cat)"
        (fun card => passes (some f) card && passes (some g) card) ∧
      Selects "elf or orc or dwarf -cat"
        (fun card => passes (some f) card || passes (some g) card) ∧
      parse "-(-(elf or orc))" = .ok f.query := by
  have helf : IsTerm ['e', 'l', 'f'] (.bare "elf") :=
    ⟨.word "elf", rfl, .token rfl (.term (by decide) rfl rfl rfl) .nil⟩
  have horc : IsTerm ['o', 'r', 'c'] (.bare "orc") :=
    ⟨.word "orc", rfl, .token rfl (.term (by decide) rfl rfl rfl) .nil⟩
  have hdwarf : IsTerm ['d', 'w', 'a', 'r', 'f'] (.bare "dwarf") :=
    ⟨.word "dwarf", rfl, .token rfl (.term (by decide) rfl rfl rfl) .nil⟩
  have hcat : IsTerm ['c', 'a', 't'] (.bare "cat") :=
    ⟨.word "cat", rfl, .token rfl (.term (by decide) rfl rfl rfl) .nil⟩
  have hleft : parse "elf or orc" = .ok (chain (.bare "elf") [(.or, .bare "orc")]) :=
    parse_chain helf (.cons horc .nil) (Or.inl (by simp)) rfl
  have hright : parse "dwarf -cat" =
      .ok (chain (.bare "dwarf") [(.implicit, (Node.bare "cat").negate)]) :=
    parse_chain hdwarf (.cons (hcat.dashed true) .nil) (Or.inr (by simp)) rfl
  obtain ⟨leftTest, hleftTest⟩ := exists_test (wellFormed_of_parse hleft)
  obtain ⟨rightTest, hrightTest⟩ := exists_test (wellFormed_of_parse hright)
  have hf : Filter.ofText "elf or orc" = .ok (some (.ofTree _ _ leftTest)) :=
    ofText_eq_some_iff.mpr ⟨rfl, hleft, hleftTest⟩
  have hg : Filter.ofText "dwarf -cat" = .ok (some (.ofTree _ _ rightTest)) :=
    ofText_eq_some_iff.mpr ⟨rfl, hright, hrightTest⟩
  obtain ⟨hboth, _, _, _, heither, _, hquery, _, hdashes⟩ := select_combined hf hg
  exact ⟨_, _, hf, hg, hboth, heither, hdashes.trans hquery⟩

end CardSearch.Query
