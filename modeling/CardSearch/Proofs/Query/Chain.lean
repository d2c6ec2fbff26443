import CardSearch.Proofs.Query.WellFormed

/-
  Texts put together to chains.

  `IsTerm text node` says that a text is cut into the tokens of one term and what its tree is.  Terms
  are put together by a separator for each connective: a blank, or a word between blanks.

  1. **Joints (`cuts_separator`, `detached_separator`)** — a separator ends the text before it and
     becomes at most the one token that the connective is written as.
  2. **Members (`exists_moreTerms`, `exists_moreAlternatives`)** — members joined by `and`, or by
     standing side by side, become the further terms of one sequence; members joined by `or` become
     further alternatives, of one term each.
  3. **The crux (`exists_alternatives`)** — so a first term and members that are joined alike are
     alternatives with the tree of the chain, whatever detached text comes after them.  Within
     parentheses they are a term again (`isTerm_parens`), and alone they are a query (`parse_chain`).
-/

namespace CardSearch.Query

open Phrase

/-! ## Terms -/

/-- A text that is one term, and the tree of that term. -/
def IsTerm (text : List Char) (node : Node) : Prop :=
  ∃ term : Term, term.tree? = some node ∧ Cuts text term.tokens

/-- The dash before what is negated. -/
def dash (negated : Bool) : List Char := if negated then ['-'] else []

/-- A dash before a term negates it, and is cut off as a token of its own. -/
theorem IsTerm.dashed (negated : Bool) {text : List Char} {node : Node} (h : IsTerm text node) :
    IsTerm (dash negated ++ text) (if negated then node.negate else node) := by
  cases negated with
  | false => exact h
  | true =>
    obtain ⟨term, htree, hcuts⟩ := h
    refine ⟨.not term, ?_, .token rfl .not hcuts⟩
    rw [Term.tree?, htree]
    rfl

/-- Alternatives before a closing parenthesis are a term after an opening one. -/
theorem isTerm_parens {phrase : Alternatives} {node : Node} {text : List Char}
    (htree : phrase.tree? = some node) (hcuts : Cuts text (phrase.tokens ++ [.closing])) :
    IsTerm ('(' :: text) node :=
  ⟨.parens phrase, htree, .token rfl .opening hcuts⟩

theorem detached_closing : Detached [')'] := fun _ hc => Option.some.inj hc ▸ rfl

theorem cuts_closing : Cuts [')'] [.closing] := .token rfl .closing .nil

/-! ## Joints -/

/-- What stands before a further member of a chain. -/
def separator : Connective → List Char
  | .implicit => [' ']
  | .and => [' ', 'a', 'n', 'd', ' ']
  | .or => [' ', 'o', 'r', ' ']

/-- The token that stands before a further member. -/
def joiner : Connective → List Token
  | .implicit => []
  | .and => [.and]
  | .or => [.or]

/-- What stands before a further member is a token, or only a blank, which is none. -/
theorem cuts_separator (connective : Connective) {next : List Char} {tokens : List Token}
    (hnext : Cuts next tokens) :
    Cuts (separator connective ++ next) (joiner connective ++ tokens) := by
  have hspace : Cuts (' ' :: next) tokens := .blank rfl hnext
  cases connective with
  | implicit => exact hspace
  | and =>
    have hword : Cuts ['a', 'n', 'd'] [.and] :=
      .token rfl (.term (by decide) rfl rfl rfl) .nil
    exact .blank rfl (hword.append_cons rfl hspace)
  | or =>
    have hword : Cuts ['o', 'r'] [.or] := .token rfl (.term (by decide) rfl rfl rfl) .nil
    exact .blank rfl (hword.append_cons rfl hspace)

/-- What begins with a separator is detached from what stands before it, as every separator
    begins with a blank. -/
theorem detached_separator (connective : Connective) (next : List Char) :
    Detached (separator connective ++ next) := by
  intro c hc
  cases connective <;>
    · obtain rfl := Option.some.inj hc
      rfl

/-! ## Members -/

/-- The further members of a chain stand one after the other, each a term after its separator. -/
inductive MemberTexts : List (Connective × Node) → List Char → Prop where
  | nil : MemberTexts [] []
  | cons {connective : Connective} {node : Node} {rest : List (Connective × Node)}
      {text more : List Char} (isTerm : IsTerm text node) (others : MemberTexts rest more) :
      MemberTexts ((connective, node) :: rest) (separator connective ++ (text ++ more))

/-- Further members are detached from what stands before them, if what follows them is, for it
    may be that there are none. -/
theorem MemberTexts.detached {members : List (Connective × Node)} {more next : List Char}
    (h : MemberTexts members more) (hnext : Detached next) : Detached (more ++ next) := by
  cases h with
  | nil => exact hnext
  | cons _ _ =>
    rw [List.append_assoc]
    exact detached_separator _ _

/-- One further member, before others: its separator, its term, and theirs. -/
theorem cuts_member (connective : Connective) {text more next : List Char}
    {tokens others : List Token} (htext : Cuts text tokens) (hdetached : Detached (more ++ next))
    (hmore : Cuts (more ++ next) others) :
    Cuts (separator connective ++ (text ++ more) ++ next)
      (joiner connective ++ (tokens ++ others)) := by
  rw [List.append_assoc, List.append_assoc]
  exact cuts_separator connective (htext.append hdetached hmore)

section

variable {next : List Char} {others : List Token} (hdetached : Detached next)
  (hnext : Cuts next others)
include hdetached hnext

/-- Members joined by `and` or by standing side by side are further terms.  By induction on the
    members. -/
theorem exists_moreTerms {members : List (Connective × Node)} {more : List Char}
    (h : MemberTexts members more)
    (hjoined : ∀ member ∈ members, member.1 = .implicit ∨ member.1 = .and) :
    ∃ terms : MoreTerms, terms.members? = some members ∧
      Cuts (more ++ next) (terms.tokens ++ others) := by
  induction h with
  | nil => exact ⟨.none, rfl, hnext⟩
  | @cons connective node rest text more isTerm hmore ih =>
    obtain ⟨hconnective, hrest⟩ := List.forall_mem_cons.mp hjoined
    obtain ⟨term, htree, hterm⟩ := isTerm
    obtain ⟨terms, hmembers, hterms⟩ := ih hrest
    have hcuts := cuts_member connective hterm (hmore.detached hdetached) hterms
    -- the two connectives are written differently, and each is a rule of the grammar
    rcases hconnective with hconnective | hconnective
    · obtain rfl : connective = .implicit := hconnective
      have htokens : (MoreTerms.beside term terms).tokens ++ others =
          joiner .implicit ++ (term.tokens ++ (terms.tokens ++ others)) :=
        List.append_assoc _ _ _
      exact ⟨.beside term terms,
        MoreTerms.members?_beside_eq_some_iff.mpr ⟨node, rest, htree, hmembers, rfl⟩,
        htokens ▸ hcuts⟩
    · obtain rfl : connective = .and := hconnective
      have htokens : (MoreTerms.and term terms).tokens ++ others =
          joiner .and ++ (term.tokens ++ (terms.tokens ++ others)) :=
        congrArg (Token.and :: ·) (List.append_assoc _ _ _)
      exact ⟨.and term terms,
        MoreTerms.members?_and_eq_some_iff.mpr ⟨node, rest, htree, hmembers, rfl⟩,
        htokens ▸ hcuts⟩

/-- Members joined by `or` are further alternatives, of one term each.  By induction on the
    members. -/
theorem exists_moreAlternatives {members : List (Connective × Node)} {more : List Char}
    (h : MemberTexts members more) (hjoined : ∀ member ∈ members, member.1 = .or) :
    ∃ phrases : MoreAlternatives, phrases.members? = some members ∧
      Cuts (more ++ next) (phrases.tokens ++ others) := by
  induction h with
  | nil => exact ⟨.none, rfl, hnext⟩
  | @cons connective node rest text more isTerm hmore ih =>
    obtain ⟨hconnective, hrest⟩ := List.forall_mem_cons.mp hjoined
    obtain rfl : connective = .or := hconnective
    obtain ⟨term, htree, hterm⟩ := isTerm
    obtain ⟨phrases, hmembers, hphrases⟩ := ih hrest
    have hcuts := cuts_member .or hterm (hmore.detached hdetached) hphrases
    have htokens : (MoreAlternatives.or (.mk term .none) phrases).tokens ++ others =
        joiner .or ++ (term.tokens ++ (phrases.tokens ++ others)) := by
      rw [MoreAlternatives.tokens, Sequence.tokens_single, List.cons_append, List.append_assoc]
      rfl
    exact ⟨.or (.mk term .none) phrases,
      MoreAlternatives.members?_or_eq_some_iff.mpr
        ⟨node, rest, Sequence.tree?_single htree, hmembers, rfl⟩,
      htokens ▸ hcuts⟩

/-! ## Chains -/

/-- **A first term and members that are joined alike are alternatives**, with the tree of their
    chain.  Either connective gives a phrase of its own shape: one sequence of many terms, or many
    sequences of one. -/
theorem exists_alternatives {first : Node} {rest : List (Connective × Node)}
    {text more : List Char} (hfirst : IsTerm text first) (hrest : MemberTexts rest more)
    (halike : JoinedAlike rest) :
    ∃ phrase : Alternatives, phrase.tree? = some (chain first rest) ∧
      Cuts (text ++ (more ++ next)) (phrase.tokens ++ others) := by
  obtain ⟨term, htree, hterm⟩ := hfirst
  -- either connective gives a phrase of its own shape, with the same tree
  have hjoint : Detached (more ++ next) := hrest.detached hdetached
  rcases halike with hor | hand
  · obtain ⟨phrases, hmembers, hphrases⟩ := exists_moreAlternatives hdetached hnext hrest hor
    refine ⟨.mk (.mk term .none) phrases, Alternatives.tree?_eq_some_iff.mpr
      ⟨first, rest, Sequence.tree?_single htree, hmembers, rfl⟩, ?_⟩
    rw [Alternatives.tokens, Sequence.tokens_single, List.append_assoc]
    exact hterm.append hjoint hphrases
  · obtain ⟨terms, hmembers, hterms⟩ := exists_moreTerms hdetached hnext hrest hand
    refine ⟨.mk (.mk term terms) .none, Alternatives.tree?_single
      (Sequence.tree?_eq_some_iff.mpr ⟨first, rest, htree, hmembers, rfl⟩), ?_⟩
    rw [Alternatives.tokens_single, Sequence.tokens, List.append_assoc]
    exact hterm.append hjoint hterms

end

/-- **A chain alone is a query**, since nothing is left behind its last member. -/
theorem parse_chain {query : String} {first : Node} {rest : List (Connective × Node)}
    {text more : List Char} (hfirst : IsTerm text first) (hrest : MemberTexts rest more)
    (halike : JoinedAlike rest) (hquery : query.toList = text ++ more) :
    parse query = .ok (chain first rest) := by
  have hnone : Detached [] := by
    intro c hc
    cases hc
  obtain ⟨phrase, htree, hcuts⟩ := exists_alternatives hnone .nil hfirst hrest halike
  rw [List.append_nil, List.append_nil, ← hquery] at hcuts
  exact parse_eq_ok_iff.mpr ⟨phrase, hcuts, htree⟩

theorem IsTerm.parse {text : String} {node : Node} (h : IsTerm text.toList node) :
    parse text = .ok node :=
  parse_chain h .nil (Or.inl fun _ hmember => absurd hmember List.not_mem_nil)
    (List.append_nil _).symm

end CardSearch.Query
