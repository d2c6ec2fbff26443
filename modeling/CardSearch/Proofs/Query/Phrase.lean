import CardSearch.Query.Grammar

/-
  The grammar of queries, as a data type of derivations.

      alternatives ::= sequence ("or" sequence)*
      sequence     ::= term (("and")? term)*
      term         ::= "-" term | "(" alternatives ")" | comparison | word | quoted

  A phrase is one derivation: each rule is a constructor, so a phrase says how its tokens were put
  together and nothing else.  The functions that read token lists are not mentioned here.

  1. **Tokens** — `tokens` writes a phrase out again.
  2. **Tree** — `tree?` is the tree that the phrase stands for, if its comparisons have a meaning.
  3. **Meaning** — a phrase has a tree exactly when each of its comparisons has a meaning, wherever
     it stands (`exists_tree_iff`).
  4. **The crux (`eq_of_tokens_append`)** — two phrases of one rule that begin the same token list
     are the same phrase and leave the same rest, provided that what they leave cannot continue
     them.  A term needs no such proviso: its first token decides its rule.  A sequence must be
     left before `or`, before a closing parenthesis or at the end, since any other token would
     begin or announce a further term (`not_endsSequence_append`).
-/

namespace CardSearch.Query.Phrase

/-! ## Derivations -/

mutual

/-- `alternatives ::= sequence ("or" sequence)*` -/
inductive Alternatives where
  | mk (first : Sequence) (rest : MoreAlternatives)

/-- `("or" sequence)*` -/
inductive MoreAlternatives where
  | none
  | or (next : Sequence) (rest : MoreAlternatives)

/-- `sequence ::= term (("and")? term)*` -/
inductive Sequence where
  | mk (first : Term) (rest : MoreTerms)

/-- `(("and")? term)*` -/
inductive MoreTerms where
  | none
  | beside (next : Term) (rest : MoreTerms)
  | and (next : Term) (rest : MoreTerms)

/-- `term ::= "-" term | "(" alternatives ")" | comparison | word | quoted` -/
inductive Term where
  | not (inner : Term)
  | parens (inner : Alternatives)
  | comparison (field : String) (operator : Operator) (value : String)
  | word (text : String)
  | quoted (text : String)

end

/-! ## The tokens of a phrase -/

mutual

/-- The tokens of alternatives. -/
def Alternatives.tokens : Alternatives → List Token
  | .mk first rest => first.tokens ++ rest.tokens
  termination_by structural phrase => phrase

/-- The tokens of further alternatives. -/
def MoreAlternatives.tokens : MoreAlternatives → List Token
  | .none => []
  | .or next rest => .or :: (next.tokens ++ rest.tokens)
  termination_by structural phrase => phrase

/-- The tokens of a sequence. -/
def Sequence.tokens : Sequence → List Token
  | .mk first rest => first.tokens ++ rest.tokens
  termination_by structural phrase => phrase

/-- The tokens of further terms. -/
def MoreTerms.tokens : MoreTerms → List Token
  | .none => []
  | .beside next rest => next.tokens ++ rest.tokens
  | .and next rest => .and :: (next.tokens ++ rest.tokens)
  termination_by structural phrase => phrase

/-- The tokens of a term. -/
def Term.tokens : Term → List Token
  | .not inner => .not :: inner.tokens
  | .parens inner => .opening :: (inner.tokens ++ [.closing])
  | .comparison field operator value => [.comparison field operator value]
  | .word text => [.word text]
  | .quoted text => [.quoted text]
  termination_by structural phrase => phrase

end

/-! ## The tree of a phrase -/

/-- The tree of a chain: its only member, or one un-negated group of all of them. -/
def chain : Node → List (Connective × Node) → Node
  | only, [] => only
  | first, second :: more => .group false first (second :: more)

theorem join_eq_chain (first : Node) (rest : List (Connective × Node)) :
    Node.join first rest = chain first rest := by
  cases rest <;> rfl

mutual

/-- The tree of alternatives. -/
def Alternatives.tree? : Alternatives → Option Node
  | .mk first rest => do return chain (← first.tree?) (← rest.members?)
  termination_by structural phrase => phrase

/-- The members that further alternatives add to a chain. -/
def MoreAlternatives.members? : MoreAlternatives → Option (List (Connective × Node))
  | .none => some []
  | .or next rest => do return (.or, ← next.tree?) :: (← rest.members?)
  termination_by structural phrase => phrase

/-- The tree of a sequence. -/
def Sequence.tree? : Sequence → Option Node
  | .mk first rest => do return chain (← first.tree?) (← rest.members?)
  termination_by structural phrase => phrase

/-- The members that further terms add to a chain. -/
def MoreTerms.members? : MoreTerms → Option (List (Connective × Node))
  | .none => some []
  | .beside next rest => do return (.implicit, ← next.tree?) :: (← rest.members?)
  | .and next rest => do return (.and, ← next.tree?) :: (← rest.members?)
  termination_by structural phrase => phrase

/-- The tree of a term: a dash negates what follows it, parentheses add nothing, and a comparison
    needs a meaning. -/
def Term.tree? : Term → Option Node
  | .not inner => inner.tree?.map Node.negate
  | .parens inner => inner.tree?
  | .comparison field operator value => (condition field operator value).toOption.map .condition
  | .word text => some (.bare text)
  | .quoted text => some (.bare text)
  termination_by structural phrase => phrase

end

/-- Alternatives have a tree when their parts do, and it is the chain of these. -/
theorem Alternatives.tree?_eq_some_iff {first : Sequence} {more : MoreAlternatives} {node : Node} :
    (Alternatives.mk first more).tree? = some node ↔ ∃ a members,
      first.tree? = some a ∧ more.members? = some members ∧ chain a members = node := by
  simp [Alternatives.tree?, Option.bind_eq_some_iff]

/-- One further alternative is one further member, joined by `or`. -/
theorem MoreAlternatives.members?_or_eq_some_iff {next : Sequence} {more : MoreAlternatives}
    {members : List (Connective × Node)} :
    (MoreAlternatives.or next more).members? = some members ↔ ∃ a others,
      next.tree? = some a ∧ more.members? = some others ∧ (.or, a) :: others = members := by
  simp [MoreAlternatives.members?, Option.bind_eq_some_iff]

theorem Sequence.tree?_eq_some_iff {first : Term} {more : MoreTerms} {node : Node} :
    (Sequence.mk first more).tree? = some node ↔ ∃ a members,
      first.tree? = some a ∧ more.members? = some members ∧ chain a members = node := by
  simp [Sequence.tree?, Option.bind_eq_some_iff]

/-- A term that stands beside the last one is a member that is joined implicitly. -/
theorem MoreTerms.members?_beside_eq_some_iff {next : Term} {more : MoreTerms}
    {members : List (Connective × Node)} :
    (MoreTerms.beside next more).members? = some members ↔ ∃ a others,
      next.tree? = some a ∧ more.members? = some others ∧ (.implicit, a) :: others = members := by
  simp [MoreTerms.members?, Option.bind_eq_some_iff]

theorem MoreTerms.members?_and_eq_some_iff {next : Term} {more : MoreTerms}
    {members : List (Connective × Node)} :
    (MoreTerms.and next more).members? = some members ↔ ∃ a others,
      next.tree? = some a ∧ more.members? = some others ∧ (.and, a) :: others = members := by
  simp [MoreTerms.members?, Option.bind_eq_some_iff]

theorem Sequence.tree?_single {term : Term} {node : Node} (h : term.tree? = some node) :
    (Sequence.mk term .none).tree? = some node :=
  Sequence.tree?_eq_some_iff.mpr ⟨node, [], h, rfl, rfl⟩

theorem Sequence.tokens_single (term : Term) : (Sequence.mk term .none).tokens = term.tokens :=
  List.append_nil _

theorem Alternatives.tree?_single {phrase : Sequence} {node : Node} (h : phrase.tree? = some node) :
    (Alternatives.mk phrase .none).tree? = some node :=
  Alternatives.tree?_eq_some_iff.mpr ⟨node, [], h, rfl, rfl⟩

theorem Alternatives.tokens_single (phrase : Sequence) :
    (Alternatives.mk phrase .none).tokens = phrase.tokens :=
  List.append_nil _

theorem comparison_tree?_eq_some_iff {field : String} {operator : Operator} {value : String}
    {node : Node} :
    (Term.comparison field operator value).tree? = some node ↔
      ∃ leaf, condition field operator value = .ok leaf ∧ .condition leaf = node := by
  rw [Term.tree?]
  cases condition field operator value with
  | error e => simp [Except.toOption]
  | ok leaf => simp [Except.toOption]

/-! ## Alternatives after alternatives -/

/-- Further alternatives, and those of a whole phrase after them. -/
def MoreAlternatives.append : MoreAlternatives → Sequence → MoreAlternatives → MoreAlternatives
  | .none, first, rest => .or first rest
  | .or next more, first, rest => .or next (more.append first rest)
  termination_by structural more => more

/-- The alternatives of a second phrase stand behind an `or`.  By induction on those of the first. -/
theorem MoreAlternatives.tokens_append (first : Sequence) (rest : MoreAlternatives) :
    ∀ more : MoreAlternatives, (more.append first rest).tokens =
      more.tokens ++ .or :: (first.tokens ++ rest.tokens)
  | .none => rfl
  | .or next more => by
    rw [MoreAlternatives.append, MoreAlternatives.tokens, MoreAlternatives.tokens,
      MoreAlternatives.tokens_append first rest more, List.cons_append, List.append_assoc]
  termination_by structural more => more

/-- Their members follow those of the first, joined by `or`.  By induction on those of the first. -/
theorem MoreAlternatives.members?_append {first : Sequence} {rest : MoreAlternatives} {node : Node}
    {others : List (Connective × Node)} (hfirst : first.tree? = some node)
    (hrest : rest.members? = some others) :
    ∀ more : MoreAlternatives, ∀ members, more.members? = some members →
      (more.append first rest).members? = some (members ++ (.or, node) :: others)
  | .none => by
    intro members h
    obtain rfl := Option.some.inj h
    exact MoreAlternatives.members?_or_eq_some_iff.mpr ⟨node, others, hfirst, hrest, rfl⟩
  | .or next more => by
    intro members h
    obtain ⟨own, tail, hown, htail, rfl⟩ := MoreAlternatives.members?_or_eq_some_iff.mp h
    exact MoreAlternatives.members?_or_eq_some_iff.mpr
      ⟨own, _, hown, MoreAlternatives.members?_append hfirst hrest more tail htail, rfl⟩
  termination_by structural more => more

/-! ## Which phrases have a tree -/

/-- Every comparison among the tokens has a meaning. -/
def Resolves (tokens : List Token) : Prop :=
  ∀ field operator value, .comparison field operator value ∈ tokens →
    ∃ leaf, condition field operator value = .ok leaf

/-- Comparisons have a meaning in both parts of a list or not in the list. -/
theorem resolves_append (a b : List Token) : Resolves (a ++ b) ↔ Resolves a ∧ Resolves b := by
  constructor
  · intro h
    exact ⟨fun f o v hv => h f o v (List.mem_append_left b hv),
      fun f o v hv => h f o v (List.mem_append_right a hv)⟩
  · rintro ⟨ha, hb⟩ field operator value hv
    rcases List.mem_append.mp hv with hv | hv
    · exact ha field operator value hv
    · exact hb field operator value hv

/-- A token that is no comparison asks for nothing. -/
theorem resolves_cons (token : Token) {rest : List Token}
    (h : ∀ field operator value, token ≠ .comparison field operator value) :
    Resolves (token :: rest) ↔ Resolves rest := by
  constructor
  · intro hrest field operator value hv
    exact hrest field operator value (List.mem_cons_of_mem token hv)
  · intro hrest field operator value hv
    rcases List.mem_cons.mp hv with hv | hv
    · exact absurd hv.symm (h field operator value)
    · exact hrest field operator value hv

theorem resolves_nil : Resolves [] := fun _ _ _ h => absurd h List.not_mem_nil

theorem resolves_single (token : Token)
    (h : ∀ field operator value, token ≠ .comparison field operator value) : Resolves [token] :=
  (resolves_cons token h).mpr resolves_nil

/-- One comparison has a tree exactly when it has a meaning. -/
theorem comparison_exists_tree_iff (field : String) (operator : Operator) (value : String) :
    (∃ node, (Term.comparison field operator value).tree? = some node) ↔
      Resolves [.comparison field operator value] := by
  constructor
  · rintro ⟨node, htree⟩ field' operator' value' hv
    obtain ⟨leaf, hleaf, _⟩ := comparison_tree?_eq_some_iff.mp htree
    obtain ⟨rfl, rfl, rfl⟩ := Token.comparison.inj (List.mem_singleton.mp hv)
    exact ⟨leaf, hleaf⟩
  · intro h
    obtain ⟨leaf, hleaf⟩ := h field operator value List.mem_cons_self
    exact ⟨.condition leaf, comparison_tree?_eq_some_iff.mpr ⟨leaf, hleaf, rfl⟩⟩

mutual

/-- **Alternatives have a tree exactly when their comparisons have a meaning.** By induction on
    the phrase, one rule after the other; no rule asks for anything else. -/
theorem Alternatives.exists_tree_iff : ∀ phrase : Alternatives,
    (∃ node, phrase.tree? = some node) ↔ Resolves phrase.tokens
  | .mk first more => by
    rw [Alternatives.tokens, resolves_append, ← Sequence.exists_tree_iff first,
      ← MoreAlternatives.exists_members_iff more, Alternatives.tree?]
    cases first.tree? <;> cases more.members? <;> simp
  termination_by structural phrase => phrase

/-- So have further alternatives their members, -/
theorem MoreAlternatives.exists_members_iff : ∀ more : MoreAlternatives,
    (∃ members, more.members? = some members) ↔ Resolves more.tokens
  | .none => by simp [MoreAlternatives.members?, MoreAlternatives.tokens, resolves_nil]
  | .or next more => by
    rw [MoreAlternatives.tokens, resolves_cons .or (by simp), resolves_append,
      ← Sequence.exists_tree_iff next, ← MoreAlternatives.exists_members_iff more,
      MoreAlternatives.members?]
    cases next.tree? <;> cases more.members? <;> simp
  termination_by structural more => more

/-- a sequence its tree, -/
theorem Sequence.exists_tree_iff : ∀ phrase : Sequence,
    (∃ node, phrase.tree? = some node) ↔ Resolves phrase.tokens
  | .mk first more => by
    rw [Sequence.tokens, resolves_append, ← Term.exists_tree_iff first,
      ← MoreTerms.exists_members_iff more, Sequence.tree?]
    cases first.tree? <;> cases more.members? <;> simp
  termination_by structural phrase => phrase

/-- further terms their members, -/
theorem MoreTerms.exists_members_iff : ∀ more : MoreTerms,
    (∃ members, more.members? = some members) ↔ Resolves more.tokens
  | .none => by simp [MoreTerms.members?, MoreTerms.tokens, resolves_nil]
  | .beside next more => by
    rw [MoreTerms.tokens, resolves_append, ← Term.exists_tree_iff next,
      ← MoreTerms.exists_members_iff more, MoreTerms.members?]
    cases next.tree? <;> cases more.members? <;> simp
  | .and next more => by
    rw [MoreTerms.tokens, resolves_cons .and (by simp), resolves_append, ← Term.exists_tree_iff next,
      ← MoreTerms.exists_members_iff more, MoreTerms.members?]
    cases next.tree? <;> cases more.members? <;> simp
  termination_by structural more => more

/-- and a term its tree: a word and a quoted text always have one. -/
theorem Term.exists_tree_iff : ∀ term : Term,
    (∃ node, term.tree? = some node) ↔ Resolves term.tokens
  | .not inner => by
    rw [Term.tokens, resolves_cons .not (by simp), ← Term.exists_tree_iff inner, Term.tree?]
    cases inner.tree? <;> simp
  | .parens inner => by
    rw [Term.tokens, resolves_cons .opening (by simp), resolves_append,
      ← Alternatives.exists_tree_iff inner, Term.tree?]
    exact ⟨fun h => ⟨h, resolves_single .closing (by simp)⟩, fun h => h.1⟩
  | .comparison field operator value => comparison_exists_tree_iff field operator value
  | .word text => ⟨fun _ => resolves_single (.word text) (by simp), fun _ => ⟨.bare text, rfl⟩⟩
  | .quoted text => ⟨fun _ => resolves_single (.quoted text) (by simp), fun _ => ⟨.bare text, rfl⟩⟩
  termination_by structural term => term

end

/-! ## Where phrases end -/

/-- What may follow a whole sequence. -/
def EndsSequence : List Token → Prop
  | [] => True
  | token :: _ => token = .or ∨ token = .closing

/-- What may follow whole alternatives. -/
def EndsAlternatives : List Token → Prop
  | [] => True
  | token :: _ => token = .closing

/-- What follows alternatives also follows the last sequence in them. -/
theorem EndsAlternatives.endsSequence {rest : List Token} (h : EndsAlternatives rest) :
    EndsSequence rest := by
  cases rest with
  | nil => trivial
  | cons token more => exact Or.inr h

/-- A term ends no sequence: its first token is neither `or` nor a closing parenthesis.  By
    induction on the term, whose first token may be that of its inner term. -/
theorem not_endsSequence_append (term : Term) (rest : List Token) :
    ¬ EndsSequence (term.tokens ++ rest) := by
  cases term <;> simp [Term.tokens, EndsSequence]

/-- A term does not begin with `and`, so a term beside the last one is not one behind `and`. -/
theorem tokens_append_ne_and (term : Term) (rest more : List Token) :
    term.tokens ++ rest ≠ .and :: more := by
  cases term <;> simp [Term.tokens]

/-- Further alternatives, down to what ends alternatives, end a sequence. -/
theorem endsSequence_moreAlternatives (more : MoreAlternatives) {rest : List Token}
    (h : EndsAlternatives rest) : EndsSequence (more.tokens ++ rest) := by
  cases more with
  | none => exact h.endsSequence
  | or next more => exact Or.inl rfl

/-! ## One token list, one phrase -/

mutual

/-- **Unique derivation of alternatives**, with what follows them.  By induction on the first
    phrase, for all five rules at once; further alternatives begin with `or`, so both first
    sequences end there. -/
theorem Alternatives.eq_of_tokens_append : ∀ (a b : Alternatives) {r s : List Token},
    EndsAlternatives r → EndsAlternatives s → a.tokens ++ r = b.tokens ++ s → a = b ∧ r = s
  | .mk first more, .mk first' more', r, s, hr, hs, h => by
    simp only [Alternatives.tokens, List.append_assoc] at h
    -- further alternatives begin with `or`, so both first sequences end where they do
    obtain ⟨rfl, hmore⟩ := Sequence.eq_of_tokens_append first first'
      (endsSequence_moreAlternatives more hr) (endsSequence_moreAlternatives more' hs) h
    obtain ⟨rfl, rfl⟩ := MoreAlternatives.eq_of_tokens_append more more' hr hs hmore
    exact ⟨rfl, rfl⟩
  termination_by structural a => a

/-- The same for further alternatives: `or` goes on, anything else ends them. -/
theorem MoreAlternatives.eq_of_tokens_append : ∀ (a b : MoreAlternatives) {r s : List Token},
    EndsAlternatives r → EndsAlternatives s → a.tokens ++ r = b.tokens ++ s → a = b ∧ r = s
  | .none, .none, _, _, _, _, h => ⟨rfl, h⟩
  | .none, .or next more, r, s, hr, _, h => by
    simp only [MoreAlternatives.tokens, List.nil_append, List.cons_append] at h
    rw [h] at hr
    exact absurd hr (by simp [EndsAlternatives])
  | .or next more, .none, r, s, _, hs, h => by
    simp only [MoreAlternatives.tokens, List.nil_append, List.cons_append] at h
    rw [← h] at hs
    exact absurd hs (by simp [EndsAlternatives])
  | .or next more, .or next' more', r, s, hr, hs, h => by
    simp only [MoreAlternatives.tokens, List.cons_append, List.append_assoc,
      List.cons.injEq, true_and] at h
    obtain ⟨rfl, hmore⟩ := Sequence.eq_of_tokens_append next next'
      (endsSequence_moreAlternatives more hr) (endsSequence_moreAlternatives more' hs) h
    obtain ⟨rfl, rfl⟩ := MoreAlternatives.eq_of_tokens_append more more' hr hs hmore
    exact ⟨rfl, rfl⟩
  termination_by structural a => a

/-- **Unique derivation of a sequence**, with what follows it: both first terms are the same,
    whatever follows them, and then so are the further ones. -/
theorem Sequence.eq_of_tokens_append : ∀ (a b : Sequence) {r s : List Token},
    EndsSequence r → EndsSequence s → a.tokens ++ r = b.tokens ++ s → a = b ∧ r = s
  | .mk first more, .mk first' more', r, s, hr, hs, h => by
    simp only [Sequence.tokens, List.append_assoc] at h
    obtain ⟨rfl, hmore⟩ := Term.eq_of_tokens_append first first' h
    obtain ⟨rfl, rfl⟩ := MoreTerms.eq_of_tokens_append more more' hr hs hmore
    exact ⟨rfl, rfl⟩
  termination_by structural a => a

/-- The same for further terms.  The three rules exclude each other: a term beside the last one
    neither ends a sequence nor begins with `and`. -/
theorem MoreTerms.eq_of_tokens_append : ∀ (a b : MoreTerms) {r s : List Token},
    EndsSequence r → EndsSequence s → a.tokens ++ r = b.tokens ++ s → a = b ∧ r = s
  | .none, .none, _, _, _, _, h => ⟨rfl, h⟩
  | .none, .beside next more, r, s, hr, _, h => by
    simp only [MoreTerms.tokens, List.nil_append, List.append_assoc] at h
    rw [h] at hr
    exact absurd hr (not_endsSequence_append next _)
  | .none, .and next more, r, s, hr, _, h => by
    simp only [MoreTerms.tokens, List.nil_append, List.cons_append] at h
    rw [h] at hr
    exact absurd hr (by simp [EndsSequence])
  | .beside next more, .none, r, s, _, hs, h => by
    simp only [MoreTerms.tokens, List.nil_append, List.append_assoc] at h
    rw [← h] at hs
    exact absurd hs (not_endsSequence_append next _)
  | .beside next more, .beside next' more', r, s, hr, hs, h => by
    simp only [MoreTerms.tokens, List.append_assoc] at h
    obtain ⟨rfl, hmore⟩ := Term.eq_of_tokens_append next next' h
    obtain ⟨rfl, rfl⟩ := MoreTerms.eq_of_tokens_append more more' hr hs hmore
    exact ⟨rfl, rfl⟩
  | .beside next more, .and next' more', r, s, _, _, h => by
    simp only [MoreTerms.tokens, List.append_assoc, List.cons_append] at h
    exact absurd h (tokens_append_ne_and next _ _)
  | .and next more, .none, r, s, _, hs, h => by
    simp only [MoreTerms.tokens, List.nil_append, List.cons_append] at h
    rw [← h] at hs
    exact absurd hs (by simp [EndsSequence])
  | .and next more, .beside next' more', r, s, _, _, h => by
    simp only [MoreTerms.tokens, List.append_assoc, List.cons_append] at h
    exact absurd h.symm (tokens_append_ne_and next' _ _)
  | .and next more, .and next' more', r, s, hr, hs, h => by
    simp only [MoreTerms.tokens, List.cons_append, List.append_assoc,
      List.cons.injEq, true_and] at h
    obtain ⟨rfl, hmore⟩ := Term.eq_of_tokens_append next next' h
    obtain ⟨rfl, rfl⟩ := MoreTerms.eq_of_tokens_append more more' hr hs hmore
    exact ⟨rfl, rfl⟩
  termination_by structural a => a

/-- **Unique derivation of a term**, whatever follows it: the first token decides the rule, and
    within parentheses the closing one ends both phrases. -/
theorem Term.eq_of_tokens_append : ∀ (a b : Term) {r s : List Token},
    a.tokens ++ r = b.tokens ++ s → a = b ∧ r = s
  -- the first token is that of the other term as well, and tells its rule
  | .not inner, b, r, s, h => by
    cases b with
    | not inner' =>
      simp only [Term.tokens, List.cons_append, List.cons.injEq, true_and] at h
      obtain ⟨rfl, hrest⟩ := Term.eq_of_tokens_append inner inner' h
      exact ⟨rfl, hrest⟩
    | _ => simp [Term.tokens] at h
  | .parens inner, b, r, s, h => by
    cases b with
    | parens inner' =>
      simp only [Term.tokens, List.cons_append, List.append_assoc, List.cons.injEq,
        true_and] at h
      -- both sides leave the closing parenthesis first, so the inner phrases are left alike
      have hr : EndsAlternatives ([.closing] ++ r) := rfl
      have hs : EndsAlternatives ([.closing] ++ s) := rfl
      obtain ⟨rfl, hrest⟩ := Alternatives.eq_of_tokens_append inner inner' hr hs h
      exact ⟨rfl, List.append_cancel_left hrest⟩
    | _ => simp [Term.tokens] at h
  | .comparison field operator value, b, r, s, h => by
    cases b <;> simp_all [Term.tokens]
  | .word text, b, r, s, h => by
    cases b <;> simp_all [Term.tokens]
  | .quoted text, b, r, s, h => by
    cases b <;> simp_all [Term.tokens]
  termination_by structural a => a

end

/-- **The grammar is unambiguous**: no two phrases have the same tokens, for nothing follows
    either of them. -/
theorem Alternatives.tokens_injective {a b : Alternatives} (h : a.tokens = b.tokens) : a = b :=
  (Alternatives.eq_of_tokens_append a b (r := []) (s := []) trivial trivial (by rw [h])).1

end CardSearch.Query.Phrase
