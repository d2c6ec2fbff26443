import CardSearch.Proofs.Query.Phrase

/-
  The reader of token lists against the grammar of phrases.

  Reading never looks at the positions of tokens, so both directions speak of a located token list
  through its tokens alone.

  1. **Soundness (`phrase_of_readTerm` …)** — what a function has read is a phrase of its rule, and
     the node is the tree of that phrase.  The induction is the recursion of the reader itself.
  2. **Completeness (`readTerm_of_phrase` …)** — a phrase with a tree is read off the front of any
     list, down to exactly the rest, provided the rest ends phrases of the rule.  The induction is
     on the phrase; the provisos are those of unique derivation.
-/

namespace CardSearch.Query

open Phrase

/-- A sequence of two steps succeeds when the first does and the second does on its result.  All
    readers are such sequences. -/
theorem bind_eq_ok_iff {ε α β : Type} {x : Except ε α} {f : α → Except ε β} {b : β} :
    (x >>= f) = .ok b ↔ ∃ a, x = .ok a ∧ f a = .ok b := by
  constructor
  · intro h
    cases x with
    | error e => cases h
    | ok a => exact ⟨a, rfl, h⟩
  · rintro ⟨a, rfl, h⟩
    exact h

/-! ## Soundness -/

/-- What `closing` takes is a closing parenthesis. -/
theorem eq_closing_append {tokens : List Located} {left : Text.Shorter tokens}
    (h : closing tokens = .ok left) :
    tokens.map Located.token = .closing :: left.1.map Located.token := by
  unfold closing at h
  split at h
  · obtain rfl := Except.ok.inj h
    rfl
  · cases h

theorem readAlternativesRest_eq_all {tokens : List Located}
    (h : ∀ position rest, tokens ≠ ⟨.or, position⟩ :: rest) :
    readAlternativesRest tokens = .ok ([], .all tokens) := by
  rw [readAlternativesRest.eq_def]
  split
  · exact absurd rfl (h _ _)
  · rfl

mutual

/-- **What is read as a term is a term**, with its tree.  By induction on the tokens, together
    with the four other readers; no term begins with a connective or a closing parenthesis. -/
theorem phrase_of_readTerm : ∀ (tokens : List Located) {node : Node} {left : Text.Shorter tokens},
    readTerm tokens = .ok (node, left) → ∃ term : Term,
      tokens.map Located.token = term.tokens ++ left.1.map Located.token ∧
      term.tree? = some node
  | [], _, _, h => by
    rw [readTerm.eq_def] at h
    cases h
  | ⟨token, position⟩ :: rest, node, left, h => by
    rw [readTerm.eq_def] at h
    cases token with
    | not =>
      obtain ⟨⟨inner, more⟩, hread, h⟩ := bind_eq_ok_iff.mp h
      obtain ⟨rfl, rfl⟩ := Prod.mk.inj (Except.ok.inj h)
      obtain ⟨term, htokens, htree⟩ := phrase_of_readTerm rest hread
      refine ⟨.not term, ?_, ?_⟩
      · simp only [List.map_cons, htokens, Term.tokens, List.cons_append]
        rfl
      · rw [Term.tree?, htree]
        rfl
    | opening =>
      obtain ⟨⟨inner, ⟨more, hmore⟩⟩, hread, h⟩ := bind_eq_ok_iff.mp h
      obtain ⟨end', hclosing, h⟩ := bind_eq_ok_iff.mp h
      obtain ⟨rfl, rfl⟩ := Prod.mk.inj (Except.ok.inj h)
      obtain ⟨phrase, htokens, htree⟩ := phrase_of_readAlternatives rest hread
      refine ⟨.parens phrase, ?_, ?_⟩
      · simp only [List.map_cons, htokens, Term.tokens, List.cons_append, List.append_assoc,
          eq_closing_append hclosing]
        rfl
      · rw [Term.tree?, htree]
    | comparison field operator value =>
      obtain ⟨leaf, hleaf, h⟩ := bind_eq_ok_iff.mp h
      obtain ⟨rfl, rfl⟩ := Prod.mk.inj (Except.ok.inj h)
      exact ⟨.comparison field operator value, rfl,
        comparison_tree?_eq_some_iff.mpr ⟨leaf, hleaf, rfl⟩⟩
    | word text =>
      obtain ⟨rfl, rfl⟩ := Prod.mk.inj (Except.ok.inj h)
      exact ⟨.word text, rfl, rfl⟩
    | quoted text =>
      obtain ⟨rfl, rfl⟩ := Prod.mk.inj (Except.ok.inj h)
      exact ⟨.quoted text, rfl, rfl⟩
    -- no term begins with any of these
    | and => cases h
    | or => cases h
    | closing => cases h
  termination_by tokens => (tokens.length, 0)

/-- What is read as further terms are further terms, each beside the last one or behind `and`. -/
theorem phrase_of_readSequenceRest : ∀ (tokens : List Located)
    {members : List (Connective × Node)} {left : Text.Within tokens},
    readSequenceRest tokens = .ok (members, left) → ∃ more : MoreTerms,
      tokens.map Located.token = more.tokens ++ left.1.map Located.token ∧
      more.members? = some members
  | [], _, _, h => by
    rw [readSequenceRest] at h
    obtain ⟨rfl, rfl⟩ := Prod.mk.inj (Except.ok.inj h)
    exact ⟨.none, rfl, rfl⟩
  | next :: rest, members, left, h => by
    rw [readSequenceRest] at h
    split at h
    -- before `or` and before a closing parenthesis there is no further term
    · obtain ⟨rfl, rfl⟩ := Prod.mk.inj (Except.ok.inj h)
      exact ⟨.none, rfl, rfl⟩
    · obtain ⟨rfl, rfl⟩ := Prod.mk.inj (Except.ok.inj h)
      exact ⟨.none, rfl, rfl⟩
    · rename_i htoken
      obtain ⟨⟨node, ⟨more, hmore⟩⟩, hread, h⟩ := bind_eq_ok_iff.mp h
      obtain ⟨⟨others, left'⟩, hrest, h⟩ := bind_eq_ok_iff.mp h
      obtain ⟨rfl, rfl⟩ := Prod.mk.inj (Except.ok.inj h)
      obtain ⟨term, htokens, htree⟩ := phrase_of_readTerm rest hread
      obtain ⟨terms, htokens', hmembers⟩ := phrase_of_readSequenceRest more hrest
      refine ⟨.and term terms, ?_, ?_⟩
      · simp only [List.map_cons, htoken, htokens, htokens', MoreTerms.tokens, List.cons_append,
          List.append_assoc]
        rfl
      · exact MoreTerms.members?_and_eq_some_iff.mpr ⟨node, others, htree, hmembers, rfl⟩
    · obtain ⟨⟨node, ⟨more, hmore⟩⟩, hread, h⟩ := bind_eq_ok_iff.mp h
      obtain ⟨⟨others, left'⟩, hrest, h⟩ := bind_eq_ok_iff.mp h
      obtain ⟨rfl, rfl⟩ := Prod.mk.inj (Except.ok.inj h)
      obtain ⟨term, htokens, htree⟩ := phrase_of_readTerm (next :: rest) hread
      obtain ⟨terms, htokens', hmembers⟩ := phrase_of_readSequenceRest more hrest
      refine ⟨.beside term terms, ?_, ?_⟩
      · simp only [htokens, htokens', MoreTerms.tokens, List.append_assoc]
        rfl
      · exact MoreTerms.members?_beside_eq_some_iff.mpr ⟨node, others, htree, hmembers, rfl⟩
  termination_by tokens => (tokens.length, 1)

/-- What is read as a sequence is a term and further terms. -/
theorem phrase_of_readSequence : ∀ (tokens : List Located) {node : Node}
    {left : Text.Shorter tokens}, readSequence tokens = .ok (node, left) → ∃ phrase : Sequence,
      tokens.map Located.token = phrase.tokens ++ left.1.map Located.token ∧
      phrase.tree? = some node
  | tokens, node, left, h => by
    rw [readSequence] at h
    obtain ⟨⟨first, ⟨more, hmore⟩⟩, hread, h⟩ := bind_eq_ok_iff.mp h
    obtain ⟨⟨members, left'⟩, hrest, h⟩ := bind_eq_ok_iff.mp h
    obtain ⟨rfl, rfl⟩ := Prod.mk.inj (Except.ok.inj h)
    obtain ⟨term, htokens, htree⟩ := phrase_of_readTerm tokens hread
    obtain ⟨terms, htokens', hmembers⟩ := phrase_of_readSequenceRest more hrest
    refine ⟨.mk term terms, ?_, ?_⟩
    · simp only [htokens, htokens', Sequence.tokens, List.append_assoc]
      rfl
    · rw [join_eq_chain]
      exact Sequence.tree?_eq_some_iff.mpr ⟨first, members, htree, hmembers, rfl⟩
  termination_by tokens => (tokens.length, 2)

/-- What is read as further alternatives are sequences behind `or`. -/
theorem phrase_of_readAlternativesRest : ∀ (tokens : List Located)
    {members : List (Connective × Node)} {left : Text.Within tokens},
    readAlternativesRest tokens = .ok (members, left) → ∃ more : MoreAlternatives,
      tokens.map Located.token = more.tokens ++ left.1.map Located.token ∧
      more.members? = some members
  | [], members, left, h => by
    rw [readAlternativesRest_eq_all (by simp)] at h
    obtain ⟨rfl, rfl⟩ := Prod.mk.inj (Except.ok.inj h)
    exact ⟨.none, rfl, rfl⟩
  | ⟨token, position⟩ :: rest, members, left, h => by
    by_cases htoken : token = .or
    · subst htoken
      rw [readAlternativesRest] at h
      obtain ⟨⟨node, ⟨more, hmore⟩⟩, hread, h⟩ := bind_eq_ok_iff.mp h
      obtain ⟨⟨others, left'⟩, hrest, h⟩ := bind_eq_ok_iff.mp h
      obtain ⟨rfl, rfl⟩ := Prod.mk.inj (Except.ok.inj h)
      obtain ⟨phrase, htokens, htree⟩ := phrase_of_readSequence rest hread
      obtain ⟨phrases, htokens', hmembers⟩ := phrase_of_readAlternativesRest more hrest
      refine ⟨.or phrase phrases, ?_, ?_⟩
      · simp only [List.map_cons, htokens, htokens', MoreAlternatives.tokens, List.cons_append,
          List.append_assoc]
        rfl
      · exact MoreAlternatives.members?_or_eq_some_iff.mpr ⟨node, others, htree, hmembers, rfl⟩
    · rw [readAlternativesRest_eq_all (by simp [htoken])] at h
      obtain ⟨rfl, rfl⟩ := Prod.mk.inj (Except.ok.inj h)
      exact ⟨.none, rfl, rfl⟩
  termination_by tokens => (tokens.length, 3)

/-- What is read as alternatives is a sequence and further ones. -/
theorem phrase_of_readAlternatives : ∀ (tokens : List Located) {node : Node}
    {left : Text.Shorter tokens}, readAlternatives tokens = .ok (node, left) →
    ∃ phrase : Alternatives,
      tokens.map Located.token = phrase.tokens ++ left.1.map Located.token ∧
      phrase.tree? = some node
  | tokens, node, left, h => by
    rw [readAlternatives] at h
    obtain ⟨⟨first, ⟨more, hmore⟩⟩, hread, h⟩ := bind_eq_ok_iff.mp h
    obtain ⟨⟨members, left'⟩, hrest, h⟩ := bind_eq_ok_iff.mp h
    obtain ⟨rfl, rfl⟩ := Prod.mk.inj (Except.ok.inj h)
    obtain ⟨phrase, htokens, htree⟩ := phrase_of_readSequence tokens hread
    obtain ⟨phrases, htokens', hmembers⟩ := phrase_of_readAlternativesRest more hrest
    refine ⟨.mk phrase phrases, ?_, ?_⟩
    · simp only [htokens, htokens', Alternatives.tokens, List.append_assoc]
      rfl
    · rw [join_eq_chain]
      exact Alternatives.tree?_eq_some_iff.mpr ⟨first, members, htree, hmembers, rfl⟩
  termination_by tokens => (tokens.length, 4)

end

/-! ## Completeness -/

theorem exists_located_cons {tokens : List Located} {token : Token} {after : List Token}
    (h : tokens.map Located.token = token :: after) :
    ∃ position rest, tokens = ⟨token, position⟩ :: rest ∧ rest.map Located.token = after := by
  obtain ⟨⟨token, position⟩, rest, rfl, rfl, hrest⟩ := List.map_eq_cons_iff.mp h
  exact ⟨position, rest, rfl, hrest⟩

/-- Where a sequence ends there is no further term. -/
theorem readSequenceRest_eq_all {tokens : List Located}
    (h : EndsSequence (tokens.map Located.token)) :
    readSequenceRest tokens = .ok ([], .all tokens) := by
  cases tokens with
  | nil =>
    rw [readSequenceRest.eq_def]
    rfl
  | cons next rest =>
    rw [readSequenceRest.eq_def]
    rcases h with h | h
    · simp only [h]
      rfl
    · simp only [h]
      rfl

/-- Where a sequence neither ends nor goes on with `and`, a term stands beside the last one.  The
    reader tells these three cases by the next token. -/
theorem readSequenceRest_eq_beside {next : Located} {rest : List Located}
    (hends : ¬ EndsSequence ((next :: rest).map Located.token)) (hand : next.token ≠ .and) :
    readSequenceRest (next :: rest) = (do
      let (node, ⟨more, h⟩) ← readTerm (next :: rest)
      let (members, left) ← readSequenceRest more
      return ((.implicit, node) :: members, (left.shorter h).within)) := by
  rw [readSequenceRest.eq_def]
  dsimp only
  split
  · rename_i hor
    exact absurd (Or.inl hor) hends
  · rename_i hclosing
    exact absurd (Or.inr hclosing) hends
  · rename_i htoken
    exact absurd htoken hand
  · rfl

mutual

/-- **A term with a tree is read**, whatever follows it.  By induction on the phrase, together
    with the other rules; within parentheses the closing one ends the alternatives. -/
theorem readTerm_of_phrase : ∀ (term : Term) {node : Node} {tokens : List Located}
    {after : List Token}, term.tree? = some node → tokens.map Located.token = term.tokens ++ after →
    ∃ left, readTerm tokens = .ok (node, left) ∧ left.1.map Located.token = after
  | .not inner, node, tokens, after, htree, h => by
    rw [Term.tree?, Option.map_eq_some_iff] at htree
    obtain ⟨node, htree, rfl⟩ := htree
    obtain ⟨position, rest, rfl, hrest⟩ := exists_located_cons h
    obtain ⟨left, hread, hleft⟩ := readTerm_of_phrase inner htree hrest
    refine ⟨left.cons, ?_, hleft⟩
    rw [readTerm, hread]
    rfl
  | .parens inner, node, tokens, after, htree, h => by
    rw [Term.tokens, List.cons_append, List.append_assoc] at h
    obtain ⟨position, rest, rfl, hrest⟩ := exists_located_cons h
    -- within the parentheses the closing one is what follows, and it ends alternatives
    have hends : EndsAlternatives ([.closing] ++ after) := rfl
    obtain ⟨⟨left, hleft⟩, hread, hclosing⟩ := readAlternatives_of_phrase inner htree hends hrest
    obtain ⟨position', rest', rfl, hafter⟩ := exists_located_cons hclosing
    refine ⟨⟨rest', ?_⟩, ?_, hafter⟩
    · simp only [List.length_cons] at hleft ⊢
      omega
    · rw [readTerm, hread]
      rfl
  | .comparison field operator value, node, tokens, after, htree, h => by
    obtain ⟨position, rest, rfl, hrest⟩ := exists_located_cons h
    obtain ⟨leaf, hleaf, rfl⟩ := comparison_tree?_eq_some_iff.mp htree
    refine ⟨.tail _ rest, ?_, hrest⟩
    rw [readTerm, hleaf]
    rfl
  | .word text, node, tokens, after, htree, h => by
    obtain ⟨position, rest, rfl, hrest⟩ := exists_located_cons h
    obtain rfl := Option.some.inj htree
    refine ⟨.tail _ rest, ?_, hrest⟩
    rw [readTerm]
    rfl
  | .quoted text, node, tokens, after, htree, h => by
    obtain ⟨position, rest, rfl, hrest⟩ := exists_located_cons h
    obtain rfl := Option.some.inj htree
    refine ⟨.tail _ rest, ?_, hrest⟩
    rw [readTerm]
    rfl
  termination_by structural term => term

/-- Further terms are read down to what ends a sequence.  The first token of a term is neither
    that nor `and`. -/
theorem readSequenceRest_of_phrase : ∀ (more : MoreTerms) {members : List (Connective × Node)}
    {tokens : List Located} {after : List Token}, more.members? = some members →
    EndsSequence after → tokens.map Located.token = more.tokens ++ after →
    ∃ left, readSequenceRest tokens = .ok (members, left) ∧ left.1.map Located.token = after
  | .none, members, tokens, after, hmembers, hends, h => by
    obtain rfl := Option.some.inj hmembers
    rw [MoreTerms.tokens, List.nil_append] at h
    exact ⟨.all tokens, readSequenceRest_eq_all (h ▸ hends), h⟩
  | .beside next more, members, tokens, after, hall, hends, h => by
    obtain ⟨node, others, htree, hmembers, rfl⟩ :=
      MoreTerms.members?_beside_eq_some_iff.mp hall
    rw [MoreTerms.tokens, List.append_assoc] at h
    obtain ⟨⟨rest, hrest⟩, hread, hafter⟩ := readTerm_of_phrase next htree h
    obtain ⟨left, hread', hleft⟩ := readSequenceRest_of_phrase more hmembers hends hafter
    refine ⟨(left.shorter hrest).within, ?_, hleft⟩
    cases tokens with
    | nil => exact absurd hrest (by simp)
    | cons first following =>
      -- the first token is that of a term, so neither of the other two rules applies
      have hnot : ¬ EndsSequence ((first :: following).map Located.token) := by
        rw [h]
        exact not_endsSequence_append next _
      have hand : first.token ≠ .and := by
        intro hand
        rw [List.map_cons, hand] at h
        exact tokens_append_ne_and next _ _ h.symm
      rw [readSequenceRest_eq_beside hnot hand, hread]
      simp only [bind, Except.bind, hread']
      rfl
  | .and next more, members, tokens, after, hall, hends, h => by
    obtain ⟨node, others, htree, hmembers, rfl⟩ :=
      MoreTerms.members?_and_eq_some_iff.mp hall
    rw [MoreTerms.tokens, List.cons_append, List.append_assoc] at h
    obtain ⟨position, following, rfl, hfollowing⟩ := exists_located_cons h
    obtain ⟨⟨rest, hrest⟩, hread, hafter⟩ := readTerm_of_phrase next htree hfollowing
    obtain ⟨left, hread', hleft⟩ := readSequenceRest_of_phrase more hmembers hends hafter
    refine ⟨(left.shorter hrest).within.cons, ?_, hleft⟩
    rw [readSequenceRest.eq_def]
    simp only [hread, bind, Except.bind, hread']
    rfl
  termination_by structural more => more

/-- A sequence is read down to what ends it. -/
theorem readSequence_of_phrase : ∀ (phrase : Sequence) {node : Node} {tokens : List Located}
    {after : List Token}, phrase.tree? = some node → EndsSequence after →
    tokens.map Located.token = phrase.tokens ++ after →
    ∃ left, readSequence tokens = .ok (node, left) ∧ left.1.map Located.token = after
  | .mk first more, node, tokens, after, hwhole, hends, h => by
    obtain ⟨node, members, htree, hmembers, rfl⟩ := Sequence.tree?_eq_some_iff.mp hwhole
    rw [Sequence.tokens, List.append_assoc] at h
    obtain ⟨⟨rest, hrest⟩, hread, hafter⟩ := readTerm_of_phrase first htree h
    obtain ⟨left, hread', hleft⟩ := readSequenceRest_of_phrase more hmembers hends hafter
    refine ⟨left.shorter hrest, ?_, hleft⟩
    rw [readSequence, hread, ← join_eq_chain]
    simp only [bind, Except.bind, hread']
    rfl
  termination_by structural phrase => phrase

/-- Further alternatives are read down to what ends alternatives, and each of their sequences
    down to the next `or`. -/
theorem readAlternativesRest_of_phrase : ∀ (more : MoreAlternatives)
    {members : List (Connective × Node)} {tokens : List Located} {after : List Token},
    more.members? = some members → EndsAlternatives after →
    tokens.map Located.token = more.tokens ++ after →
    ∃ left, readAlternativesRest tokens = .ok (members, left) ∧ left.1.map Located.token = after
  | .none, members, tokens, after, hmembers, hends, h => by
    obtain rfl := Option.some.inj hmembers
    rw [MoreAlternatives.tokens, List.nil_append] at h
    refine ⟨.all tokens, readAlternativesRest_eq_all ?_, h⟩
    rintro position rest rfl
    rw [← h] at hends
    exact absurd hends (by simp [EndsAlternatives])
  | .or next more, members, tokens, after, hall, hends, h => by
    obtain ⟨node, others, htree, hmembers, rfl⟩ :=
      MoreAlternatives.members?_or_eq_some_iff.mp hall
    rw [MoreAlternatives.tokens, List.cons_append, List.append_assoc] at h
    obtain ⟨position, following, rfl, hfollowing⟩ := exists_located_cons h
    obtain ⟨⟨rest, hrest⟩, hread, hafter⟩ :=
      readSequence_of_phrase next htree (endsSequence_moreAlternatives more hends) hfollowing
    obtain ⟨left, hread', hleft⟩ := readAlternativesRest_of_phrase more hmembers hends hafter
    refine ⟨(left.shorter hrest).within.cons, ?_, hleft⟩
    rw [readAlternativesRest, hread]
    simp only [bind, Except.bind, hread']
    rfl
  termination_by structural more => more

/-- Alternatives are read down to what ends them. -/
theorem readAlternatives_of_phrase : ∀ (phrase : Alternatives) {node : Node}
    {tokens : List Located} {after : List Token}, phrase.tree? = some node →
    EndsAlternatives after → tokens.map Located.token = phrase.tokens ++ after →
    ∃ left, readAlternatives tokens = .ok (node, left) ∧ left.1.map Located.token = after
  | .mk first more, node, tokens, after, hwhole, hends, h => by
    obtain ⟨node, members, htree, hmembers, rfl⟩ := Alternatives.tree?_eq_some_iff.mp hwhole
    rw [Alternatives.tokens, List.append_assoc] at h
    obtain ⟨⟨rest, hrest⟩, hread, hafter⟩ :=
      readSequence_of_phrase first htree (endsSequence_moreAlternatives more hends) h
    obtain ⟨left, hread', hleft⟩ := readAlternativesRest_of_phrase more hmembers hends hafter
    refine ⟨left.shorter hrest, ?_, hleft⟩
    rw [readAlternatives, hread, ← join_eq_chain]
    simp only [bind, Except.bind, hread']
    rfl
  termination_by structural phrase => phrase

end

/-! ## Whole token lists -/

/-- A whole list is read when its alternatives are, with nothing left; any token that is left is
    blamed. -/
theorem ofTokens_eq_ok_iff_read {tokens : List Located} {tree : Node} :
    Node.ofTokens tokens = .ok tree ↔ ∃ h, readAlternatives tokens = .ok (tree, ⟨[], h⟩) := by
  constructor
  · intro h
    obtain ⟨⟨node, ⟨left, hleft⟩⟩, hread, h⟩ := bind_eq_ok_iff.mp h
    cases left with
    | nil =>
      obtain rfl := Except.ok.inj h
      exact ⟨hleft, hread⟩
    | cons token more => cases h
  · rintro ⟨hlength, hread⟩
    rw [Node.ofTokens, hread]
    rfl

/-- A whole list has the tree of the phrase that it is: it is read as a phrase, and every phrase
    with a tree is read. -/
theorem ofTokens_eq_ok_iff {tokens : List Located} {tree : Node} :
    Node.ofTokens tokens = .ok tree ↔
      ∃ phrase : Alternatives, phrase.tokens = tokens.map Located.token ∧
        phrase.tree? = some tree := by
  rw [ofTokens_eq_ok_iff_read]
  constructor
  · rintro ⟨hlength, hread⟩
    obtain ⟨phrase, htokens, htree⟩ := phrase_of_readAlternatives tokens hread
    exact ⟨phrase, by rw [htokens, List.map_nil, List.append_nil], htree⟩
  · rintro ⟨phrase, htokens, htree⟩
    have hends : EndsAlternatives [] := trivial
    have hwhole : tokens.map Located.token = phrase.tokens ++ [] := by
      rw [htokens, List.append_nil]
    obtain ⟨⟨left, hlength⟩, hread, hleft⟩ := readAlternatives_of_phrase phrase htree hends hwhole
    obtain rfl := List.map_eq_nil_iff.mp hleft
    exact ⟨hlength, hread⟩

/-- **The reader accepts the grammar, and nothing else.**  For every token list:
    (1) a tree is returned exactly when it is the tree of a derivation of the list;
    (2) the list has no two derivations;
    (3) it is accepted exactly when it has a derivation and each of its comparisons has a meaning,
    (4) and gives an error otherwise;
    (5) accepting it uses every token. -/
theorem ofTokens_iff_derivation (tokens : List Located) :
    (∀ tree, Node.ofTokens tokens = .ok tree ↔
      ∃ phrase : Alternatives, phrase.tokens = tokens.map Located.token ∧
        phrase.tree? = some tree) ∧
    (∀ a b : Alternatives, a.tokens = tokens.map Located.token →
      b.tokens = tokens.map Located.token → a = b) ∧
    ((∃ tree, Node.ofTokens tokens = .ok tree) ↔
      (∃ phrase : Alternatives, phrase.tokens = tokens.map Located.token) ∧
        Resolves (tokens.map Located.token)) ∧
    ((∃ e, Node.ofTokens tokens = .error e) ↔
      ¬ ((∃ phrase : Alternatives, phrase.tokens = tokens.map Located.token) ∧
        Resolves (tokens.map Located.token))) ∧
    (∀ tree, Node.ofTokens tokens = .ok tree →
      ∃ h, readAlternatives tokens = .ok (tree, ⟨[], h⟩)) := by
  have haccepts : (∃ tree, Node.ofTokens tokens = .ok tree) ↔
      (∃ phrase : Alternatives, phrase.tokens = tokens.map Located.token) ∧
        Resolves (tokens.map Located.token) := by
    constructor
    · rintro ⟨tree, h⟩
      obtain ⟨phrase, htokens, htree⟩ := ofTokens_eq_ok_iff.mp h
      refine ⟨⟨phrase, htokens⟩, ?_⟩
      rw [← htokens]
      exact (Alternatives.exists_tree_iff phrase).mp ⟨tree, htree⟩
    · rintro ⟨⟨phrase, htokens⟩, hresolves⟩
      rw [← htokens] at hresolves
      obtain ⟨tree, htree⟩ := (Alternatives.exists_tree_iff phrase).mpr hresolves
      exact ⟨tree, ofTokens_eq_ok_iff.mpr ⟨phrase, htokens, htree⟩⟩
  refine ⟨fun tree => ofTokens_eq_ok_iff, ?_, haccepts, ?_, ?_⟩
  · intro a b ha hb
    exact Alternatives.tokens_injective (ha.trans hb.symm)
  · rw [← haccepts]
    cases Node.ofTokens tokens <;> simp
  · intro tree h
    exact ofTokens_eq_ok_iff_read.mp h

/-- `-(a or b) c`: the group that the dash negates stands first in a group of its own making.  The
    derivation is the only one, and it is read to the end. -/
theorem ofTokens_negated_group :
    let tokens : List Located := [⟨.not, 0⟩, ⟨.opening, 1⟩, ⟨.word "a", 2⟩, ⟨.or, 4⟩,
      ⟨.word "b", 7⟩, ⟨.closing, 8⟩, ⟨.word "c", 10⟩]
    let choice := Alternatives.mk (.mk (.word "a") .none) (.or (.mk (.word "b") .none) .none)
    let phrase := Alternatives.mk (.mk (.not (.parens choice)) (.beside (.word "c") .none)) .none
    let tree := Node.group false (.group true (.bare "a") [(.or, .bare "b")])
      [(.implicit, .bare "c")]
    (phrase.tokens = tokens.map Located.token ∧ phrase.tree? = some tree) ∧
      Node.ofTokens tokens = .ok tree ∧
      (∀ other : Alternatives, other.tokens = tokens.map Located.token → other = phrase) ∧
      ∃ h, readAlternatives tokens = .ok (tree, ⟨[], h⟩) := by
  intro tokens choice phrase tree
  have htokens : phrase.tokens = tokens.map Located.token := rfl
  have htree : phrase.tree? = some tree := rfl
  obtain ⟨haccepts, hunique, _, _, hends⟩ := ofTokens_iff_derivation tokens
  have hread : Node.ofTokens tokens = .ok tree := (haccepts tree).mpr ⟨phrase, htokens, htree⟩
  exact ⟨⟨htokens, htree⟩, hread, fun other h => hunique other phrase h htokens, hends tree hread⟩

end CardSearch.Query
