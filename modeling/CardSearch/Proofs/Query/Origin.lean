import CardSearch.Proofs.Query.Leaves

/-
  Where the values of a query come from.

  1. **Tokens (`Cuts.content_subset`)** — a token carries characters of the text and no others: a
     word, what stands in quotes, or the value behind an operator.
  2. **The crux (`stated_of_phrase` …)** — each condition of the tree of a phrase has the value that
     is read from what one of its tokens carries.  Negations are passed over, so the statement is
     about fields and values only.
  3. **Queries (`exists_raw_of_parse`)** — so nothing is in the value of a condition that was not read
     from a part of the text.
-/

namespace CardSearch.Query

open Phrase

/-! ## What tokens carry -/

/-- The text that a token carries: one to search for, or the value of a comparison. -/
def Token.raw? : Token → Option String
  | .comparison _ _ raw => some raw
  | .word text | .quoted text => some text
  | _ => none

/-- A token carries characters of a list, if it carries any. -/
def Token.Within (chars : List Char) (token : Token) : Prop :=
  ∀ raw, token.raw? = some raw → raw.toList ⊆ chars

theorem Token.Within.mono {token : Token} {chars more : List Char} (h : token.Within chars)
    (hsubset : chars ⊆ more) : token.Within more :=
  fun raw hraw => List.Subset.trans (h raw hraw) hsubset

theorem subset_of_take? {text left : List Char} {operator : Operator}
    (h : Operator.take? text = some (operator, left)) : left ⊆ text := by
  rw [Operator.eq_append_of_take? h]
  exact List.subset_append_right _ _

/-- Backslashes and the closing quote are left out of what stands in quotes, and nothing is
    added.  The induction is that of the reader. -/
theorem subset_of_scanQuoted {quote : Char} {text content left : List Char}
    (h : scanQuoted quote text = .ok (content, left)) : content ⊆ text ∧ left ⊆ text := by
  fun_induction scanQuoted quote text generalizing content with
  | case1 => cases h
  | case2 c rest hquote =>
    obtain ⟨rfl, rfl⟩ := Prod.mk.inj (Except.ok.inj h)
    exact ⟨List.nil_subset _, List.subset_cons_self _ _⟩
  | case3 => cases h
  | case4 => cases h
  | case5 c hquote hslash escaped rest inner left' hscan ih =>
    obtain ⟨rfl, rfl⟩ := Prod.mk.inj (Except.ok.inj h)
    obtain ⟨hcontent, hleft⟩ := ih hscan
    exact ⟨List.subset_cons_of_subset _ (List.cons_subset_cons _ hcontent),
      List.subset_cons_of_subset _ (List.subset_cons_of_subset _ hleft)⟩
  | case6 => cases h
  | case7 c rest hquote hslash inner left' hscan ih =>
    obtain ⟨rfl, rfl⟩ := Prod.mk.inj (Except.ok.inj h)
    obtain ⟨hcontent, hleft⟩ := ih hscan
    exact ⟨List.cons_subset_cons _ hcontent, List.subset_cons_of_subset _ hleft⟩

/-- A value is made of characters behind its operator, whether it is quoted or not. -/
theorem subset_of_scanValue {text value left : List Char}
    (h : scanValue text = .ok (value, left)) : value ⊆ text ∧ left ⊆ text := by
  cases text with
  | nil =>
    obtain ⟨rfl, rfl⟩ := Prod.mk.inj (Except.ok.inj h)
    exact ⟨List.nil_subset _, List.nil_subset _⟩
  | cons c rest =>
    cases hquote : isQuote c with
    | true =>
      rw [scanValue_of_quote hquote] at h
      obtain ⟨hcontent, hleft⟩ := subset_of_scanQuoted h
      exact ⟨List.subset_cons_of_subset _ hcontent, List.subset_cons_of_subset _ hleft⟩
    | false =>
      rw [scanValue_of_plain hquote] at h
      obtain ⟨rfl, rfl⟩ := Prod.mk.inj (Except.ok.inj h)
      exact ⟨(List.takeWhile_sublist _).subset, (List.dropWhile_sublist _).subset⟩

/-- A word and what is left behind it are made of characters of the text. -/
theorem subset_scanWord (text : List Char) :
    (scanWord text).1 ⊆ text ∧ (scanWord text).2 ⊆ text := by
  induction text with
  | nil => exact ⟨List.nil_subset _, List.nil_subset _⟩
  | cons c rest ih =>
    obtain ⟨hword, hleft⟩ := ih
    rw [scanWord]
    split
    · exact ⟨List.nil_subset _, List.Subset.refl _⟩
    · exact ⟨List.cons_subset_cons _ hword, List.subset_cons_of_subset _ hleft⟩

/-- A word alone carries itself, unless it is a connective. -/
theorem within_wordToken (word : List Char) : (wordToken word).Within word := by
  unfold wordToken
  dsimp only
  split
  · exact fun raw hraw => nomatch hraw
  split
  · exact fun raw hraw => nomatch hraw
  · intro raw hraw
    obtain rfl := Option.some.inj hraw
    rw [String.toList_ofList]
    exact List.Subset.refl word

/-- A term carries characters of its word and of what follows the word. -/
theorem within_of_scanTerm {word text left : List Char} {token : Token}
    (h : scanTerm word text = .ok (token, left)) : token.Within (word ++ text) ∧ left ⊆ text := by
  unfold scanTerm at h
  split at h
  · obtain ⟨rfl, rfl⟩ := Prod.mk.inj (Except.ok.inj h)
    exact ⟨(within_wordToken word).mono (List.subset_append_left _ _), List.Subset.refl _⟩
  · rename_i operator more htake
    have hmore := subset_of_take? htake
    split at h
    · cases h
    · rename_i value left' hvalue
      obtain ⟨rfl, rfl⟩ := Prod.mk.inj (Except.ok.inj h)
      obtain ⟨hcontent, hleft⟩ := subset_of_scanValue hvalue
      refine ⟨fun raw hraw => ?_, List.Subset.trans hleft hmore⟩
      obtain rfl := Option.some.inj hraw
      rw [String.toList_ofList]
      exact List.subset_append_of_subset_right _ (List.Subset.trans hcontent hmore)

/-- **The step**: a token carries characters of the text from which it is taken.  By cases on its
    first character; the marks carry none. -/
theorem Takes.within {c : Char} {rest left : List Char} {token : Token}
    (h : Takes c rest token left) : token.Within (c :: rest) ∧ left ⊆ rest := by
  cases h with
  | opening | closing | not => exact ⟨(fun raw hraw => nomatch hraw), List.Subset.refl _⟩
  | quoted _ hscan =>
    obtain ⟨hcontent, hleft⟩ := subset_of_scanQuoted hscan
    refine ⟨fun raw hraw => ?_, hleft⟩
    obtain rfl := Option.some.inj hraw
    rw [String.toList_ofList]
    exact List.subset_cons_of_subset c hcontent
  | term _ _ _ hscan =>
    obtain ⟨hword, hmore⟩ := subset_scanWord rest
    obtain ⟨hwithin, hleft⟩ := within_of_scanTerm hscan
    exact ⟨hwithin.mono (List.cons_subset_cons _ (List.append_subset.mpr ⟨hword, hmore⟩)),
      List.Subset.trans hleft hmore⟩

/-- **The run**: so do all tokens of a text.  By induction on how it is cut. -/
theorem Cuts.within {text : List Char} {tokens : List Token} (h : Cuts text tokens) :
    ∀ token ∈ tokens, token.Within text := by
  induction h with
  | nil => exact fun _ hmem => nomatch hmem
  | blank _ _ ih => exact fun token hmem => (ih token hmem).mono (List.subset_cons_self _ _)
  | token _ htakes _ ih =>
    obtain ⟨hwithin, hleft⟩ := htakes.within
    refine List.forall_mem_cons.mpr ⟨hwithin, fun token hmem => ?_⟩
    exact (ih token hmem).mono (List.subset_cons_of_subset _ hleft)

/-! ## Values of conditions -/

/-- Each condition of a tree has a value that is read from what a token carries. -/
def Node.StatedBy (tokens : List Token) (node : Node) : Prop :=
  ∀ leaf ∈ node.leaves, ∃ token ∈ tokens, ∃ raw, token.raw? = some raw ∧
    Value.ofText? leaf.field raw = some leaf.value

namespace Node

variable {tokens : List Token}

theorem StatedBy.mono {node : Node} {more : List Token} (h : node.StatedBy tokens)
    (hsubset : tokens ⊆ more) : node.StatedBy more := by
  intro leaf hleaf
  obtain ⟨token, htoken, hraw⟩ := h leaf hleaf
  exact ⟨token, hsubset htoken, hraw⟩

/-- A negation changes neither the field nor the value of a condition, so it can be passed over. -/
theorem StatedBy.negate {node : Node} (h : node.StatedBy tokens) : node.negate.StatedBy tokens := by
  cases node with
  | condition leaf =>
    have hleaf := h leaf (List.mem_singleton_self leaf)
    exact List.forall_mem_singleton.mpr hleaf
  | group negated first rest => exact h

/-- The conditions of further members are stated if those of each member are.  By induction on the
    members. -/
theorem statedBy_leavesOf {members : List (Connective × Node)}
    (h : ∀ member ∈ members, member.2.StatedBy tokens) :
    ∀ leaf ∈ leavesOf members, ∃ token ∈ tokens, ∃ raw, token.raw? = some raw ∧
      Value.ofText? leaf.field raw = some leaf.value := by
  induction members with
  | nil => exact List.forall_mem_nil _
  | cons member rest ih =>
    obtain ⟨hmember, hrest⟩ := List.forall_mem_cons.mp h
    exact List.forall_mem_append.mpr ⟨hmember, ih hrest⟩

theorem statedBy_chain {first : Node} {members : List (Connective × Node)}
    (hfirst : first.StatedBy tokens) (h : ∀ member ∈ members, member.2.StatedBy tokens) :
    (chain first members).StatedBy tokens := by
  cases members with
  | nil => exact hfirst
  | cons second more => exact List.forall_mem_append.mpr ⟨hfirst, statedBy_leavesOf h⟩

theorem statedBy_bare {token : Token} {text : String} (h : token.raw? = some text) :
    (bare text).StatedBy [token] :=
  List.forall_mem_singleton.mpr ⟨token, List.mem_singleton_self token, text, h, rfl⟩

end Node

mutual

/-- A comparison is stated by its token, and a bare text by its own.  By induction on the phrase,
    together with the other rules of the grammar. -/
theorem stated_of_term : ∀ (term : Term) {node : Node}, term.tree? = some node →
    node.StatedBy term.tokens
  | .not inner, node, h => by
    rw [Term.tree?, Option.map_eq_some_iff] at h
    obtain ⟨node, htree, rfl⟩ := h
    exact (stated_of_term inner htree).negate.mono (List.subset_cons_self _ _)
  | .parens inner, node, h => by
    apply (stated_of_phrase inner h).mono
    exact List.subset_cons_of_subset _ (List.subset_append_left _ _)
  | .comparison field operator value, node, h => by
    obtain ⟨leaf, hleaf, rfl⟩ := comparison_tree?_eq_some_iff.mp h
    obtain ⟨known, read, _, _, _, hvalue, rfl⟩ := condition_eq_ok_iff.mp hleaf
    exact List.forall_mem_singleton.mpr ⟨_, List.mem_singleton_self _, value, rfl, hvalue⟩
  | .word text, node, h => by
    obtain rfl := Option.some.inj h
    exact Node.statedBy_bare rfl
  | .quoted text, node, h => by
    obtain rfl := Option.some.inj h
    exact Node.statedBy_bare rfl
  termination_by structural term => term

/-- Further terms are stated by their own tokens, which are among all of them. -/
theorem stated_of_moreTerms : ∀ (more : MoreTerms) {members : List (Connective × Node)},
    more.members? = some members → ∀ member ∈ members, member.2.StatedBy more.tokens
  | .none, members, h => by
    obtain rfl := Option.some.inj h
    exact fun member hmember => nomatch hmember
  | .beside next more, members, h => by
    obtain ⟨node, others, htree, hothers, rfl⟩ := MoreTerms.members?_beside_eq_some_iff.mp h
    refine List.forall_mem_cons.mpr ⟨?_, fun member hmember => ?_⟩
    · exact (stated_of_term next htree).mono (List.subset_append_left _ _)
    · exact (stated_of_moreTerms more hothers member hmember).mono (List.subset_append_right _ _)
  | .and next more, members, h => by
    obtain ⟨node, others, htree, hothers, rfl⟩ := MoreTerms.members?_and_eq_some_iff.mp h
    refine List.forall_mem_cons.mpr ⟨?_, fun member hmember => ?_⟩
    · apply (stated_of_term next htree).mono
      exact List.subset_cons_of_subset _ (List.subset_append_left _ _)
    · apply (stated_of_moreTerms more hothers member hmember).mono
      exact List.subset_cons_of_subset _ (List.subset_append_right _ _)
  termination_by structural more => more

theorem stated_of_sequence : ∀ (phrase : Sequence) {node : Node}, phrase.tree? = some node →
    node.StatedBy phrase.tokens
  | .mk first more, node, h => by
    obtain ⟨node, members, htree, hmembers, rfl⟩ := Sequence.tree?_eq_some_iff.mp h
    refine Node.statedBy_chain ?_ fun member hmember => ?_
    · exact (stated_of_term first htree).mono (List.subset_append_left _ _)
    · exact (stated_of_moreTerms more hmembers member hmember).mono (List.subset_append_right _ _)
  termination_by structural phrase => phrase

/-- Further alternatives are stated by their own tokens. -/
theorem stated_of_moreAlternatives : ∀ (more : MoreAlternatives)
    {members : List (Connective × Node)}, more.members? = some members →
    ∀ member ∈ members, member.2.StatedBy more.tokens
  | .none, members, h => by
    obtain rfl := Option.some.inj h
    exact fun member hmember => nomatch hmember
  | .or next more, members, h => by
    obtain ⟨node, others, htree, hothers, rfl⟩ := MoreAlternatives.members?_or_eq_some_iff.mp h
    refine List.forall_mem_cons.mpr ⟨?_, fun member hmember => ?_⟩
    · apply (stated_of_sequence next htree).mono
      exact List.subset_cons_of_subset _ (List.subset_append_left _ _)
    · apply (stated_of_moreAlternatives more hothers member hmember).mono
      exact List.subset_cons_of_subset _ (List.subset_append_right _ _)
  termination_by structural more => more

/-- **The values of a phrase come from its tokens**, as alternatives are the chain of their
    sequences. -/
theorem stated_of_phrase : ∀ (phrase : Alternatives) {node : Node},
    phrase.tree? = some node → node.StatedBy phrase.tokens
  | .mk first more, node, h => by
    obtain ⟨node, members, htree, hmembers, rfl⟩ := Alternatives.tree?_eq_some_iff.mp h
    refine Node.statedBy_chain ?_ fun member hmember => ?_
    · exact (stated_of_sequence first htree).mono (List.subset_append_left _ _)
    · apply (stated_of_moreAlternatives more hmembers member hmember).mono
      exact List.subset_append_right _ _
  termination_by structural phrase => phrase

end

/-- **The value of each condition of a query is read from characters of its text.** The tokens
    carry those and no others, and the tree is that of a phrase of them. -/
theorem exists_raw_of_parse {text : String} {tree : Node} (h : parse text = .ok tree) :
    ∀ leaf ∈ tree.leaves, ∃ raw : String, raw.toList ⊆ text.toList ∧
      Value.ofText? leaf.field raw = some leaf.value := by
  obtain ⟨phrase, hcuts, htree⟩ := parse_eq_ok_iff.mp h
  intro leaf hleaf
  obtain ⟨token, htoken, raw, hraw, hvalue⟩ := stated_of_phrase phrase htree leaf hleaf
  exact ⟨raw, hcuts.within token htoken raw hraw, hvalue⟩

end CardSearch.Query
