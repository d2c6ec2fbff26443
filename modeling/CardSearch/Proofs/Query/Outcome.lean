import CardSearch.Proofs.Query.Chain
import CardSearch.Proofs.Query.Typing
import CardSearch.Query.Filter

/-
  What a text gives: no filter, a filter, or an error of the text.

  1. **Errors (`failsOnText_parse`)** — whatever goes wrong in cutting a text into tokens and reading
     them lies in the text.  The causes that remain are for trees that were built by other means, and
     for grammars that find no reading or several.
  2. **The crux (`exists_test`)** — a tree that was read has a test, so the step from the tree to the
     filter cannot fail.
  3. **Outcomes (`ofText_outcome`)** — a blank text gives no filter, a text that cannot be read gives
     its error, and every other text gives the filter of its tree.
-/

namespace CardSearch.Query

/-! ## Errors of texts -/

/-- Whether an error can lie in the text of a query. -/
def Error.isOfText : Error → Bool
  | .unfitValue .. | .noReading | .ambiguous _ | .unrecognizedOperator .. | .invalidRarity _ => false
  | _ => true

/-- A computation that fails only for a reason that lies in the text. -/
def FailsOnText {α : Type} (x : Except Error α) : Prop := ∀ e, x = .error e → e.isOfText = true

theorem FailsOnText.ok {α : Type} (a : α) : FailsOnText (.ok a : Except Error α) := by
  intro e h
  cases h

theorem FailsOnText.error {α : Type} {e : Error} (h : e.isOfText = true) :
    FailsOnText (.error e : Except Error α) :=
  fun _ he => Except.error.inj he ▸ h

/-- Steps in sequence: an error is that of the first, or of the second on what the first gives. -/
theorem FailsOnText.bind {α β : Type} {x : Except Error α} {f : α → Except Error β}
    (hx : FailsOnText x) (hf : ∀ a, FailsOnText (f a)) : FailsOnText (x >>= f) := by
  intro e h
  cases x with
  | error e' =>
    obtain rfl : e' = e := Except.error.inj h
    exact hx e' rfl
  | ok a => exact hf a e h

/-! ## Cutting -/

/-- A quoted text fails by not being closed.  The induction is that of the reader. -/
theorem failsOnText_scanQuoted (quote : Char) (text : List Char) :
    FailsOnText (scanQuoted quote text) := by
  fun_induction scanQuoted quote text with
  | case1 => exact .error rfl
  | case2 => exact .ok _
  | case3 => exact .error rfl
  | case4 _ _ _ _ _ e hscan ih => exact .error (ih e hscan)
  | case5 => exact .ok _
  | case6 _ _ _ _ e hscan ih => exact .error (ih e hscan)
  | case7 => exact .ok _

/-- A value fails only where it is quoted. -/
theorem failsOnText_scanValue (text : List Char) : FailsOnText (scanValue text) := by
  cases text with
  | nil => exact .ok _
  | cons c rest =>
    rw [scanValue]
    split
    · exact failsOnText_scanQuoted c rest
    · exact .ok _

/-- A term fails only by its value. -/
theorem failsOnText_scanTerm (word left : List Char) : FailsOnText (scanTerm word left) := by
  unfold scanTerm
  split
  · exact .ok _
  · rename_i more _
    split
    · rename_i e hvalue
      exact .error (failsOnText_scanValue more e hvalue)
    · exact .ok _

/-- A token fails by its value or its quotes, or where an operator has no word. -/
theorem failsOnText_scanToken (position : Nat) (c : Char) (rest : List Char) :
    FailsOnText (scanToken position c rest) := by
  unfold scanToken
  split
  · exact .ok _
  split
  · exact .ok _
  split
  · exact .ok _
  split
  · split
    · rename_i e hquoted
      exact .error (failsOnText_scanQuoted c rest e hquoted)
    · exact .ok _
  split
  · exact .error rfl
  · exact failsOnText_scanTerm _ _

/-- And so does the cutting of a text.  The induction is that of the reader. -/
theorem failsOnText_tokensFrom (position : Nat) (text : List Char) :
    FailsOnText (tokensFrom position text) := by
  fun_induction tokensFrom position text with
  | case1 => exact .ok _
  | case2 _ _ _ _ ih => exact ih
  | case3 position c rest _ e hscan => exact .error (failsOnText_scanToken position c rest e hscan)
  | case4 _ _ _ _ _ _ _ _ e hmore ih => exact .error (ih e hmore)
  | case5 => exact .ok _

/-! ## Reading -/

/-- A comparison fails by its field, its operator or its value, each of which the text gives. -/
theorem failsOnText_condition (field : String) (operator : Operator) (raw : String) :
    FailsOnText (condition field operator raw) := by
  unfold condition
  split
  · exact .error rfl
  split
  · exact .error rfl
  split
  · exact .error rfl
  split
  · exact .error rfl
  · exact .ok _

theorem failsOnText_closing (tokens : List Located) : FailsOnText (closing tokens) := by
  unfold closing
  split
  · exact .ok _
  · exact .error rfl

mutual

/-- A term fails where no term begins.  By induction on the tokens, together with the readers that
    it calls. -/
theorem failsOnText_readTerm : ∀ tokens : List Located, FailsOnText (readTerm tokens)
  | [] => by
    rw [readTerm.eq_def]
    exact .error rfl
  | ⟨token, position⟩ :: rest => by
    rw [readTerm.eq_def]
    cases token with
    | not => exact .bind (failsOnText_readTerm rest) fun _ => .ok _
    | opening =>
      exact .bind (failsOnText_readAlternatives rest) fun ⟨_, left, _⟩ =>
        .bind (failsOnText_closing left) fun _ => .ok _
    | comparison field operator value =>
      exact .bind (failsOnText_condition field operator value) fun _ => .ok _
    | word => exact .ok _
    | quoted => exact .ok _
    | and => exact .error rfl
    | or => exact .error rfl
    | closing => exact .error rfl
  termination_by tokens => (tokens.length, 0)

/-- Further terms fail only as terms. -/
theorem failsOnText_readSequenceRest : ∀ tokens : List Located,
    FailsOnText (readSequenceRest tokens)
  | [] => by
    rw [readSequenceRest]
    exact .ok _
  | next :: rest => by
    rw [readSequenceRest]
    split
    · exact .ok _
    · exact .ok _
    · exact .bind (failsOnText_readTerm rest) fun ⟨_, more, _⟩ =>
        .bind (failsOnText_readSequenceRest more) fun _ => .ok _
    · exact .bind (failsOnText_readTerm (next :: rest)) fun ⟨_, more, _⟩ =>
        .bind (failsOnText_readSequenceRest more) fun _ => .ok _
  termination_by tokens => (tokens.length, 1)

/-- A sequence fails only as its terms. -/
theorem failsOnText_readSequence : ∀ tokens : List Located, FailsOnText (readSequence tokens)
  | tokens => by
    rw [readSequence]
    exact .bind (failsOnText_readTerm tokens) fun ⟨_, more, _⟩ =>
      .bind (failsOnText_readSequenceRest more) fun _ => .ok _
  termination_by tokens => (tokens.length, 2)

/-- Further alternatives fail only as sequences. -/
theorem failsOnText_readAlternativesRest : ∀ tokens : List Located,
    FailsOnText (readAlternativesRest tokens)
  | [] => by
    rw [readAlternativesRest_eq_all (by simp)]
    exact .ok _
  | ⟨token, position⟩ :: rest => by
    by_cases htoken : token = .or
    · subst htoken
      rw [readAlternativesRest]
      exact .bind (failsOnText_readSequence rest) fun ⟨_, more, _⟩ =>
        .bind (failsOnText_readAlternativesRest more) fun _ => .ok _
    · rw [readAlternativesRest_eq_all (by simp [htoken])]
      exact .ok _
  termination_by tokens => (tokens.length, 3)

/-- Alternatives fail only as their sequences. -/
theorem failsOnText_readAlternatives : ∀ tokens : List Located,
    FailsOnText (readAlternatives tokens)
  | tokens => by
    rw [readAlternatives]
    exact .bind (failsOnText_readSequence tokens) fun ⟨_, more, _⟩ =>
      .bind (failsOnText_readAlternativesRest more) fun _ => .ok _
  termination_by tokens => (tokens.length, 4)

end

/-- **A text that cannot be read fails for a reason that lies in it**, in cutting it or in
    reading its tokens. -/
theorem failsOnText_parse (text : String) : FailsOnText (parse text) := by
  unfold parse
  split
  · exact .error rfl
  refine .bind (failsOnText_tokensFrom 0 text.toList) fun tokens => ?_
  unfold Node.ofTokens
  refine .bind (failsOnText_readAlternatives tokens) fun ⟨_, left, _⟩ => ?_
  cases left with
  | nil => exact .ok _
  | cons => exact .error rfl

/-! ## Filters -/

theorem all_isBlank_iff {text : String} :
    text.toList.all Text.isBlank = true ↔ ∀ c ∈ text.toList, Text.isBlank c = true :=
  List.all_eq_true

/-- A text that is not blank gives what its tree gives: the filter of the tree, or the error of
    reading or testing it. -/
theorem ofText_eq_bind {text : String} (h : ¬ ∀ c ∈ text.toList, Text.isBlank c = true) :
    Filter.ofText text = (parse text >>= fun tree =>
      tree.test? >>= fun test => .ok (some (.ofTree text tree test))) := by
  rw [Filter.ofText, Filter.ofTextWith, if_neg (fun hall => h (all_isBlank_iff.mp hall))]
  cases parse text with
  | error e => rfl
  | ok tree =>
    show ((tree.test? >>= fun test => .ok (Filter.ofTree text tree test)) >>= fun filter =>
      .ok (some filter)) = (tree.test? >>= fun test => .ok (some (.ofTree text tree test)))
    cases tree.test? with
    | error e => rfl
    | ok test => rfl

/-- A text gives no filter exactly when it is blank, since any other gives one or fails. -/
theorem ofText_eq_none_iff {text : String} :
    Filter.ofText text = .ok none ↔ ∀ c ∈ text.toList, Text.isBlank c = true := by
  constructor
  · intro h
    refine Classical.byContradiction fun hblank => ?_
    rw [ofText_eq_bind hblank] at h
    obtain ⟨tree, _, h⟩ := bind_eq_ok_iff.mp h
    obtain ⟨test, _, h⟩ := bind_eq_ok_iff.mp h
    cases h
  · intro hblank
    rw [Filter.ofText, Filter.ofTextWith, if_pos (all_isBlank_iff.mpr hblank)]
    rfl

/-- A text gives the filter of its tree, which lists the fields of the tree as they were met. -/
theorem ofText_eq_some_iff {text : String} {filter : Filter} :
    Filter.ofText text = .ok (some filter) ↔
      filter = .ofTree text filter.query filter.test ∧ parse text = .ok filter.query ∧
        filter.query.test? = .ok filter.test := by
  by_cases hblank : ∀ c ∈ text.toList, Text.isBlank c = true
  · rw [ofText_eq_none_iff.mpr hblank]
    constructor
    · intro h
      cases h
    · rintro ⟨_, hparse, _⟩
      rw [parse, if_pos (all_isBlank_iff.mpr hblank)] at hparse
      cases hparse
  · rw [ofText_eq_bind hblank]
    constructor
    · intro h
      obtain ⟨tree, hparse, h⟩ := bind_eq_ok_iff.mp h
      obtain ⟨test', htest, h⟩ := bind_eq_ok_iff.mp h
      obtain rfl := Option.some.inj (Except.ok.inj h)
      exact ⟨rfl, hparse, htest⟩
    · rintro ⟨hfilter, hparse, htest⟩
      refine bind_eq_ok_iff.mpr ⟨_, hparse, bind_eq_ok_iff.mpr ⟨_, htest, ?_⟩⟩
      exact congrArg (fun found => Except.ok (some found)) hfilter.symm

/-- A text that is not blank fails exactly when it cannot be read, and with that error. -/
theorem ofText_eq_error_iff {text : String} {e : Error}
    (h : ¬ ∀ c ∈ text.toList, Text.isBlank c = true) :
    Filter.ofText text = .error e ↔ parse text = .error e := by
  cases hparse : parse text with
  | error e' =>
    rw [ofText_eq_bind h, hparse]
    constructor
    · intro h
      exact congrArg _ (Except.error.inj h)
    · intro h
      exact congrArg _ (Except.error.inj h)
  | ok tree =>
    -- the tree has a test, so nothing else can fail
    obtain ⟨test, htest⟩ := exists_test (wellFormed_of_parse hparse)
    have hfilter : Filter.ofText text = .ok (some (.ofTree text tree test)) :=
      ofText_eq_some_iff.mpr ⟨rfl, hparse, htest⟩
    rw [hfilter]
    constructor
    · intro h
      cases h
    · intro h
      cases h

/-- **What a text gives.**
    (1) A blank text gives no filter, and no other text does.
    (2) A text that is not blank gives the error of reading it,
    (3) or, when it is read as a tree, the filter of that tree: it keeps the text as it is, has the
    tree for its query and uses the fields of the tree.
    (4) No text gives an error of configuration, of no reading or of several. -/
theorem ofText_outcome (text : String) :
    (Filter.ofText text = .ok none ↔ ∀ c ∈ text.toList, Text.isBlank c = true) ∧
    (¬ (∀ c ∈ text.toList, Text.isBlank c = true) →
      (∀ e, Filter.ofText text = .error e ↔ parse text = .error e) ∧
      ∀ tree, parse text = .ok tree → ∃ filter, Filter.ofText text = .ok (some filter) ∧
        filter.text = text ∧ filter.query = tree ∧ filter.fieldsUsed = tree.fieldsUsed ∧
        tree.test? = .ok filter.test) ∧
    ∀ e, Filter.ofText text = .error e →
      e.isConfiguration = false ∧ e ≠ .noReading ∧ ∀ n, e ≠ .ambiguous n := by
  refine ⟨ofText_eq_none_iff, fun hblank => ⟨fun e => ofText_eq_error_iff hblank, ?_⟩, ?_⟩
  · intro tree hparse
    obtain ⟨test, htest⟩ := exists_test (wellFormed_of_parse hparse)
    exact ⟨.ofTree text tree test, ofText_eq_some_iff.mpr ⟨rfl, hparse, htest⟩, rfl, rfl, rfl, htest⟩
  · intro e he
    have hblank : ¬ ∀ c ∈ text.toList, Text.isBlank c = true := by
      intro hblank
      rw [ofText_eq_none_iff.mpr hblank] at he
      cases he
    have hofText : e.isOfText = true :=
      failsOnText_parse text e ((ofText_eq_error_iff hblank).mp he)
    refine ⟨?_, ?_, ?_⟩
    · cases e with
      | unrecognizedOperator | invalidRarity => cases hofText
      | _ => rfl
    · rintro rfl
      cases hofText
    · rintro n rfl
      cases hofText

/-- A rarity by its first letter gives a filter; an operator without a field gives an
    error of the text. -/
theorem ofText_outcome_rarity :
    (¬ (∀ c ∈ "r>=u".toList, Text.isBlank c = true) ∧
      parse "r>=u" = .ok (.condition ⟨.rarity, .greaterEqual, false, .rarity "uncommon"⟩) ∧
      ∃ filter, Filter.ofText "r>=u" = .ok (some filter) ∧ filter.text = "r>=u" ∧
        filter.fieldsUsed = [.rarity]) ∧
    (¬ (∀ c ∈ "=".toList, Text.isBlank c = true) ∧
      Filter.ofText "=" = .error (.unexpectedToken "=" 0) ∧
      (Error.unexpectedToken "=" 0).isConfiguration = false) := by
  have hrarity : ¬ ∀ c ∈ "r>=u".toList, Text.isBlank c = true :=
    fun h => absurd (h 'r' (by decide)) (by decide)
  have hequal : ¬ ∀ c ∈ "=".toList, Text.isBlank c = true :=
    fun h => absurd (h '=' (by decide)) (by decide)
  have hcondition : condition "r" .greaterEqual "u" =
      .ok ⟨.rarity, .greaterEqual, false, .rarity "uncommon"⟩ :=
    condition_eq_ok_iff.mpr
      ⟨.rarity, .rarity "uncommon", by decide +kernel, by decide, by decide, by decide +kernel, rfl⟩
  have hterm : IsTerm "r>=u".toList
      (.condition ⟨.rarity, .greaterEqual, false, .rarity "uncommon"⟩) :=
    ⟨.comparison "r" .greaterEqual "u",
      Phrase.comparison_tree?_eq_some_iff.mpr ⟨_, hcondition, rfl⟩,
      .token rfl (.term (by decide) rfl rfl rfl) .nil⟩
  have hread := hterm.parse
  have hunread : parse "=" = .error (.unexpectedToken "=" 0) := by
    have htokens : tokensFrom 0 ['='] = .error (.unexpectedToken "=" 0) := by
      rw [tokensFrom.eq_def]
      rfl
    show (tokensFrom 0 ['='] >>= Node.ofTokens) = _
    rw [htokens]
    rfl
  obtain ⟨filter, hfilter, htext, _, hused, _⟩ := ((ofText_outcome "r>=u").2.1 hrarity).2 _ hread
  have herror : Filter.ofText "=" = .error (.unexpectedToken "=" 0) :=
    (((ofText_outcome "=").2.1 hequal).1 _).mpr hunread
  refine ⟨⟨hrarity, hread, filter, hfilter, htext, hused.trans ?_⟩, hequal, herror, ?_⟩
  · decide
  · exact ((ofText_outcome "=").2.2 _ herror).1

end CardSearch.Query
