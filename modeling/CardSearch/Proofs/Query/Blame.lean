import CardSearch.Proofs.Query.Lossless

/-
  Where an error points.

  An error about a token names the token as messages show it and the byte at which it stands.
  Three places give such an error: the lexer, where an operator has no word before it; the reader
  of a term, where no term begins; and the reader of a whole list, where tokens are left over.
  None of them looks at the text again, so the token that is named is not copied from it.

  1. **Cutting (`exists_operator_of_tokensFrom`)** — the lexer names an operator that stands there.
  2. **The crux (`Reads`)** — a reader of tokens leaves an end of them, and blames none but a token
     of its list, which is one of three (`strayTokens`).  What sequences leave begins with `or` or
     with a closing parenthesis, so what alternatives leave begins with a closing parenthesis, and
     no word is ever left over.  One induction over the readers carries all of this.
  3. **Spelling (`Takes.lowerAscii_eq`)** — these three tokens are spelled in one way, up to case.
  4. **The result (`unexpectedToken_position`)** — said of texts that cannot be read.
-/

namespace CardSearch.Query

open Phrase

/-- A text has a token at a byte position, in whatever case: the position is that of a character,
    and from there on the text begins with the token. -/
def PointsAt (text : List Char) (token : String) (position : Nat) : Prop :=
  ∃ before c piece after, text = before ++ c :: piece ++ after ∧
    Text.byteLength before = position ∧
    Text.lowerAscii (c :: piece) = Text.lowerAscii token.toList

/-! ## Cutting -/

/-- No token begins with an operator; its place is that where the token would begin.  By cases on
    the first character: every other kind of token is read to its end, or is a quoted text that
    is not closed. -/
theorem exists_operator_of_scanToken {position place : Nat} {c : Char} {rest : List Char}
    {token : String} (h : scanToken position c rest = .error (.unexpectedToken token place)) :
    ∃ (operator : Operator) (after : List Char), c :: rest = operator.symbol.toList ++ after ∧
      token = operator.symbol ∧ place = position := by
  unfold scanToken at h
  split at h
  · cases h
  split at h
  · cases h
  split at h
  · cases h
  split at h
  · cases hscan : scanQuoted c rest with
    | ok scanned =>
      rw [hscan] at h
      cases h
    | error e =>
      -- a quoted text that is not closed has no place
      rw [hscan] at h
      obtain rfl := Except.error.inj h
      cases eq_unexpectedEnd_of_scanQuoted hscan
  split at h
  · rename_i operator after htake
    obtain ⟨rfl, rfl⟩ := Error.unexpectedToken.inj (Except.error.inj h)
    exact ⟨operator, after, Operator.eq_append_of_take? htake, rfl, rfl⟩
  · cases eq_unexpectedEnd_of_scanTerm h

/-- **The lexer names an operator that stands in the text.** By induction on the text as it is
    read, with what was read put back in front. -/
theorem exists_operator_of_tokensFrom {text : List Char} {position place : Nat} {token : String}
    (h : tokensFrom position text = .error (.unexpectedToken token place)) :
    ∃ (before : List Char) (operator : Operator) (after : List Char),
      text = before ++ operator.symbol.toList ++ after ∧ token = operator.symbol ∧
      place = position + Text.byteLength before := by
  induction text using reading_induction generalizing position with
  | nil =>
    rw [tokensFrom_nil] at h
    cases h
  | @blank c rest hc ih =>
    rw [tokensFrom_blank hc] at h
    obtain ⟨before, operator, after, rfl, htoken, rfl⟩ := ih h
    exact ⟨c :: before, operator, after, rfl, htoken, Nat.add_assoc _ _ _⟩
  | @takes c piece left taken hc htakes _ ih =>
    rw [tokensFrom_takes hc htakes] at h
    cases hleft : tokensFrom (position + Text.byteLength (c :: piece)) left with
    | ok others =>
      rw [hleft] at h
      cases h
    | error e =>
      rw [hleft] at h
      obtain rfl := Except.error.inj h
      obtain ⟨before, operator, after, rfl, htoken, rfl⟩ := ih hleft
      refine ⟨c :: piece ++ before, operator, after, by simp, htoken, ?_⟩
      -- the piece counts as much for the position as it does for what stands before the operator
      rw [Text.byteLength_append, Nat.add_assoc]
  | fails hc hfails =>
    obtain ⟨e, hscan, hread⟩ := tokensFrom_fails hc hfails position
    obtain rfl := Except.error.inj (hread.symm.trans h)
    obtain ⟨operator, after, htext, htoken, rfl⟩ := exists_operator_of_scanToken hscan
    exact ⟨[], operator, after, htext, htoken, rfl⟩

/-! ## Reading -/

/-- The tokens with which no term begins. -/
def strayTokens : List Token := [.and, .or, .closing]

/-- Somewhere in a list the token stands that an error names. -/
def Blames (tokens : List Located) (token : String) (position : Nat) : Prop :=
  ∃ t ∈ tokens, t.token ∈ strayTokens ∧ t.token.text = token ∧ t.position = position

/-- How a reader accounts for its tokens: what it leaves is an end of them, and of a certain kind;
    and a token that it finds out of place is one of them. -/
structure Reads {α : Type} (tokens : List Located) (left : α → List Located)
    (ends : List Token → Prop) (outcome : Except Error α) : Prop where
  suffix : ∀ a, outcome = .ok a → left a <:+ tokens
  ends : ∀ a, outcome = .ok a → ends ((left a).map Located.token)
  blames : ∀ token position, outcome = .error (.unexpectedToken token position) →
    Blames tokens token position

/-- Any tokens may follow. -/
def EndsAnywhere (_ : List Token) : Prop := True

namespace Reads

variable {α β : Type} {tokens more : List Located} {left : α → List Located}
  {left' : β → List Located} {ends ends' : List Token → Prop}

/-- A reader that has ended leaves an end of its tokens, and blames none. -/
theorem ok {a : α} (hsuffix : left a <:+ tokens) (hends : ends ((left a).map Located.token)) :
    Reads tokens left ends (.ok a) := by
  refine ⟨?_, ?_, nofun⟩
  · intro b hb
    obtain rfl := Except.ok.inj hb
    exact hsuffix
  · intro b hb
    obtain rfl := Except.ok.inj hb
    exact hends

theorem error {e : Error} (h : ∀ token position, e ≠ .unexpectedToken token position) :
    Reads tokens left ends (.error e) :=
  ⟨nofun, nofun,
    fun token position he => absurd (Except.error.inj he) (h token position)⟩

/-- A token with which no term begins is blamed, where it stands. -/
theorem stray {t : Located} (hmem : t ∈ tokens) (hstray : t.token ∈ strayTokens) :
    Reads tokens left ends (.error (.unexpectedToken t.token.text t.position)) := by
  refine ⟨nofun, nofun, ?_⟩
  intro token position he
  obtain ⟨rfl, rfl⟩ := Error.unexpectedToken.inj (Except.error.inj he)
  exact ⟨t, hmem, hstray, rfl, rfl⟩

/-- More tokens before those that are read make no difference: an end of the fewer is an end of
    the more. -/
theorem mono {outcome : Except Error α} (h : Reads tokens left ends outcome)
    (hmore : tokens <:+ more) : Reads more left ends outcome := by
  refine ⟨fun a ha => (h.suffix a ha).trans hmore, h.ends, ?_⟩
  intro token position he
  obtain ⟨t, ht, hstray⟩ := h.blames token position he
  exact ⟨t, hmore.mem ht, hstray⟩

/-- **Steps in sequence**: the second reads what the first leaves, and may use what is known of
    its kind. -/
theorem bind {x : Except Error α} {f : α → Except Error β} (hx : Reads tokens left ends x)
    (hf : ∀ a, ends ((left a).map Located.token) → Reads (left a) left' ends' (f a)) :
    Reads tokens left' ends' (x >>= f) := by
  cases x with
  | error e =>
    exact ⟨nofun, nofun, fun token position he =>
      hx.blames token position (congrArg Except.error (Except.error.inj he))⟩
  | ok a => exact (hf a (hx.ends a rfl)).mono (hx.suffix a rfl)

end Reads

/-- A condition is about no token, and it takes none. -/
theorem reads_condition (tokens : List Located) (field : String) (operator : Operator)
    (raw : String) :
    Reads tokens (fun _ => tokens) EndsAnywhere (condition field operator raw) := by
  unfold condition
  split
  · exact .error (by simp)
  split
  · exact .error (by simp)
  split
  · exact .error (by simp)
  split
  · exact .error (by simp)
  · exact .ok (List.suffix_refl tokens) trivial

/-- A closing parenthesis is taken if it comes next; otherwise the error is about no token. -/
theorem reads_closing (tokens : List Located) :
    Reads tokens (fun left => left.1) EndsAnywhere (closing tokens) := by
  unfold closing
  split
  · exact .ok (List.suffix_cons _ _) trivial
  · exact .error (by simp)

mutual

/-- A term leaves anything behind it, and what cannot begin one is blamed.  By induction on the
    tokens, together with the readers that it calls. -/
theorem reads_readTerm : ∀ tokens : List Located,
    Reads tokens (fun read => read.2.1) EndsAnywhere (readTerm tokens)
  | [] => by
    rw [readTerm.eq_def]
    exact .error (by simp)
  | ⟨token, position⟩ :: rest => by
    rw [readTerm.eq_def]
    have hrest : rest <:+ ⟨token, position⟩ :: rest := List.suffix_cons _ _
    cases token with
    | not =>
      exact ((reads_readTerm rest).mono hrest).bind fun _ _ => .ok (List.suffix_refl _) trivial
    | opening =>
      exact ((reads_readAlternatives rest).mono hrest).bind fun ⟨_, left, _⟩ _ =>
        (reads_closing left).bind fun _ _ => .ok (List.suffix_refl _) trivial
    | comparison field operator value =>
      exact (reads_condition _ field operator value).bind fun _ _ => .ok hrest trivial
    | word => exact .ok hrest trivial
    | quoted => exact .ok hrest trivial
    | and | or | closing => exact .stray List.mem_cons_self (by simp [strayTokens])
  termination_by tokens => (tokens.length, 0)

/-- Further terms go on until `or`, a closing parenthesis or the end; so a word is never left
    over. -/
theorem reads_readSequenceRest : ∀ tokens : List Located,
    Reads tokens (fun read => read.2.1) EndsSequence (readSequenceRest tokens)
  | [] => by
    rw [readSequenceRest]
    exact .ok (List.suffix_refl _) trivial
  | next :: rest => by
    rw [readSequenceRest]
    split
    · rename_i htoken
      exact .ok (List.suffix_refl _) (Or.inl htoken)
    · rename_i htoken
      exact .ok (List.suffix_refl _) (Or.inr htoken)
    · exact ((reads_readTerm rest).mono (List.suffix_cons _ _)).bind fun ⟨_, more, _⟩ _ =>
        (reads_readSequenceRest more).bind fun _ hends => .ok (List.suffix_refl _) hends
    · exact (reads_readTerm (next :: rest)).bind fun ⟨_, more, _⟩ _ =>
        (reads_readSequenceRest more).bind fun _ hends => .ok (List.suffix_refl _) hends
  termination_by tokens => (tokens.length, 1)

/-- A sequence leaves what its further terms leave. -/
theorem reads_readSequence : ∀ tokens : List Located,
    Reads tokens (fun read => read.2.1) EndsSequence (readSequence tokens)
  | tokens => by
    rw [readSequence]
    exact (reads_readTerm tokens).bind fun ⟨_, more, _⟩ _ =>
      (reads_readSequenceRest more).bind fun _ hends => .ok (List.suffix_refl _) hends
  termination_by tokens => (tokens.length, 2)

/-- Behind a sequence: where no `or` comes next, a closing parenthesis does, or nothing. -/
theorem reads_readAlternativesRest : ∀ tokens : List Located,
    EndsSequence (tokens.map Located.token) →
      Reads tokens (fun read => read.2.1) EndsAlternatives (readAlternativesRest tokens)
  | [], _ => by
    rw [readAlternativesRest_eq_all (by simp)]
    exact .ok (List.suffix_refl _) trivial
  | ⟨token, position⟩ :: rest, hends => by
    rcases hends with htoken | htoken
    · obtain rfl : token = .or := htoken
      rw [readAlternativesRest]
      exact ((reads_readSequence rest).mono (List.suffix_cons _ _)).bind fun ⟨_, more, _⟩ hmore =>
        (reads_readAlternativesRest more hmore).bind fun _ hends => .ok (List.suffix_refl _) hends
    · obtain rfl : token = .closing := htoken
      rw [readAlternativesRest_eq_all (by simp)]
      exact .ok (List.suffix_refl _) rfl
  termination_by tokens => (tokens.length, 3)

/-- Alternatives leave what their further sequences leave. -/
theorem reads_readAlternatives : ∀ tokens : List Located,
    Reads tokens (fun read => read.2.1) EndsAlternatives (readAlternatives tokens)
  | tokens => by
    rw [readAlternatives]
    exact (reads_readSequence tokens).bind fun ⟨_, more, _⟩ hmore =>
      (reads_readAlternativesRest more hmore).bind fun _ hends => .ok (List.suffix_refl _) hends
  termination_by tokens => (tokens.length, 4)

end

/-- **A token of the list is blamed**, and one with which no term begins: only a closing
    parenthesis can be left over when all is read. -/
theorem blames_of_ofTokens {tokens : List Located} {token : String} {position : Nat}
    (h : Node.ofTokens tokens = .error (.unexpectedToken token position)) :
    Blames tokens token position := by
  have hreads : Reads tokens (fun _ => []) EndsAnywhere (Node.ofTokens tokens) := by
    unfold Node.ofTokens
    refine (reads_readAlternatives tokens).bind fun ⟨_, left, _⟩ hends => ?_
    cases left with
    | nil => exact .ok (List.suffix_refl _) trivial
    | cons t more =>
      -- only a closing parenthesis is left over
      obtain ⟨token, position⟩ := t
      obtain rfl : token = .closing := hends
      exact .stray List.mem_cons_self (by simp [strayTokens])
  exact hreads.blames token position h

/-! ## Spelling -/

/-- A word that is a connective is spelled as one, in some case, since that is how connectives
    are told from other words. -/
theorem lowerAscii_of_wordToken {word : List Char} (h : wordToken word ∈ strayTokens) :
    Text.lowerAscii word = (wordToken word).text.toList := by
  unfold wordToken at h ⊢
  dsimp only at h ⊢
  split
  · rename_i hand
    exact eq_of_beq hand
  split
  · rename_i hor
    exact eq_of_beq hor
  · rename_i hand hor
    rw [if_neg hand, if_neg hor] at h
    simp [strayTokens] at h

/-- **A stray token is spelled as messages show it**, up to the case of its letters.  By cases on
    how the token is taken from the text. -/
theorem Takes.lowerAscii_eq {c : Char} {piece : List Char} {token : Token}
    (h : Takes c piece token []) (hstray : token ∈ strayTokens) :
    Text.lowerAscii (c :: piece) = token.text.toList := by
  cases h with
  | opening => simp [strayTokens] at hstray
  | closing => decide
  | not => simp [strayTokens] at hstray
  | quoted _ _ => simp [strayTokens] at hstray
  | term _ _ _ hscan =>
    unfold scanTerm at hscan
    split at hscan
    · -- the word is all of the piece, for nothing is left behind it
      obtain ⟨rfl, hleft⟩ := Prod.mk.inj (Except.ok.inj hscan)
      have hword : (scanWord piece).1 = piece := by
        have happend := scanWord_append_rest piece
        rwa [hleft, List.append_nil] at happend
      rw [hword] at hstray ⊢
      exact lowerAscii_of_wordToken hstray
    · split at hscan
      · cases hscan
      · obtain ⟨rfl, _⟩ := Prod.mk.inj (Except.ok.inj hscan)
        simp [strayTokens] at hstray

/-! ## Texts -/

/-- A text has each operator that the lexer finds out of place. -/
theorem pointsAt_of_tokenize {text token : String} {position : Nat}
    (h : tokenize text = .error (.unexpectedToken token position)) :
    PointsAt text.toList token position := by
  obtain ⟨before, operator, after, htext, rfl, rfl⟩ := exists_operator_of_tokensFrom h
  obtain ⟨c, piece, hsymbol⟩ : ∃ c piece, operator.symbol.toList = c :: piece := by
    cases operator <;> exact ⟨_, _, rfl⟩
  rw [hsymbol] at htext
  refine ⟨before, c, piece, after, htext, (Nat.zero_add _).symm, ?_⟩
  rw [hsymbol]

/-- A text has each token that a reader of its tokens finds out of place, at the position that
    the lexer gave it. -/
theorem pointsAt_of_ofTokens {text token : String} {position : Nat} {tokens : List Located}
    (htokens : tokenize text = .ok tokens)
    (h : Node.ofTokens tokens = .error (.unexpectedToken token position)) :
    PointsAt text.toList token position := by
  obtain ⟨t, ht, hstray, rfl, rfl⟩ := blames_of_ofTokens h
  obtain ⟨gap, rest, htext, _, hpieces⟩ := exists_pieces htokens
  obtain ⟨before, c, piece, after, hcut, hbefore, _, halone⟩ :=
    hpieces.spelled (Nat.zero_add _).symm t ht
  have hlower : Text.lowerAscii t.token.text.toList = t.token.text.toList := by
    have hall : ∀ stray ∈ strayTokens,
        Text.lowerAscii stray.text.toList = stray.text.toList := by decide
    exact hall t.token hstray
  refine ⟨before, c, piece, after, htext.trans hcut, hbefore, ?_⟩
  rw [halone.lowerAscii_eq hstray, hlower]

/-- **An error points at the token that it names.**  Where a text cannot be read because of a token,
    the place is that of a character of the text, and the text goes on from there with the token, in
    some case. -/
theorem unexpectedToken_position {text token : String} {position : Nat}
    (h : parse text = .error (.unexpectedToken token position)) :
    position < text.utf8ByteSize ∧ String.Pos.Raw.IsValid text ⟨position⟩ ∧
      Text.lowerAscii token.toList <+:
        Text.lowerAscii (Text.slice text position text.utf8ByteSize).toList := by
  -- the error is that of the lexer, or that of the readers
  have hpoints : PointsAt text.toList token position := by
    unfold parse at h
    split at h
    · cases h
    cases htokens : tokenize text with
    | error e =>
      rw [htokens] at h
      obtain rfl := Except.error.inj h
      exact pointsAt_of_tokenize htokens
    | ok tokens =>
      rw [htokens] at h
      exact pointsAt_of_ofTokens htokens h
  obtain ⟨before, c, piece, after, htext, rfl, hspelled⟩ := hpoints
  obtain rfl : text = String.ofList (before ++ (c :: piece ++ after)) := by
    rw [← List.append_assoc, ← htext, String.ofList_toList]
  have hsize : (String.ofList (before ++ (c :: piece ++ after))).utf8ByteSize =
      Text.byteLength (before ++ (c :: piece ++ after)) := by
    rw [Text.utf8ByteSize_eq, String.toList_ofList]
  refine ⟨?_, ?_, ?_⟩
  · have hwidth : 0 < c.utf8Size := c.utf8Size_pos
    rw [hsize, Text.byteLength_append, List.cons_append, Text.byteLength_cons]
    omega
  · refine String.Pos.Raw.isValid_iff_exists_append.mpr
      ⟨String.ofList before, String.ofList (c :: piece ++ after), ?_, ?_⟩
    · rw [String.ofList_append]
    · rw [String.Pos.Raw.ext_iff, String.byteIdx_rawEndPos, Text.utf8ByteSize_eq,
        String.toList_ofList]
  · -- from the position on the text is the piece and what follows it
    have hslice := Text.slice_append before (c :: piece ++ after) []
    rw [List.append_nil] at hslice
    rw [hsize, hslice, String.toList_ofList, ← hspelled]
    exact (List.prefix_append _ _).map _

/-- A connective where a term should begin, in two cases and behind a letter of two bytes. -/
theorem unexpectedToken_position_connective :
    parse "(é OR And b)" = .error (.unexpectedToken "and" 7) ∧
      7 < "(é OR And b)".utf8ByteSize ∧ String.Pos.Raw.IsValid "(é OR And b)" ⟨7⟩ ∧
      Text.lowerAscii "and".toList <+: Text.lowerAscii
        (Text.slice "(é OR And b)" 7 "(é OR And b)".utf8ByteSize).toList := by
  have htokens : tokenize "(é OR And b)" = .ok [⟨.opening, 0⟩, ⟨.word "é", 1⟩, ⟨.or, 4⟩, ⟨.and, 7⟩,
      ⟨.word "b", 11⟩, ⟨.closing, 12⟩] := by decide +kernel
  have hread : parse "(é OR And b)" = .error (.unexpectedToken "and" 7) := by
    rw [parse, if_neg (by decide), htokens]
    cbv
  exact ⟨hread, unexpectedToken_position hread⟩

end CardSearch.Query
