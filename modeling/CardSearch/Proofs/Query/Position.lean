import CardSearch.Proofs.Query.Spelling
import CardSearch.Proofs.Text.Slice

/-
  Where the tokens of a text stand.

  1. **Steps (`tokensFrom_blank`, `tokensFrom_takes`)** — what one step of the reader does to the
     position: it moves on by the bytes of the piece that was taken.  `reading_induction` goes through
     a text by these steps.
  2. **Shifts (`tokensFrom_add`)** — a text that stands further behind has the same tokens and the
     same error, and every place in them is as much further behind.
  3. **The crux (`tokensFrom_append_cons`)** — a text with tokens and what follows it, from a blank
     or a closing parenthesis on, are read one after the other.
  4. **Queries (`tokenize_append_gap`)** — so texts that are joined by blanks are read one by one.
-/

namespace CardSearch.Query

/-! ## Steps -/

/-- Induction over a text in the steps in which it is read: it is empty, or it begins with a blank,
    with a piece that spells a token, or with a character where no token can be taken. -/
@[elab_as_elim]
theorem reading_induction {motive : List Char → Prop} (nil : motive [])
    (blank : ∀ {c rest}, Text.isBlank c = true → motive rest → motive (c :: rest))
    (takes : ∀ {c piece left token}, Text.isBlank c = false →
      Takes c (piece ++ left) token left → Takes c piece token [] → motive left →
      motive (c :: (piece ++ left)))
    (fails : ∀ {c rest}, Text.isBlank c = false → (¬ ∃ token left, Takes c rest token left) →
      motive (c :: rest)) :
    ∀ text, motive text
  | [] => nil
  | c :: rest => by
    cases hc : Text.isBlank c with
    | true => exact blank hc (reading_induction nil blank takes fails rest)
    | false =>
      by_cases hread : ∃ token left, Takes c rest token left
      · obtain ⟨token, left, htakes⟩ := hread
        obtain ⟨piece, hrest, halone⟩ := htakes.exists_piece
        have hshorter : left.length < (c :: rest).length := by
          rw [hrest, List.length_cons, List.length_append]
          omega
        have hleft : motive left := reading_induction nil blank takes fails left
        rw [hrest] at htakes ⊢
        exact takes hc htakes halone hleft
      · exact fails hc hread
  termination_by text => text.length

theorem tokensFrom_nil (position : Nat) : tokensFrom position [] = .ok [] := by
  rw [tokensFrom.eq_def]

theorem tokensFrom_blank {c : Char} (hc : Text.isBlank c = true) (position : Nat)
    (rest : List Char) :
    tokensFrom position (c :: rest) = tokensFrom (position + c.utf8Size) rest := by
  rw [tokensFrom.eq_def]
  exact if_pos hc

/-- A token stands where its piece begins, and reading goes on behind the piece.  That the piece
    has the bytes of the position is what the count rests on. -/
theorem tokensFrom_takes {c : Char} {piece left : List Char} {token : Token}
    (hc : Text.isBlank c = false) (h : Takes c (piece ++ left) token left) (position : Nat) :
    tokensFrom position (c :: (piece ++ left)) =
      (tokensFrom (position + Text.byteLength (c :: piece)) left).map (⟨token, position⟩ :: ·) := by
  have hscan : scanToken position c (piece ++ left) = .ok (token, left) :=
    scanToken_eq_ok_iff.mpr h
  have hwidth : Text.byteLength (c :: (piece ++ left)) - Text.byteLength left =
      Text.byteLength (c :: piece) := by
    rw [← List.cons_append, Text.byteLength_append]
    omega
  rw [tokensFrom.eq_def]
  dsimp only
  rw [if_neg (Bool.eq_false_iff.mp hc)]
  split
  · rename_i e herror
    rw [hscan] at herror
    cases herror
  · rename_i token' left' hscan'
    rw [hscan] at hscan'
    obtain ⟨rfl, rfl⟩ := Prod.mk.inj (Except.ok.inj hscan')
    rw [hwidth]
    cases tokensFrom (position + Text.byteLength (c :: piece)) left <;> rfl

/-- Behind the first of the tokens that are read come those that are read of the rest. -/
theorem exists_others_of_takes {c : Char} {piece left : List Char} {token : Token}
    {position : Nat} {tokens : List Located} (hc : Text.isBlank c = false)
    (htakes : Takes c (piece ++ left) token left)
    (h : tokensFrom position (c :: (piece ++ left)) = .ok tokens) :
    ∃ others, tokensFrom (position + Text.byteLength (c :: piece)) left = .ok others ∧
      tokens = ⟨token, position⟩ :: others := by
  rw [tokensFrom_takes hc htakes] at h
  cases hread : tokensFrom (position + Text.byteLength (c :: piece)) left with
  | error e =>
    rw [hread] at h
    cases h
  | ok others =>
    rw [hread] at h
    exact ⟨others, rfl, (Except.ok.inj h).symm⟩

/-- Where no token can be taken, the text fails with the error of that place. -/
theorem tokensFrom_fails {c : Char} {rest : List Char} (hc : Text.isBlank c = false)
    (h : ¬ ∃ token left, Takes c rest token left) (position : Nat) :
    ∃ e, scanToken position c rest = .error e ∧ tokensFrom position (c :: rest) = .error e := by
  cases hscan : scanToken position c rest with
  | ok taken => exact absurd ⟨taken.1, taken.2, scanToken_eq_ok_iff.mp hscan⟩ h
  | error e =>
    refine ⟨e, rfl, ?_⟩
    rw [tokensFrom.eq_def]
    dsimp only
    rw [if_neg (Bool.eq_false_iff.mp hc)]
    split
    · rename_i e' herror
      rw [hscan] at herror
      obtain rfl := Except.error.inj herror
      rfl
    · rename_i token left htakes
      rw [hscan] at htakes
      cases htakes

/-! ## Shifts -/

/-- A token as it stands behind `width` more bytes. -/
def Located.behind (width : Nat) (token : Located) : Located :=
  ⟨token.token, width + token.position⟩

/-- An error as it is reported behind `width` more bytes: the place in it, if there is one, is as
    much further behind. -/
def Error.behind (width : Nat) : Error → Error
  | .unexpectedToken token position => .unexpectedToken token (width + position)
  | e => e

/-- What is read of a text that stands behind `width` more bytes. -/
def readBehind (width : Nat) : Except Error (List Located) → Except Error (List Located)
  | .ok tokens => .ok (tokens.map (·.behind width))
  | .error e => .error (e.behind width)

/-- A quoted text only fails by not being closed. -/
theorem eq_unexpectedEnd_of_scanQuoted {quote : Char} {text : List Char} {e : Error}
    (h : scanQuoted quote text = .error e) : e = .unexpectedEnd := by
  fun_induction scanQuoted quote text with
  | case1 => exact (Except.error.inj h).symm
  | case2 => cases h
  | case3 => exact (Except.error.inj h).symm
  | case4 c hquote hslash escaped rest e' hscan ih =>
    obtain rfl := Except.error.inj h
    exact ih hscan
  | case5 => cases h
  | case6 c rest hquote hslash e' hscan ih =>
    obtain rfl := Except.error.inj h
    exact ih hscan
  | case7 => cases h

/-- So does a term, by its value. -/
theorem eq_unexpectedEnd_of_scanTerm {word text : List Char} {e : Error}
    (h : scanTerm word text = .error e) : e = .unexpectedEnd := by
  unfold scanTerm at h
  split at h
  · cases h
  · rename_i operator rest _
    cases hvalue : scanValue rest with
    | ok scanned =>
      rw [hvalue] at h
      cases h
    | error e' =>
      rw [hvalue] at h
      obtain rfl := Except.error.inj h
      unfold scanValue at hvalue
      split at hvalue
      · cases hvalue
      · split at hvalue
        · exact eq_unexpectedEnd_of_scanQuoted hvalue
        · cases hvalue

/-- A token that fails does so from every position; only an operator without a word tells where,
    and the place moves with the text. -/
theorem scanToken_add {position : Nat} {c : Char} {rest : List Char} {e : Error}
    (h : scanToken position c rest = .error e) (width : Nat) :
    scanToken (width + position) c rest = .error (e.behind width) := by
  unfold scanToken at h ⊢
  split at h
  · cases h
  rename_i hopening
  split at h
  · cases h
  rename_i hclosing
  split at h
  · cases h
  rename_i hdash
  rw [if_neg hopening, if_neg hclosing, if_neg hdash]
  split at h
  · -- a parenthesis or a dash does not fail; a quoted text fails without saying where
    rename_i hquote
    rw [if_pos hquote]
    cases hscan : scanQuoted c rest with
    | ok scanned =>
      rw [hscan] at h
      cases h
    | error e' =>
      rw [hscan] at h
      obtain rfl := Except.error.inj h
      obtain rfl := eq_unexpectedEnd_of_scanQuoted hscan
      rfl
  rename_i hquote
  rw [if_neg hquote]
  split at h
  · obtain rfl := Except.error.inj h
    rfl
  · rename_i htake
    obtain rfl := eq_unexpectedEnd_of_scanTerm h
    exact h

/-- **A text that stands further behind** is read in the same way.  By induction on the text as it
    is read: each step moves both positions by the same bytes. -/
theorem tokensFrom_add (width : Nat) (text : List Char) (position : Nat) :
    tokensFrom (width + position) text = readBehind width (tokensFrom position text) := by
  induction text using reading_induction generalizing position with
  | nil =>
    rw [tokensFrom_nil, tokensFrom_nil]
    rfl
  | blank hc ih => rw [tokensFrom_blank hc, tokensFrom_blank hc, Nat.add_assoc, ih]
  | @takes c piece left token hc htakes _ ih =>
    rw [tokensFrom_takes hc htakes, tokensFrom_takes hc htakes, Nat.add_assoc, ih]
    cases tokensFrom (position + Text.byteLength (c :: piece)) left <;> rfl
  | fails hc hfails =>
    obtain ⟨e, hscan, hread⟩ := tokensFrom_fails hc hfails position
    obtain ⟨e', hscan', hread'⟩ := tokensFrom_fails hc hfails (width + position)
    rw [scanToken_add hscan] at hscan'
    obtain rfl := Except.error.inj hscan'
    rw [hread, hread']
    rfl

/-! ## Texts put together -/

/-- Blanks are passed over one by one.  By induction on the blanks. -/
theorem tokensFrom_gap {gap : List Char} (hgap : ∀ c ∈ gap, Text.isBlank c = true)
    (position : Nat) (text : List Char) :
    tokensFrom position (gap ++ text) = tokensFrom (position + Text.byteLength gap) text := by
  induction gap generalizing position with
  | nil => rfl
  | cons c gap ih =>
    obtain ⟨hc, hrest⟩ := List.forall_mem_cons.mp hgap
    rw [List.cons_append, tokensFrom_blank hc, ih hrest, Text.byteLength_cons, Nat.add_assoc]

/-- **The crux**: a text that has tokens, and what follows it from a blank or a closing parenthesis
    on, are read one after the other. -/
theorem tokensFrom_append_cons {stop : Char} (hstop : endsValue stop = true) {text : List Char}
    {position : Nat} {tokens : List Located} (h : tokensFrom position text = .ok tokens)
    (more : List Char) :
    tokensFrom position (text ++ stop :: more) =
      (tokensFrom (position + Text.byteLength text) (stop :: more)).map (tokens ++ ·) := by
  induction text using reading_induction generalizing position tokens with
  | nil =>
    rw [tokensFrom_nil] at h
    obtain rfl := Except.ok.inj h
    rw [List.nil_append, Text.byteLength_nil, Nat.add_zero]
    cases tokensFrom position (stop :: more) <;> rfl
  | blank hc ih =>
    rw [tokensFrom_blank hc] at h
    rw [List.cons_append, tokensFrom_blank hc, ih h, Text.byteLength_cons, Nat.add_assoc]
  | @takes c piece left token hc htakes _ ih =>
    obtain ⟨others, hothers, rfl⟩ := exists_others_of_takes hc htakes h
    -- no token of the first text reaches over the joint
    have hjoint : Takes c (piece ++ (left ++ stop :: more)) token (left ++ stop :: more) := by
      rw [← List.append_assoc]
      exact htakes.append hstop
    have hbytes : position + Text.byteLength (c :: piece) + Text.byteLength left =
        position + Text.byteLength (c :: (piece ++ left)) := by
      rw [← List.cons_append, Text.byteLength_append, Nat.add_assoc]
    rw [List.cons_append, List.append_assoc, tokensFrom_takes hc hjoint, ih hothers, hbytes]
    cases tokensFrom (position + Text.byteLength (c :: (piece ++ left))) (stop :: more) <;> rfl
  | fails hc hfails =>
    obtain ⟨e, _, hread⟩ := tokensFrom_fails hc hfails position
    rw [hread] at h
    cases h

/-- **Texts that are joined by blanks are read one by one.**  After a text that has tokens and at
    least one blank come the tokens of the second text, or its error, with every place moved on by
    the bytes that stand before. -/
theorem tokenize_append_gap {first gap second : String} {tokens : List Located}
    (hfirst : tokenize first = .ok tokens) (hgap : gap ≠ "")
    (hblank : ∀ c ∈ gap.toList, Text.isBlank c = true) :
    tokenize (first ++ gap ++ second) =
      match tokenize second with
      | .ok others => .ok (tokens ++ others.map (·.behind (first ++ gap).utf8ByteSize))
      | .error e => .error (e.behind (first ++ gap).utf8ByteSize) := by
  obtain ⟨stop, blanks, hcons⟩ : ∃ stop blanks, gap.toList = stop :: blanks :=
    List.exists_cons_of_ne_nil fun hnil => hgap (String.toList_eq_nil_iff.mp hnil)
  have hstop : endsValue stop = true := by
    rw [endsValue, hblank stop (hcons ▸ List.mem_cons_self), Bool.true_or]
  have hbytes : (first ++ gap).utf8ByteSize =
      0 + Text.byteLength first.toList + Text.byteLength gap.toList + 0 := by
    rw [Text.utf8ByteSize_eq, String.toList_append, Text.byteLength_append, Nat.zero_add,
      Nat.add_zero]
  -- the gap is cut off the first text, and then passed over on the way to the second one
  have hread : tokenize (first ++ gap ++ second) =
      (readBehind (first ++ gap).utf8ByteSize (tokenize second)).map (tokens ++ ·) :=
    calc tokenize (first ++ gap ++ second)
      _ = tokensFrom 0 (first.toList ++ stop :: (blanks ++ second.toList)) := by
        rw [tokenize, String.toList_append, String.toList_append, hcons, List.append_assoc,
          List.cons_append]
      _ = (tokensFrom (0 + Text.byteLength first.toList) (gap.toList ++ second.toList)).map
          (tokens ++ ·) := by
        rw [tokensFrom_append_cons hstop hfirst, hcons, List.cons_append]
      _ = (readBehind (first ++ gap).utf8ByteSize (tokenize second)).map (tokens ++ ·) := by
        rw [tokensFrom_gap hblank, tokenize, ← tokensFrom_add, hbytes, Nat.add_zero]
  rw [hread]
  cases tokenize second <;> rfl

/-- Three texts that end where more could have come: an empty value, a word with `!` at its end and
    an operator that may be longer.  Behind a gap of two blanks, which are five bytes, the equals sign
    of the second text is an error of its own. -/
theorem tokenize_append_gap_lookahead :
    tokenize "é: hit! a<" = .ok [⟨.comparison "é" .colon "", 0⟩, ⟨.word "hit!", 4⟩,
        ⟨.comparison "a" .less "", 9⟩] ∧
      "\u2003\u00a0" ≠ "" ∧ (∀ c ∈ "\u2003\u00a0".toList, Text.isBlank c = true) ∧
      tokenize "=b" = .error (.unexpectedToken "=" 0) ∧
      tokenize ("é: hit! a<" ++ "\u2003\u00a0" ++ "=b") = .error (.unexpectedToken "=" 16) := by
  have hfirst : tokenize "é: hit! a<" = .ok [⟨.comparison "é" .colon "", 0⟩, ⟨.word "hit!", 4⟩,
      ⟨.comparison "a" .less "", 9⟩] := by decide +kernel
  have hgap : "\u2003\u00a0" ≠ "" := by decide
  have hblank : ∀ c ∈ "\u2003\u00a0".toList, Text.isBlank c = true :=
    List.all_eq_true.mp (by decide)
  have hsecond : tokenize "=b" = .error (.unexpectedToken "=" 0) := by decide +kernel
  refine ⟨hfirst, hgap, hblank, hsecond, ?_⟩
  rw [tokenize_append_gap hfirst hgap hblank, hsecond]
  rfl

end CardSearch.Query
