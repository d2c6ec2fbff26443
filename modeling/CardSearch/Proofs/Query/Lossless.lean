import CardSearch.Proofs.Query.Position

/-
  Cutting a text into tokens loses nothing.

  1. **Pieces (`exists_pieces`)** — a text that has tokens is blanks and then, for each token, a piece
     that spells it and the blanks behind it.  A token stands at the byte where its piece begins.
  2. **The crux (`tokenize_piece`)** — a piece is read alone as its one token, and blanks behind it
     change nothing.  That a reader never looks past its token for anything but its end was shown
     for all readers at once (`Takes.exists_piece`).
  3. **Slices (`tokenize_lossless`)** — so each part of the text from one token to the next is this
     token, and what stands before the first is blank.
-/

namespace CardSearch.Query

/-- A word has characters, and so has the field of a comparison. -/
def Token.Filled : Token → Prop
  | .word text => text ≠ ""
  | .comparison field _ _ => field ≠ ""
  | _ => True

/-- The byte position of a token in the list; behind the last token, the end of the text. -/
def place (tokens : List Located) (size : Nat) (i : Nat) : Nat :=
  (tokens[i]?.map Located.position).getD size

/-- What a text's tokens keep of it. -/
structure Lossless (text : String) (tokens : List Located) : Prop where
  /-- Positions ascend. -/
  ascending : (tokens.map Located.position).Pairwise (· < ·)
  /-- Each is the place of a character that is no blank. -/
  starts : ∀ t ∈ tokens, ∃ before c after, text.toList = before ++ c :: after ∧
    Text.byteLength before = t.position ∧ Text.isBlank c = false
  /-- Before the first token there are only blanks. -/
  lead : ∀ c ∈ (Text.slice text 0 (place tokens text.utf8ByteSize 0)).toList, Text.isBlank c = true
  /-- No word is empty, and no comparison is without a field. -/
  filled : ∀ t ∈ tokens, t.token.Filled
  /-- The text from a token to the next, or to the end, is this one token. -/
  alone : ∀ i t, tokens[i]? = some t →
    tokenize (Text.slice text t.position (place tokens text.utf8ByteSize (i + 1))) =
      .ok [⟨t.token, 0⟩]

/-! ## Pieces -/

/-- A text from the byte `position` on is cut into tokens: each is spelled by a piece that begins
    with no blank, and blanks may stand behind the piece. -/
inductive Pieces : Nat → List Char → List Located → Prop where
  | nil {position : Nat} : Pieces position [] []
  | cons {position : Nat} {c : Char} {piece gap left : List Char} {token : Token}
      {others : List Located} (notBlank : Text.isBlank c = false)
      (alone : Takes c piece token []) (blanks : ∀ d ∈ gap, Text.isBlank d = true)
      (more : Pieces (position + Text.byteLength (c :: piece ++ gap)) left others) :
      Pieces position (c :: piece ++ gap ++ left) (⟨token, position⟩ :: others)

/-- **What is read is blanks and pieces.** By induction on the text as it is read: a blank
    belongs to the piece before it, or stands before the first one. -/
theorem exists_pieces {text : List Char} {position : Nat} {tokens : List Located}
    (h : tokensFrom position text = .ok tokens) :
    ∃ gap rest, text = gap ++ rest ∧ (∀ d ∈ gap, Text.isBlank d = true) ∧
      Pieces (position + Text.byteLength gap) rest tokens := by
  induction text using reading_induction generalizing position tokens with
  | nil =>
    rw [tokensFrom_nil] at h
    obtain rfl := Except.ok.inj h
    exact ⟨[], [], rfl, by simp, .nil⟩
  | @blank c rest hc ih =>
    rw [tokensFrom_blank hc] at h
    obtain ⟨gap, rest, rfl, hgap, hpieces⟩ := ih h
    refine ⟨c :: gap, rest, rfl, List.forall_mem_cons.mpr ⟨hc, hgap⟩, ?_⟩
    rwa [Text.byteLength_cons, ← Nat.add_assoc]
  | @takes c piece left token hc htakes halone ih =>
    obtain ⟨others, hothers, rfl⟩ := exists_others_of_takes hc htakes h
    obtain ⟨gap, rest, rfl, hgap, hpieces⟩ := ih hothers
    -- the blanks that come next belong to this piece
    refine ⟨[], c :: piece ++ gap ++ rest, by simp, by simp, .cons hc halone hgap ?_⟩
    rw [Text.byteLength_append, ← Nat.add_assoc]
    exact hpieces
  | fails hc hfails =>
    obtain ⟨e, _, hread⟩ := tokensFrom_fails hc hfails position
    rw [hread] at h
    cases h

/-- Blanks behind a piece are left over. -/
theorem Takes.append_gap {c : Char} {piece gap : List Char} {token : Token}
    (h : Takes c piece token []) (hgap : ∀ d ∈ gap, Text.isBlank d = true) :
    Takes c (piece ++ gap) token gap := by
  cases gap with
  | nil => rwa [List.append_nil]
  | cons stop blanks =>
    have hstop : endsValue stop = true := by
      rw [endsValue, hgap stop List.mem_cons_self, Bool.true_or]
    exact h.append hstop

/-- **The crux**: a piece is read alone as its token, also with blanks behind it.  What follows a
    piece in its text played no part in taking the token. -/
theorem tokenize_piece {c : Char} {piece gap : List Char} {token : Token}
    (hc : Text.isBlank c = false) (h : Takes c piece token [])
    (hgap : ∀ d ∈ gap, Text.isBlank d = true) :
    tokenize (String.ofList (c :: piece ++ gap)) = .ok [⟨token, 0⟩] := by
  have hblank : ∀ position, tokensFrom position gap = .ok [] := by
    intro position
    rw [← List.append_nil gap, tokensFrom_gap hgap, tokensFrom_nil]
  rw [tokenize, String.toList_ofList, List.cons_append, tokensFrom_takes hc (h.append_gap hgap),
    hblank]
  rfl

/-- The token that is taken from a character on is filled: the character is part of its word, or
    a mark. -/
theorem Takes.filled {c : Char} {rest left : List Char} {token : Token}
    (h : Takes c rest token left) : token.Filled := by
  have hcons : ∀ word, String.ofList (c :: word) ≠ "" := by
    intro word hempty
    have hnil := congrArg String.toList hempty
    rw [String.toList_ofList] at hnil
    cases hnil
  cases h with
  | opening => trivial
  | closing => trivial
  | not => trivial
  | quoted _ _ => trivial
  | term _ _ _ hscan =>
    unfold scanTerm at hscan
    split at hscan
    · obtain ⟨rfl, _⟩ := Prod.mk.inj (Except.ok.inj hscan)
      unfold wordToken
      dsimp only
      split
      · trivial
      split
      · trivial
      · exact hcons _
    · split at hscan
      · cases hscan
      · obtain ⟨rfl, _⟩ := Prod.mk.inj (Except.ok.inj hscan)
        exact hcons _

/-! ## Slices

  In what follows a text is cut into pieces from the byte `position` on, behind some text before. -/

section Slices

variable {position : Nat} {text before : List Char} {tokens : List Located}

/-- No token stands before the first.  By induction on the pieces, each of which has a byte at
    least. -/
theorem Pieces.le_position (h : Pieces position text tokens) :
    ∀ t ∈ tokens, position ≤ t.position := by
  induction h with
  | nil => simp
  | cons _ _ _ _ ih =>
    refine List.forall_mem_cons.mpr ⟨Nat.le_refl _, ?_⟩
    intro t ht
    have hlater := ih t ht
    omega

/-- The first token stands where the pieces begin; without tokens there is no text. -/
theorem Pieces.place_zero (h : Pieces position text tokens) :
    place tokens (position + Text.byteLength text) 0 = position := by
  cases h with
  | nil => rfl
  | cons _ _ _ _ => rfl

/-- **Positions ascend**, since each token has a piece of its own before the next one. -/
theorem Pieces.ascending (h : Pieces position text tokens) :
    (tokens.map Located.position).Pairwise (· < ·) := by
  induction h with
  | nil => exact .nil
  | @cons position c piece gap left token others _ _ _ hmore ih =>
    refine List.pairwise_cons.mpr ⟨?_, ih⟩
    intro later hlater
    obtain ⟨t, ht, rfl⟩ := List.mem_map.mp hlater
    have hle := hmore.le_position t ht
    have hwidth : 0 < c.utf8Size := c.utf8Size_pos
    rw [List.cons_append, Text.byteLength_cons] at hle
    show position < t.position
    omega

/-- A token stands where a piece begins that spells it.  By induction on the pieces, for whatever
    stands before them. -/
theorem Pieces.spelled (h : Pieces position text tokens)
    (hbefore : Text.byteLength before = position) :
    ∀ t ∈ tokens, ∃ left c piece right, before ++ text = left ++ c :: piece ++ right ∧
      Text.byteLength left = t.position ∧ Text.isBlank c = false ∧ Takes c piece t.token [] := by
  induction h generalizing before with
  | nil => simp
  | @cons position c piece gap rest token others hc halone _ _ ih =>
    refine List.forall_mem_cons.mpr ⟨?_, ?_⟩
    · exact ⟨before, c, piece, gap ++ rest, by simp, hbefore, hc, halone⟩
    · have hnext : Text.byteLength (before ++ (c :: piece ++ gap)) =
          position + Text.byteLength (c :: piece ++ gap) := by
        rw [Text.byteLength_append, hbefore]
      rw [← List.append_assoc]
      exact ih hnext

/-- So at its position stands a character of the text that is no blank. -/
theorem Pieces.starts (h : Pieces position text tokens)
    (hbefore : Text.byteLength before = position) :
    ∀ t ∈ tokens, ∃ left c right, before ++ text = left ++ c :: right ∧
      Text.byteLength left = t.position ∧ Text.isBlank c = false := by
  intro t ht
  obtain ⟨left, c, piece, right, htext, hleft, hc, _⟩ := h.spelled hbefore t ht
  exact ⟨left, c, piece ++ right, by rw [htext]; simp, hleft, hc⟩

theorem Pieces.filled (h : Pieces position text tokens) : ∀ t ∈ tokens, t.token.Filled := by
  induction h with
  | nil => simp
  | cons _ halone _ _ ih => exact List.forall_mem_cons.mpr ⟨halone.filled, ih⟩

/-- **The slice from a token to the next is the token's piece**, with the blanks behind it.  By
    induction on the pieces; the slice of the last one ends with the text. -/
theorem Pieces.alone (h : Pieces position text tokens)
    (hbefore : Text.byteLength before = position) (i : Nat) (t : Located)
    (ht : tokens[i]? = some t) :
    tokenize (Text.slice (String.ofList (before ++ text)) t.position
      (place tokens (position + Text.byteLength text) (i + 1))) = .ok [⟨t.token, 0⟩] := by
  induction h generalizing before i with
  | nil => cases ht
  | @cons position c piece gap rest token others hc halone hgap hmore ih =>
    have hnext : Text.byteLength (before ++ (c :: piece ++ gap)) =
        position + Text.byteLength (c :: piece ++ gap) := by
      rw [Text.byteLength_append, hbefore]
    have hsize : position + Text.byteLength (c :: piece ++ gap ++ rest) =
        position + Text.byteLength (c :: piece ++ gap) + Text.byteLength rest := by
      rw [Text.byteLength_append, Nat.add_assoc]
    rw [hsize, ← List.append_assoc]
    cases i with
    | zero =>
      obtain rfl := Option.some.inj ht
      have hplace : place (⟨token, position⟩ :: others)
          (position + Text.byteLength (c :: piece ++ gap) + Text.byteLength rest) 1 =
          Text.byteLength (before ++ (c :: piece ++ gap)) := by
        rw [hnext]
        exact hmore.place_zero
      rw [hplace, ← hbefore, Text.slice_append]
      exact tokenize_piece hc halone hgap
    | succ i =>
      -- the token and the end of its slice are those of the rest
      exact ih hnext i ht

end Slices

/-! ## Queries -/

/-- **Cutting a text into tokens loses nothing.** -/
theorem tokenize_lossless {text : String} {tokens : List Located}
    (h : tokenize text = .ok tokens) : Lossless text tokens := by
  obtain ⟨gap, rest, htext, hgap, hpieces⟩ := exists_pieces h
  rw [Nat.zero_add] at hpieces
  obtain rfl : text = String.ofList (gap ++ rest) := by rw [← htext, String.ofList_toList]
  have hsize : (String.ofList (gap ++ rest)).utf8ByteSize =
      Text.byteLength gap + Text.byteLength rest := by
    rw [Text.utf8ByteSize_eq, String.toList_ofList, Text.byteLength_append]
  constructor
  case ascending => exact hpieces.ascending
  case starts =>
    rw [String.toList_ofList]
    exact hpieces.starts rfl
  case lead =>
    rw [hsize, hpieces.place_zero]
    have hlead := Text.slice_append [] gap rest
    rw [List.nil_append, Text.byteLength_nil] at hlead
    rw [hlead, String.toList_ofList]
    exact hgap
  case filled => exact hpieces.filled
  case alone =>
    rw [hsize]
    exact hpieces.alone rfl

/-- Tokens that touch, of characters of one to three bytes.  The quoted value ends the comparison,
    and the word behind it takes the apostrophe and the `!`. -/
theorem tokenize_lossless_touching :
    tokenize " -(é:\"a b\"t's!)\u2003AND" = .ok [⟨.not, 1⟩, ⟨.opening, 2⟩,
        ⟨.comparison "é" .colon "a b", 3⟩, ⟨.word "t's!", 11⟩, ⟨.closing, 15⟩, ⟨.and, 19⟩] ∧
      Lossless " -(é:\"a b\"t's!)\u2003AND" [⟨.not, 1⟩, ⟨.opening, 2⟩,
        ⟨.comparison "é" .colon "a b", 3⟩, ⟨.word "t's!", 11⟩, ⟨.closing, 15⟩, ⟨.and, 19⟩] := by
  have hread : tokenize " -(é:\"a b\"t's!)\u2003AND" = .ok [⟨.not, 1⟩, ⟨.opening, 2⟩,
      ⟨.comparison "é" .colon "a b", 3⟩, ⟨.word "t's!", 11⟩, ⟨.closing, 15⟩, ⟨.and, 19⟩] := by
    decide +kernel
  exact ⟨hread, tokenize_lossless hread⟩

end CardSearch.Query
