import CardSearch.Proofs.Query.Lexing
import Mathlib.Data.List.TakeWhile

/-
  The characters that spell a token.

  A reader takes a token off the front of a text and hands on what is left.  What it has taken is a
  piece of the text, and this module shows that the piece says the token by itself: what follows
  only decides where the piece ends.

  1. **Operators (`take?_of_append`)** — a reader looks at most two characters ahead.  A text that is
     cut behind an operator still begins with it, and a text without one is given none by a cut.
  2. **The crux (`scanWord_of_append`)** — so a word is the same when the text is cut behind it, or
     behind the operator that ends it.
  3. **Pieces (`Takes.exists_piece`)** — every token is spelled by a piece of the text, which is the
     same token when it stands alone and leaves nothing over.
-/

namespace CardSearch.Query

/-! ## Operators -/

/-- After `<` the next character decides whether the operator has one character or two. -/
theorem take?_less (c : Char) (rest : List Char) :
    Operator.take? ('<' :: c :: rest) =
      if c = '>' then some (.lessGreater, rest)
      else if c = '=' then some (.lessEqual, rest)
      else some (.less, c :: rest) := by
  by_cases hgreater : c = '>'
  · rw [if_pos hgreater, hgreater]
    rfl
  by_cases hequal : c = '='
  · rw [if_neg hgreater, if_pos hequal, hequal]
    rfl
  · rw [if_neg hgreater, if_neg hequal]
    simp [Operator.take?, hgreater, hequal]

/-- After `>` the next character decides. -/
theorem take?_greater (c : Char) (rest : List Char) :
    Operator.take? ('>' :: c :: rest) =
      if c = '=' then some (.greaterEqual, rest) else some (.greater, c :: rest) := by
  by_cases hequal : c = '='
  · rw [if_pos hequal, hequal]
    rfl
  · rw [if_neg hequal]
    simp [Operator.take?, hequal]

/-- An operator ends before what can be no part of one, so the longest operator that fits is this
    one. -/
theorem take?_before {c : Char} (hequal : c ≠ '=') (hgreater : c ≠ '>') (operator : Operator)
    (rest : List Char) :
    Operator.take? (operator.symbol.toList ++ c :: rest) = some (operator, c :: rest) := by
  cases operator with
  | less => exact (take?_less c rest).trans (by rw [if_neg hgreater, if_neg hequal])
  | greater => exact (take?_greater c rest).trans (by rw [if_neg hequal])
  | _ => rfl

/-- An operator at the start of a text is an operator, whatever follows: that may make it a
    longer one, but not none. -/
theorem isSome_take?_symbol (operator : Operator) (rest : List Char) :
    (Operator.take? (operator.symbol.toList ++ rest)).isSome = true := by
  cases operator with
  | less =>
    -- what follows may make it a longer one
    cases rest with
    | nil => rfl
    | cons c rest =>
      change (Operator.take? ('<' :: c :: rest)).isSome = true
      rw [take?_less]
      split
      · rfl
      · split <;> rfl
  | greater =>
    cases rest with
    | nil => rfl
    | cons c rest =>
      change (Operator.take? ('>' :: c :: rest)).isSome = true
      rw [take?_greater]
      split <;> rfl
  | _ => rfl

/-- A cut brings no operator about. -/
theorem take?_eq_none_of_append {text after : List Char}
    (h : Operator.take? (text ++ after) = none) : Operator.take? text = none := by
  cases htake : Operator.take? text with
  | none => rfl
  | some taken =>
    obtain ⟨operator, rest⟩ := taken
    have hsome : (Operator.take? (text ++ after)).isSome = true := by
      rw [Operator.eq_append_of_take? htake, List.append_assoc]
      exact isSome_take?_symbol operator (rest ++ after)
    rw [h] at hsome
    cases hsome

/-- A cut behind an operator leaves it as it is.  The next character is the same, or it is cut off
    and the operator is at the end. -/
theorem take?_of_append {text rest after : List Char} {operator : Operator}
    (h : Operator.take? (text ++ after) = some (operator, rest ++ after)) :
    Operator.take? text = some (operator, rest) := by
  have htext : text ++ after = operator.symbol.toList ++ rest ++ after := by
    rw [Operator.eq_append_of_take? h, List.append_assoc]
  obtain rfl := List.append_cancel_right htext
  cases operator with
  | less =>
    -- the next character is the same, or it is cut off
    cases rest with
    | nil => rfl
    | cons c rest =>
      change Operator.take? ('<' :: c :: (rest ++ after)) = _ at h
      change Operator.take? ('<' :: c :: rest) = _
      rw [take?_less] at h ⊢
      grind
  | greater =>
    cases rest with
    | nil => rfl
    | cons c rest =>
      change Operator.take? ('>' :: c :: (rest ++ after)) = _ at h
      change Operator.take? ('>' :: c :: rest) = _
      rw [take?_greater] at h ⊢
      grind
  | _ => rfl

/-! ## Quoted texts and values -/

/-- A quoted text is spelled by what stands up to its closing quote.  The induction is that of the
    reader. -/
theorem exists_piece_of_scanQuoted {quote : Char} {text content left : List Char}
    (h : scanQuoted quote text = .ok (content, left)) :
    ∃ piece, text = piece ++ left ∧ scanQuoted quote piece = .ok (content, []) := by
  fun_induction scanQuoted quote text generalizing content with
  | case1 => cases h
  | case2 c rest hquote =>
    obtain ⟨rfl, rfl⟩ := Prod.mk.inj (Except.ok.inj h)
    refine ⟨[c], rfl, ?_⟩
    rw [scanQuoted, if_pos hquote]
  | case3 => cases h
  | case4 => cases h
  | case5 c hquote hslash escaped rest text' left' hscan ih =>
    obtain ⟨rfl, rfl⟩ := Prod.mk.inj (Except.ok.inj h)
    -- an escaped character is taken with its backslash
    obtain ⟨piece, rfl, hpiece⟩ := ih hscan
    refine ⟨c :: escaped :: piece, rfl, ?_⟩
    simp [scanQuoted, hquote, hslash, hpiece]
  | case6 => cases h
  | case7 c rest hquote hslash text' left' hscan ih =>
    obtain ⟨rfl, rfl⟩ := Prod.mk.inj (Except.ok.inj h)
    obtain ⟨piece, rfl, hpiece⟩ := ih hscan
    refine ⟨c :: piece, rfl, ?_⟩
    rw [scanQuoted.eq_def]
    simp only [if_neg hquote, if_neg hslash, hpiece]

/-- A value is taken whole if nothing in it ends it. -/
theorem scanValue_whole {c : Char} {rest : List Char} (hquote : isQuote c = false)
    (h : ∀ d ∈ c :: rest, endsValue d = false) : scanValue (c :: rest) = .ok (c :: rest, []) := by
  have hkept : ∀ d ∈ c :: rest, (!endsValue d) = true := by
    intro d hd
    rw [h d hd]
    rfl
  rw [scanValue_of_plain hquote, List.takeWhile_eq_self_iff.mpr hkept,
    List.dropWhile_eq_nil_iff.mpr hkept]

/-- A value is spelled by what stands up to its end, which is that of its quotes or the first
    character that ends it. -/
theorem exists_piece_of_scanValue {text value left : List Char}
    (h : scanValue text = .ok (value, left)) :
    ∃ piece, text = piece ++ left ∧ scanValue piece = .ok (value, []) := by
  cases text with
  | nil =>
    obtain ⟨rfl, rfl⟩ := Prod.mk.inj (Except.ok.inj h)
    exact ⟨[], rfl, rfl⟩
  | cons c rest =>
    cases hquote : isQuote c with
    | true =>
      rw [scanValue_of_quote hquote] at h
      obtain ⟨piece, hrest, hpiece⟩ := exists_piece_of_scanQuoted h
      refine ⟨c :: piece, by rw [hrest, List.cons_append], ?_⟩
      rw [scanValue_of_quote hquote, hpiece]
    | false =>
      rw [scanValue_of_plain hquote] at h
      obtain ⟨hvalue, hleft⟩ := Prod.mk.inj (Except.ok.inj h)
      refine ⟨value, by rw [← hvalue, ← hleft, List.takeWhile_append_dropWhile], ?_⟩
      cases hend : endsValue c with
      | true =>
        -- nothing stands before the end
        rw [List.takeWhile_cons_of_neg (by simp [hend])] at hvalue
        rw [← hvalue]
        rfl
      | false =>
        rw [List.takeWhile_cons_of_pos (by simp [hend])] at hvalue
        have hplain : ∀ d ∈ value, (!endsValue d) = true := by
          rw [← hvalue, List.forall_mem_cons]
          exact ⟨by simp [hend], fun d hd => List.mem_takeWhile_imp (p := (!endsValue ·)) hd⟩
        rw [← hvalue] at hplain ⊢
        rw [scanValue_of_plain hquote, List.takeWhile_eq_self_iff.mpr hplain,
          List.dropWhile_eq_nil_iff.mpr hplain]

/-! ## Words and terms -/

/-- A word and what is left of a text make up the text.  By induction on the text. -/
theorem scanWord_append_rest (text : List Char) :
    (scanWord text).1 ++ (scanWord text).2 = text := by
  induction text with
  | nil => rfl
  | cons c rest ih =>
    rw [scanWord]
    split
    · rfl
    · exact congrArg (c :: ·) ih

theorem scanWord_of_endsWord {text : List Char} (h : endsWord text = true) :
    scanWord text = ([], text) := by
  cases text with
  | nil => rfl
  | cons c rest => rw [scanWord, if_pos h]

theorem endsWord_of_take? {text : List Char} (h : (Operator.take? text).isSome = true) :
    endsWord text = true := by
  cases text with
  | nil => rfl
  | cons c rest => rw [endsWord, h, Bool.or_true]

/-- No character ends a word only because the text is cut: it would begin an operator that the
    longer text has as well. -/
theorem endsWord_of_append {c : Char} {text after : List Char}
    (h : endsWord (c :: (text ++ after)) = false) : endsWord (c :: text) = false := by
  rw [endsWord, Bool.or_eq_false_iff] at h
  obtain ⟨hmarks, hoperator⟩ := h
  have htake : Operator.take? (c :: text ++ after) = none :=
    Option.isNone_iff_eq_none.mp (Option.isSome_eq_false_iff.mp hoperator)
  rw [endsWord, hmarks, take?_eq_none_of_append htake]
  rfl

/-- **The crux**: a word is the same when the text is cut behind it, or behind what ends it.  By
    induction on the word, each of whose characters ends no word in the shorter text either. -/
theorem scanWord_of_append {word left after : List Char} (hends : endsWord left = true)
    (h : scanWord (word ++ left ++ after) = (word, left ++ after)) :
    scanWord (word ++ left) = (word, left) := by
  induction word with
  | nil => exact scanWord_of_endsWord hends
  | cons c word ih =>
    rw [List.cons_append, List.cons_append] at h
    rw [List.cons_append]
    cases hc : endsWord (c :: (word ++ left ++ after)) with
    | true =>
      rw [scanWord_of_endsWord hc] at h
      cases h
    | false =>
      -- the rest of the word is read behind this character, with the cut and without
      rw [scanWord, hc, if_neg Bool.false_ne_true] at h
      obtain ⟨hword, hleft⟩ := Prod.mk.inj h
      have hmore := ih (Prod.ext (List.cons.inj hword).2 hleft)
      rw [scanWord, endsWord_of_append hc, if_neg Bool.false_ne_true, hmore]

/-- A term is spelled, behind its word, by its operator and its value or by nothing.  In the first
    case the piece begins with the operator, which ends the word also without what follows. -/
theorem exists_piece_of_scanTerm {word text left : List Char} {token : Token}
    (h : scanTerm word text = .ok (token, left)) :
    ∃ piece, text = piece ++ left ∧ endsWord piece = true ∧
      scanTerm word piece = .ok (token, []) := by
  unfold scanTerm at h
  cases htake : Operator.take? text with
  | none =>
    rw [htake] at h
    obtain ⟨rfl, rfl⟩ := Prod.mk.inj (Except.ok.inj h)
    exact ⟨[], rfl, rfl, rfl⟩
  | some taken =>
    obtain ⟨operator, rest⟩ := taken
    simp only [htake] at h
    cases hvalue : scanValue rest with
    | error e =>
      rw [hvalue] at h
      cases h
    | ok scanned =>
      obtain ⟨value, left'⟩ := scanned
      simp only [hvalue] at h
      obtain ⟨rfl, rfl⟩ := Prod.mk.inj (Except.ok.inj h)
      obtain ⟨piece, rfl, hpiece⟩ := exists_piece_of_scanValue hvalue
      have htext := Operator.eq_append_of_take? htake
      rw [← List.append_assoc] at htext
      subst htext
      -- the operator is not made longer by what follows it, so it is the same without that
      have hcut : Operator.take? (operator.symbol.toList ++ piece) = some (operator, piece) :=
        take?_of_append htake
      refine ⟨operator.symbol.toList ++ piece, rfl, ?_, ?_⟩
      · exact endsWord_of_take? (isSome_take?_symbol operator piece)
      · rw [scanTerm, hcut]
        simp only [hpiece]

/-- **Every token is spelled by a piece of the text**, and alone the piece is the same token.  By
    cases on how the token is taken. -/
theorem Takes.exists_piece {c : Char} {rest left : List Char} {token : Token}
    (h : Takes c rest token left) : ∃ piece, rest = piece ++ left ∧ Takes c piece token [] := by
  cases h with
  | opening => exact ⟨[], rfl, .opening⟩
  | closing => exact ⟨[], rfl, .closing⟩
  | not => exact ⟨[], rfl, .not⟩
  | quoted hquote hscan =>
    obtain ⟨piece, hrest, hpiece⟩ := exists_piece_of_scanQuoted hscan
    exact ⟨piece, hrest, .quoted hquote hpiece⟩
  | term hmarks hquote hoperator hscan =>
    obtain ⟨piece, htext, hends, hpiece⟩ := exists_piece_of_scanTerm hscan
    have hrest : rest = (scanWord rest).1 ++ piece ++ left := by
      rw [List.append_assoc, ← htext, scanWord_append_rest]
    have hword : scanWord ((scanWord rest).1 ++ piece) = ((scanWord rest).1, piece) :=
      scanWord_of_append hends (by rw [← hrest, ← htext])
    refine ⟨(scanWord rest).1 ++ piece, hrest, .term hmarks hquote ?_ ?_⟩
    · rw [hrest, ← List.cons_append] at hoperator
      exact take?_eq_none_of_append hoperator
    · rw [hword]
      exact hpiece

end CardSearch.Query
