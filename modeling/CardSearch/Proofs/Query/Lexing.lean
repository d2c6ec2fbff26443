import CardSearch.Proofs.Query.Parsing

/-
  How texts are cut into tokens, and what stays the same when texts are put together.

  `Takes c rest token left` and `Cuts text tokens` say without byte positions, which no tree depends
  on, what `scanToken` takes off a text and how a whole text is cut.  Both are equivalent to the
  readers from any position (`scanToken_eq_ok_iff`, `cuts_of_tokensFrom`, `tokensFrom_of_cuts`).

  1. **The crux (`Cuts.append_cons`)** — a text that is cut into tokens is cut into the same tokens
     when a blank or a closing parenthesis follows, whatever comes after.  These are the characters
     that end an unquoted value; they also end every word, spell no part of an operator and open no
     quotes, so no token of the first text can reach over the joint.
  2. **Whole queries (`parse_eq_ok_iff`)** — a text has a tree exactly when it is cut into the tokens
     of a phrase with that tree.
-/

namespace CardSearch.Query

open Phrase

/-! ## Cutting a text -/

/-- The token that begins with a character, and what it leaves of the rest. -/
inductive Takes : Char → List Char → Token → List Char → Prop where
  | opening {rest : List Char} : Takes '(' rest .opening rest
  | closing {rest : List Char} : Takes ')' rest .closing rest
  | not {rest : List Char} : Takes '-' rest .not rest
  | quoted {c : Char} {rest text left : List Char} (opens : isQuote c = true)
      (scanned : scanQuoted c rest = .ok (text, left)) :
      Takes c rest (.quoted (String.ofList text)) left
  | term {c : Char} {rest left : List Char} {token : Token}
      (unmarked : c ≠ '(' ∧ c ≠ ')' ∧ c ≠ '-') (unquoted : isQuote c = false)
      (noOperator : Operator.take? (c :: rest) = none)
      (scanned : scanTerm (c :: (scanWord rest).1) (scanWord rest).2 = .ok (token, left)) :
      Takes c rest token left

/-- `scanToken` takes a token off from every position, or from none, for the position only goes
    into errors. -/
theorem scanToken_eq_ok_iff {position : Nat} {c : Char} {rest left : List Char} {token : Token} :
    scanToken position c rest = .ok (token, left) ↔ Takes c rest token left := by
  constructor
  · intro h
    unfold scanToken at h
    split at h
    · rename_i hc
      obtain ⟨rfl, rfl⟩ := Prod.mk.inj (Except.ok.inj h)
      rw [eq_of_beq hc]
      exact .opening
    split at h
    · rename_i hc
      obtain ⟨rfl, rfl⟩ := Prod.mk.inj (Except.ok.inj h)
      rw [eq_of_beq hc]
      exact .closing
    split at h
    · rename_i hc
      obtain ⟨rfl, rfl⟩ := Prod.mk.inj (Except.ok.inj h)
      rw [eq_of_beq hc]
      exact .not
    split at h
    · rename_i hquote
      split at h
      · cases h
      · rename_i text left' hscan
        obtain ⟨rfl, rfl⟩ := Prod.mk.inj (Except.ok.inj h)
        exact .quoted hquote hscan
    split at h
    · cases h
    · rename_i hopening hclosing hdash hquote _ hoperator
      refine .term ⟨?_, ?_, ?_⟩ (Bool.eq_false_iff.mpr hquote) hoperator h
      · exact fun hc => hopening (beq_iff_eq.mpr hc)
      · exact fun hc => hclosing (beq_iff_eq.mpr hc)
      · exact fun hc => hdash (beq_iff_eq.mpr hc)
  · intro h
    cases h with
    | opening => rfl
    | closing => rfl
    | not => rfl
    | quoted hquote hscan =>
      -- a quote is none of the three marks
      rcases (Bool.or_eq_true _ _).mp hquote with hc | hc <;>
        · obtain rfl := eq_of_beq hc
          simp [scanToken, isQuote, hscan]
    | term hmarks hquote hoperator hscan =>
      obtain ⟨hopening, hclosing, hdash⟩ := hmarks
      simp [scanToken, hopening, hclosing, hdash, hquote, hoperator, hscan]

/-- A text is cut into tokens: blanks are skipped, and every other character begins a token. -/
inductive Cuts : List Char → List Token → Prop where
  | nil : Cuts [] []
  | blank {c : Char} {rest : List Char} {tokens : List Token} (isBlank : Text.isBlank c = true)
      (more : Cuts rest tokens) : Cuts (c :: rest) tokens
  | token {c : Char} {rest left : List Char} {token : Token} {tokens : List Token}
      (notBlank : Text.isBlank c = false) (takes : Takes c rest token left)
      (more : Cuts left tokens) : Cuts (c :: rest) (token :: tokens)

/-- What is read from some position is cut.  The induction is that of the reader. -/
theorem cuts_of_tokensFrom {position : Nat} {text : List Char} {located : List Located}
    (h : tokensFrom position text = .ok located) : Cuts text (located.map Located.token) := by
  fun_induction tokensFrom position text generalizing located with
  | case1 =>
    obtain rfl := Except.ok.inj h
    exact .nil
  | case2 position c rest hblank ih => exact .blank hblank (ih h)
  | case3 => cases h
  | case4 => cases h
  | case5 position c rest hblank token left hscan width tokens hmore =>
    rename_i ih
    obtain rfl := Except.ok.inj h
    exact .token (Bool.eq_false_iff.mpr hblank) (scanToken_eq_ok_iff.mp hscan) (ih hmore)

/-- What is cut is read from every position.  By induction on the cutting, for all positions at
    once. -/
theorem tokensFrom_of_cuts {text : List Char} {tokens : List Token} (h : Cuts text tokens) :
    ∀ position, ∃ located, tokensFrom position text = .ok located ∧
      located.map Located.token = tokens := by
  induction h with
  | nil =>
    intro position
    exact ⟨[], by rw [tokensFrom.eq_def], rfl⟩
  | blank hblank _ ih =>
    intro position
    rw [tokensFrom.eq_def]
    dsimp only
    rw [if_pos hblank]
    exact ih _
  | @token c rest left token tokens hblank htakes _ ih =>
    intro position
    rw [tokensFrom.eq_def]
    dsimp only
    rw [if_neg (Bool.eq_false_iff.mp hblank)]
    have hscan : scanToken position c rest = .ok (token, left) := scanToken_eq_ok_iff.mpr htakes
    -- the rest is read from the position behind the token
    obtain ⟨located, hmore, htokens⟩ := ih
      (position + (Text.byteLength (c :: rest) - Text.byteLength left))
    refine ⟨⟨token, position⟩ :: located, ?_, by rw [List.map_cons, htokens]⟩
    split
    · rename_i e herror
      rw [hscan] at herror
      cases herror
    · rename_i token' left' hscan'
      rw [hscan] at hscan'
      obtain ⟨rfl, rfl⟩ := Prod.mk.inj (Except.ok.inj hscan')
      simp only [hmore]

/-! ## Values -/

theorem scanValue_of_quote {c : Char} {rest : List Char} (h : isQuote c = true) :
    scanValue (c :: rest) = scanQuoted c rest := by
  rw [scanValue, if_pos h]

/-- Otherwise it goes on up to the first character that ends it. -/
theorem scanValue_of_plain {c : Char} {rest : List Char} (h : isQuote c = false) :
    scanValue (c :: rest) =
      .ok ((c :: rest).takeWhile (!endsValue ·), (c :: rest).dropWhile (!endsValue ·)) := by
  rw [scanValue, if_neg (Bool.eq_false_iff.mp h)]

/-! ## Texts put together

  In what follows a first text is followed by a character that ends a value, and by more. -/

section Joint

variable {stop : Char} {more : List Char} (hstop : endsValue stop = true)
include hstop

/-- What ends a value is no other character than a blank or a closing parenthesis. -/
theorem ne_of_endsValue {c : Char} (hc : endsValue c = false) : stop ≠ c := by
  rintro rfl
  rw [hstop] at hc
  cases hc

theorem isQuote_of_endsValue : isQuote stop = false := by
  have hdouble : stop ≠ '"' := ne_of_endsValue hstop (by decide)
  have hsingle : stop ≠ '\'' := ne_of_endsValue hstop (by decide)
  simp [isQuote, hdouble, hsingle]

theorem endsWord_of_endsValue : endsWord (stop :: more) = true := by
  rcases (Bool.or_eq_true _ _).mp hstop with hblank | hclosing
  · simp [endsWord, hblank]
  · simp [endsWord, eq_of_beq hclosing]

/-- What ends a value spells no operator. -/
theorem take?_of_endsValue : Operator.take? (stop :: more) = none := by
  have hcolon : stop ≠ ':' := ne_of_endsValue hstop (by decide)
  have hequal : stop ≠ '=' := ne_of_endsValue hstop (by decide)
  have hbang : stop ≠ '!' := ne_of_endsValue hstop (by decide)
  have hless : stop ≠ '<' := ne_of_endsValue hstop (by decide)
  have hgreater : stop ≠ '>' := ne_of_endsValue hstop (by decide)
  simp [Operator.take?, hcolon, hequal, hbang, hless, hgreater]

/-- An operator is spelled within the first text or not at all: none has more than two
    characters, and the second is never one that ends a value. -/
theorem take?_append (more : List Char) : ∀ text : List Char,
    Operator.take? (text ++ stop :: more) =
      (Operator.take? text).map fun (op, left) => (op, left ++ stop :: more)
  | [] => take?_of_endsValue hstop
  | [c] => by
    have hequal : stop ≠ '=' := ne_of_endsValue hstop (by decide)
    have hgreater : stop ≠ '>' := ne_of_endsValue hstop (by decide)
    unfold Operator.take?
    grind
  | c :: d :: rest => by
    -- no operator has more than two characters, and both are in the first text
    rw [List.cons_append, List.cons_append]
    by_cases hless : c = '<'
    · subst hless
      by_cases hd : d = '>'
      · subst hd
        rfl
      by_cases hd' : d = '='
      · subst hd'
        rfl
      simp [Operator.take?, hd, hd']
    by_cases hgreater : c = '>'
    · subst hgreater
      by_cases hd : d = '='
      · subst hd
        rfl
      simp [Operator.take?, hd]
    by_cases hbang : c = '!'
    · subst hbang
      by_cases hd : d = '='
      · subst hd
        rfl
      simp [Operator.take?, hd]
    by_cases hcolon : c = ':'
    · subst hcolon
      rfl
    by_cases hequal : c = '='
    · subst hequal
      rfl
    simp [Operator.take?, hless, hgreater, hbang, hcolon, hequal]

omit hstop in
/-- A quoted text is closed within the first text. -/
theorem scanQuoted_append {quote : Char} {text content left : List Char}
    (h : scanQuoted quote text = .ok (content, left)) (after : List Char) :
    scanQuoted quote (text ++ after) = .ok (content, left ++ after) := by
  fun_induction scanQuoted quote text generalizing content with
  | case1 => cases h
  | case2 c rest hquote =>
    obtain ⟨rfl, rfl⟩ := Prod.mk.inj (Except.ok.inj h)
    rw [List.cons_append, scanQuoted.eq_def]
    exact if_pos hquote
  | case3 => cases h
  | case4 => cases h
  | case5 c hquote hslash escaped rest text' left' hscan ih =>
    obtain ⟨rfl, rfl⟩ := Prod.mk.inj (Except.ok.inj h)
    simp [scanQuoted, hquote, hslash, ih hscan]
  | case6 => cases h
  | case7 c rest hquote hslash text' left' hscan ih =>
    obtain ⟨rfl, rfl⟩ := Prod.mk.inj (Except.ok.inj h)
    rw [List.cons_append, scanQuoted.eq_def]
    simp only [if_neg hquote, if_neg hslash, ih hscan]

/-- An unquoted value ends where the first text does, at the latest. -/
theorem takeWhile_dropWhile_append (more text : List Char) :
    (text ++ stop :: more).takeWhile (!endsValue ·) = text.takeWhile (!endsValue ·) ∧
    (text ++ stop :: more).dropWhile (!endsValue ·) =
      text.dropWhile (!endsValue ·) ++ stop :: more := by
  refine Text.run_append (fun c hc => ?_) text
  obtain rfl := Option.some.inj hc
  rw [hstop, Bool.not_true]

/-- A value is the same when the first text is followed: a quoted one is closed within it, and
    any other ends with it. -/
theorem scanValue_append {text value left : List Char} (h : scanValue text = .ok (value, left)) :
    scanValue (text ++ stop :: more) = .ok (value, left ++ stop :: more) := by
  cases text with
  | nil =>
    obtain ⟨rfl, rfl⟩ := Prod.mk.inj (Except.ok.inj h)
    simp [scanValue, isQuote_of_endsValue hstop, hstop]
  | cons c rest =>
    cases hquote : isQuote c with
    | true =>
      rw [scanValue_of_quote hquote] at h
      rw [List.cons_append, scanValue_of_quote hquote]
      exact scanQuoted_append h _
    | false =>
      rw [scanValue_of_plain hquote] at h
      obtain ⟨rfl, rfl⟩ := Prod.mk.inj (Except.ok.inj h)
      obtain ⟨htake, hdrop⟩ := takeWhile_dropWhile_append hstop more (c :: rest)
      rw [List.cons_append] at htake hdrop ⊢
      rw [scanValue_of_plain hquote, htake, hdrop]

/-- A word ends where the first text does, at the latest.  By induction on the text. -/
theorem scanWord_append (text : List Char) :
    scanWord (text ++ stop :: more) = ((scanWord text).1, (scanWord text).2 ++ stop :: more) := by
  induction text with
  | nil => simp [scanWord, endsWord_of_endsValue hstop]
  | cons c rest ih =>
    have hends : endsWord (c :: rest ++ stop :: more) = endsWord (c :: rest) := by
      have htake := take?_append hstop more (c :: rest)
      rw [List.cons_append] at htake
      simp only [endsWord, List.cons_append, htake, Option.isSome_map]
    rw [List.cons_append] at hends ⊢
    rw [scanWord, scanWord, hends, ih]
    split <;> rfl

/-- A term is the same when the first text is followed, be it a word or a comparison. -/
theorem scanTerm_append {word text left : List Char} {token : Token}
    (h : scanTerm word text = .ok (token, left)) :
    scanTerm word (text ++ stop :: more) = .ok (token, left ++ stop :: more) := by
  unfold scanTerm at h ⊢
  rw [take?_append hstop more]
  cases htake : Operator.take? text with
  | none =>
    rw [htake] at h
    obtain ⟨rfl, rfl⟩ := Prod.mk.inj (Except.ok.inj h)
    rfl
  | some taken =>
    obtain ⟨operator, rest⟩ := taken
    simp only [htake, Option.map_some] at h ⊢
    cases hvalue : scanValue rest with
    | error e =>
      rw [hvalue] at h
      cases h
    | ok scanned =>
      obtain ⟨value, rest'⟩ := scanned
      simp only [hvalue] at h
      obtain ⟨rfl, rfl⟩ := Prod.mk.inj (Except.ok.inj h)
      -- a comparison is the same since its value is
      simp only [scanValue_append hstop hvalue]

/-- **The step**: a token is the same when the first text is followed.  By cases on its first
    character, where the marks and the quotes decide alone. -/
theorem Takes.append {c : Char} {rest left : List Char} {token : Token}
    (h : Takes c rest token left) : Takes c (rest ++ stop :: more) token (left ++ stop :: more) := by
  cases h with
  | opening => exact .opening
  | closing => exact .closing
  | not => exact .not
  | quoted hquote hscan => exact .quoted hquote (scanQuoted_append hscan _)
  | term hmarks hquote hoperator hscan =>
    -- neither an operator nor the word reaches over the joint
    refine .term hmarks hquote ?_ ?_
    · have htake := take?_append hstop more (c :: rest)
      rwa [hoperator, List.cons_append] at htake
    · rw [scanWord_append hstop]
      exact scanTerm_append hstop hscan

/-- **The joint**: a text and what follows it are cut one after the other.  By induction on how
    the text is cut. -/
theorem Cuts.append_cons {text : List Char} {tokens others : List Token} (h : Cuts text tokens)
    (hmore : Cuts (stop :: more) others) : Cuts (text ++ stop :: more) (tokens ++ others) := by
  induction h with
  | nil => exact hmore
  | blank hblank _ ih => exact .blank hblank ih
  | token hblank htakes _ ih => exact .token hblank (htakes.append hstop) ih

end Joint

/-- What may follow a text and leave its tokens alone: nothing, or what ends a value. -/
def Detached (next : List Char) : Prop := ∀ c ∈ next.head?, endsValue c = true

/-- **Texts one after the other**: the second is detached from the first, and each is cut alone. -/
theorem Cuts.append {text next : List Char} {tokens others : List Token} (h : Cuts text tokens)
    (hdetached : Detached next) (hnext : Cuts next others) :
    Cuts (text ++ next) (tokens ++ others) := by
  cases next with
  | nil =>
    cases hnext
    rwa [List.append_nil, List.append_nil]
  | cons stop more => exact h.append_cons (hdetached stop rfl) hnext

/-! ## Whole queries -/

/-- Blank texts have no tokens, since each of their characters is skipped. -/
theorem Cuts.eq_nil_of_blank {text : List Char} {tokens : List Token} (h : Cuts text tokens)
    (hblank : text.all Text.isBlank = true) : tokens = [] := by
  induction h with
  | nil => rfl
  | blank _ _ ih =>
    rw [List.all_cons, Bool.and_eq_true] at hblank
    exact ih hblank.2
  | token hc _ _ _ =>
    rw [List.all_cons, hc] at hblank
    cases hblank

theorem tokens_ne_nil (phrase : Alternatives) : phrase.tokens ≠ [] := by
  obtain ⟨⟨term, _⟩, _⟩ := phrase
  cases term <;> simp [Alternatives.tokens, Sequence.tokens, Term.tokens]

/-- **What a query is.** A text has a tree exactly when it is cut into the tokens of a phrase
    that has this tree.  The positions of the tokens are no part of it. -/
theorem parse_eq_ok_iff {text : String} {tree : Node} :
    parse text = .ok tree ↔
      ∃ phrase : Alternatives, Cuts text.toList phrase.tokens ∧ phrase.tree? = some tree := by
  constructor
  · intro h
    unfold parse at h
    split at h
    · cases h
    · obtain ⟨located, htokens, htree⟩ := bind_eq_ok_iff.mp h
      obtain ⟨phrase, hphrase, htree⟩ := ofTokens_eq_ok_iff.mp htree
      exact ⟨phrase, hphrase ▸ cuts_of_tokensFrom htokens, htree⟩
  · rintro ⟨phrase, hcuts, htree⟩
    obtain ⟨located, hlocated, htokens⟩ := tokensFrom_of_cuts hcuts 0
    have hblank : ¬ text.toList.all Text.isBlank = true := fun hblank =>
      tokens_ne_nil phrase (hcuts.eq_nil_of_blank hblank)
    rw [parse, if_neg hblank]
    exact bind_eq_ok_iff.mpr
      ⟨located, hlocated, ofTokens_eq_ok_iff.mpr ⟨phrase, htokens.symm, htree⟩⟩

end CardSearch.Query
