import CardSearch.Query.Error

/-
  The tokens of a query.

  A query is cut into parentheses, dashes, quoted texts, words and comparisons.  A comparison is a
  word, an operator and a value written without blanks between them; the value is a quoted text or
  runs up to a blank or a closing parenthesis.  Blanks separate tokens and are otherwise skipped.

  1. **Place** — every token keeps the byte position of its first character.
  2. **Step** — `scanToken` takes one token off a text that begins with no blank and returns what
     is left, which is shorter (`length_le_of_scanToken`).
  3. **Failure** — a quoted text that is not closed, and an operator with no word before it.
-/

namespace CardSearch.Query

/-- A piece of a query. -/
inductive Token where
  | comparison (field : String) (operator : Operator) (value : String)
  | word (text : String)
  | quoted (text : String)
  | and
  | or
  | not
  | opening
  | closing
  deriving DecidableEq

/-- A token with the byte position at which it starts. -/
structure Located where
  token : Token
  position : Nat
  deriving DecidableEq

/-- A token as messages show it. -/
def Token.text : Token → String
  | .comparison field operator value => field ++ operator.symbol ++ value
  | .word text => text
  | .quoted text => "\"" ++ text ++ "\""
  | .and => "and"
  | .or => "or"
  | .not => "-"
  | .opening => "("
  | .closing => ")"

/-! ## Parts of tokens -/

/-- A character that opens and closes a quoted text. -/
def isQuote (c : Char) : Bool := c == '"' || c == '\''

/-- The content of a quoted text and what follows its closing quote.  A backslash takes the next
    character as it is. -/
def scanQuoted (quote : Char) : List Char → Except Error (List Char × List Char)
  | [] => .error .unexpectedEnd
  | c :: rest =>
    if c == quote then .ok ([], rest)
    else if c == '\\' then
      match rest with
      | [] => .error .unexpectedEnd
      | escaped :: more =>
        match scanQuoted quote more with
        | .error e => .error e
        | .ok (text, left) => .ok (escaped :: text, left)
    else match scanQuoted quote rest with
      | .error e => .error e
      | .ok (text, left) => .ok (c :: text, left)

/-- A character that ends a value without quotes. -/
def endsValue (c : Char) : Bool := Text.isBlank c || c == ')'

/-- The value at the start of a text and what follows it. -/
def scanValue : List Char → Except Error (List Char × List Char)
  | [] => .ok ([], [])
  | c :: rest =>
    if isQuote c then scanQuoted c rest
    else .ok ((c :: rest).takeWhile (!endsValue ·), (c :: rest).dropWhile (!endsValue ·))

/-- Whether a word ends before a text: at a blank, a parenthesis, a double quote or an operator. -/
def endsWord : List Char → Bool
  | [] => true
  | c :: rest =>
    Text.isBlank c || c == '(' || c == ')' || c == '"' || (Operator.take? (c :: rest)).isSome

/-- The rest of a word and what follows it. -/
def scanWord : List Char → List Char × List Char
  | [] => ([], [])
  | c :: rest =>
    if endsWord (c :: rest) then ([], c :: rest)
    else
      let (word, left) := scanWord rest
      (c :: word, left)

/-- A word that stands alone: a connective in any case, or a word to search for. -/
def wordToken (word : List Char) : Token :=
  let lowered := Text.lowerAscii word
  if lowered == ['a', 'n', 'd'] then .and
  else if lowered == ['o', 'r'] then .or
  else .word (String.ofList word)

/-! ## Whole tokens -/

/-- The token that begins with a word, and what follows it. -/
def scanTerm (word left : List Char) : Except Error (Token × List Char) :=
  match Operator.take? left with
  | none => .ok (wordToken word, left)
  | some (operator, more) =>
    match scanValue more with
    | .error e => .error e
    | .ok (value, left) =>
      .ok (.comparison (String.ofList word) operator (String.ofList value), left)

/-- The token at the start of a text, given by its first character and the rest. -/
def scanToken (position : Nat) (c : Char) (rest : List Char) : Except Error (Token × List Char) :=
  if c == '(' then .ok (.opening, rest)
  else if c == ')' then .ok (.closing, rest)
  else if c == '-' then .ok (.not, rest)
  else if isQuote c then
    match scanQuoted c rest with
    | .error e => .error e
    | .ok (text, left) => .ok (.quoted (String.ofList text), left)
  else match Operator.take? (c :: rest) with
    | some (operator, _) => .error (.unexpectedToken operator.symbol position)
    | none =>
      let (word, left) := scanWord rest
      scanTerm (c :: word) left

/-! ## What is left is shorter -/

theorem length_le_of_scanQuoted {quote : Char} {text content left : List Char}
    (h : scanQuoted quote text = .ok (content, left)) : left.length ≤ text.length := by
  fun_induction scanQuoted quote text generalizing content <;> grind

theorem length_le_of_scanValue {text value left : List Char}
    (h : scanValue text = .ok (value, left)) : left.length ≤ text.length := by
  match text with
  | [] =>
    simp only [scanValue, Except.ok.injEq, Prod.mk.injEq] at h
    simp [← h.2]
  | c :: rest =>
    simp only [scanValue] at h
    split at h
    · exact Nat.le_succ_of_le (length_le_of_scanQuoted h)
    · simp only [Except.ok.injEq, Prod.mk.injEq] at h
      rw [← h.2]
      exact (List.dropWhile_suffix _).length_le

theorem length_scanWord_le (text : List Char) : (scanWord text).2.length ≤ text.length := by
  induction text with
  | nil => simp [scanWord]
  | cons c rest ih =>
    simp only [scanWord]
    split
    · simp
    · exact Nat.le_succ_of_le ih

theorem length_le_of_scanTerm {word text left : List Char} {token : Token}
    (h : scanTerm word text = .ok (token, left)) : left.length ≤ text.length := by
  unfold scanTerm at h
  split at h
  · simp only [Except.ok.injEq, Prod.mk.injEq] at h
    simp [h.2]
  · rename_i operator more taken
    have := Operator.length_lt_of_take? taken
    split at h
    · exact absurd h (by simp)
    · rename_i value rest scanned
      simp only [Except.ok.injEq, Prod.mk.injEq] at h
      have := length_le_of_scanValue scanned
      rw [← h.2]
      omega

/-- What a token leaves is no longer than what stood behind its first character.  So the readers
    of texts end. -/
theorem length_le_of_scanToken {position : Nat} {c : Char} {rest left : List Char} {token : Token}
    (h : scanToken position c rest = .ok (token, left)) : left.length ≤ rest.length := by
  unfold scanToken at h
  split at h
  · grind
  split at h
  · grind
  split at h
  · grind
  split at h
  · split at h
    · exact absurd h (by simp)
    · rename_i scanned
      have := length_le_of_scanQuoted scanned
      grind
  split at h
  · exact absurd h (by simp)
  · exact Nat.le_trans (length_le_of_scanTerm h) (length_scanWord_le rest)

/-! ## Token lists -/

/-- The tokens of a text that starts at a byte position. -/
def tokensFrom (position : Nat) (text : List Char) : Except Error (List Located) :=
  match text with
  | [] => .ok []
  | c :: rest =>
    if Text.isBlank c then tokensFrom (position + c.utf8Size) rest
    else match _ : scanToken position c rest with
      | .error e => .error e
      | .ok (token, left) =>
        let width := Text.byteLength (c :: rest) - Text.byteLength left
        match tokensFrom (position + width) left with
        | .error e => .error e
        | .ok tokens => .ok (⟨token, position⟩ :: tokens)
  termination_by text.length
  decreasing_by
    · simp
    · have := length_le_of_scanToken ‹_›
      simp
      omega

/-- The tokens of a query. -/
def tokenize (text : String) : Except Error (List Located) := tokensFrom 0 text.toList

end CardSearch.Query
