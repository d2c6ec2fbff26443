import CardSearch.Toml.Quoted
import CardSearch.Toml.Scalar
import CardSearch.Toml.Section

/-
  The lines of a TOML document.

  A line is blank, or gives a key its value, or opens a table or the next table of a list of tables.
  Comments run from `#` to the end of a line.  Blanks are skipped around keys and values; inside
  brackets, but not inside braces, so are line breaks and comments.
-/

namespace CardSearch.Toml

/-- A line that says something. -/
inductive Line where
  | pair (key : Key) (value : Toml)
  | table (key : Key)
  | tableOfList (key : Key)

/-! ## Blanks -/

/-- A text without the blanks at its start. -/
def skipBlanks (s : List Char) : List Char := s.dropWhile fun c => c == ' ' || c == '\t'

theorem length_skipBlanks_le (s : List Char) : (skipBlanks s).length ≤ s.length :=
  Text.length_dropWhile_le _ s

/-- What stands behind the first character that is no blank is shorter, so the readers of lines
    end. -/
theorem length_lt_of_skipBlanks {s rest : List Char} {c : Char} (h : skipBlanks s = c :: rest) :
    rest.length < s.length := by
  have := length_skipBlanks_le s
  rw [h] at this
  exact this

/-- A text without the blanks, line breaks and comments at its start; `comment` says whether a
    comment is under way. -/
def skipSpace (comment : Bool) : List Char → List Char
  | [] => []
  | c :: rest =>
    if comment && isPlain c then skipSpace true rest
    else if c == ' ' || c == '\t' || c == '\n' then skipSpace false rest
    else if c == '\r' && rest.head? == some '\n' then skipSpace false rest
    else if c == '#' then skipSpace true rest
    else c :: rest

theorem length_skipSpace_le (comment : Bool) (s : List Char) :
    (skipSpace comment s).length ≤ s.length := by
  fun_induction skipSpace comment s <;> grind

theorem length_lt_of_skipSpace {comment : Bool} {s rest : List Char} {c : Char}
    (h : skipSpace comment s = c :: rest) : rest.length < s.length := by
  have := length_skipSpace_le comment s
  rw [h] at this
  exact this

/-- What follows a line break, or the end of the text. -/
def afterBreak (s : List Char) : Option (Text.Within s) :=
  match s with
  | [] => some (.all [])
  | '\n' :: rest => some (Text.Within.all rest).cons
  | '\r' :: '\n' :: rest => some (Text.Within.all rest).cons.cons
  | _ => none

/-- A text without the comment at its start. -/
def skipComment (s : List Char) : List Char :=
  if s.head? == some '#' then s.dropWhile isPlain else s

theorem length_skipComment_le (s : List Char) : (skipComment s).length ≤ s.length := by
  unfold skipComment
  split
  · exact Text.length_dropWhile_le isPlain s
  · exact Nat.le_refl _

/-- A text without the blanks and the comment at its start. -/
def skipToBreak (s : List Char) : List Char := skipComment (skipBlanks s)

theorem length_skipToBreak_le (s : List Char) : (skipToBreak s).length ≤ s.length :=
  Nat.le_trans (length_skipComment_le _) (length_skipBlanks_le s)

/-- What follows the end of a line, before which blanks and a comment may stand. -/
def afterLine (s : List Char) : Option (Text.Within s) :=
  (afterBreak (skipToBreak s)).map fun left => left.trans (length_skipToBreak_le s)

/-! ## Keys -/

/-- How deep lists and tables may be nested. -/
def maxDepth : Nat := 79

/-- A character of a name without quotes. -/
def isNameChar (c : Char) : Bool := c.isAlphanum || c == '_' || c == '-'

/-- A name, in quotes or not. -/
def readName (s : List Char) : Option (String × Text.Shorter s) :=
  match s with
  | [] => none
  | c :: rest =>
    if c == '"' then
      (readBasic rest).map fun (name, left) => (String.ofList name, left.cons)
    else if c == '\'' then
      (readLiteral rest).map fun (name, left) => (String.ofList name, left.cons)
    else if isNameChar c then
      some (String.ofList (c :: rest.takeWhile isNameChar),
        Text.Within.after ⟨rest.dropWhile isNameChar, Text.length_dropWhile_le isNameChar rest⟩)
    else none

/-- The names of a key, with points between them and blanks around them. -/
def readNames (s : List Char) : Option (Key × Text.Shorter s) := do
  have hs := length_skipBlanks_le s
  let (name, ⟨left, hl⟩) ← readName (skipBlanks s)
  match h : skipBlanks left with
  | '.' :: rest => do
    have hr := length_lt_of_skipBlanks h
    let (names, last) ← readNames rest
    return (name :: names, ((last.trans hr).trans hl).ofLE hs)
  | _ =>
    let rest : Text.Within left := ⟨skipBlanks left, length_skipBlanks_le left⟩
    return ([name], (rest.shorter hl).ofLE hs)
  termination_by s.length
  decreasing_by omega

/-- A key, which leads no deeper than tables may be nested. -/
def readKey (s : List Char) : Option (Key × Text.Shorter s) :=
  (readNames s).filter fun (key, _) => key.length ≤ maxDepth

/-! ## Values -/

theorem length_drop_lt {n : Nat} {s : List Char} (hn : 0 < n) (hs : 0 < s.length) :
    (s.drop n).length < s.length := by
  rw [List.length_drop]
  exact Nat.sub_lt hs hn

/-- A value without quotes or brackets. -/
def readScalar (s : List Char) : Option (Toml × Text.Shorter s) :=
  let run := scalarRun s
  if h : 0 < run.length ∧ 0 < s.length then
    (scalar? run).map fun value => (value, ⟨s.drop run.length, length_drop_lt h.1 h.2⟩)
  else none

/-- What follows a character that must come next, after blanks. -/
def expect (c : Char) (s : List Char) : Option (Text.Shorter s) :=
  match h : skipBlanks s with
  | d :: rest => if c == d then some ⟨rest, length_lt_of_skipBlanks h⟩ else none
  | [] => none

mutual

/-- A value that starts here. -/
def readValue (depth : Nat) (s : List Char) : Option (Toml × Text.Shorter s) :=
  match s with
  | [] => none
  | c :: rest =>
    if c == '"' || c == '\'' then
      (readQuoted c rest).map fun (body, left) => (.text (String.ofList body), left.cons)
    else if c == '[' then
      match depth with
      | 0 => none
      | depth + 1 => do
        let (items, left) ← readItems depth rest
        return (.list items, left.cons)
    else if c == '\x7b' then
      match depth, h : skipBlanks rest with
      | 0, _ => none
      | _, '\x7d' :: left =>
        have hl := length_lt_of_skipBlanks h
        some (.table [], Text.Shorter.cons ⟨left, hl⟩)
      | depth + 1, _ => do
        let (members, left) ← readPairs depth (.empty .opened) rest
        return (members.toToml, left.cons)
    else readScalar (c :: rest)
  termination_by (s.length, 0)

/-- The rest of a list: its items, with commas between them and perhaps after the last. -/
def readItems (depth : Nat) (s : List Char) : Option (List Toml × Text.Shorter s) :=
  match h : skipSpace false s with
  | [] => none
  | c :: rest =>
    have hs : rest.length < s.length := length_lt_of_skipSpace h
    if c == ']' then some ([], ⟨rest, hs⟩)
    else do
      let (value, ⟨left, hl⟩) ← readValue depth (c :: rest)
      match h : skipSpace false left with
      | [] => none
      | d :: more =>
        have hm := length_lt_of_skipSpace h
        if d == ']' then some ([value], (Text.Shorter.trans ⟨more, hm⟩ hl).ofLE hs)
        else if d == ',' then do
          let (values, last) ← readItems depth more
          return (value :: values, ((last.trans hm).trans hl).ofLE hs)
        else none
  termination_by (s.length, 1)
  decreasing_by
    · simp only [List.length_cons]
      omega
    · simp only [List.length_cons] at hl
      omega

/-- The rest of a table in braces that has at least one more pair. -/
def readPairs (depth : Nat) (members : Section) (s : List Char) :
    Option (Section × Text.Shorter s) := do
  let (key, ⟨equals, hk⟩) ← readKey s
  let ⟨start, he⟩ ← expect '=' equals
  have hs := length_skipBlanks_le start
  let (value, ⟨left, hv⟩) ← readValue depth (skipBlanks start)
  let members ← members.put key value
  match h : skipBlanks left with
  | [] => none
  | c :: rest =>
    have hr := length_lt_of_skipBlanks h
    if c == '\x7d' then
      some (members, ((((Text.Shorter.trans ⟨rest, hr⟩ hv).ofLE hs).trans he).trans hk))
    else if c == ',' then do
      let (members, last) ← readPairs depth members rest
      return (members, ((((last.trans hr).trans hv).ofLE hs).trans he).trans hk)
    else none
  termination_by (s.length, 1)

end

/-! ## Lines -/

/-- What follows a closing bracket. -/
def closing (s : List Char) : Option (Text.Shorter s) :=
  match s with
  | ']' :: rest => some (.tail _ rest)
  | _ => none

/-- A line that is not blank. -/
def readStatement (s : List Char) : Option (Line × Text.Shorter s) :=
  match s with
  | '[' :: '[' :: rest => do
    let (key, ⟨left, h⟩) ← readKey rest
    let ⟨left, h'⟩ ← closing left
    let left ← closing left
    return (.tableOfList key, ((left.trans h').trans h).cons.cons)
  | '[' :: rest => do
    let (key, ⟨left, h⟩) ← readKey rest
    let left ← closing left
    return (.table key, (left.trans h).cons)
  | s => do
    let (key, ⟨equals, hk⟩) ← readKey s
    let ⟨start, he⟩ ← expect '=' equals
    have hs := length_skipBlanks_le start
    let (value, left) ← readValue maxDepth (skipBlanks start)
    return (.pair key value, ((left.ofLE hs).trans he).trans hk)

/-- The lines of a text from one on. -/
def readLines (s : List Char) : Option (List Line) :=
  have := length_skipSpace_le false s
  if (skipSpace false s).isEmpty then some []
  else do
    let (line, ⟨last, _⟩) ← readStatement (skipSpace false s)
    let ⟨left, _⟩ ← afterLine last
    return line :: (← readLines left)
  termination_by s.length
  decreasing_by omega

/-- The lines of a document, before which a byte order mark may stand. -/
def lines? (text : List Char) : Option (List Line) :=
  readLines (if text.head? == some (Char.ofNat 0xFEFF) then text.drop 1 else text)

end CardSearch.Toml
