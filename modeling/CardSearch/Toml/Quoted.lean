import CardSearch.Text.Remainder
import CardSearch.Toml.Scalar

/-
  TOML texts in quotes.

  There are four forms.  Between double quotes a backslash starts an escape, between single quotes
  everything stands for itself; one quote on each side keeps to a line, three on each side may span
  several.
-/

namespace CardSearch.Toml

/-- A character that may stand on a line: no control character but the tab. -/
def isPlain (c : Char) : Bool := c == '\t' || (c.toNat ≥ 0x20 && c.toNat != 0x7F)

/-- The character of a code point, if it has one. -/
def scalarValue? (n : Nat) : Option Char :=
  if n.isValidChar then some (Char.ofNat n) else none

/-- The value of so many hexadecimal digits, the digits before them being worth `value`. -/
def readHex (count value : Nat) (s : List Char) : Option (Nat × Text.Within s) :=
  match count, s with
  | 0, s => some (value, .all s)
  | _ + 1, [] => none
  | count + 1, c :: rest =>
    if isBaseDigit 16 c then
      (readHex count (value * 16 + baseDigit c) rest).map fun (value, left) => (value, left.cons)
    else none

/-- The character of a code point written with so many hexadecimal digits. -/
def readCodePoint (count : Nat) (s : List Char) : Option (Char × Text.Within s) := do
  let (n, left) ← readHex count 0 s
  return (← scalarValue? n, left)

/-- The character that an escape of one letter stands for. -/
def plainEscape? : Char → Option Char
  | '"' => some '"'
  | '\\' => some '\\'
  | 'b' => some '\x08'
  | 't' => some '\t'
  | 'n' => some '\n'
  | 'f' => some '\x0C'
  | 'r' => some '\r'
  | _ => none

/-- The character after a backslash. -/
def readEscape (s : List Char) : Option (Char × Text.Shorter s) :=
  match s with
  | [] => none
  | c :: rest =>
    if c == 'u' then (readCodePoint 4 rest).map fun (c, left) => (c, left.after)
    else if c == 'U' then (readCodePoint 8 rest).map fun (c, left) => (c, left.after)
    else (plainEscape? c).map fun meant => (meant, .tail c rest)

/-- The rest of a text in double quotes. -/
def readBasic (s : List Char) : Option (List Char × Text.Shorter s) :=
  match s with
  | [] => none
  | '"' :: rest => some ([], .tail _ rest)
  | '\\' :: rest => do
    let (c, ⟨more, h⟩) ← readEscape rest
    let (body, left) ← readBasic more
    return (c :: body, (left.trans h).cons)
  | c :: rest =>
    if isPlain c then do
      let (body, left) ← readBasic rest
      return (c :: body, left.cons)
    else none
  termination_by s.length
  decreasing_by all_goals (simp only [List.length_cons]; omega)

/-- The rest of a text in single quotes. -/
def readLiteral (s : List Char) : Option (List Char × Text.Shorter s) :=
  match s with
  | [] => none
  | '\'' :: rest => some ([], .tail _ rest)
  | c :: rest =>
    if isPlain c then do
      let (body, left) ← readLiteral rest
      return (c :: body, left.cons)
    else none

/-- What follows three closing quotes: up to two more quotes still belong to the text. -/
def afterClosing (quote : Char) (s : List Char) : List Char × Text.Within s :=
  match s with
  | a :: b :: rest =>
    if a == quote then
      if b == quote then ([quote, quote], (Text.Within.all rest).cons.cons)
      else ([quote], (Text.Within.all (b :: rest)).cons)
    else ([], .all (a :: b :: rest))
  | [a] => if a == quote then ([quote], (Text.Within.all []).cons) else ([], .all [a])
  | [] => ([], .all [])

/-- A text without the line break at its start. -/
def dropBreak (s : List Char) : List Char :=
  match s with
  | '\n' :: rest => rest
  | '\r' :: '\n' :: rest => rest
  | _ => s

theorem length_dropBreak_le (s : List Char) : (dropBreak s).length ≤ s.length := by
  unfold dropBreak
  split <;> simp
  omega

/-- A text without the blanks and line breaks at its start. -/
def skipGap : List Char → List Char
  | [] => []
  | c :: rest =>
    if c == ' ' || c == '\t' || c == '\n' then skipGap rest
    else if c == '\r' && rest.head? == some '\n' then skipGap rest
    else c :: rest

theorem length_skipGap_le (s : List Char) : (skipGap s).length ≤ s.length := by
  fun_induction skipGap s <;> grind

/-- Whether a text is blank up to the end of its line. -/
def endsLine (s : List Char) : Bool :=
  match s.dropWhile fun c => c == ' ' || c == '\t' with
  | '\n' :: _ => true
  | '\r' :: '\n' :: _ => true
  | _ => false

/-- The rest of a text in three quotes of a kind.  With double quotes a backslash at the end of a
    line takes the break and all blanks and breaks after it away. -/
def readLong (quote : Char) (s : List Char) : Option (List Char × Text.Shorter s) :=
  match s with
  | [] => none
  | c :: rest =>
    if c == quote then
      match rest with
      | a :: b :: more =>
        if a == quote && b == quote then
          let (body, left) := afterClosing quote more
          some (body, left.cons.cons.after)
        else do
          let (body, left) ← readLong quote (a :: b :: more)
          return (c :: body, left.cons)
      | _ => none
    else if c == '\\' && quote == '"' then
      if endsLine rest then do
        let (body, left) ← readLong quote (skipGap rest)
        return (body, (left.ofLE (length_skipGap_le rest)).cons)
      else do
        let (escaped, ⟨more, h⟩) ← readEscape rest
        let (body, left) ← readLong quote more
        return (escaped :: body, (left.trans h).cons)
    else if isPlain c || c == '\n' || (c == '\r' && rest.head? == some '\n') then do
      let (body, left) ← readLong quote rest
      return (if c == '\r' then body else c :: body, left.cons)
    else none
  termination_by s.length
  decreasing_by
    all_goals simp only [List.length_cons]
    · omega
    · exact Nat.lt_succ_of_le (length_skipGap_le rest)
    · omega
    · omega

/-- A text in quotes on one line, after its opening quote. -/
def readLine (quote : Char) (s : List Char) : Option (List Char × Text.Shorter s) :=
  if quote == '"' then readBasic s else readLiteral s

/-- A text in quotes, after its opening quote. -/
def readQuoted (quote : Char) (s : List Char) : Option (List Char × Text.Shorter s) :=
  match s with
  | a :: b :: rest =>
    if a == quote && b == quote then
      (readLong quote (dropBreak rest)).map fun (body, left) =>
        (body, (left.ofLE (length_dropBreak_le rest)).cons.cons)
    else readLine quote (a :: b :: rest)
  | s => readLine quote s

end CardSearch.Toml
