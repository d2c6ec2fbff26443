import CardSearch.Json.Numeral
import CardSearch.Text.Blank
import CardSearch.Text.Remainder

/-
  Reading JSON.

  The text is read from the front and the first problem met is the answer: a text that stops where
  more must follow is `unfinished`, any other breach of the grammar is `malformed`.  Lists and
  objects nest at most 127 deep.  A numeral out of range and an unpaired surrogate escape are
  `malformed`.

  `entries` reads a text as one list but keeps what it has read when a problem turns up: a caller
  that wants records of a certain shape can then report whichever problem comes first in the text.
-/

namespace CardSearch.Json

/-- The blanks of JSON. -/
def isSpace (c : Char) : Bool := c == ' ' || c == '\n' || c == '\t' || c == '\r'

/-- A text without the blanks at its start. -/
def skipSpace (s : List Char) : List Char := s.dropWhile isSpace

theorem length_skipSpace_le (s : List Char) : (skipSpace s).length ≤ s.length :=
  Text.length_dropWhile_le isSpace s

/-- What stands behind the first character that is no blank is shorter.  The readers below rest on
    this, since each of them takes such a character. -/
theorem length_lt_of_skipSpace {s rest : List Char} {c : Char} (h : skipSpace s = c :: rest) :
    rest.length < s.length := by
  have := length_skipSpace_le s
  rw [h] at this
  exact this

/-- How many levels of lists and objects may be nested. -/
def maxDepth : Nat := 127

/-! ## Strings -/

/-- The value of a hexadecimal digit. -/
def hexDigit? (c : Char) : Option Nat :=
  if '0' ≤ c && c ≤ '9' then some (c.toNat - '0'.toNat)
  else if 'a' ≤ c && c ≤ 'f' then some (c.toNat - 'a'.toNat + 10)
  else if 'A' ≤ c && c ≤ 'F' then some (c.toNat - 'A'.toNat + 10)
  else none

/-- The value of four hexadecimal digits. -/
def hex4? (a b c d : Char) : Option Nat := do
  return (((← hexDigit? a) * 16 + (← hexDigit? b)) * 16 + (← hexDigit? c)) * 16 + (← hexDigit? d)

/-- The four digits of a `\u` escape.  A text with fewer than four bytes left is unfinished. -/
def readHex (s : List Char) : Except Problem (Nat × Text.Within s) :=
  match s with
  | a :: b :: c :: d :: rest =>
    match hex4? a b c d with
    | some n => .ok (n, (Text.Within.all rest).cons.cons.cons.cons)
    | none => .error .malformed
  | short => .error (if Text.byteLength short < 4 then .unfinished else .malformed)

/-- The second half of a pair of surrogates, given the first. -/
def readTrailing (first : Nat) (s : List Char) : Except Problem (Char × Text.Within s) :=
  match s with
  | [] => .error .unfinished
  | ['\\'] => .error .unfinished
  | '\\' :: 'u' :: rest =>
    match readHex rest with
    | .error e => .error e
    | .ok (second, more) =>
      if 0xDC00 ≤ second && second ≤ 0xDFFF then
        .ok (Char.ofNat ((first - 0xD800) * 0x400 + (second - 0xDC00) + 0x10000), more.cons.cons)
      else .error .malformed
  | _ => .error .malformed

/-- The character that an escape of one letter stands for. -/
def plainEscape? : Char → Option Char
  | '"' => some '"'
  | '\\' => some '\\'
  | '/' => some '/'
  | 'b' => some '\x08'
  | 'f' => some '\x0C'
  | 'n' => some '\n'
  | 'r' => some '\r'
  | 't' => some '\t'
  | _ => none

/-- The character that an escape stands for, after its backslash. -/
def readEscape (s : List Char) : Except Problem (Char × Text.Within s) :=
  match s with
  | [] => .error .unfinished
  | 'u' :: rest =>
    match readHex rest with
    | .error e => .error e
    | .ok (n, ⟨more, h⟩) =>
      if 0xDC00 ≤ n && n ≤ 0xDFFF then .error .malformed
      else if 0xD800 ≤ n && n ≤ 0xDBFF then
        match readTrailing n more with
        | .error e => .error e
        | .ok (c, last) => .ok (c, (last.trans h).cons)
      else .ok (Char.ofNat n, (Text.Within.all more).trans h |>.cons)
  | c :: rest =>
    match plainEscape? c with
    | some meant => .ok (meant, (Text.Within.all rest).cons)
    | none => .error .malformed

/-- The rest of a string after its opening quote; what is read so far comes reversed. -/
def readString (read : List Char) (s : List Char) : Except Problem (String × Text.Shorter s) :=
  match s with
  | [] => .error .unfinished
  | '"' :: rest => .ok (String.ofList read.reverse, .tail _ rest)
  | '\\' :: rest =>
    match readEscape rest with
    | .error e => .error e
    | .ok (c, ⟨more, h⟩) =>
      match readString (c :: read) more with
      | .error e => .error e
      | .ok (string, last) => .ok (string, (last.ofLE h).cons)
  | c :: rest =>
    if c.toNat < 0x20 then .error .malformed
    else
      match readString (c :: read) rest with
      | .error e => .error e
      | .ok (string, last) => .ok (string, last.cons)
  termination_by s.length
  decreasing_by all_goals (simp only [List.length_cons]; omega)

/-! ## Numerals and words -/

/-- One digit or more; what follows is given back. -/
def readDigits (s : List Char) : Except Problem (List Char × Text.Within s) :=
  if (s.takeWhile isDigit).isEmpty then
    .error (if s.isEmpty then .unfinished else .malformed)
  else .ok (s.takeWhile isDigit, ⟨s.dropWhile isDigit, Text.length_dropWhile_le isDigit s⟩)

/-- The digits after a point, if there is one. -/
def readFraction (s : List Char) : Except Problem (Option (List Char) × Text.Within s) :=
  match s with
  | '.' :: rest =>
    match readDigits rest with
    | .error e => .error e
    | .ok (ds, more) => .ok (some ds, more.cons)
  | rest => .ok (none, .all rest)

/-- The exponent after its sign. -/
def readPower (negative : Bool) (s : List Char) : Except Problem (Option Int × Text.Within s) :=
  match readDigits s with
  | .error e => .error e
  | .ok (ds, more) =>
    .ok (some (if negative then -(digitsValue ds : Int) else digitsValue ds), more)

/-- The exponent, if there is one. -/
def readExponent (s : List Char) : Except Problem (Option Int × Text.Within s) :=
  match s with
  | [] => .ok (none, .all [])
  | c :: rest =>
    if c == 'e' || c == 'E' then
      match rest with
      | '+' :: more => (readPower false more).map fun (e, last) => (e, last.cons.cons)
      | '-' :: more => (readPower true more).map fun (e, last) => (e, last.cons.cons)
      | more => (readPower false more).map fun (e, last) => (e, last.cons)
    else .ok (none, .all (c :: rest))

/-- A numeral from its first digit on. -/
def readNumeral (negative : Bool) (first : Char) (s : List Char) :
    Except Problem (Json × Text.Within s) :=
  let more := s.takeWhile isDigit
  if first == '0' && !more.isEmpty then .error .malformed
  else
    match readFraction (s.dropWhile isDigit) with
    | .error e => .error e
    | .ok (fraction, ⟨rest, h⟩) =>
      match readExponent rest with
      | .error e => .error e
      | .ok (exponent, last) =>
        match numeral? negative (first :: more) fraction exponent with
        | some value =>
          .ok (value, (last.trans h).trans (Text.length_dropWhile_le isDigit s))
        | none => .error .malformed

/-- A numeral after a minus sign. -/
def readNegative (s : List Char) : Except Problem (Json × Text.Within s) :=
  match s with
  | [] => .error .unfinished
  | c :: rest =>
    if isDigit c then
      (readNumeral true c rest).map fun (value, last) => (value, last.cons)
    else .error .malformed

/-- The rest of one of the words `null`, `true` and `false`. -/
def readWord (value : Json) : List Char → (s : List Char) → Except Problem (Json × Text.Within s)
  | [], s => .ok (value, .all s)
  | _ :: _, [] => .error .unfinished
  | w :: word, c :: rest =>
    if c == w then
      match readWord value word rest with
      | .error e => .error e
      | .ok (value, more) => .ok (value, more.cons)
    else .error .malformed

/-- A value that is neither a list nor an object, by its first character. -/
def readScalar (c : Char) (s : List Char) : Except Problem (Json × Text.Within s) :=
  match c with
  | 'n' => readWord .null ['u', 'l', 'l'] s
  | 't' => readWord (.bool true) ['r', 'u', 'e'] s
  | 'f' => readWord (.bool false) ['a', 'l', 's', 'e'] s
  | '"' => (readString [] s).map fun (string, more) => (.text string, more.within)
  | '-' => readNegative s
  | _ => .error .malformed

/-- The key of a member and the colon after it. -/
def readKey (s : List Char) : Except Problem (String × Text.Shorter s) :=
  match h : skipSpace s with
  | [] => .error .unfinished
  | c :: rest =>
    have hc : rest.length < s.length := length_lt_of_skipSpace h
    if c == '"' then
      match readString [] rest with
      | .error e => .error e
      | .ok (key, ⟨more, hk⟩) =>
        match h' : skipSpace more with
        | [] => .error .unfinished
        | d :: last =>
          have hd : last.length < more.length := length_lt_of_skipSpace h'
          if d == ':' then .ok (key, (Text.Shorter.trans ⟨last, hd⟩ hk).trans hc)
          else .error .malformed
    else .error .malformed

/-! ## Values -/

mutual

/-- One value, with at most `depth` further levels of nesting. -/
def readValue (depth : Nat) (s : List Char) : Except Problem (Json × Text.Shorter s) :=
  match h : skipSpace s with
  | [] => .error .unfinished
  | c :: rest =>
    have hc : rest.length < s.length := length_lt_of_skipSpace h
    if c == '[' then
      match depth with
      | 0 => .error .malformed
      | depth + 1 =>
        match readItems depth rest with
        | .error e => .error e
        | .ok (items, more) => .ok (.list items, more.trans hc)
    else if c == '\x7b' then
      match depth with
      | 0 => .error .malformed
      | depth + 1 =>
        match readMembers depth rest with
        | .error e => .error e
        | .ok (members, more) => .ok (.object members, more.trans hc)
    else if isDigit c then
      match readNumeral false c rest with
      | .error e => .error e
      | .ok (value, more) => .ok (value, more.shorter hc)
    else
      match readScalar c rest with
      | .error e => .error e
      | .ok (value, more) => .ok (value, more.shorter hc)
  termination_by (s.length, 0)

/-- The items of a list after its opening bracket, up to the closing one. -/
def readItems (depth : Nat) (s : List Char) : Except Problem (List Json × Text.Shorter s) :=
  match h : skipSpace s with
  | [] => .error .unfinished
  | c :: rest =>
    have hc : rest.length < s.length := length_lt_of_skipSpace h
    if c == ']' then .ok ([], ⟨rest, hc⟩) else readItemsFrom depth s
  termination_by (s.length, 2)

/-- The items of a list from one on. -/
def readItemsFrom (depth : Nat) (s : List Char) : Except Problem (List Json × Text.Shorter s) :=
  match readValue depth s with
  | .error e => .error e
  | .ok (value, ⟨rest, hr⟩) =>
    match h : skipSpace rest with
    | [] => .error .unfinished
    | c :: more =>
      have hc : more.length < rest.length := length_lt_of_skipSpace h
      if c == ']' then .ok ([value], .trans ⟨more, hc⟩ hr)
      else if c == ',' then
        match readItemsFrom depth more with
        | .error e => .error e
        | .ok (items, last) => .ok (value :: items, (last.trans hc).trans hr)
      else .error .malformed
  termination_by (s.length, 1)

/-- The members of an object after its opening brace, up to the closing one. -/
def readMembers (depth : Nat) (s : List Char) :
    Except Problem (List (String × Json) × Text.Shorter s) :=
  match h : skipSpace s with
  | [] => .error .unfinished
  | c :: rest =>
    have hc : rest.length < s.length := length_lt_of_skipSpace h
    if c == '\x7d' then .ok ([], ⟨rest, hc⟩) else readMembersFrom depth s
  termination_by (s.length, 2)

/-- The members of an object from one on. -/
def readMembersFrom (depth : Nat) (s : List Char) :
    Except Problem (List (String × Json) × Text.Shorter s) :=
  match readKey s with
  | .error e => .error e
  | .ok (key, ⟨rest, hk⟩) =>
    match readValue depth rest with
    | .error e => .error e
    | .ok (value, ⟨rest', hr⟩) =>
      match h : skipSpace rest' with
      | [] => .error .unfinished
      | c :: more =>
        have hc : more.length < rest'.length := length_lt_of_skipSpace h
        if c == '\x7d' then .ok ([(key, value)], (Text.Shorter.trans ⟨more, hc⟩ hr).trans hk)
        else if c == ',' then
          match readMembersFrom depth more with
          | .error e => .error e
          | .ok (members, last) =>
            .ok ((key, value) :: members, ((last.trans hc).trans hr).trans hk)
        else .error .malformed
  termination_by (s.length, 1)

end

/-! ## Whole texts -/

/-- The problem of a text that should have ended, if it has not. -/
def trailing? (s : List Char) : Option Problem :=
  if (skipSpace s).isEmpty then none else some .malformed

/-- Reads a text that is one document. -/
def read (s : List Char) : Except Problem Json :=
  match readValue maxDepth s with
  | .error e => .error e
  | .ok (value, rest) =>
    match trailing? rest.val with
    | some e => .error e
    | none => .ok value

/-- The items of a list that could be read, and the problem that ended the reading, if any. -/
structure Entries where
  items : List Json
  problem : Option Problem

/-- The items from one on, each of them kept also when a later one cannot be read. -/
def entriesFrom (s : List Char) : Entries :=
  match readValue (maxDepth - 1) s with
  | .error e => ⟨[], some e⟩
  | .ok (value, ⟨rest, _⟩) =>
    match h : skipSpace rest with
    | [] => ⟨[value], some .unfinished⟩
    | c :: more =>
      have : more.length < rest.length := length_lt_of_skipSpace h
      if c == ']' then ⟨[value], trailing? more⟩
      else if c == ',' then
        let later := entriesFrom more
        ⟨value :: later.items, later.problem⟩
      else ⟨[value], some .malformed⟩
  termination_by s.length

/-- Reads a text as one list.  Any other document is misshapen, an object without being read. -/
def entries (s : List Char) : Entries :=
  match skipSpace s with
  | [] => ⟨[], some .unfinished⟩
  | c :: rest =>
    if c == '[' then
      match skipSpace rest with
      | [] => ⟨[], some .unfinished⟩
      | d :: more => if d == ']' then ⟨[], trailing? more⟩ else entriesFrom rest
    else if c == '\x7b' then ⟨[], some .misshapen⟩
    else
      match readValue maxDepth s with
      | .error e => ⟨[], some e⟩
      | .ok _ => ⟨[], some .misshapen⟩

end CardSearch.Json
