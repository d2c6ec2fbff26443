import CardSearch.Text.HiddenTable

/-
  Text in double quotes, as values are shown in messages about a query.

  A quote and a backslash get a backslash; tab, line feed, carriage return and NUL have letters of
  their own; a character that does not show by itself is written by its code point in braces.
-/

namespace CardSearch.Text

/-- A code point in lower-case hexadecimal between `\u{` and `}`. -/
def codePoint (c : Char) : List Char :=
  ['\\', 'u', '\x7b'] ++ Nat.toDigits 16 c.toNat ++ ['\x7d']

/-- One character inside quotes. -/
def quoteChar (c : Char) : List Char :=
  if c == '"' then ['\\', '"']
  else if c == '\\' then ['\\', '\\']
  else if c == '\n' then ['\\', 'n']
  else if c == '\r' then ['\\', 'r']
  else if c == '\t' then ['\\', 't']
  else if c == '\x00' then ['\\', '0']
  else if isAttached c || !isVisible c then codePoint c
  else [c]

/-- A text in double quotes. -/
def quote (text : List Char) : List Char := '"' :: text.flatMap quoteChar ++ ['"']

end CardSearch.Text
