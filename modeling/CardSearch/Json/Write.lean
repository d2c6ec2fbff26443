import CardSearch.Json.Basic
import CardSearch.Number.Layout

/-
  Writing JSON, on one line or indented.

  Members stand in the order of the document.  Inside strings only quotes, backslashes and control
  characters are escaped.  The indented form puts every item and member on a line of its own, two
  spaces deeper than its list or object; empty lists and objects stay on their line.
-/

namespace CardSearch.Json

/-- One character inside a string. -/
def escape (c : Char) : List Char :=
  if c == '"' then ['\\', '"']
  else if c == '\\' then ['\\', '\\']
  else if c == '\n' then ['\\', 'n']
  else if c == '\r' then ['\\', 'r']
  else if c == '\t' then ['\\', 't']
  else if c == '\x08' then ['\\', 'b']
  else if c == '\x0C' then ['\\', 'f']
  else if c.toNat < 0x20 then
    ['\\', 'u', '0', '0', Nat.digitChar (c.toNat / 16), Nat.digitChar (c.toNat % 16)]
  else [c]

/-- A string in quotes. -/
def quoted (s : String) : List Char := '"' :: s.toList.flatMap escape ++ ['"']

/-- A document that holds no other. -/
def scalar : Json → List Char
  | .bool true => ['t', 'r', 'u', 'e']
  | .bool false => ['f', 'a', 'l', 's', 'e']
  | .whole n => signedDigits n
  | .real x => x.json
  | .text s => quoted s
  | _ => ['n', 'u', 'l', 'l']

/-- The separators of a layout: what stands after an opening bracket and before each further item at
    a depth, what stands before a closing one, and what follows a key. -/
structure Spacing where
  line : Nat → List Char
  colon : List Char

/-- Everything on one line. -/
def compactSpacing : Spacing := ⟨fun _ => [], [':']⟩

/-- One item a line, indented by two spaces a level. -/
def prettySpacing : Spacing := ⟨fun depth => '\n' :: List.replicate (2 * depth) ' ', [':', ' ']⟩

mutual

/-- A document at a depth. -/
def write (sp : Spacing) (depth : Nat) : Json → List Char
  | .list [] => ['[', ']']
  | .list (item :: items) =>
    '[' :: sp.line (depth + 1) ++ write sp (depth + 1) item ++ writeItems sp (depth + 1) items ++
      sp.line depth ++ [']']
  | .object [] => ['\x7b', '\x7d']
  | .object ((key, value) :: members) =>
    '\x7b' :: sp.line (depth + 1) ++ quoted key ++ sp.colon ++ write sp (depth + 1) value ++
      writeMembers sp (depth + 1) members ++ sp.line depth ++ ['\x7d']
  | value => scalar value

/-- The items after the first. -/
def writeItems (sp : Spacing) (depth : Nat) : List Json → List Char
  | [] => []
  | item :: items => ',' :: sp.line depth ++ write sp depth item ++ writeItems sp depth items

/-- The members after the first. -/
def writeMembers (sp : Spacing) (depth : Nat) : List (String × Json) → List Char
  | [] => []
  | (key, value) :: members =>
    ',' :: sp.line depth ++ quoted key ++ sp.colon ++ write sp depth value ++
      writeMembers sp depth members

end

/-- A document on one line. -/
def compact (value : Json) : String := String.ofList (write compactSpacing 0 value)

/-- A document in the indented form. -/
def pretty (value : Json) : String := String.ofList (write prettySpacing 0 value)

end CardSearch.Json
