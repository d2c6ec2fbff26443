import CardSearch.Text.LetterTable
import CardSearch.Text.CaseTable

/-
  Lower and upper case of a text, by the full Unicode mappings.

  A letter may become several characters (`İ` becomes `i` and a dot above, `ß` becomes `SS`), and
  one letter looks at its neighbours: `Σ` becomes `ς` at the end of a word and `σ` elsewhere.  So
  `lowerChar` and `upperChar` map a character to a list, and `lower` walks the text with what it has
  passed kept in reverse.
-/

namespace CardSearch.Text

/-- The lower case of one character on its own. -/
def lowerChar (c : Char) : List Char :=
  if c.toNat < 0x80 then [c.toLower]
  else if c.toNat == 0x130 then ['i', Char.ofNat 0x307]
  else match mapRuns c.toNat lowerRuns with
    | some n => [Char.ofNat n]
    | none => [c]

/-- The upper case of one character. -/
def upperChar (c : Char) : List Char :=
  if c.toNat < 0x80 then [c.toUpper]
  else match upperSequences.lookup c.toNat with
    | some ns => ns.map Char.ofNat
    | none =>
      match mapRuns c.toNat upperRuns with
      | some n => [Char.ofNat n]
      | none => [c]

/-- Whether a cased letter comes next, once the case-ignorable characters are passed over. -/
def reachesCased (text : List Char) : Bool :=
  match text.dropWhile isCaseIgnorable with
  | [] => false
  | c :: _ => isCased c

/-- The lower case of `Σ` between the text before it, given in reverse, and the text after it: the
    final form when a letter precedes and none follows. -/
def lowerSigma (before after : List Char) : Char :=
  if reachesCased before && !reachesCased after then 'ς' else 'σ'

/-- Lower case of the rest of a text, given in reverse what stands before it. -/
def lowerFrom (before : List Char) : List Char → List Char
  | [] => []
  | c :: rest =>
    (if c == 'Σ' then [lowerSigma before rest] else lowerChar c) ++ lowerFrom (c :: before) rest

/-- A text in lower case. -/
def lower (text : List Char) : List Char := lowerFrom [] text

/-- A text in upper case. -/
def upper (text : List Char) : List Char := text.flatMap upperChar

/-- A text with its ASCII letters in lower case and all else kept. -/
def lowerAscii (text : List Char) : List Char := text.map Char.toLower

end CardSearch.Text
