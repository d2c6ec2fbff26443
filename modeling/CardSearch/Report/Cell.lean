import CardSearch.Number.Layout
import CardSearch.Query.Value
import CardSearch.Report.Style

/-
  The cells of listings: costs, colors, prices, names and the values of conditions.

  Widths are counted in characters.  A text that is too long ends in three dots (`truncate`), one
  that is too short is filled with blanks (`pad`).
-/

namespace CardSearch.Report

/-! ## Widths -/

/-- A text of at most `width` characters. -/
def truncate (width : Nat) (text : List Char) : List Char :=
  if text.length > width then text.take (width - 3) ++ ['.', '.', '.'] else text

/-- A text of at least `width` characters. -/
def pad (width : Nat) (text : List Char) : List Char :=
  text ++ List.replicate (width - text.length) ' '

/-- A cell is filled up to its width, or longer already. -/
theorem length_pad (width : Nat) (text : List Char) :
    (pad width text).length = max width text.length := by
  simp [pad]
  omega

/-! ## Card attributes -/

/-- A symbol in braces. -/
def braced (symbol : List Char) : List Char := '\x7b' :: symbol ++ ['\x7d']

/-- A cost in braces, in upper case, with slashes between the parts of a symbol. -/
def cost (symbols : List String) : List Char :=
  symbols.flatMap fun symbol =>
    braced (Text.replace ['-'] ['/'] (Text.upper symbol.toList))

/-- The codes of colors, one after the other; `C` when there is none. -/
def colors (codes : List String) : List Char :=
  if codes.isEmpty then ['C'] else codes.flatMap String.toList

/-- A price in dollars and cents; nothing when there is none. -/
def price : Option Number → List Char
  | some x => '$' :: x.cents
  | none => []

/-- The colors that codes begin with, colorless left out. -/
def identityColors (codes : List String) : List Color :=
  (codes.filterMap fun code => code.toList.head?.bind Color.ofLetter?).filter (· != .colorless)

/-- The style of a color identity. -/
def identityStyle (codes : List String) : Style :=
  match identityColors codes with
  | [] => .dim
  | [.white] => .brightWhite
  | [.blue] => .blue
  | [.black] => .magenta
  | [.red] => .red
  | [.green] => .green
  | _ => .yellow

/-- A text of exactly one width, painted by a color identity where colors are on. -/
def identityCell (colored : Bool) (width : Nat) (codes : List String) (text : List Char) :
    List Char :=
  paintIf colored (identityStyle codes) (pad width (truncate width text))

/-! ## Values of conditions -/

/-- A value as a user would type it. -/
def value : Query.Value → List Char
  | .integer n => signedDigits n
  | .halfInteger x | .dollars x => x.plain
  | .text s | .identifier s | .rarity s | .status s | .finish s => s.toList
  | .colors codes => colors codes
  | .count n => digits n
  | .manaCost groups =>
    groups.flatMap fun group => braced (Text.join ['/'] (group.map String.toList))
  | .manaPool symbols => symbols.flatMap String.toList
  | .date d => d.text
  | .category c => c.keyword.toList
  | .field other => other.title.toList

end CardSearch.Report
