/-
  The five colors of mana, and colorless.

  Cost symbols spell a color as a lower-case letter, color lists as an upper-case one; blue is `u`,
  since `b` is black.
-/

namespace CardSearch

/-- One of the five colors, or colorless. -/
inductive Color where
  | white
  | blue
  | black
  | red
  | green
  | colorless
  deriving DecidableEq, Repr

namespace Color

/-- White, blue, black, red and green, the order in which colors are listed. -/
def wheel : List Color := [.white, .blue, .black, .red, .green]

/-- The letter in cost symbols. -/
def letter : Color → Char
  | .white => 'w'
  | .blue => 'u'
  | .black => 'b'
  | .red => 'r'
  | .green => 'g'
  | .colorless => 'c'

/-- The letter in color lists. -/
def code : Color → String
  | .white => "W"
  | .blue => "U"
  | .black => "B"
  | .red => "R"
  | .green => "G"
  | .colorless => "C"

/-- The color of a letter in either case. -/
def ofLetter? (c : Char) : Option Color :=
  match c.toLower with
  | 'w' => some .white
  | 'u' => some .blue
  | 'b' => some .black
  | 'r' => some .red
  | 'g' => some .green
  | 'c' => some .colorless
  | _ => none

/-- A color is read from its letter, so no letter stands for two. -/
theorem ofLetter?_letter (c : Color) : ofLetter? c.letter = some c := by
  cases c <;> decide

end Color

end CardSearch
