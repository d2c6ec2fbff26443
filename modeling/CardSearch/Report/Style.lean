/-
  Terminal styles.

  A painted text stands between two escape sequences: one that turns the style on and one that turns
  it off.  Painting changes nothing else, so widths must be settled before.
-/

namespace CardSearch.Report

/-- A style of text on a terminal. -/
inductive Style where
  | bold
  | dim
  | red
  | green
  | yellow
  | blue
  | magenta
  | cyan
  | brightWhite
  deriving DecidableEq, Repr

namespace Style

/-- The number of the escape sequence that turns a style on. -/
def start : Style → String
  | .bold => "1"
  | .dim => "2"
  | .red => "31"
  | .green => "32"
  | .yellow => "33"
  | .blue => "34"
  | .magenta => "35"
  | .cyan => "36"
  | .brightWhite => "97"

/-- The number of the escape sequence that turns a style off: colors return to the terminal's own,
    weights to plain text. -/
def stop : Style → String
  | .bold | .dim => "0"
  | _ => "39"

end Style

/-- The escape sequence of a number. -/
def escape (number : String) : List Char := '\x1b' :: '[' :: number.toList ++ ['m']

/-- A text in a style. -/
def paint (style : Style) (text : List Char) : List Char :=
  escape style.start ++ text ++ escape style.stop

/-- A text in a style where colors are on. -/
def paintIf (colored : Bool) (style : Style) (text : List Char) : List Char :=
  if colored then paint style text else text

end CardSearch.Report
