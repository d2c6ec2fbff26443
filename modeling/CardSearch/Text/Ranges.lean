/-
  Sets of characters given as ascending stretches of code points.

  A property of the Unicode standard is a list of pairs `(first, last)`, both ends included, in
  ascending order.  `within` looks a code point up from the left and stops at the first stretch
  that starts beyond it, so a look-up never passes the place where the code point would stand.
-/

namespace CardSearch.Text

/-- Ascending stretches `(first, last)` of code points. -/
abbrev Ranges := List (Nat × Nat)

/-- Whether a code point lies in one of the stretches. -/
def within (n : Nat) : Ranges → Bool
  | [] => false
  | (first, last) :: rest => if n < first then false else n ≤ last || within n rest

end CardSearch.Text
