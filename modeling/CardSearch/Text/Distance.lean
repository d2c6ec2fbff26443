/-
  Edit distance: the least number of insertions, deletions and substitutions of one character
  that turn one word into another.

  `editDistance` states the recurrence.  Following it directly takes exponential time, so the
  program computes a row at a time: `distances a b` lists the distances from `a` to every suffix
  of `b`, and `nextRow` extends the row by one character of `a`.
-/

namespace CardSearch.Text

/-- The recurrence.  Equal first characters cost nothing; otherwise one of the three edits is made
    first. -/
def editDistance : List Char → List Char → Nat
  | [], b => b.length
  | a, [] => a.length
  | x :: a, y :: b =>
    if x = y then editDistance a b
    else 1 + min (min (editDistance a (y :: b)) (editDistance (x :: a) b)) (editDistance a b)
  termination_by a b => a.length + b.length

/-- The row of `x :: a` from the row of `a`: entry by entry from the right end of `b`. -/
def nextRow (x : Char) : List Char → List Nat → List Nat
  | y :: b, d :: row =>
    let right := nextRow x b row
    let diagonal := row.headD 0
    (if x = y then diagonal else 1 + min (min d (right.headD 0)) diagonal) :: right
  | _, row => row.map (· + 1)

/-- The distances from `a` to `b` and to each shorter suffix of `b`, longest suffix first. -/
def distances : List Char → List Char → List Nat
  | [], b => (List.range (b.length + 1)).reverse
  | x :: a, b => nextRow x b (distances a b)

/-- The edit distance, read off the first entry of the last row. -/
def distance (a b : List Char) : Nat := (distances a b).headD 0

end CardSearch.Text
