import CardSearch.Number.Read

/-
  The shortest decimal that reads back as a given number.

  The reals nearer to a rank than to its neighbours form an interval around its value; the ends,
  halfway to the neighbours, belong to it exactly when the rank is even, because ties go to even.
  A decimal reads back as the rank when it lies in this interval.  Among the decimals of one to
  seventeen digits the first length with a hit wins, and of two hits the nearer; a tie is settled by
  the caller's rule.

  All of it is exact: a magnitude of `u` units is `u · 5¹⁰⁷⁴` over `10¹⁰⁷⁴`, so the decimal digits
  of the natural number `u · 5¹⁰⁷⁴` are the digits of the value, and the candidates of a length
  are that numeral cut off at its place, and the next one up.
-/

namespace CardSearch.Number

/-- Which of two equally near decimals is taken. -/
inductive Tie where
  | up
  | even
  deriving DecidableEq, Repr

/-- The exact decimal numeral of a number of units, in units of 10⁻¹⁰⁷⁴. -/
def numeral (units : Nat) : Nat := units * Nat.pow 5 1074

/-- The ends of the interval that rounds to a rank, doubled so that they are whole. -/
def lowerEnd (rank : Nat) : Nat := numeral (units (rank - 1) + units rank)

/-- See `lowerEnd`. -/
def upperEnd (rank : Nat) : Nat := numeral (units rank + units (rank + 1))

/-- Whether the decimal `n`, in units of 10⁻¹⁰⁷⁴, reads back as the rank. -/
def readsBack (rank n : Nat) : Bool :=
  if rank % 2 == 0 then lowerEnd rank ≤ 2 * n && 2 * n ≤ upperEnd rank
  else lowerEnd rank < 2 * n && 2 * n < upperEnd rank

/-- The candidate of one length: the value cut at a multiple of `grid` or the multiple above, the
    nearer of those that read back. -/
def candidate? (tie : Tie) (rank grid : Nat) : Option Nat :=
  let value := numeral (units rank)
  let c := value / grid
  let rest := value % grid
  let cut := readsBack rank (c * grid)
  let next := readsBack rank ((c + 1) * grid)
  if cut && next then
    if 2 * rest < grid then some c
    else if 2 * rest > grid then some (c + 1)
    else match tie with
      | .up => some (c + 1)
      | .even => some (if c % 2 == 0 then c else c + 1)
  else if cut then some c
  else if next then some (c + 1)
  else none

/-- Zeros at the end of a coefficient move into the exponent; the first argument bounds how
    many. -/
def stripZeros : Nat → Decimal → Decimal
  | 0, d => d
  | n + 1, d =>
    if d.coefficient % 10 == 0 && d.coefficient != 0 then
      stripZeros n ⟨d.coefficient / 10, d.exponent + 1⟩
    else d

/-- The first length from `17 - more` digits on that has a candidate. -/
def shortestFrom (tie : Tie) (rank size : Nat) : Nat → Decimal
  | 0 => ⟨numeral (units rank), -1074⟩
  | more + 1 =>
    let place := size - (17 - more)
    match candidate? tie rank (Nat.pow 10 place) with
    | some c => stripZeros 17 ⟨c, place - 1074⟩
    | none => shortestFrom tie rank size more

/-- The shortest decimal of a positive finite rank. -/
def shortest (tie : Tie) (rank : Nat) : Decimal :=
  shortestFrom tie rank (digits (numeral (units rank))).length 17

end CardSearch.Number
