import CardSearch.Number.Shortest

/-
  Four ways of writing a number.

  * `plain` — shortest digits, always positional, no point on whole numbers: listings and answers.
  * `detailed` — shortest digits, a point always shown, an exponent for the very small and the
    large: values inside messages.
  * `json` — shortest digits with a point or an exponent: catalog files and JSON output.
  * `cents` — two places, rounded from the exact value, a half going to the even cent: prices.
-/

namespace CardSearch.Number

/-- The sign of a written number. -/
def sign (negative : Bool) : List Char := if negative then ['-'] else []

/-- A positive decimal written positionally, without a point when it is whole. -/
def positional (d : Decimal) : List Char :=
  let ds := digits d.coefficient
  if d.exponent ≥ 0 then ds ++ List.replicate d.exponent.toNat '0'
  else
    let places := (-d.exponent).toNat
    if ds.length > places then ds.take (ds.length - places) ++ '.' :: ds.drop (ds.length - places)
    else '0' :: '.' :: List.replicate (places - ds.length) '0' ++ ds

/-- A positive decimal with one digit before the point and an exponent, whose sign when it is
    positive is given. -/
def scientific (plus : List Char) (d : Decimal) : List Char :=
  let ds := digits d.coefficient
  let power := d.exponent + ds.length - 1
  let exponent := (if power < 0 then [] else plus) ++ signedDigits power
  match ds with
  | c :: rest@(_ :: _) => c :: '.' :: rest ++ 'e' :: exponent
  | _ => ds ++ 'e' :: exponent

/-- The number of digits before the point, or minus the number of zeros that follow it. -/
def leading (d : Decimal) : Int := (digits d.coefficient).length + d.exponent

/-- `positional`, with `.0` on whole numbers. -/
def pointed (d : Decimal) : List Char :=
  if d.exponent ≥ 0 then positional d ++ ['.', '0'] else positional d

/-- Shortest digits without an exponent. -/
def plain : Number → List Char
  | .nan => ['N', 'a', 'N']
  | .signed negative r =>
    sign negative ++
      if r.val == 0 then ['0']
      else if r.val < infinityRank then positional (shortest .up r.val)
      else ['i', 'n', 'f']

/-- Shortest digits with a point, or with an exponent below 10⁻⁴ and from 10¹⁶ on. -/
def detailed : Number → List Char
  | .nan => ['N', 'a', 'N']
  | .signed negative r =>
    sign negative ++
      if r.val == 0 then ['0', '.', '0']
      else if r.val < infinityRank then
        let d := shortest .up r.val
        if leading d < -3 || leading d > 16 then scientific [] d else pointed d
      else ['i', 'n', 'f']

/-- Shortest digits for JSON: positional from 10⁻⁵ up to 10¹⁶, an exponent with its sign outside.
    What is not finite has no JSON form and is `null`. -/
def json : Number → List Char
  | .nan => ['n', 'u', 'l', 'l']
  | .signed negative r =>
    if r.val == 0 then sign negative ++ ['0', '.', '0']
    else if r.val < infinityRank then
      let d := shortest .even r.val
      sign negative ++ if leading d < -4 || leading d > 16 then scientific ['+'] d else pointed d
    else ['n', 'u', 'l', 'l']

/-- Two places after the point. -/
def cents : Number → List Char
  | .nan => ['N', 'a', 'N']
  | .signed negative r =>
    sign negative ++
      if r.val < infinityRank then
        let hundredths := roundDiv (units r.val * 100) unitsPerWhole
        let places := digits (hundredths % 100)
        digits (hundredths / 100) ++ '.' :: List.replicate (2 - places.length) '0' ++ places
      else ['i', 'n', 'f']

end CardSearch.Number
