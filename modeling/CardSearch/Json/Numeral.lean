import CardSearch.Json.Basic
import CardSearch.Number.Digits

/-
  The value of a JSON numeral.

  A numeral without point and exponent whose digits fit 64 bits is a whole number, except `-0` and
  negative ones below -2⁶³.  Every other numeral is a binary number, found from a coefficient of at
  most 64 bits: digits that no longer fit are dropped, and counted if they stand before the point.
  The coefficient is rounded and then multiplied or divided by a rounded power of ten, so the result
  can lie one rank beside the nearest number; numerals of up to fifteen digits are not affected.
  A numeral beyond the finite numbers has no value.
-/

namespace CardSearch.Json

/-- The least coefficient that does not fit 64 bits. -/
abbrev coefficientBound : Nat := Nat.pow 2 64

/-- Appends digits to a coefficient as long as it fits; also the digits that are left. -/
def extend (coefficient : Nat) : List Char → Nat × List Char
  | [] => (coefficient, [])
  | c :: rest =>
    let next := coefficient * 10 + digitValue c
    if next < coefficientBound then extend next rest else (coefficient, c :: rest)

/-- The rank of the number nearest to a power of ten. -/
def powerRank (places : Nat) : Nat := Number.rankOf (Nat.pow 10 places * unitsPerWhole) 1

/-- A rank divided by a power of ten, at most 308 places at a time. -/
def scaleDown (rank places : Nat) : Nat :=
  if places ≤ 308 then Number.divRank rank (powerRank places)
  else if rank == 0 then 0
  else scaleDown (Number.divRank rank (powerRank 308)) (places - 308)
  termination_by places

/-- The rank of `coefficient · 10 ^ exponent`, if it is finite. -/
def scaled? (coefficient : Nat) (exponent : Int) : Option Nat :=
  let rank := Number.rankOf (coefficient * unitsPerWhole) 1
  if exponent < 0 then some (scaleDown rank (-exponent).toNat)
  else if rank == 0 then some 0
  else if exponent > 308 then none
  else
    let product := Number.mulRank rank (powerRank exponent.toNat)
    if product < infinityRank then some product else none

/-- The value of a numeral from its parts: digits before the point, digits after it and exponent. -/
def numeral? (negative : Bool) (whole : List Char) (fraction : Option (List Char))
    (exponent : Option Int) : Option Json :=
  let (coefficient, dropped) := extend 0 whole
  match fraction, exponent, dropped with
  | none, none, [] =>
    if !negative then some (.whole coefficient)
    else if coefficient == 0 || coefficient > Nat.pow 2 63 then
      some (.real (Number.ofRank true (Number.rankOf (coefficient * unitsPerWhole) 1)))
    else some (.whole (-coefficient))
  | _, _, _ =>
    let places := fraction.getD []
    let (coefficient, left) := extend coefficient places
    let shift : Int := dropped.length - (places.length - left.length : Nat)
    (scaled? coefficient (shift + exponent.getD 0)).map fun rank =>
      .real (Number.ofRank negative rank)

end CardSearch.Json
