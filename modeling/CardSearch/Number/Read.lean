import CardSearch.Number.Basic
import CardSearch.Number.Digits

/-
  Reading numbers from text.

  A written number has an optional sign and then either one of the words `inf`, `infinity` and
  `nan`, in any case, or a decimal: digits with at most one point among or around them, at least
  one digit, and an optional exponent.  The result is the representable number nearest to the exact
  decimal, ties to even; decimals out of range become infinity or zero.
-/

namespace CardSearch.Number

/-- A decimal number: `coefficient · 10 ^ exponent`. -/
structure Decimal where
  coefficient : Nat
  exponent : Int
  deriving DecidableEq, Repr

/-- The exponent after `e`: a sign and at least one digit, up to the end. -/
def exponent? (text : List Char) : Option Int :=
  match text with
  | '-' :: rest => (natural? rest).map fun n => -(n : Int)
  | '+' :: rest => (natural? rest).map fun n => (n : Int)
  | _ => (natural? text).map fun n => (n : Int)

/-- Reads an unsigned decimal. -/
def decimal? (text : List Char) : Option Decimal :=
  let whole := text.takeWhile isDigit
  let rest := text.dropWhile isDigit
  let (fraction, rest) := match rest with
    | '.' :: more => (more.takeWhile isDigit, more.dropWhile isDigit)
    | _ => ([], rest)
  let coefficient := digitsValue (whole ++ fraction)
  let scale : Int := fraction.length
  if whole.isEmpty && fraction.isEmpty then none
  else match rest with
    | [] => some ⟨coefficient, -scale⟩
    | c :: more =>
      if c == 'e' || c == 'E' then
        (exponent? more).map fun e => ⟨coefficient, e - scale⟩
      else none

/-- The number nearest to a decimal.  A coefficient of `k` digits puts the value between
    `10 ^ (k - 1 + exponent)` and `10 ^ (k + exponent)`; beyond these bounds the answer is known
    without computing the power. -/
def ofDecimal (negative : Bool) (d : Decimal) : Number :=
  let size : Int := (digits d.coefficient).length + d.exponent
  if d.coefficient == 0 then ofRank negative 0
  else if size > 400 then infinity negative
  else if size < -400 then ofRank negative 0
  else if d.exponent ≥ 0 then ofRatio negative (d.coefficient * Nat.pow 10 d.exponent.toNat) 1
  else ofRatio negative d.coefficient (Nat.pow 10 (-d.exponent).toNat)

/-- A number without its sign. -/
def magnitude? (negative : Bool) (text : List Char) : Option Number :=
  let word := text.map Char.toLower
  if word == ['i', 'n', 'f'] || word == ['i', 'n', 'f', 'i', 'n', 'i', 't', 'y'] then
    some (infinity negative)
  else if word == ['n', 'a', 'n'] then some .nan
  else (decimal? text).map (ofDecimal negative)

/-- Reads a number. -/
def read? (text : List Char) : Option Number :=
  match text with
  | '-' :: rest => magnitude? true rest
  | '+' :: rest => magnitude? false rest
  | _ => magnitude? false text

end CardSearch.Number
