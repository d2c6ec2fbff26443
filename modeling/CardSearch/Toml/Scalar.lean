import CardSearch.Date
import CardSearch.Number.Read
import CardSearch.Text.Piece
import CardSearch.Toml.Basic

/-
  TOML values without quotes or brackets: truth values, numbers, dates and times.

  Such a value is a run of letters, digits and a few signs, so it is cut out first and then
  recognised as a whole (`scalar?`).  Underscores may stand between two digits of a number.
-/

namespace CardSearch.Toml

/-! ## Whole numbers -/

/-- The digits of a run in which single underscores may stand between digits. -/
def digitRun? (isDigit : Char → Bool) (text : List Char) : Option (List Char) :=
  let parts := Text.splitBy (· == '_') text
  if parts.all fun part => !part.isEmpty && part.all isDigit then some parts.flatten else none

/-- The digits of a decimal number: no zero comes before another digit. -/
def decimalRun? (text : List Char) : Option (List Char) :=
  (digitRun? isDigit text).filter fun run => run.head? != some '0' || run.length == 1

/-- The value of a digit in bases up to sixteen. -/
def baseDigit (c : Char) : Nat :=
  if c ≤ '9' then c.toNat - '0'.toNat else c.toLower.toNat - 'a'.toNat + 10

/-- The digits of a base. -/
def isBaseDigit (base : Nat) (c : Char) : Bool :=
  (isDigit c || ('a' ≤ c.toLower && c.toLower ≤ 'f')) && baseDigit c < base

/-- A number in another base, after its mark. -/
def based? (base : Nat) (text : List Char) : Option Toml :=
  ((digitRun? (isBaseDigit base) text).map fun run =>
    run.foldl (fun n c => n * base + baseDigit c) 0).bind fun n =>
      if n < Nat.pow 2 63 then some (.whole n) else none

/-- A number without fraction and exponent. -/
def whole? (text : List Char) : Option Toml :=
  match text with
  | '0' :: 'x' :: rest => based? 16 rest
  | '0' :: 'o' :: rest => based? 8 rest
  | '0' :: 'b' :: rest => based? 2 rest
  | '-' :: rest =>
    (decimalRun? rest).bind fun run => (signed64? ('-' :: run)).map .whole
  | '+' :: rest => (decimalRun? rest).bind fun run => (signed64? run).map .whole
  | _ => (decimalRun? text).bind fun run => (signed64? run).map .whole

/-! ## Numbers with a fraction or an exponent -/

/-- The digits of an exponent with its sign, after the `e`. -/
def exponentRun? (text : List Char) : Option (List Char) :=
  match text with
  | '-' :: rest => (digitRun? isDigit rest).map ('-' :: ·)
  | '+' :: rest => digitRun? isDigit rest
  | _ => digitRun? isDigit text

/-- Digits with a point among them. -/
def fractionRun? (text : List Char) : Option (List Char) :=
  match text.dropWhile (· != '.') with
  | [] => decimalRun? text
  | _ :: fraction => do
    return (← decimalRun? (text.takeWhile (· != '.'))) ++ '.' :: (← digitRun? isDigit fraction)

/-- The letter before an exponent. -/
def isExponentMark (c : Char) : Bool := c == 'e' || c == 'E'

/-- A number without sign, cleared of underscores; it has a point or an exponent. -/
def realRun? (text : List Char) : Option (List Char) :=
  match text.dropWhile (!isExponentMark ·) with
  | [] => if text.contains '.' then fractionRun? text else none
  | _ :: power => do
    return (← fractionRun? (text.takeWhile (!isExponentMark ·))) ++ 'e' :: (← exponentRun? power)

/-- A number with its sign given apart.  What is too large to be finite is no number. -/
def signedReal? (negative : Bool) (text : List Char) : Option Toml :=
  if text == ['i', 'n', 'f'] then some (.real (.infinity negative))
  else if text == ['n', 'a', 'n'] then some (.real .nan)
  else do
    let x ← Number.read? (← realRun? text)
    if x.isFinite || negative then return .real x else none

/-- A number with a fraction or an exponent, or one of the words for what is not finite. -/
def real? (text : List Char) : Option Toml :=
  match text with
  | '-' :: rest => signedReal? true rest
  | '+' :: rest => signedReal? false rest
  | _ => signedReal? false text

/-! ## Dates and times -/

/-- Whether two characters are a number of at most a bound. -/
def isPair (least most : Nat) (a b : Char) : Bool :=
  isDigit a && isDigit b && least ≤ digitsValue [a, b] && digitsValue [a, b] ≤ most

/-- A date, `YYYY-MM-DD`. -/
def isDay (text : List Char) : Bool :=
  match text with
  | [a, b, c, d, '-', e, f, '-', g, h] =>
    [a, b, c, d].all isDigit && isPair 1 12 e f &&
      isPair 1 (daysInMonth (digitsValue [a, b, c, d]) (digitsValue [e, f])) g h
  | _ => false

/-- A distance from universal time; none may be given. -/
def isOffset (text : List Char) : Bool :=
  match text with
  | [] => true
  | [c] => c == 'Z' || c == 'z'
  | [sign, a, b, ':', c, d] => (sign == '+' || sign == '-') && isPair 0 23 a b && isPair 0 59 c d
  | _ => false

/-- A time of day, `HH:MM:SS` with a fraction perhaps, and what may follow it. -/
def isTime (after : List Char → Bool) (text : List Char) : Bool :=
  match text with
  | a :: b :: ':' :: c :: d :: ':' :: e :: f :: rest =>
    isPair 0 23 a b && isPair 0 59 c d && isPair 0 60 e f &&
      match rest with
      | '.' :: fraction =>
        !(fraction.takeWhile isDigit).isEmpty && after (fraction.dropWhile isDigit)
      | _ => after rest
  | _ => false

/-- A date, a time, or a date and a time with perhaps a distance from universal time. -/
def isMoment (text : List Char) : Bool :=
  isTime List.isEmpty text ||
    (isDay (text.take 10) &&
      match text.drop 10 with
      | [] => true
      | mark :: time => (mark == 'T' || mark == 't' || mark == ' ') && isTime isOffset time)

/-! ## All of them -/

/-- A character of a value without quotes or brackets. -/
def isScalarChar (c : Char) : Bool :=
  c.isAlphanum || c == '+' || c == '-' || c == '.' || c == '_' || c == ':'

/-- The run of characters at the start of a text that make up one value.  A blank belongs to it only
    between a date and a time. -/
def scalarRun (text : List Char) : List Char :=
  let run := text.takeWhile isScalarChar
  match text.drop run.length with
  | ' ' :: c :: rest =>
    if isDay run && isDigit c then run ++ ' ' :: (c :: rest).takeWhile isScalarChar else run
  | _ => run

/-- The value that a run spells. -/
def scalar? (run : List Char) : Option Toml :=
  if run == ['t', 'r', 'u', 'e'] then some (.bool true)
  else if run == ['f', 'a', 'l', 's', 'e'] then some (.bool false)
  else if isMoment run then some (.moment (String.ofList run))
  else (whole? run).or (real? run)

end CardSearch.Toml
