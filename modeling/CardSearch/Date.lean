import CardSearch.Text.Blank
import CardSearch.Number.Digits

/-
  Calendar dates of the proleptic Gregorian calendar.

  A date is a year, a month and a day that exist together; the type admits no other triple.  Years
  run from -262143 to 262142.  `Date.read?` accepts year, month and day joined by dashes, each of
  them after optional blanks: an unsigned year has at most four digits, a signed one any number,
  month and day at most two.  `Date.text` writes the year with four digits, and with a sign outside
  0 … 9999.
-/

namespace CardSearch

/-- Whether a year has a 29th of February. -/
def isLeapYear (year : Int) : Bool := year % 4 == 0 && (year % 100 != 0 || year % 400 == 0)

/-- The number of days of a month. -/
def daysInMonth (year : Int) (month : Nat) : Nat :=
  if month == 2 then if isLeapYear year then 29 else 28
  else if [4, 6, 9, 11].contains month then 30
  else 31

/-- Whether a year, a month and a day name a date. -/
def isDate (year : Int) (month day : Nat) : Bool :=
  -262143 ≤ year && year ≤ 262142 && 1 ≤ month && month ≤ 12 && 1 ≤ day &&
    day ≤ daysInMonth year month

/-- A calendar date. -/
structure Date where
  year : Int
  month : Nat
  day : Nat
  valid : isDate year month day = true
  deriving DecidableEq

namespace Date

/-- The date of a year, a month and a day, if they name one. -/
def of? (year : Int) (month day : Nat) : Option Date :=
  if h : isDate year month day = true then some ⟨year, month, day, h⟩ else none

/-- Earlier in the calendar. -/
def before (a b : Date) : Bool :=
  a.year < b.year || (a.year == b.year &&
    (a.month < b.month || (a.month == b.month && a.day < b.day)))

/-! ## Writing -/

/-- Digits padded with zeros at the front. -/
def padded (width n : Nat) : List Char :=
  List.replicate (width - (digits n).length) '0' ++ digits n

/-- Year, month and day joined by dashes. -/
def text (d : Date) : List Char :=
  let year :=
    if d.year < 0 then '-' :: padded 4 d.year.natAbs
    else if d.year > 9999 then '+' :: padded 4 d.year.natAbs
    else padded 4 d.year.natAbs
  year ++ '-' :: padded 2 d.month ++ '-' :: padded 2 d.day

/-! ## Reading -/

/-- Takes one to `most` digits from the start of a text; `none` for `most` sets no bound. -/
def takeDigits? (most : Option Nat) (text : List Char) : Option (Nat × List Char) :=
  let run := text.takeWhile isDigit
  let taken := match most with
    | some n => run.take n
    | none => run
  if taken.isEmpty then none else some (digitsValue taken, text.drop taken.length)

/-- A year: unsigned with at most four digits, or signed. -/
def takeYear? (text : List Char) : Option (Int × List Char) :=
  match Text.trimStart text with
  | '-' :: rest => (takeDigits? none rest).map fun (n, more) => (-(n : Int), more)
  | '+' :: rest => (takeDigits? none rest).map fun (n, more) => ((n : Int), more)
  | rest => (takeDigits? (some 4) rest).map fun (n, more) => ((n : Int), more)

/-- A dash and then a month or a day. -/
def takePart? (text : List Char) : Option (Nat × List Char) :=
  match text with
  | '-' :: rest => takeDigits? (some 2) (Text.trimStart rest)
  | _ => none

/-- Reads a date that takes up the whole text. -/
def read? (text : List Char) : Option Date := do
  let (year, rest) ← takeYear? text
  let (month, rest) ← takePart? rest
  let (day, rest) ← takePart? rest
  if rest.isEmpty then of? year month day else none

end Date

end CardSearch
