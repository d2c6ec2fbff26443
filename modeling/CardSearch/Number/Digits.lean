import CardSearch.Text.Blank

/-
  Decimal digits and whole numbers.

  `digits n` writes a natural number; `natural?` reads a run of digits back.  The bounded readers
  take an optional sign and refuse what lies outside their range, so a number that does not fit is
  no number rather than a wrong one.
-/

namespace CardSearch

/-- The ASCII digits. -/
def isDigit (c : Char) : Bool := '0' ≤ c && c ≤ '9'

/-- The value of a digit. -/
def digitValue (c : Char) : Nat := c.toNat - '0'.toNat

/-- A natural number in decimal. -/
def digits (n : Nat) : List Char := Nat.toDigits 10 n

/-- An integer in decimal, with a minus sign when it is negative. -/
def signedDigits (n : Int) : List Char :=
  if n < 0 then '-' :: digits n.natAbs else digits n.natAbs

/-- The value of a run of digits. -/
def digitsValue (text : List Char) : Nat := text.foldl (fun n c => n * 10 + digitValue c) 0

/-- Reads a non-empty run of digits. -/
def natural? (text : List Char) : Option Nat :=
  if text.isEmpty || !text.all isDigit then none else some (digitsValue text)

/-- Reads a natural number below `bound`; a plus sign may come first. -/
def naturalBelow? (bound : Nat) (text : List Char) : Option Nat :=
  let body := match text with
    | '+' :: rest => rest
    | _ => text
  (natural? body).filter (· < bound)

/-- Reads an unsigned number of 64 bits. -/
def unsigned64? (text : List Char) : Option Nat := naturalBelow? (Nat.pow 2 64) text

/-- Reads a signed number of the given number of bits; a sign may come first. -/
def signed? (bits : Nat) (text : List Char) : Option Int :=
  match text with
  | '-' :: rest =>
    ((natural? rest).filter (· ≤ Nat.pow 2 (bits - 1))).map fun n => -(n : Int)
  | _ => (naturalBelow? (Nat.pow 2 (bits - 1)) text).map fun n => (n : Int)

/-- Reads a signed number of 64 bits. -/
def signed64? (text : List Char) : Option Int := signed? 64 text

end CardSearch
