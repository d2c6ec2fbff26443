import CardSearch.Color
import CardSearch.Number.Digits
import CardSearch.Text.Case
import CardSearch.Text.Piece

/-
  Mana costs and mana pools.

  A cost is a list of groups, one for each symbol, and a group lists the ways to pay the symbol:
  `["2"]`, `["w", "u"]`, `["b", "p"]`, `["x"]`.  Card records spell a group as one word with dashes,
  which `normalizeCost` splits; queries spell it in braces with slashes, or without braces when it
  has one part, which `parseCost` reads.  A pool is a list of color letters and amounts.

  Both readers work on the trimmed text in lower case, from the left, one item at a time.
-/

namespace CardSearch.Mana

/-- The ways to pay one symbol. -/
abbrev Group := List String

/-- A cost, group by group. -/
abbrev Cost := List Group

/-- A pool, symbol by symbol. -/
abbrev Pool := List String

/-! ## Costs on cards -/

/-- The parts of a cost symbol, in lower case. -/
def normalizeSymbol (symbol : String) : Group :=
  (Text.splitBy (· == '-') (Text.lower symbol.toList)).map String.ofList

/-- The groups of a card's cost.  The marker between the halves of a split cost is no group. -/
def normalizeCost (symbols : List String) : Cost :=
  (symbols.filter (· != "split")).map normalizeSymbol

/-! ## Costs in queries -/

/-- The letters of the colors. -/
def colorLetters : List Char := ['w', 'u', 'b', 'r', 'g', 'c']

/-- The letters that a cost may contain beside those of the colors: variable amounts, Phyrexian and
    snow mana. -/
def otherLetters : List Char := ['x', 'y', 'z', 'p', 's']

/-- A letter that stands for a part of a cost. -/
def isCostLetter (c : Char) : Bool := colorLetters.contains c || otherLetters.contains c

/-- A part of a cost: a run of digits or one letter. -/
def isCostPart (part : List Char) : Bool :=
  match part with
  | [] => false
  | [c] => isDigit c || isCostLetter c
  | _ => part.all isDigit

/-- The parts of a symbol in braces. -/
def bracedParts (inner : List Char) : List (List Char) :=
  (Text.splitBy (· == '/') inner).map Text.trim

/-- The groups of a cost text, item by item. -/
def costFrom (text : List Char) : Option Cost :=
  match text with
  | [] => some []
  | c :: rest =>
    if c == '\x7b' then
      match _ : rest.dropWhile (· != '\x7d') with
      | [] => none
      | _ :: more =>
        let parts := bracedParts (rest.takeWhile (· != '\x7d'))
        if parts.length ≤ 2 && parts.all isCostPart then
          (costFrom more).map (parts.map String.ofList :: ·)
        else none
    else if isDigit c then
      (costFrom (rest.dropWhile isDigit)).map ([String.ofList (c :: rest.takeWhile isDigit)] :: ·)
    else if isCostLetter c then (costFrom rest).map ([String.ofList [c]] :: ·)
    else none
  termination_by text.length
  decreasing_by
    · have := (List.dropWhile_suffix (· != '\x7d') (l := rest)).length_le
      rw [‹rest.dropWhile (· != '\x7d') = _›] at this
      simp at this ⊢
      omega
    · have := (List.dropWhile_suffix isDigit (l := rest)).length_le
      simp
      omega
    · simp

/-- Reads a cost.  A blank text is no cost. -/
def parseCost (text : String) : Option Cost :=
  match Text.lower (Text.trim text.toList) with
  | [] => none
  | body => costFrom body

/-! ## Pools in queries -/

/-- The symbols of a pool text, item by item.  Braces may stand anywhere between them. -/
def poolFrom (text : List Char) : Option Pool :=
  match text with
  | [] => some []
  | c :: rest =>
    if c == '\x7b' || c == '\x7d' then poolFrom rest
    else if isDigit c then
      (poolFrom (rest.dropWhile isDigit)).map (String.ofList (c :: rest.takeWhile isDigit) :: ·)
    else if colorLetters.contains c then (poolFrom rest).map (String.ofList [c] :: ·)
    else none
  termination_by text.length
  decreasing_by
    · simp
    · have := (List.dropWhile_suffix isDigit (l := rest)).length_le
      simp
      omega
    · simp

/-- Reads a pool.  A text without a symbol is no pool. -/
def parsePool (text : String) : Option Pool :=
  (poolFrom (Text.lower (Text.trim text.toList))).filter (!·.isEmpty)

end CardSearch.Mana
