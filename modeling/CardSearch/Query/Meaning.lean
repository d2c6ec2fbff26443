import CardSearch.Query.Comparison
import CardSearch.Query.Tree

/-
  The meaning of a query tree: a test of cards.

  `conditionTest` finds for a field the attribute of the card and the family of tests, and refuses a
  value of a kind that the field is never tested against.  `Node.test?` folds the tests of a group
  from the left; the first leaf that has no meaning decides the error.
-/

namespace CardSearch.Query

/-- A test of cards. -/
abbrev Test := Card → Bool

/-! ## Numbers -/

/-- The attribute of a field as a number. -/
def Field.number? : Field → Option (Card → Option Number)
  | .manaValue => some fun card => some card.manaValue
  | .power => some Card.power
  | .toughness => some Card.toughness
  | .loyalty => some Card.loyalty
  | .price => some Card.price
  | .priceFoil => some Card.priceFoil
  | .priceEur => some Card.priceEur
  | .priceTix => some Card.priceTix
  | .elo => some Card.elo
  | .popularity => some Card.popularity
  | .cubes => some fun card => some (.ofNat card.cubeCount)
  | .picks => some fun card => some (.ofNat card.pickCount)
  | .words => some fun card => some (.ofNat card.wordCount)
  | .devotion c => some fun card => some (.ofNat (card.devotion c))
  | _ => none

/-! ## Rules text -/

/-- The mark by which a search text names the card itself. -/
def selfMark : List Char := ['~']

/-- Legendary cards that are called by their first name. -/
def firstNamed : List String :=
  ["Crovax the Cursed", "Darigaaz Reincarnated", "Gorm the Great", "Haktos the Unscarred",
   "Hazoret the Fervent", "Phage the Untouchable", "Rakdos the Defiler", "Rashka the Slayer",
   "Rasputin Dreamweaver", "Rubinia Soulsinger"]

/-- The short name by which the rules text of a legendary card calls it. -/
def shortName? (card : Card) : Option (List Char) :=
  let name := card.name.toList
  if firstNamed.contains card.name then some (name.takeWhile (· != ' '))
  else if Category.mentions card.typeLine "Legendary" && name.contains ',' then
    some (name.takeWhile (· != ','))
  else none

/-- The rules text with the card's references to itself replaced by the mark. -/
def selfMarked (card : Card) : List Char :=
  let text := card.oracleText.toList
  let name := card.name.toList
  let named := if name.isEmpty then text else Text.replace name selfMark text
  let spelled := Text.replace "This spell".toList selfMark
    (Text.replace "this spell".toList selfMark named)
  match shortName? card with
  | some short => Text.replace short selfMark spelled
  | none => spelled

/-- Rules text holds if it holds as written or as marked; an inequality must hold in both ways. -/
def oracleTest (operator : Operator) (value : String) : Except Error Test := do
  let test ← containsTest operator value
  return fun card =>
    let plain := test card.oracleText
    if plain != operator.isNegative then plain
    else test (String.ofList (selfMarked card))

/-! ## Conditions -/

/-- The colors that a color field reads: identity as printed, color as the copy has it. -/
def colorsRead (field : Field) (card : Card) : List String :=
  if field == .identity then card.printedColorIdentity else card.colorIdentity

/-- A set of colors; the empty set is only found in cards without color. -/
def colorsTest (field : Field) (operator : Operator) (codes : List String) : Test :=
  let operator := if operator == .colon && codes.isEmpty then .equal else operator
  fun card => setTest operator codes (colorsRead field card)

/-- The formats in which a copy is legal.  A restricted card is still legal in vintage. -/
def legalityTest (operator : Operator) (format : String) : Except Error Test := do
  let test ← membershipTest operator format
  if Text.lowerAscii format.toList == "vintage".toList then
    return fun card => test (card.legalIn ++ card.restrictedIn)
  else return fun card => test card.legalIn

/-- The test of a condition without its negation. -/
def conditionTest (field : Field) (operator : Operator) (value : Value) : Except Error Test :=
  match field, value with
  | field, .field other =>
    match field.number?, other.number? with
    | some left, some right =>
      return fun card => orderingOrMissing operator (left card) (right card)
    | _, _ => throw (.unfitValue field value)
  | .name, .text s => do
    let test ← substringTest operator s
    return fun card => test card.name
  | .typeLine, .text s => do
    let test ← substringTest operator s
    return fun card => test card.typeLine
  | .artist, .text s => do
    let test ← substringTest operator s
    return fun card => test card.artist
  | .oracle, .text s => oracleTest operator s
  | .set, .identifier s => do
    let test ← equalityTest operator (lowered s)
    return fun card => test (lowered card.setCode)
  | .oracleId, .identifier s => do
    let test ← equalityTest operator s
    return fun card => test card.oracleId
  | .printingId, .identifier s => do
    let test ← equalityTest operator s
    return fun card => test card.id
  | .layout, .identifier s => do
    let test ← equalityTest operator (lowered s)
    return fun card => test (lowered card.layout)
  | .status, .status s => do
    let test ← equalityTest operator s
    return fun card => test card.status
  | .finish, .finish s => do
    let test ← equalityTest operator s
    return fun card => test card.finish
  | .color, .colors codes => return colorsTest .color operator codes
  | .identity, .colors codes => return colorsTest .identity operator codes
  | .color, .count n => return fun card => ordering operator (setSize (colorsRead .color card)) n
  | .identity, .count n =>
    return fun card => ordering operator (setSize (colorsRead .identity card)) n
  | .tag, .text s => do
    let test ← membershipTest operator s
    return fun card => test card.tags
  | .legality, .text s => legalityTest operator s
  | .banned, .text s => do
    let test ← membershipTest operator s
    return fun card => test card.bannedIn
  | .restricted, .text s => do
    let test ← membershipTest operator s
    return fun card => test card.restrictedIn
  | .rarity, .rarity s => do
    let test ← rarityTest operator s
    return fun card => test card.rarity
  | .cost, .manaCost cost => do
    let test ← costTest operator cost
    return fun card => test card.cost
  | .castable, .manaPool pool => do
    let test ← castableTest operator pool
    return fun card => test card.cost
  | .category, .category c => do
    let test ← equalityTest operator true
    return fun card => test (c.holds card)
  | .released, .date d => return fun card => orderingOrMissing operator card.released (some d)
  | .manaValue, .halfInteger x | .power, .halfInteger x | .toughness, .halfInteger x
  | .price, .dollars x | .priceFoil, .dollars x | .priceEur, .dollars x | .priceTix, .dollars x =>
    match field.number? with
    | some accessor => return fun card => orderingOrMissing operator (accessor card) (some x)
    | none => throw (.unfitValue field value)
  | field, .integer n =>
    match field.number? with
    | some accessor =>
      let number := Number.ofInt n
      return fun card => orderingOrMissing operator (accessor card) (some number)
    | none => throw (.unfitValue field value)
  | field, value => throw (.unfitValue field value)

/-! ## Trees -/

/-- The opposite of a test, if it is negated. -/
def negateIf (negated : Bool) (test : Test) : Test :=
  fun card => test card != negated

/-- Two tests joined. -/
def Connective.apply (connective : Connective) (left right : Test) : Test :=
  if connective.isAnd then fun card => left card && right card
  else fun card => left card || right card

namespace Node

mutual

/-- The test of a tree. -/
def test? : Node → Except Error Test
  | .condition leaf => do
    let test ← conditionTest leaf.field leaf.operator leaf.value
    return negateIf leaf.negated test
  | .group negated first rest => do
    let test ← first.test?
    let test ← foldTests test rest
    return negateIf negated test
  termination_by structural node => node

/-- A test joined with those of the further members, from the left. -/
def foldTests (left : Test) : List (Connective × Node) → Except Error Test
  | [] => return left
  | (connective, node) :: rest => do
    let right ← node.test?
    foldTests (connective.apply left right) rest
  termination_by structural members => members

end

end Node

end CardSearch.Query
