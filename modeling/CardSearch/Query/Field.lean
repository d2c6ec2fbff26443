import CardSearch.Color
import CardSearch.Query.Operator
import CardSearch.Text.Case
import CardSearch.Text.Distance

/-
  The fields of a query: the attributes of a card that a condition can test.

  `Field.aliases` is the table of abbreviations.  A field is found by any of its abbreviations in
  any case; its canonical name is one of them.  The kind of value that follows the operator, and
  with it the set of operators, is fixed by the field.  A word that is no abbreviation may be close
  to one, and `Field.suggest?` names it.
-/

namespace CardSearch.Query

/-- An attribute of a card. -/
inductive Field where
  | name
  | oracle
  | typeLine
  | artist
  | manaValue
  | cost
  | castable
  | color
  | identity
  | set
  | power
  | toughness
  | loyalty
  | rarity
  | tag
  | status
  | finish
  | price
  | priceFoil
  | priceEur
  | priceTix
  | legality
  | banned
  | restricted
  | category
  /-- The number of cost symbols that contain a color. -/
  | devotion (color : Color)
  | released
  | elo
  | popularity
  | cubes
  | picks
  | words
  | oracleId
  | printingId
  | layout
  deriving DecidableEq, Repr

/-- What kind of value a field is tested against. -/
inductive ValueKind where
  | text
  | integer
  | halfInteger
  | dollars
  | colors
  | manaCost
  | manaPool
  | rarity
  | status
  | finish
  | category
  | date
  | identifier
  deriving DecidableEq, Repr

/-- The name of a kind in listings. -/
def ValueKind.name : ValueKind → String
  | .text => "text"
  | .integer => "integer"
  | .halfInteger => "number"
  | .dollars => "price"
  | .colors => "colors"
  | .manaCost => "mana cost"
  | .manaPool => "mana pool"
  | .rarity => "rarity"
  | .status => "status"
  | .finish => "finish"
  | .category => "category"
  | .date => "date"
  | .identifier => "identifier"

namespace Field

/-! ## Names -/

/-- Every abbreviation with its field. -/
def abbreviations : List (String × Field) :=
  [("n", .name), ("name", .name),
   ("o", .oracle), ("oracle", .oracle), ("text", .oracle),
   ("t", .typeLine), ("type", .typeLine),
   ("a", .artist), ("art", .artist), ("artist", .artist),
   ("cmc", .manaValue), ("mv", .manaValue), ("manavalue", .manaValue),
   ("m", .cost), ("mana", .cost), ("cost", .cost),
   ("cw", .castable), ("castwith", .castable), ("castable", .castable),
   ("c", .color), ("color", .color), ("colors", .color),
   ("ci", .identity), ("id", .identity), ("identity", .identity),
   ("s", .set), ("set", .set), ("e", .set), ("edition", .set),
   ("pow", .power), ("power", .power),
   ("tou", .toughness), ("toughness", .toughness),
   ("loy", .loyalty), ("loyalty", .loyalty),
   ("r", .rarity), ("rarity", .rarity),
   ("tag", .tag), ("tags", .tag),
   ("stat", .status), ("status", .status),
   ("fin", .finish), ("finish", .finish),
   ("p", .price), ("price", .price), ("usd", .price),
   ("pf", .priceFoil), ("pricefoil", .priceFoil), ("foil", .priceFoil),
   ("eur", .priceEur), ("priceeur", .priceEur),
   ("tix", .priceTix), ("pricetix", .priceTix),
   ("leg", .legality), ("legal", .legality), ("legality", .legality),
   ("banned", .banned),
   ("restricted", .restricted),
   ("is", .category),
   ("dw", .devotion .white), ("du", .devotion .blue), ("db", .devotion .black),
   ("dr", .devotion .red), ("dg", .devotion .green), ("dc", .devotion .colorless),
   ("devotionw", .devotion .white), ("devotionu", .devotion .blue),
   ("devotionb", .devotion .black), ("devotionr", .devotion .red),
   ("devotiong", .devotion .green), ("devotionc", .devotion .colorless),
   ("date", .released), ("released", .released),
   ("elo", .elo),
   ("pop", .popularity), ("popularity", .popularity),
   ("cubes", .cubes), ("cubecount", .cubes),
   ("picks", .picks), ("pickcount", .picks),
   ("wc", .words), ("words", .words),
   ("oracleid", .oracleId), ("oid", .oracleId),
   ("cardid", .printingId), ("scryfall", .printingId),
   ("layout", .layout)]

set_option maxRecDepth 4000 in
/-- Abbreviations are written in small letters. -/
theorem letter_of_mem_abbreviations {entry : String × Field} (hentry : entry ∈ abbreviations)
    {c : Char} (hc : c ∈ entry.1.toList) : 97 ≤ c.toNat ∧ c.toNat ≤ 122 := by
  have hall : ∀ entry ∈ abbreviations,
      entry.1.toList.all (fun c => 97 ≤ c.toNat ∧ c.toNat ≤ 122) = true := by decide
  exact of_decide_eq_true (List.all_eq_true.mp (hall entry hentry) c hc)

/-- The field of an abbreviation in any case. -/
def ofAbbreviation? (word : String) : Option Field :=
  let wanted := String.ofList (Text.lowerAscii word.toList)
  (abbreviations.find? (·.1 == wanted)).map (·.2)

/-- The abbreviations of a field. -/
def aliases (field : Field) : List String :=
  (abbreviations.filter (·.2 == field)).map (·.1)

/-- Every field, in the order of the table. -/
def all : List Field := (abbreviations.map (·.2)).eraseDups

/-- The canonical name. -/
def title : Field → String
  | .name => "name"
  | .oracle => "oracle"
  | .typeLine => "type"
  | .artist => "artist"
  | .manaValue => "cmc"
  | .cost => "mana"
  | .castable => "castable"
  | .color => "color"
  | .identity => "identity"
  | .set => "set"
  | .power => "power"
  | .toughness => "toughness"
  | .loyalty => "loyalty"
  | .rarity => "rarity"
  | .tag => "tag"
  | .status => "status"
  | .finish => "finish"
  | .price => "price"
  | .priceFoil => "pricefoil"
  | .priceEur => "priceeur"
  | .priceTix => "pricetix"
  | .legality => "legality"
  | .banned => "banned"
  | .restricted => "restricted"
  | .category => "is"
  | .devotion .white => "devotionw"
  | .devotion .blue => "devotionu"
  | .devotion .black => "devotionb"
  | .devotion .red => "devotionr"
  | .devotion .green => "devotiong"
  | .devotion .colorless => "devotionc"
  | .released => "released"
  | .elo => "elo"
  | .popularity => "popularity"
  | .cubes => "cubes"
  | .picks => "picks"
  | .words => "words"
  | .oracleId => "oracleid"
  | .printingId => "cardid"
  | .layout => "layout"

/-- Every field can be written by its full name. -/
theorem ofAbbreviation?_title (field : Field) : ofAbbreviation? field.title = some field := by
  cases field with
  | devotion color => cases color <;> decide +kernel
  | _ => decide +kernel

/-! ## Values -/

/-- The kind of value that the field is tested against. -/
def kind : Field → ValueKind
  | .name | .oracle | .typeLine | .artist | .tag | .legality | .banned | .restricted => .text
  | .manaValue | .power | .toughness => .halfInteger
  | .loyalty | .devotion _ | .elo | .popularity | .cubes | .picks | .words => .integer
  | .price | .priceFoil | .priceEur | .priceTix => .dollars
  | .color | .identity => .colors
  | .cost => .manaCost
  | .castable => .manaPool
  | .rarity => .rarity
  | .status => .status
  | .finish => .finish
  | .category => .category
  | .released => .date
  | .set | .oracleId | .printingId | .layout => .identifier

/-- The operators of a field. -/
def operators (field : Field) : List Operator :=
  match field.kind with
  | .integer | .halfInteger | .dollars | .colors | .rarity | .date => Operator.all
  | .manaPool => [.colon, .equal, .notEqual, .lessGreater, .lessEqual, .greater]
  | .text | .manaCost | .status | .finish | .category | .identifier =>
    [.colon, .equal, .notEqual, .lessGreater]

/-- Whether a field is a number, which another such field may be compared with. -/
def isNumeric (field : Field) : Bool :=
  match field.kind with
  | .integer | .halfInteger | .dollars => true
  | _ => false

/-! ## Suggestions -/

/-- The greatest distance at which an abbreviation is still suggested. -/
def maxDistance : Nat := 2

/-- The abbreviations near a word, with their distances: no further than `maxDistance`, and not so
    far that every letter may differ. -/
def near (word : String) : List (String × Nat) :=
  let wanted := Text.lowerAscii word.toList
  (abbreviations.map fun (abbreviation, _) =>
    (abbreviation, Text.distance wanted abbreviation.toList)).filter fun (abbreviation, d) =>
      d ≤ maxDistance && d < abbreviation.length

/-- The first entry with the least distance. -/
def nearest? : List (String × Nat) → Option (String × Nat)
  | [] => none
  | (abbreviation, d) :: rest =>
    match nearest? rest with
    | some (other, e) => if e < d then some (other, e) else some (abbreviation, d)
    | none => some (abbreviation, d)

/-- The abbreviation nearest to a word. -/
def suggest? (word : String) : Option String := (nearest? (near word)).map (·.1)

end Field

end CardSearch.Query
