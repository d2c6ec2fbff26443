import CardSearch.Category
import CardSearch.Mana.Cost
import CardSearch.Query.Field

/-
  The values of conditions, and how each kind of value is spelled.

  `Value.ofText?` reads the text after an operator as the kind of value its field takes.  A numeric
  field may also be compared with another numeric field, named by any abbreviation.  Spellings are
  forgiving where people are: colors may be letters or the name of a combination, statuses and
  finishes may be written in any case and without their blanks and dashes, a rarity may be its first
  letter and a date its year.
-/

namespace CardSearch.Query

/-- A value that a field is tested against. -/
inductive Value where
  | integer (n : Int)
  /-- A multiple of one half. -/
  | halfInteger (x : Number)
  | dollars (x : Number)
  | text (s : String)
  /-- Upper-case codes of colors. -/
  | colors (codes : List String)
  /-- A number of colors. -/
  | count (n : Nat)
  | manaCost (cost : Mana.Cost)
  | manaPool (pool : Mana.Pool)
  | rarity (s : String)
  | status (s : String)
  | finish (s : String)
  | date (d : Date)
  | category (c : Category)
  /-- Another field of the same card. -/
  | field (other : Field)
  | identifier (s : String)
  deriving DecidableEq

namespace Value

/-! ## Numbers -/

/-- A multiple of one half. -/
def halfInteger? (raw : List Char) : Option Number :=
  (Number.read? (Text.trim raw)).filter Number.isHalfWhole

/-- An amount of money that is not negative; a dollar sign may come first. -/
def dollars? (raw : List Char) : Option Number :=
  let amount := match Text.trim raw with
    | '$' :: rest => rest
    | body => body
  (Number.read? amount).filter fun x => x.isFinite && Number.zero.atMost x

/-! ## Colors -/

/-- Names of colors and of their combinations. -/
def colorNames : List (String × String) :=
  [("white", "w"), ("blue", "u"), ("black", "b"), ("red", "r"), ("green", "g"), ("colorless", "c"),
   ("azorius", "wu"), ("dimir", "ub"), ("rakdos", "br"), ("gruul", "rg"), ("selesnya", "gw"),
   ("orzhov", "wb"), ("izzet", "ur"), ("golgari", "bg"), ("boros", "rw"), ("simic", "gu"),
   ("bant", "gwu"), ("esper", "wub"), ("grixis", "ubr"), ("jund", "brg"), ("naya", "rgw"),
   ("abzan", "wbg"), ("jeskai", "urw"), ("sultai", "bgu"), ("mardu", "rwb"), ("temur", "urg")]

/-- The letters that a color text stands for: those of a name, else the text itself. -/
def colorLetters (body : List Char) : List Char :=
  match colorNames.lookup (String.ofList body) with
  | some letters => letters.toList
  | none => body

/-- The codes of a set of colors, in the order of the wheel.  `c` alone is the empty set. -/
def colors? (raw : List Char) : Option (List String) :=
  let letters := colorLetters (Text.lower (Text.trim raw))
  if letters == ['c'] then some []
  else if letters.isEmpty || !letters.all (Color.wheel.map Color.letter).contains then none
  else some ((Color.wheel.filter fun c => letters.contains c.letter).map Color.code)

/-! ## Words of fixed lists -/

/-- What a copy's owner may say of it. -/
def statuses : List String :=
  ["Not Owned", "Ordered", "Owned", "Premium Owned", "Proxied", "Borrowed"]

/-- The finishes of cards. -/
def finishes : List String := ["Non-foil", "Foil", "Etched"]

/-- The rarities in ascending order. -/
def rarities : List String := ["common", "uncommon", "rare", "mythic", "special"]

/-- The place of a rarity in the order, by its first letter; what is none comes before all. -/
def rarityRank (rarity : String) : Int :=
  match rarity.toList.head?.map Char.toLower with
  | some 'c' => 0
  | some 'u' => 1
  | some 'r' => 2
  | some 'm' => 3
  | some 's' => 4
  | _ => -1

/-- A rarity in lower case, a single letter as the full word. -/
def rarity? (raw : String) : Option String :=
  if rarityRank raw < 0 then none
  else
    let body := Text.lower raw.toList
    let full := if body.length == 1 then rarities.find? fun name => body.isPrefixOf name.toList
      else none
    some (full.getD (String.ofList body))

/-- A word without blanks, dashes and underscores, in lower case letter by letter. -/
def squash (word : String) : List Char :=
  (word.toList.filter fun c => !(c == ' ' || c == '-' || c == '_')).flatMap Text.lowerChar

/-- The word of a list that a text spells when both are squashed. -/
def listed? (raw : String) (words : List String) : Option String :=
  let wanted := squash raw
  words.find? fun word => squash word == wanted

/-! ## Dates -/

/-- A date; four characters that are a year stand for its first day. -/
def date? (raw : List Char) : Option Date :=
  let body := Text.trim raw
  match Date.read? body with
  | some d => some d
  | none =>
    if Text.byteLength body == 4 then (signed? 32 body).bind fun year => Date.of? year 1 1
    else none

/-! ## Any value -/

/-- The value of a text of a given kind. -/
def ofKind? (kind : ValueKind) (raw : String) : Option Value :=
  let body := raw.toList
  match kind with
  | .text => some (.text raw)
  | .identifier => some (.identifier raw)
  | .integer => (signed64? (Text.trim body)).map .integer
  | .halfInteger => (halfInteger? body).map .halfInteger
  | .dollars => (dollars? body).map .dollars
  | .colors =>
    match unsigned64? (Text.trim body) with
    | some n => some (.count n)
    | none => (colors? body).map .colors
  | .manaCost => (Mana.parseCost raw).map .manaCost
  | .manaPool => (Mana.parsePool raw).map .manaPool
  | .rarity => (rarity? raw).map .rarity
  | .status => (listed? raw statuses).map .status
  | .finish => (listed? raw finishes).map .finish
  | .category => (Category.ofKeyword? raw).map .category
  | .date => (date? body).map .date

/-- The other field that the value of a numeric field names. -/
def fieldNamed? (field : Field) (raw : String) : Option Field :=
  if field.isNumeric then (Field.ofAbbreviation? raw).filter Field.isNumeric else none

/-- The value of a text that follows a field and an operator. -/
def ofText? (field : Field) (raw : String) : Option Value :=
  match fieldNamed? field raw with
  | some other => some (.field other)
  | none => ofKind? field.kind raw

end Value

end CardSearch.Query
