import CardSearch.Card.Basic
import CardSearch.Text.Case

/-
  Categories of cards that a query names by a keyword: `is:gold`, `is:dfc`.

  The table `keywords` gives every keyword with its category; some categories have a synonym, and
  the first keyword of a category is the one it is shown by.  `Category.holds` decides membership
  from the printing; a card whose printing is not known belongs to no category.
-/

namespace CardSearch

/-- A category of cards. -/
inductive Category where
  | gold
  | hybrid
  | twobrid
  | phyrexian
  | promo
  | reprint
  | firstPrint
  | digital
  | doubleFaced
  | modalDoubleFaced
  | meld
  | transform
  | flip
  | split
  | leveler
  | spell
  | permanent
  | historic
  | vanilla
  | modal
  | creatureLand
  | foil
  | nonFoil
  | etched
  | fullArt
  | commander
  deriving DecidableEq, Repr

namespace Category

/-- Every keyword with its category. -/
def keywords : List (String × Category) :=
  [("gold", .gold), ("hybrid", .hybrid), ("twobrid", .twobrid), ("phyrexian", .phyrexian),
   ("promo", .promo), ("reprint", .reprint), ("firstprint", .firstPrint),
   ("firstprinting", .firstPrint), ("digital", .digital), ("dfc", .doubleFaced),
   ("mdfc", .modalDoubleFaced), ("meld", .meld), ("transform", .transform), ("tdfc", .transform),
   ("flip", .flip), ("split", .split), ("leveler", .leveler), ("spell", .spell),
   ("permanent", .permanent), ("historic", .historic), ("vanilla", .vanilla), ("modal", .modal),
   ("creatureland", .creatureLand), ("manland", .creatureLand), ("foil", .foil),
   ("nonfoil", .nonFoil), ("etched", .etched), ("fullart", .fullArt), ("commander", .commander)]

/-- The category of a keyword in any ASCII case. -/
def ofKeyword? (keyword : String) : Option Category :=
  let wanted := String.ofList (Text.lowerAscii keyword.toList)
  (keywords.find? (·.1 == wanted)).map (·.2)

/-- The first keyword of a category. -/
def keyword (category : Category) : String :=
  ((keywords.find? (·.2 == category)).map (·.1)).getD ""

/-- A category is read from the keyword that stands for it, so no keyword stands for two. -/
theorem ofKeyword?_keyword (category : Category) :
    ofKeyword? category.keyword = some category := by
  cases category <;> decide +kernel

/-- The name of a category in messages. -/
def label : Category → String
  | .gold => "Gold"
  | .hybrid => "Hybrid"
  | .twobrid => "Twobrid"
  | .phyrexian => "Phyrexian"
  | .promo => "Promo"
  | .reprint => "Reprint"
  | .firstPrint => "FirstPrint"
  | .digital => "Digital"
  | .doubleFaced => "Dfc"
  | .modalDoubleFaced => "Mdfc"
  | .meld => "Meld"
  | .transform => "Transform"
  | .flip => "Flip"
  | .split => "Split"
  | .leveler => "Leveler"
  | .spell => "Spell"
  | .permanent => "Permanent"
  | .historic => "Historic"
  | .vanilla => "Vanilla"
  | .modal => "Modal"
  | .creatureLand => "CreatureLand"
  | .foil => "Foil"
  | .nonFoil => "NonFoil"
  | .etched => "Etched"
  | .fullArt => "FullArt"
  | .commander => "Commander"

/-! ## Membership -/

/-- Whether a string contains another. -/
def mentions (text piece : String) : Bool := Text.occurs piece.toList text.toList

/-- Card types that are played outside the usual zones, in lower case. -/
def specialTypes : List String :=
  ["plane", "phenomenon", "vanguard", "scheme", "conspiracy", "contraption"]

/-- Whether a word of a type line is one of the special types, in any case. -/
def isSpecial (typeLine : String) : Bool :=
  (Text.splitBy (fun c => !Text.isAlphanumeric c) typeLine.toList).any fun word =>
    specialTypes.contains (String.ofList (Text.lower word))

/-- Layouts of cards with two faces. -/
def doubleFacedLayouts : List String :=
  ["transform", "modal_dfc", "meld", "double_faced_token", "double_sided"]

/-- Whether the text mentions a creature somewhere after a phrase. -/
def becomesCreature (text : List Char) (phrase : String) : Bool :=
  match Text.after? phrase.toList text with
  | some rest => Text.occurs "creature".toList rest
  | none => false

/-- A land whose text turns it into a creature. -/
def isCreatureLand (p : Printing) : Bool :=
  mentions p.typeLine "Land" &&
    ["becomes a ", "become a "].any (becomesCreature p.oracleText.toList)

/-- Whether a copy has a finish: its own if it states one, else one the printing is sold in. -/
def hasFinish (card : Card) (p : Printing) (finish printed : String) : Bool :=
  match card.ownFinish with
  | some own => own == finish
  | none => p.finishes.contains printed

/-- Whether a copy of a printing belongs to a category. -/
def holdsFor (category : Category) (card : Card) (p : Printing) : Bool :=
  match category with
  | .gold => p.colors.length > 1 && p.parsedCost.all (!mentions · "-")
  | .hybrid =>
    p.colors.length > 1 && p.parsedCost.any fun s => mentions s "-" && !mentions s "-p"
  | .twobrid => p.parsedCost.any fun s => mentions s "-" && mentions s "2"
  | .phyrexian => p.parsedCost.any (mentions · "-p")
  | .promo => p.promo
  | .reprint => p.reprint
  | .firstPrint => !p.reprint
  | .digital => p.digital
  | .doubleFaced => doubleFacedLayouts.contains p.layout
  | .modalDoubleFaced => p.layout == "modal_dfc"
  | .meld => p.layout == "meld"
  | .transform => p.layout == "transform"
  | .flip => p.layout == "flip"
  | .split => p.layout == "split"
  | .leveler => p.layout == "leveler"
  | .spell => !mentions p.typeLine "Land" && !isSpecial p.typeLine
  | .permanent =>
    !mentions p.typeLine "Instant" && !mentions p.typeLine "Sorcery" && !isSpecial p.typeLine
  | .historic =>
    mentions p.typeLine "Legendary" || mentions p.typeLine "Artifact" ||
      mentions p.typeLine "Saga"
  | .vanilla => p.oracleText.isEmpty
  | .modal => mentions p.oracleText "•"
  | .creatureLand => isCreatureLand p
  | .foil => hasFinish card p "Foil" "foil"
  | .nonFoil => hasFinish card p "Non-foil" "nonfoil"
  | .etched => hasFinish card p "Etched" "etched"
  | .fullArt => p.fullArt
  | .commander =>
    p.legalities.lookup "Commander" == some "legal" &&
      ((mentions p.typeLine "Legendary" && mentions p.typeLine "Creature") ||
        mentions p.oracleText "can be your commander")

/-- Whether a card belongs to a category. -/
def holds (category : Category) (card : Card) : Bool :=
  match card.printing with
  | some p => category.holdsFor card p
  | none => false

end Category

end CardSearch
