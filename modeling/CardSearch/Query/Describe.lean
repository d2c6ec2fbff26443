import CardSearch.Number.Layout
import CardSearch.Query.Value
import CardSearch.Text.Quoted

/-
  Values written out with their kind, for messages and for the printed form of a query.

  A value is shown as its kind with its content in parentheses: `Integer(-1)`, `Text("elf")`,
  `Colors(["W", "U"])`, `Field(Devotion(White))`.  Texts are quoted and lists bracketed.
-/

namespace CardSearch.Query

/-- The name of a color in messages. -/
def colorLabel : Color → String
  | .white => "White"
  | .blue => "Blue"
  | .black => "Black"
  | .red => "Red"
  | .green => "Green"
  | .colorless => "Colorless"

/-- The name of a field in messages. -/
def Field.label : Field → String
  | .name => "Name"
  | .oracle => "Oracle"
  | .typeLine => "Type"
  | .artist => "Artist"
  | .manaValue => "Cmc"
  | .cost => "Mana"
  | .castable => "Castable"
  | .color => "Color"
  | .identity => "Identity"
  | .set => "Set"
  | .power => "Power"
  | .toughness => "Toughness"
  | .loyalty => "Loyalty"
  | .rarity => "Rarity"
  | .tag => "Tag"
  | .status => "Status"
  | .finish => "Finish"
  | .price => "Price"
  | .priceFoil => "PriceFoil"
  | .priceEur => "PriceEur"
  | .priceTix => "PriceTix"
  | .legality => "Legality"
  | .banned => "Banned"
  | .restricted => "Restricted"
  | .category => "Is"
  | .devotion c => "Devotion(" ++ colorLabel c ++ ")"
  | .released => "Released"
  | .elo => "Elo"
  | .popularity => "Popularity"
  | .cubes => "Cubes"
  | .picks => "Picks"
  | .words => "Words"
  | .oracleId => "OracleId"
  | .printingId => "CardId"
  | .layout => "Layout"

/-- Items in brackets. -/
def bracketed (items : List (List Char)) : List Char :=
  '[' :: Text.join [',', ' '] items ++ [']']

/-- Quoted texts in brackets. -/
def quotedList (texts : List String) : List Char :=
  bracketed (texts.map fun s => Text.quote s.toList)

/-- A kind with its content in parentheses. -/
def labelled (label : String) (content : List Char) : List Char :=
  label.toList ++ '(' :: content ++ [')']

/-- A value with its kind. -/
def Value.describe : Value → List Char
  | .integer n => labelled "Integer" (signedDigits n)
  | .halfInteger x => labelled "HalfInteger" x.detailed
  | .dollars x => labelled "Dollars" x.detailed
  | .text s => labelled "Text" (Text.quote s.toList)
  | .colors codes => labelled "Colors" (quotedList codes)
  | .count n => labelled "Count" (digits n)
  | .manaCost cost => labelled "ManaCost" (bracketed (cost.map quotedList))
  | .manaPool pool => labelled "ManaPool" (quotedList pool)
  | .rarity s => labelled "Rarity" (Text.quote s.toList)
  | .status s => labelled "Status" (Text.quote s.toList)
  | .finish s => labelled "Finish" (Text.quote s.toList)
  | .date d => labelled "Date" d.text
  | .category c => labelled "Category" c.label.toList
  | .field other => labelled "Field" other.label.toList
  | .identifier s => labelled "Identifier" (Text.quote s.toList)

end CardSearch.Query
