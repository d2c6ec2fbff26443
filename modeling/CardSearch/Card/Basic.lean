import CardSearch.Color
import CardSearch.Date
import CardSearch.Number.Read
import CardSearch.Text.Piece

/-
  Cards and the printings they point at.

  A card is a copy in somebody's list: it names a printing, and may carry a status, a finish, tags
  and values that override the printing's.  What a query tests is never read from one of the two
  records directly but through the accessors below, which say for each attribute where its value
  comes from when an override or the printing is absent.
-/

namespace CardSearch

/-- Market prices; a price is absent where nothing was sold. -/
structure Prices where
  usd : Option Number := none
  usdFoil : Option Number := none
  usdEtched : Option Number := none
  eur : Option Number := none
  tix : Option Number := none
  deriving DecidableEq

/-- The record of one printing of a card. -/
structure Printing where
  scryfallId : String := ""
  oracleId : String := ""
  name : String
  set : String := ""
  setName : String := ""
  collectorNumber : String := ""
  /-- The release date as written, `YYYY-MM-DD`. -/
  releasedAt : String := ""
  promo : Bool := false
  reprint : Bool := false
  digital : Bool := false
  fullArt : Bool := false
  isToken : Bool := false
  artist : String := ""
  rarity : String := ""
  /-- Format names, ascending, with `legal`, `banned`, `restricted` or another status. -/
  legalities : List (String × String) := []
  oracleText : String := ""
  cmc : Number := .zero
  typeLine : String := ""
  colors : List String := []
  colorIdentity : List String := []
  /-- Cost symbols, the halves of a hybrid joined by a dash. -/
  parsedCost : List String := []
  layout : String := ""
  power : Option String := none
  toughness : Option String := none
  loyalty : Option String := none
  prices : Prices := {}
  elo : Option Number := none
  popularity : Option Number := none
  cubeCount : Nat := 0
  pickCount : Nat := 0
  finishes : List String := []
  borderColor : String := ""
  language : String := ""
  promoTypes : Option (List String) := none
  keywords : List String := []
  deriving DecidableEq

/-- A card of a list: overrides, tags and notes of the copy, and its printing if it is known. -/
structure Card where
  ownId : String := ""
  ownStatus : Option String := none
  ownFinish : Option String := none
  ownCmc : Option Number := none
  ownTypeLine : Option String := none
  ownColors : Option (List String) := none
  ownRarity : Option String := none
  tags : List String := []
  notes : Option String := none
  printing : Option Printing := none
  deriving DecidableEq

namespace Card

/-- The status of a copy that states none. -/
def defaultStatus : String := "Not Owned"

/-- The finish of a copy that states none. -/
def defaultFinish : String := "Non-foil"

/-- The copy that stands for a bare printing. -/
def ofPrinting (p : Printing) : Card where
  ownId := p.scryfallId
  ownStatus := some defaultStatus
  ownFinish := some defaultFinish
  printing := some p

/-! ## Accessors -/

/-- An attribute of the printing, or a value in its place when there is none. -/
def printed {α : Type} (card : Card) (absent : α) (get : Printing → α) : α :=
  (card.printing.map get).getD absent

/-- The printing identifier: the copy's unless it is empty. -/
def id (card : Card) : String :=
  if card.ownId.isEmpty then card.printed "" (·.scryfallId) else card.ownId

def name (card : Card) : String := card.printed "" (·.name)

def oracleText (card : Card) : String := card.printed "" (·.oracleText)

def oracleId (card : Card) : String := card.printed "" (·.oracleId)

def typeLine (card : Card) : String := card.ownTypeLine.getD (card.printed "" (·.typeLine))

def rarity (card : Card) : String := card.ownRarity.getD (card.printed "" (·.rarity))

/-- The mana value: the copy's unless it is absent or zero. -/
def manaValue (card : Card) : Number :=
  match card.ownCmc with
  | some x => if x.equals .zero then card.printed .zero (·.cmc) else x
  | none => card.printed .zero (·.cmc)

/-- The color identity on the printing. -/
def printedColorIdentity (card : Card) : List String := card.printed [] (·.colorIdentity)

/-- The color identity by which a list sorts: the copy's colors if they are given. -/
def colorIdentity (card : Card) : List String := card.ownColors.getD card.printedColorIdentity

def colors (card : Card) : List String := card.printed [] (·.colors)

/-- The cost symbols. -/
def cost (card : Card) : List String := card.printed [] (·.parsedCost)

def setCode (card : Card) : String := card.printed "" (·.set)

def artist (card : Card) : String := card.printed "" (·.artist)

def layout (card : Card) : String := card.printed "" (·.layout)

def status (card : Card) : String := card.ownStatus.getD defaultStatus

def finish (card : Card) : String := card.ownFinish.getD defaultFinish

/-- The release date, if it is given and is one. -/
def released (card : Card) : Option Date :=
  card.printing.bind fun p => Date.read? p.releasedAt.toList

/-- A power, toughness or loyalty as a number: zero when absent, none when it is no number. -/
def stat (written : Option String) : Option Number :=
  match written with
  | none => some .zero
  | some s => Number.read? (Text.trim s.toList)

def power (card : Card) : Option Number := stat (card.printing.bind (·.power))

def toughness (card : Card) : Option Number := stat (card.printing.bind (·.toughness))

def loyalty (card : Card) : Option Number :=
  (stat (card.printing.bind (·.loyalty))).map Number.truncate

/-- The price in the copy's finish, or in the next finish in which the printing was sold. -/
def price (card : Card) : Option Number :=
  card.printing.bind fun p =>
    let m := p.prices
    let order :=
      if card.finish == "Foil" then [m.usdFoil, m.usd, m.usdEtched]
      else if card.finish == "Etched" then [m.usdEtched, m.usdFoil, m.usd]
      else [m.usd, m.usdFoil, m.usdEtched]
    order.findSome? fun x => x

def priceFoil (card : Card) : Option Number := card.printing.bind (·.prices.usdFoil)

def priceEur (card : Card) : Option Number := card.printing.bind (·.prices.eur)

def priceTix (card : Card) : Option Number := card.printing.bind (·.prices.tix)

def elo (card : Card) : Option Number := card.printing.bind (·.elo)

def popularity (card : Card) : Option Number := card.printing.bind (·.popularity)

def cubeCount (card : Card) : Nat := card.printed 0 (·.cubeCount)

def pickCount (card : Card) : Nat := card.printed 0 (·.pickCount)

/-- The formats in which the printing has a status, in ascending order. -/
def formatsWith (card : Card) (legality : String) : List String :=
  card.printed [] fun p => (p.legalities.filter (·.2 == legality)).map (·.1)

def legalIn (card : Card) : List String := card.formatsWith "legal"

def bannedIn (card : Card) : List String := card.formatsWith "banned"

def restrictedIn (card : Card) : List String := card.formatsWith "restricted"

/-- The symbols of a cost after its first split marker; the whole cost if there is none. -/
def afterSplit (cost : List String) : List String :=
  match cost.dropWhile (· != "split") with
  | [] => cost
  | _ :: rest => rest

/-- The number of cost symbols that contain the letter of a color.  On an adventure only the
    symbols after the split marker count. -/
def devotion (card : Card) (color : Color) : Nat :=
  let counted := if card.layout == "adventure" then afterSplit card.cost else card.cost
  (counted.filter fun s => s.toList.contains color.letter).length

/-- Characters that end a word of oracle text. -/
def endsWord (c : Char) : Bool :=
  Text.isBlank c || ['*', '/', '&', ':', ';', '.', ',', '?', '='].contains c

/-- The number of words of the oracle text. -/
def wordCount (card : Card) : Nat :=
  ((Text.splitBy endsWord card.oracleText.toList).filter (!·.isEmpty)).length

end Card

end CardSearch
