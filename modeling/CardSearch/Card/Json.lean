import CardSearch.Card.Basic
import CardSearch.Json.Basic

/-
  Cards as JSON.

  A record is read from an object, whose unknown members are ignored and whose known members may
  stand once at most, or from a list that gives the fields in their order.  A field that is absent
  takes its default; `null` is accepted only where a value may be missing.  An entry of a catalog is
  a printing if it can be read as one, which takes a name, and a card otherwise.

  Writing gives every field in order and leaves out what is missing.
-/

namespace CardSearch

namespace Json

/-- The fields of a record with the given field names, by name.  An object gives each field at most
    once; a list gives them in order and may stop early. -/
def record? (names : List String) : Json → Option (List (String × Json))
  | .object members =>
    if names.all fun name => (membersNamed name members).length ≤ 1 then some members else none
  | .list items => if items.length ≤ names.length then some (names.zip items) else none
  | _ => none

/-- A field that may be absent but not `null`. -/
def orDefault {α : Type} (default : α) (read : Json → Option α) : Option Json → Option α
  | none => some default
  | some value => read value

/-- A field that may be absent or `null`. -/
def optional {α : Type} (read : Json → Option α) : Option Json → Option (Option α)
  | none => some none
  | some .null => some none
  | some value => (read value).map some

/-- A text field. -/
def textField : Option Json → Option String := orDefault "" text?

/-- A field that holds a list of texts. -/
def textsField : Option Json → Option (List String) := orDefault [] texts?

/-- A yes-or-no field. -/
def boolField : Option Json → Option Bool := orDefault false bool?

/-- A counter. -/
def countField : Option Json → Option Nat := orDefault 0 nat?

/-- Colors: a list of texts, or one text whose characters are the colors. -/
def colors? : Json → Option (List String)
  | .text s => some (s.toList.map fun c => String.ofList [c])
  | value => value.texts?

/-- A number, or a text that holds one.  A blank text is no number. -/
def lenientNumber? : Json → Option (Option Number)
  | .text s =>
    let body := Text.trim s.toList
    if body.isEmpty then some none else (Number.read? body).map some
  | value => value.number?.map some

end Json

/-! ## Printings -/

namespace Prices

/-- The members of the price record. -/
def fieldNames : List String := ["usd", "usd_foil", "usd_etched", "eur", "tix"]

/-- Reads a price record. -/
def ofJson? (value : Json) : Option Prices := do
  let row ← value.record? fieldNames
  return {
    usd := ← Json.optional Json.number? (row.lookup "usd")
    usdFoil := ← Json.optional Json.number? (row.lookup "usd_foil")
    usdEtched := ← Json.optional Json.number? (row.lookup "usd_etched")
    eur := ← Json.optional Json.number? (row.lookup "eur")
    tix := ← Json.optional Json.number? (row.lookup "tix") }

end Prices

/-- A member that is written when there is a value. -/
def member? {α : Type} (key : String) (write : α → Json) (value : Option α) :
    List (String × Json) :=
  (value.map fun x => (key, write x)).toList

/-- The price record as a document. -/
def Prices.toJson (p : Prices) : Json :=
  .object (member? "usd" .real p.usd ++ member? "usd_foil" .real p.usdFoil ++
    member? "usd_etched" .real p.usdEtched ++ member? "eur" .real p.eur ++
    member? "tix" .real p.tix)

namespace Printing

/-- Puts a format's status into an ascending list of formats; a later status replaces an earlier. -/
def putLegality (format status : String) : List (String × String) → List (String × String)
  | [] => [(format, status)]
  | (f, s) :: rest =>
    if format < f then (format, status) :: (f, s) :: rest
    else if format == f then (format, status) :: rest
    else (f, s) :: putLegality format status rest

/-- Reads the status of each format. -/
def legalities? : Json → Option (List (String × String))
  | .object members => do
    let pairs ← members.mapM fun (format, status) => status.text?.map fun s => (format, s)
    return pairs.foldl (fun sorted (format, status) => putLegality format status sorted) []
  | _ => none

/-- The members of the printing record. -/
def fieldNames : List String :=
  ["scryfall_id", "oracle_id", "name", "set", "set_name", "collector_number", "released_at",
   "promo", "reprint", "digital", "full_art", "isToken", "artist", "rarity", "legalities",
   "oracle_text", "cmc", "type", "colors", "color_identity", "parsed_cost", "layout", "power",
   "toughness", "loyalty", "prices", "elo", "popularity", "cubeCount", "pickCount", "finishes",
   "border_color", "language", "promo_types", "keywords"]

/-- Reads a printing record.  Only the name must be given. -/
def ofJson? (value : Json) : Option Printing := do
  let row ← value.record? fieldNames
  return {
    scryfallId := ← Json.textField (row.lookup "scryfall_id")
    oracleId := ← Json.textField (row.lookup "oracle_id")
    name := ← (row.lookup "name").bind Json.text?
    set := ← Json.textField (row.lookup "set")
    setName := ← Json.textField (row.lookup "set_name")
    collectorNumber := ← Json.textField (row.lookup "collector_number")
    releasedAt := ← Json.textField (row.lookup "released_at")
    promo := ← Json.boolField (row.lookup "promo")
    reprint := ← Json.boolField (row.lookup "reprint")
    digital := ← Json.boolField (row.lookup "digital")
    fullArt := ← Json.boolField (row.lookup "full_art")
    isToken := ← Json.boolField (row.lookup "isToken")
    artist := ← Json.textField (row.lookup "artist")
    rarity := ← Json.textField (row.lookup "rarity")
    legalities := ← Json.orDefault [] legalities? (row.lookup "legalities")
    oracleText := ← Json.textField (row.lookup "oracle_text")
    cmc := ← Json.orDefault .zero Json.number? (row.lookup "cmc")
    typeLine := ← Json.textField (row.lookup "type")
    colors := (← Json.optional Json.colors? (row.lookup "colors")).getD []
    colorIdentity := (← Json.optional Json.colors? (row.lookup "color_identity")).getD []
    parsedCost := ← Json.textsField (row.lookup "parsed_cost")
    layout := ← Json.textField (row.lookup "layout")
    power := ← Json.optional Json.text? (row.lookup "power")
    toughness := ← Json.optional Json.text? (row.lookup "toughness")
    loyalty := ← Json.optional Json.text? (row.lookup "loyalty")
    prices := ← Json.orDefault {} Prices.ofJson? (row.lookup "prices")
    elo := ← Json.optional Json.number? (row.lookup "elo")
    popularity := ← Json.optional Json.number? (row.lookup "popularity")
    cubeCount := ← Json.countField (row.lookup "cubeCount")
    pickCount := ← Json.countField (row.lookup "pickCount")
    finishes := ← Json.textsField (row.lookup "finishes")
    borderColor := ← Json.textField (row.lookup "border_color")
    language := ← Json.textField (row.lookup "language")
    promoTypes := ← Json.optional Json.texts? (row.lookup "promo_types")
    keywords := ← Json.textsField (row.lookup "keywords") }

/-- The printing record as a document. -/
def toJson (p : Printing) : Json :=
  .object (
    [("scryfall_id", .text p.scryfallId), ("oracle_id", .text p.oracleId), ("name", .text p.name),
     ("set", .text p.set), ("set_name", .text p.setName),
     ("collector_number", .text p.collectorNumber), ("released_at", .text p.releasedAt),
     ("promo", .bool p.promo), ("reprint", .bool p.reprint), ("digital", .bool p.digital),
     ("full_art", .bool p.fullArt), ("isToken", .bool p.isToken), ("artist", .text p.artist),
     ("rarity", .text p.rarity),
     ("legalities", .object (p.legalities.map fun (format, status) => (format, .text status))),
     ("oracle_text", .text p.oracleText), ("cmc", .real p.cmc), ("type", .text p.typeLine),
     ("colors", .texts p.colors), ("color_identity", .texts p.colorIdentity),
     ("parsed_cost", .texts p.parsedCost), ("layout", .text p.layout)] ++
    member? "power" .text p.power ++ member? "toughness" .text p.toughness ++
    member? "loyalty" .text p.loyalty ++ [("prices", p.prices.toJson)] ++
    member? "elo" .real p.elo ++ member? "popularity" .real p.popularity ++
    [("cubeCount", .nat p.cubeCount), ("pickCount", .nat p.pickCount),
     ("finishes", .texts p.finishes), ("border_color", .text p.borderColor),
     ("language", .text p.language)] ++
    member? "promo_types" .texts p.promoTypes ++ [("keywords", .texts p.keywords)])

end Printing

/-! ## Cards -/

namespace Card

/-- The members of the card record. -/
def fieldNames : List String :=
  ["cardID", "status", "finish", "cmc", "type_line", "colors", "rarity", "tags", "notes",
   "details"]

/-- Reads a card record. -/
def ofJson? (value : Json) : Option Card := do
  let row ← value.record? fieldNames
  return {
    ownId := ← Json.textField (row.lookup "cardID")
    ownStatus := ← Json.optional Json.text? (row.lookup "status")
    ownFinish := ← Json.optional Json.text? (row.lookup "finish")
    ownCmc := (← Json.optional Json.lenientNumber? (row.lookup "cmc")).join
    ownTypeLine := ← Json.optional Json.text? (row.lookup "type_line")
    ownColors := ← Json.optional Json.colors? (row.lookup "colors")
    ownRarity := ← Json.optional Json.text? (row.lookup "rarity")
    tags := ← Json.textsField (row.lookup "tags")
    notes := ← Json.optional Json.text? (row.lookup "notes")
    printing := ← Json.optional Printing.ofJson? (row.lookup "details") }

/-- The card record as a document. -/
def toJson (card : Card) : Json :=
  .object (
    [("cardID", .text card.ownId)] ++
    member? "status" .text card.ownStatus ++ member? "finish" .text card.ownFinish ++
    member? "cmc" .real card.ownCmc ++ member? "type_line" .text card.ownTypeLine ++
    member? "colors" .texts card.ownColors ++ member? "rarity" .text card.ownRarity ++
    (if card.tags.isEmpty then [] else [("tags", .texts card.tags)]) ++
    member? "notes" .text card.notes ++ member? "details" Printing.toJson card.printing)

/-- Reads an entry of a catalog. -/
def ofEntry? (value : Json) : Option Card :=
  match Printing.ofJson? value with
  | some p => some (ofPrinting p)
  | none => ofJson? value

end Card

end CardSearch
