import CardSearch.Json.Write
import CardSearch.Query.Filter
import CardSearch.Report.Cell

/-
  A page of search results, as a table or as JSON.

  A page holds the cards to be shown and how many matched.  The table gives a line to each card, and
  a last line when some are not shown.
-/

namespace CardSearch.Report

/-- The outcome of a search, cut to what is to be shown. -/
structure Page where
  /-- The text of the query, empty when there is none. -/
  query : String
  fieldsUsed : List Query.Field
  /-- How many cards matched. -/
  total : Nat
  /-- The cards to show. -/
  cards : List Card

namespace Page

/-- The page of a filter over cards, with at most `limit` of them shown if there is a limit. -/
def ofFilter (filter : Option Query.Filter) (cards : List Card) (limit : Option Nat) : Page :=
  let matched := Query.select filter cards
  { query := (filter.map (·.text)).getD ""
    fieldsUsed := (filter.map (·.fieldsUsed)).getD []
    total := matched.length
    cards := match limit with
      | some n => matched.take n
      | none => matched }

/-! ## Table -/

/-- The columns of a line, from the cost on, after the name. -/
def columns (name cost identity typeLine rarity set price : List Char) : List Char :=
  name ++ ' ' :: pad 14 cost ++ ' ' :: pad 5 identity ++ ' ' :: pad 28 typeLine ++
    ' ' :: pad 8 rarity ++ ' ' :: pad 5 set ++ ' ' :: price

/-- The line above the cards. -/
def header : List Char :=
  columns (pad 30 "Name".toList) "Cost".toList "Id".toList "Type".toList "Rarity".toList
    "Set".toList "Price".toList

/-- The line of a card. -/
def row (colored : Bool) (card : Card) : List Char :=
  Text.trimEnd (columns
    (identityCell colored 30 card.colorIdentity card.name.toList)
    (truncate 14 (cost card.cost))
    (colors card.colorIdentity)
    (truncate 28 card.typeLine.toList)
    card.rarity.toList
    (Text.upper card.setCode.toList)
    (price card.price))

/-- The line that counts the cards not shown. -/
def remainder (count : Nat) : List Char :=
  "... ".toList ++ digits count ++ " more (use --limit or --all to show them)".toList

/-- The lines of the table. -/
def lines (page : Page) (colored : Bool) : List (List Char) :=
  if page.cards.isEmpty then ["No cards found.".toList]
  else
    paintIf colored .dim header :: page.cards.map (row colored) ++
      if page.total > page.cards.length then
        [paintIf colored .dim (remainder (page.total - page.cards.length))]
      else []

/-- The table. -/
def table (page : Page) (colored : Bool) : String :=
  String.ofList ((page.lines colored).flatMap (· ++ ['\n']))

/-! ## JSON -/

/-- A card of the JSON listing. -/
def cardJson (card : Card) : Json :=
  .object ([
    ("card_id", .text card.id),
    ("name", .text card.name),
    ("mana_cost", .chars (cost card.cost)),
    ("cmc", .real card.manaValue),
    ("type_line", .text card.typeLine),
    ("color_identity", .texts card.colorIdentity),
    ("rarity", .text card.rarity),
    ("set", .text card.setCode),
    ("status", .text card.status),
    ("finish", .text card.finish),
    ("price", (card.price.map Json.real).getD .null)] ++
    if card.tags.isEmpty then [] else [("tags", .texts card.tags)])

/-- The page as a document. -/
def toJson (page : Page) : Json :=
  .object [
    ("query", .text page.query),
    ("fields_used", .texts (page.fieldsUsed.map (·.title))),
    ("total", .nat page.total),
    ("shown", .nat page.cards.length),
    ("cards", .list (page.cards.map cardJson))]

end Page

end CardSearch.Report
