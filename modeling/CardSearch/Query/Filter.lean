import CardSearch.Query.Grammar
import CardSearch.Query.Meaning

/-
  Filters: queries ready to be applied to cards.

  A filter keeps its text, its tree and the fields it uses beside its test.  A blank text is the
  empty filter, `none`, which every card passes.  The tree comes from a grammar that may find any
  number of readings of a text; only a single reading makes a filter.
-/

namespace CardSearch.Query

/-- A query with its test and the list of its fields. -/
structure Filter where
  text : String
  query : Node
  fieldsUsed : List Field
  test : Test

namespace Filter

/-- The filter of a tree that has a test; the tree's fields are listed once, here. -/
def ofTree (text : String) (query : Node) (test : Test) : Filter :=
  { text, query, fieldsUsed := query.fieldsUsed, test }

/-- The filter of a text with a given list of readings. -/
def ofReadings (text : String) (readings : List Node) : Except Error Filter :=
  match readings with
  | [] => throw .noReading
  | [query] => do return .ofTree text query (← query.test?)
  | _ => throw (.ambiguous readings.length)

/-- The filter of a text under a grammar; none for a blank text, which the grammar never sees. -/
def ofTextWith (grammar : String → Except Error (List Node)) (text : String) :
    Except Error (Option Filter) :=
  if text.toList.all Text.isBlank then return none
  else do return some (← ofReadings text (← grammar text))

/-- The filter of a text. -/
def ofText (text : String) : Except Error (Option Filter) :=
  ofTextWith (fun text => do return [← parse text]) text

end Filter

/-- Whether a card passes a filter. -/
def passes (filter : Option Filter) (card : Card) : Bool :=
  match filter with
  | none => true
  | some filter => filter.test card

/-- The cards that pass, in their order. -/
def select (filter : Option Filter) (cards : List Card) : List Card := cards.filter (passes filter)

/-- The number of cards that pass, without making a list of them. -/
def countMatches (filter : Option Filter) (cards : List Card) : Nat :=
  match filter with
  | none => cards.length
  | some filter => cards.countP filter.test

end CardSearch.Query
