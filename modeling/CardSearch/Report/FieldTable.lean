import CardSearch.Json.Write
import CardSearch.Query.Field
import CardSearch.Report.Cell

/-
  The fields that a query can test, as a table or as JSON: for each its canonical name, its kind of
  value, its operators and its abbreviations.
-/

namespace CardSearch.Report.FieldTable

open Query

/-- The columns of a line after the name. -/
def columns (name kind operators aliases : List Char) : List Char :=
  name ++ ' ' :: pad 11 kind ++ ' ' :: pad 24 operators ++ ' ' :: aliases

/-- The line above the fields. -/
def header : List Char :=
  columns (pad 12 "Field".toList) "Value".toList "Operators".toList "Aliases".toList

/-- The line of a field. -/
def row (colored : Bool) (field : Field) : List Char :=
  columns (paintIf colored .bold (pad 12 field.title.toList)) field.kind.name.toList
    (Text.join [' '] (field.operators.map (·.symbol.toList)))
    (Text.join [',', ' '] (field.aliases.map String.toList))

/-- The table of some fields. -/
def table (fields : List Field) (colored : Bool) : String :=
  String.ofList ((paintIf colored .dim header :: fields.map (row colored)).flatMap (· ++ ['\n']))

/-- Some fields as a document. -/
def toJson (fields : List Field) : Json :=
  .list (fields.map fun field => .object [
    ("name", .text field.title),
    ("aliases", .texts field.aliases),
    ("value", .text field.kind.name),
    ("operators", .texts (field.operators.map (·.symbol)))])

end CardSearch.Report.FieldTable
