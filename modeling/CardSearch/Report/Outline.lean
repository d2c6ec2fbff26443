import CardSearch.Json.Write
import CardSearch.Query.Filter
import CardSearch.Report.Cell

/-
  How a query is read: its tree as an indented outline or as JSON.

  In the outline every node has a line of its own, members two blanks deeper than their group.  A
  member after the first begins with the word that joins it, which is `AND` also where nothing was
  written between the members.
-/

namespace CardSearch.Report.Outline

open Query

/-- The word of a connective. -/
def word (connective : Connective) : String := if connective.isAnd then "and" else "or"

/-! ## Outline -/

/-- What stands before a node: the indentation, and the word that joins it to those before. -/
def lead (colored : Bool) (depth : Nat) (connective : Option Connective) : List Char :=
  List.replicate (2 * depth) ' ' ++
    match connective with
    | some c => paintIf colored .dim (Text.upper (word c).toList) ++ [' ']
    | none => []

/-- A condition without its lead. -/
def leafText (leaf : Condition) : List Char :=
  Node.negation leaf.negated ++ leaf.field.title.toList ++ ' ' :: leaf.operator.symbol.toList ++
    ' ' :: Report.value leaf.value

mutual

/-- The lines of a tree. -/
def nodeLines (colored : Bool) (depth : Nat) (connective : Option Connective) :
    Node → List (List Char)
  | .condition leaf => [lead colored depth connective ++ paintIf colored .cyan (leafText leaf)]
  | .group negated first rest =>
    (lead colored depth connective ++ Node.negation negated ++ "group".toList) ::
      (nodeLines colored (depth + 1) none first ++ memberLines colored (depth + 1) rest)
  termination_by structural node => node

/-- The lines of the further members of a group. -/
def memberLines (colored : Bool) (depth : Nat) : List (Connective × Node) → List (List Char)
  | [] => []
  | (connective, node) :: rest =>
    nodeLines colored depth (some connective) node ++ memberLines colored depth rest
  termination_by structural members => members

end

/-- The lines of the outline of a query. -/
def lines (filter : Filter) (colored : Bool) : List (List Char) :=
  let label (text : String) := paintIf colored .bold text.toList
  let fields := Text.join [',', ' '] (filter.fieldsUsed.map (·.title.toList))
  [label "Query:" ++ ' ' :: filter.text.toList, label "Fields:" ++ ' ' :: fields, label "Tree:"] ++
    nodeLines colored 1 none filter.query

/-- The outline of a query. -/
def outline (filter : Filter) (colored : Bool) : String :=
  String.ofList ((lines filter colored).flatMap (· ++ ['\n']))

/-! ## JSON -/

mutual

/-- A tree as a document. -/
def nodeJson : Node → Json
  | .condition leaf =>
    .object [
      ("kind", .text "condition"),
      ("field", .text leaf.field.title),
      ("operator", .text leaf.operator.symbol),
      ("negated", .bool leaf.negated),
      ("value", .chars (Report.value leaf.value))]
  | .group negated first rest =>
    .object [
      ("kind", .text "group"),
      ("negated", .bool negated),
      ("members", .list (.object [("node", nodeJson first)] :: membersJson rest))]
  termination_by structural node => node

/-- The further members of a group. -/
def membersJson : List (Connective × Node) → List Json
  | [] => []
  | (connective, node) :: rest =>
    .object [("connective", .text (word connective)), ("node", nodeJson node)] :: membersJson rest
  termination_by structural members => members

end

/-- The reading of a query as a document. -/
def toJson (filter : Filter) : Json :=
  .object [
    ("query", .text filter.text),
    ("fields_used", .texts (filter.fieldsUsed.map (·.title))),
    ("tree", nodeJson filter.query)]

end CardSearch.Report.Outline
