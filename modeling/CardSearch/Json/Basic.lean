import CardSearch.Number.Basic

/-
  JSON documents.

  A document keeps what the records read from it can tell apart: whole numbers that fit 64 bits
  from other numbers, and every member of an object in order, also those whose key stands twice.

  Reading stops at the first problem, which is of one of three kinds: the text is not JSON, the text
  ends too early, or it is JSON of another shape than the one wanted.
-/

namespace CardSearch

/-- A JSON document. -/
inductive Json where
  | null
  | bool (value : Bool)
  | whole (value : Int)
  | real (value : Number)
  | text (value : String)
  | list (items : List Json)
  | object (members : List (String × Json))
  deriving Inhabited

/-- Why a text does not give the document or record that is wanted. -/
inductive Json.Problem where
  | malformed
  | unfinished
  | misshapen
  deriving DecidableEq, Repr

namespace Json

/-- A natural number as a document. -/
def nat (n : Nat) : Json := .whole n

/-- Text as a document. -/
def chars (text : List Char) : Json := .text (String.ofList text)

/-- A list of texts as a document. -/
def texts (values : List String) : Json := .list (values.map .text)

/-- The members of an object under a key, in order. -/
def membersNamed (key : String) (members : List (String × Json)) : List Json :=
  members.filterMap fun (k, v) => if k == key then some v else none

/-- The last member of an object under a key. -/
def get? (key : String) : Json → Option Json
  | .object members => (membersNamed key members).getLast?
  | _ => none

/-- The text of a text document. -/
def text? : Json → Option String
  | .text s => some s
  | _ => none

/-- The value of a boolean document. -/
def bool? : Json → Option Bool
  | .bool b => some b
  | _ => none

/-- The value of a whole non-negative document. -/
def nat? : Json → Option Nat
  | .whole n => if n < 0 then none else some n.toNat
  | _ => none

/-- The value of a numeric document, rounded. -/
def number? : Json → Option Number
  | .whole n => some (.ofInt n)
  | .real x => some x
  | _ => none

/-- The texts of a document that is a list of texts. -/
def texts? : Json → Option (List String)
  | .list items => items.mapM text?
  | _ => none

end Json

end CardSearch
