import CardSearch.Query.Describe

/-
  What can be wrong with a query.

  Every cause is a constructor that keeps what the message needs; `Error.message` is the only place
  where wording is decided.  Two causes cannot come from query text, only from a tree that was built
  by other means: `Error.isConfiguration` tells them apart.
-/

namespace CardSearch.Query

/-- A group of tests that accepts only some operators. -/
inductive Family where
  | string
  | stringContains
  | equality
  | setMembership
  | manaCost
  | castable
  deriving DecidableEq, Repr

/-- The name of a group of tests in messages. -/
def Family.label : Family → String
  | .string => "string"
  | .stringContains => "string contains"
  | .equality => "equality"
  | .setMembership => "set membership"
  | .manaCost => "mana cost"
  | .castable => "castable"

/-- Why a query gives no filter. -/
inductive Error where
  | empty
  /-- A token where none of its kind may stand, with its byte position. -/
  | unexpectedToken (token : String) (position : Nat)
  | unexpectedEnd
  | unclosedParenthesis
  | unknownField (word : String) (suggestion : Option String)
  | unsupportedOperator (field : Field) (operator : Operator)
  | missingValue (field : Field)
  /-- A text that is no value of the field's kind. -/
  | invalidValue (field : Field) (raw : String)
  /-- A value of a kind that the field is never tested against. -/
  | unfitValue (field : Field) (value : Value)
  | noReading
  | ambiguous (readings : Nat)
  | unrecognizedOperator (family : Family) (operator : Operator)
  | invalidRarity (rarity : String)
  deriving DecidableEq

namespace Error

/-- What is expected in place of a text that is no value of a kind. -/
def expectation : ValueKind → String
  | .integer => "expected a whole number"
  | .halfInteger => "expected a number such as 3 or 2.5"
  | .dollars => "expected a price such as 2.50"
  | .colors => "expected colors such as wu, azorius or colorless"
  | .manaCost => "expected a mana cost such as \x7b2\x7d\x7bw/u\x7d or 2wu"
  | .manaPool => "expected a mana pool such as 2ww"
  | .rarity => "expected common, uncommon, rare, mythic or special"
  | .status => "unknown status"
  | .finish => "unknown finish"
  | .category => "unknown category"
  | .date => "expected a date such as 2020-01-31"
  | .text | .identifier => "expected text"

/-- The wording of a value that does not serve its field. -/
def valueMessage (field : Field) (value reason : String) : String :=
  "invalid value '" ++ value ++ "' for field '" ++ field.title ++ "': " ++ reason

/-- The wording of an error. -/
def message : Error → String
  | .empty => "filter expression is empty"
  | .unexpectedToken token position =>
    "unexpected token '" ++ token ++ "' at position " ++ String.ofList (digits position)
  | .unexpectedEnd => "unexpected end of expression"
  | .unclosedParenthesis => "unclosed parenthesis"
  | .unknownField word (some suggestion) =>
    "unknown field '" ++ word ++ "' (did you mean '" ++ suggestion ++ "'?)"
  | .unknownField word none => "unknown field '" ++ word ++ "'"
  | .unsupportedOperator field operator =>
    "operator '" ++ operator.symbol ++ "' cannot be used with field '" ++ field.title ++ "'"
  | .missingValue field => "missing value for field '" ++ field.title ++ "'"
  | .invalidValue field raw => valueMessage field raw (expectation field.kind)
  | .unfitValue field value =>
    valueMessage field (String.ofList value.describe) "value does not fit the field"
  | .noReading => "query did not produce a filter"
  | .ambiguous readings =>
    "query is ambiguous (" ++ String.ofList (digits readings) ++ " possible readings)"
  | .unrecognizedOperator family operator =>
    "unrecognized operator '" ++ operator.symbol ++ "' for " ++ family.label ++ " operation"
  | .invalidRarity rarity => "invalid rarity value '" ++ rarity ++ "'"

/-- Whether an error lies in how a tree was built rather than in query text. -/
def isConfiguration : Error → Bool
  | .unrecognizedOperator .. | .invalidRarity _ => true
  | _ => false

end Error

/-- The operator that a text spells; anything else is out of place where it stands alone. -/
def Operator.read (text : String) : Except Error Operator :=
  match Operator.ofSymbol? text with
  | some operator => return operator
  | none => throw (.unexpectedToken text 0)

end CardSearch.Query
