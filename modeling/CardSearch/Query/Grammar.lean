import CardSearch.Query.Token
import CardSearch.Query.Tree
import CardSearch.Text.Remainder

/-
  From tokens to a tree.

  Three levels, from loose to tight: alternatives joined by `or`, sequences joined by `and` or by
  standing side by side, and single terms.  A term is a parenthesised query, a comparison, a word or
  a quoted text, with any number of dashes before it.

  Each function takes tokens off the front and returns the rest with the proof that it is shorter.
  The measure is the number of tokens, and at equal length the level.
-/

namespace CardSearch.Query

/-! ## Conditions -/

/-- The condition of a comparison: its field must be known, accept the operator, and be followed
    by a value of its kind. -/
def condition (field : String) (operator : Operator) (raw : String) : Except Error Condition :=
  match Field.ofAbbreviation? field with
  | none => .error (.unknownField field (Field.suggest? field))
  | some known =>
    if !known.operators.contains operator then .error (.unsupportedOperator known operator)
    else if raw.isEmpty then .error (.missingValue known)
    else match Value.ofText? known raw with
      | none => .error (.invalidValue known raw)
      | some value => .ok ⟨known, operator, false, value⟩

/-! ## Terms, sequences and alternatives -/

/-- What follows a closing parenthesis. -/
def closing (tokens : List Located) : Except Error (Text.Shorter tokens) :=
  match tokens with
  | ⟨.closing, _⟩ :: rest => return .tail _ rest
  | _ => throw .unclosedParenthesis

mutual

/-- A term. -/
def readTerm (tokens : List Located) : Except Error (Node × Text.Shorter tokens) :=
  match tokens with
  | [] => .error .unexpectedEnd
  | ⟨token, position⟩ :: rest =>
    match token with
    | .not => do
      let (node, left) ← readTerm rest
      return (node.negate, left.cons)
    | .opening => do
      let (node, ⟨left, h⟩) ← readAlternatives rest
      let left ← closing left
      return (node, (left.trans h).cons)
    | .comparison field operator value => do
      let leaf ← condition field operator value
      return (.condition leaf, .tail _ rest)
    | .word text => return (.bare text, .tail _ rest)
    | .quoted text => return (.bare text, .tail _ rest)
    | .and | .or | .closing => throw (.unexpectedToken token.text position)
  termination_by (tokens.length, 0)

/-- The further terms of a sequence. -/
def readSequenceRest (tokens : List Located) :
    Except Error (List (Connective × Node) × Text.Within tokens) :=
  match tokens with
  | [] => return ([], .all [])
  | next :: rest =>
    match next.token with
    | .or | .closing => return ([], .all (next :: rest))
    | .and => do
      let (node, ⟨more, h⟩) ← readTerm rest
      let (members, left) ← readSequenceRest more
      return ((.and, node) :: members, (left.shorter h).within.cons)
    | _ => do
      let (node, ⟨more, h⟩) ← readTerm (next :: rest)
      let (members, left) ← readSequenceRest more
      return ((.implicit, node) :: members, (left.shorter h).within)
  termination_by (tokens.length, 1)

/-- A sequence of terms that must all hold. -/
def readSequence (tokens : List Located) : Except Error (Node × Text.Shorter tokens) := do
  let (first, ⟨more, h⟩) ← readTerm tokens
  let (members, left) ← readSequenceRest more
  return (.join first members, left.shorter h)
  termination_by (tokens.length, 2)

/-- The further alternatives. -/
def readAlternativesRest (tokens : List Located) :
    Except Error (List (Connective × Node) × Text.Within tokens) :=
  match tokens with
  | ⟨.or, _⟩ :: rest => do
    let (node, ⟨more, h⟩) ← readSequence rest
    let (members, left) ← readAlternativesRest more
    return ((.or, node) :: members, (left.shorter h).within.cons)
  | tokens => return ([], .all tokens)
  termination_by (tokens.length, 3)

/-- Alternatives of which one must hold. -/
def readAlternatives (tokens : List Located) : Except Error (Node × Text.Shorter tokens) := do
  let (first, ⟨more, h⟩) ← readSequence tokens
  let (members, left) ← readAlternativesRest more
  return (.join first members, left.shorter h)
  termination_by (tokens.length, 4)

end

/-! ## Whole queries -/

/-- The tree of a token list, all of which must be used. -/
def Node.ofTokens (tokens : List Located) : Except Error Node := do
  let (node, ⟨left, _⟩) ← readAlternatives tokens
  match left with
  | [] => return node
  | ⟨token, position⟩ :: _ => throw (.unexpectedToken token.text position)

/-- The tree of a query.  A blank text is no query. -/
def parse (text : String) : Except Error Node :=
  if text.toList.all Text.isBlank then .error .empty
  else tokenize text >>= Node.ofTokens

end CardSearch.Query
