/-
  The operators that stand between a field and its value in a query.

  There are eight.  `:` asks for a field's usual match, `=` for equality, and `!=` and `<>` both for
  inequality; which of them a field accepts and what they mean for it is decided elsewhere.
-/

namespace CardSearch.Query

/-- An operator of a condition. -/
inductive Operator where
  | colon
  | equal
  | notEqual
  | lessGreater
  | less
  | lessEqual
  | greater
  | greaterEqual
  deriving DecidableEq, Repr

namespace Operator

/-- Every operator. -/
def all : List Operator :=
  [.colon, .equal, .notEqual, .lessGreater, .less, .lessEqual, .greater, .greaterEqual]

/-- An operator as it is written. -/
def symbol : Operator → String
  | .colon => ":"
  | .equal => "="
  | .notEqual => "!="
  | .lessGreater => "<>"
  | .less => "<"
  | .lessEqual => "<="
  | .greater => ">"
  | .greaterEqual => ">="

/-- The operator that a text spells. -/
def ofSymbol? (text : String) : Option Operator := all.find? (·.symbol == text)

/-- Whether an operator asks for inequality. -/
def isNegative : Operator → Bool
  | .notEqual | .lessGreater => true
  | _ => false

/-- The operator at the start of a text and what follows it.  The longest spelling wins. -/
def take? : List Char → Option (Operator × List Char)
  | ':' :: rest => some (.colon, rest)
  | '=' :: rest => some (.equal, rest)
  | '!' :: '=' :: rest => some (.notEqual, rest)
  | '<' :: '>' :: rest => some (.lessGreater, rest)
  | '<' :: '=' :: rest => some (.lessEqual, rest)
  | '<' :: rest => some (.less, rest)
  | '>' :: '=' :: rest => some (.greaterEqual, rest)
  | '>' :: rest => some (.greater, rest)
  | _ => none

/-- No two operators have the same symbol. -/
theorem ofSymbol?_symbol (op : Operator) : ofSymbol? op.symbol = some op := by
  cases op <;> decide

/-- What an operator is taken from is its spelling and the rest. -/
theorem eq_append_of_take? {text rest : List Char} {op : Operator}
    (h : take? text = some (op, rest)) : text = op.symbol.toList ++ rest := by
  unfold take? at h
  split at h <;> simp only [Option.some.injEq, Prod.mk.injEq, reduceCtorEq] at h
  all_goals
    obtain ⟨rfl, rfl⟩ := h
    rfl

/-- What is left behind an operator is shorter, as every operator has a character. -/
theorem length_lt_of_take? {text rest : List Char} {op : Operator}
    (h : take? text = some (op, rest)) : rest.length < text.length := by
  have positive : 0 < op.symbol.toList.length := by cases op <;> decide
  rw [eq_append_of_take? h, List.length_append]
  omega

end Operator

end CardSearch.Query
