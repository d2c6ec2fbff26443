import CardSearch.Mana.Payment
import CardSearch.Query.Error

/-
  What an operator means for each kind of attribute.

  `ordering` serves everything that has an order: all eight operators have a meaning.  The other
  families refuse the operators that mean nothing to them, with an error that names the family.
  A family is given the operator and the value of the condition once, and the result is a test of an
  attribute.
-/

namespace CardSearch.Query

/-! ## Orders -/

/-- A type whose values are compared by equality and by a strict order.  Neither need be total: a
    number that is not one compares with nothing. -/
class Comparable (α : Type) where
  equals : α → α → Bool
  below : α → α → Bool

instance : Comparable Number := ⟨Number.equals, Number.below⟩

instance : Comparable Nat := ⟨fun a b => a == b, fun a b => a < b⟩

instance : Comparable Int := ⟨fun a b => a == b, fun a b => a < b⟩

instance : Comparable Date := ⟨fun a b => a == b, Date.before⟩

/-- Whether an attribute stands in the relation of an operator to a value. -/
def ordering {α : Type} [Comparable α] (operator : Operator) (actual value : α) : Bool :=
  match operator with
  | .colon | .equal => Comparable.equals actual value
  | .notEqual | .lessGreater => !Comparable.equals actual value
  | .less => Comparable.below actual value
  | .lessEqual => Comparable.below actual value || Comparable.equals actual value
  | .greater => Comparable.below value actual
  | .greaterEqual => Comparable.below value actual || Comparable.equals actual value

/-- `ordering` of two attributes either of which may be missing; what is missing is unequal to
    everything and in no order with it. -/
def orderingOrMissing {α : Type} [Comparable α] (operator : Operator)
    (actual value : Option α) : Bool :=
  match actual, value with
  | some x, some y => ordering operator x y
  | _, _ => operator.isNegative

/-! ## Text -/

/-- A text in lower case. -/
def lowered (text : String) : List Char := Text.lower text.toList

/-- Names: `:` and `=` ask for a piece of the attribute, the inequalities for another whole. -/
def substringTest (operator : Operator) (value : String) : Except Error (String → Bool) :=
  let wanted := lowered value
  match operator with
  | .colon | .equal => return fun actual => Text.occurs wanted (lowered actual)
  | .notEqual | .lessGreater => return fun actual => lowered actual != wanted
  | _ => throw (.unrecognizedOperator .string operator)

/-- Rules text: as names, but `!=` asks that the piece be absent. -/
def containsTest (operator : Operator) (value : String) : Except Error (String → Bool) :=
  let wanted := lowered value
  match operator with
  | .colon | .equal => return fun actual => Text.occurs wanted (lowered actual)
  | .notEqual => return fun actual => !Text.occurs wanted (lowered actual)
  | .lessGreater => return fun actual => lowered actual != wanted
  | _ => throw (.unrecognizedOperator .stringContains operator)

/-- Equality with a value. -/
def equalityTest {α : Type} [BEq α] (operator : Operator) (value : α) : Except Error (α → Bool) :=
  match operator with
  | .colon | .equal => return (· == value)
  | .notEqual | .lessGreater => return (· != value)
  | _ => throw (.unrecognizedOperator .equality operator)

/-- Rarities: equality compares the words in any case, the orders compare the places of the first
    letters. -/
def rarityTest (operator : Operator) (value : String) : Except Error (String → Bool) :=
  let place := Value.rarityRank value
  let wanted := lowered value
  if place < 0 then throw (.invalidRarity value)
  else match operator with
    | .colon | .equal => return fun actual => lowered actual == wanted
    | .notEqual | .lessGreater => return fun actual => lowered actual != wanted
    | _ => return fun actual => ordering operator (Value.rarityRank actual) place

/-! ## Sets -/

/-- Whether every element of a list is in another. -/
def isSubset {α : Type} [BEq α] (inner outer : List α) : Bool := inner.all outer.contains

/-- Whether two lists have the same elements. -/
def sameSet {α : Type} [BEq α] (a b : List α) : Bool := isSubset a b && isSubset b a

/-- Sets: the orders are inclusion, and `:` asks for inclusion of the value. -/
def setTest (operator : Operator) (value actual : List String) : Bool :=
  match operator with
  | .colon | .greaterEqual => isSubset value actual
  | .equal => sameSet actual value
  | .notEqual | .lessGreater => !sameSet actual value
  | .less => isSubset actual value && !sameSet actual value
  | .lessEqual => isSubset actual value
  | .greater => isSubset value actual && !sameSet actual value

/-- The number of distinct elements: once they are sorted, equal ones stand side by side. -/
def setSize (elements : List String) : Nat :=
  (elements.mergeSort fun a b => a ≤ b).eraseReps.length

/-- Membership of a value, in any case, in a set. -/
def membershipTest (operator : Operator) (value : String) : Except Error (List String → Bool) :=
  let wanted := lowered value
  match operator with
  | .colon | .equal => return fun elements => elements.any fun e => lowered e == wanted
  | .notEqual | .lessGreater => return fun elements => !elements.any fun e => lowered e == wanted
  | _ => throw (.unrecognizedOperator .setMembership operator)

/-! ## Mana -/

/-- A list without the element at a place, which the last element takes. -/
def swapRemove {α : Type} (list : List α) (i : Nat) : List α :=
  match list.getLast? with
  | some last => (list.set i last).dropLast
  | none => []

/-- Whether every group of a cost finds a partner of the same parts: the first one that is left, which
    is then taken out. -/
def findsPartners : Mana.Cost → Mana.Cost → Bool
  | [], _ => true
  | group :: rest, unmatched =>
    match unmatched.findIdx? (sameSet group) with
    | some i => findsPartners rest (swapRemove unmatched i)
    | none => false

/-- Whether the groups of two costs can be paired, each with one of the same parts. -/
def sameCost (a b : Mana.Cost) : Bool := a.length == b.length && findsPartners a b

/-- Whether every group of a cost occurs, with the same parts, in another. -/
def includesCost (value cost : Mana.Cost) : Bool := value.all fun group => cost.any (sameSet group)

/-- Costs: `:` asks that every group of the value occur, `=` that the costs be the same. -/
def costTest (operator : Operator) (value : Mana.Cost) : Except Error (List String → Bool) :=
  match operator with
  | .colon => return fun symbols => includesCost value (Mana.normalizeCost symbols)
  | .equal => return fun symbols => sameCost (Mana.normalizeCost symbols) value
  | .notEqual | .lessGreater => return fun symbols => !sameCost (Mana.normalizeCost symbols) value
  | _ => throw (.unrecognizedOperator .manaCost operator)

/-- Casting: `=` asks whether the pool pays the cost, `:` and `<=` whether it does with unlimited
    generic mana beside it; the inequalities and `>` ask for the opposite. -/
def castableTest (operator : Operator) (pool : Mana.Pool) : Except Error (List String → Bool) :=
  match operator with
  | .equal => return fun symbols => Mana.canPay pool (Mana.normalizeCost symbols)
  | .notEqual | .lessGreater => return fun symbols => !Mana.canPay pool (Mana.normalizeCost symbols)
  | .colon | .lessEqual => return fun symbols => Mana.canPayColors pool (Mana.normalizeCost symbols)
  | .greater => return fun symbols => !Mana.canPayColors pool (Mana.normalizeCost symbols)
  | _ => throw (.unrecognizedOperator .castable operator)

end CardSearch.Query
