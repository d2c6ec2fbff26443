import CardSearch.Query.Describe

/-
  Query trees.

  A leaf is a condition, and a group joins members with connectives.  A group is read from the left:
  the first member, then each further member joined to all before it.  Every node carries a negation
  of its own, so negating a tree never adds a node.

  `Node.collect` walks a tree from left to right and adds the fields that it meets to a list, each
  once; `Node.fieldsUsed` is what it has collected in the end.
-/

namespace CardSearch.Query

/-- A test of one field. -/
structure Condition where
  field : Field
  operator : Operator
  negated : Bool
  value : Value
  deriving DecidableEq

/-- How a member of a group joins those before it: by standing beside them, or by a word. -/
inductive Connective where
  | implicit
  | and
  | or
  deriving DecidableEq, Repr

/-- Whether both sides of a connective must hold. -/
def Connective.isAnd : Connective → Bool
  | .implicit | .and => true
  | .or => false

/-- A query tree. -/
inductive Node where
  | condition (leaf : Condition)
  | group (negated : Bool) (first : Node) (rest : List (Connective × Node))

namespace Node

/-- The condition that a bare text stands for: it is part of the name. -/
def bare (text : String) : Node := .condition ⟨.name, .colon, false, .text text⟩

/-- The opposite of a tree. -/
def negate : Node → Node
  | .condition leaf => .condition { leaf with negated := !leaf.negated }
  | .group negated first rest => .group (!negated) first rest

/-- A group of the members; a single one stays as it is. -/
def join (first : Node) (rest : List (Connective × Node)) : Node :=
  if rest.isEmpty then first else .group false first rest

/-- Two negations in a row are none. -/
theorem negate_negate (node : Node) : node.negate.negate = node := by
  cases node <;> simp [negate]

/-! ## Fields -/

/-- The field of a condition, and the field it is compared with. -/
def fieldsOf (leaf : Condition) : List Field :=
  match leaf.value with
  | .field other => [leaf.field, other]
  | _ => [leaf.field]

/-- A list of fields with one more at its end, unless the list has it. -/
def push (met : List Field) (field : Field) : List Field :=
  if met.contains field then met else met ++ [field]

mutual

/-- The fields met before a tree, and then those of the tree. -/
def collect (met : List Field) : Node → List Field
  | .condition leaf => (fieldsOf leaf).foldl push met
  | .group _ first rest => collectRest (first.collect met) rest
  termination_by structural node => node

/-- The fields met before the further members of a group, and then those of the members. -/
def collectRest (met : List Field) : List (Connective × Node) → List Field
  | [] => met
  | (_, node) :: rest => collectRest (node.collect met) rest
  termination_by structural members => members

end

/-- The fields of a tree, each where it first stands. -/
def fieldsUsed (node : Node) : List Field := node.collect []

/-! ## Printed form -/

/-- The mark of a negated node. -/
def negation (negated : Bool) : List Char := if negated then "NOT ".toList else []

/-- A condition written out. -/
def describeLeaf (leaf : Condition) : List Char :=
  negation leaf.negated ++ leaf.field.title.toList ++ ' ' :: leaf.operator.symbol.toList ++
    ' ' :: leaf.value.describe

mutual

/-- A tree written out, with every group in parentheses. -/
def describe : Node → List Char
  | .condition leaf => describeLeaf leaf
  | .group negated first rest => negation negated ++ '(' :: first.describe ++ describeRest rest
  termination_by structural node => node

/-- The further members of a group, up to the closing parenthesis. -/
def describeRest : List (Connective × Node) → List Char
  | [] => [')']
  | (connective, node) :: rest =>
    (if connective.isAnd then " AND ".toList else " OR ".toList) ++ node.describe ++
      describeRest rest
  termination_by structural members => members

end

end Node

end CardSearch.Query
