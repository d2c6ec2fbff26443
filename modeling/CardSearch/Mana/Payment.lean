import CardSearch.Mana.Cost

/-
  Paying a cost with a pool.

  1. **With exactly the pool** (`canPay`) — only the variable groups, those that begin with `x`,
     `y` or `z`, are asked for.  A color of the pool discharges the first group that lists it,
     shorter groups first; a color that no group lists counts as one generic mana.  Generic mana
     is spent on the numbers in the groups from the left (`spendGeneric`): a number that is
     covered discharges its group, a number covered in part stays with the remainder.
  2. **With unlimited generic mana** (`canPayColors`) — groups that can be paid with generic or
     variable mana are dropped; each of the others needs one of its parts in the pool.
-/

namespace CardSearch.Mana

/-- One way to pay a variable group: an amount of generic mana or a symbol. -/
inductive Part where
  | amount (n : Nat)
  | symbol (s : String)
  deriving DecidableEq, Repr

/-- The parts with which a group begins when it asks for a variable amount. -/
def variableMarkers : List String := ["x", "y", "z"]

/-- Whether a group asks for a variable amount. -/
def isVariable : Group → Bool
  | [] => false
  | first :: _ => variableMarkers.contains first

/-- The value of a symbol that is a number of 64 bits. -/
def amount? (symbol : String) : Option Nat := unsigned64? symbol.toList

/-- The parts of a group.  A lone number is an amount, and so is a `2` in a pair. -/
def requirement (group : Group) : List Part :=
  match group with
  | [single] =>
    match amount? single with
    | some n => [.amount n]
    | none => [.symbol single]
  | [first, second] =>
    if first == "2" then [.amount 2, .symbol second]
    else if second == "2" then [.symbol first, .amount 2]
    else [.symbol first, .symbol second]
  | _ => group.map .symbol

/-- The number of a group with the parts beside it: the number may come first, or second of two. -/
def numbered? : List Part → Option (Nat × List Part)
  | .amount n :: rest => some (n, rest)
  | [first, .amount n] => some (n, [first])
  | _ => none

/-- Spends generic mana on the numbered groups from the left. -/
def spendGeneric (amount : Nat) : List (List Part) → List (List Part)
  | [] => []
  | group :: rest =>
    if amount == 0 then group :: rest
    else match numbered? group with
      | none => group :: spendGeneric amount rest
      | some (needed, others) =>
        if needed ≤ amount then spendGeneric (amount - needed) rest
        else (.amount (needed - amount) :: others) :: rest

/-- Spends one symbol of a pool. -/
def spend (remaining : List (List Part)) (symbol : String) : List (List Part) :=
  let lowered := String.ofList (Text.lower symbol.toList)
  match amount? lowered with
  | some n => spendGeneric n remaining
  | none =>
    if remaining.any (·.contains (.symbol lowered)) then
      remaining.eraseP (·.contains (.symbol lowered))
    else spendGeneric 1 remaining

/-- The variable groups of a cost, shorter ones first. -/
def requirements (cost : Cost) : List (List Part) :=
  ((cost.filter isVariable).map requirement).mergeSort fun a b => a.length ≤ b.length

/-- Whether a pool discharges every variable group of a cost. -/
def canPay (pool : Pool) (cost : Cost) : Bool :=
  (pool.foldl spend (requirements cost)).isEmpty

/-- Whether a group asks for a color in particular. -/
def needsColor : Group → Bool
  | [] => false
  | first :: rest =>
    !((amount? first).isSome || variableMarkers.contains first || rest.head? == some "2")

/-- Whether a pool covers every group of a cost that asks for a color. -/
def canPayColors (pool : Pool) (cost : Cost) : Bool :=
  let lowered := pool.map fun symbol => String.ofList (Text.lower symbol.toList)
  (lowered.foldl (fun remaining symbol => remaining.filter (!·.contains symbol))
    (cost.filter needsColor)).isEmpty

end CardSearch.Mana
