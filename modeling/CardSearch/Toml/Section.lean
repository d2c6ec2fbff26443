import CardSearch.Toml.Basic

/-
  Tables of a TOML document while it is read.

  A table remembers how it came to be, since that decides what may still be added to it.  A header
  opens a table once; the tables on the way to it are only implied and may be opened later.  A key
  joined by points makes tables that further such keys may extend but no header may open.  A value,
  and with it a table between braces, is complete and never extended.
-/

namespace CardSearch.Toml

/-- A key: names joined by points. -/
abbrev Key := List String

/-- How a table came to be. -/
inductive Origin where
  | opened
  | implied
  | dotted
  deriving DecidableEq, Repr

/-- A part of a document. -/
inductive Section where
  | value (v : Toml)
  | table (origin : Origin) (members : List (String × Section))
  /-- A list of tables, the last of which can be extended. -/
  | tables (items : List Section)

namespace Section

/-- An empty table. -/
def empty (origin : Origin) : Section := .table origin []

/-- Members with a new content under a name, which may be new. -/
def replaced (name : String) (content : Section) (members : List (String × Section)) :
    List (String × Section) :=
  if (members.lookup name).isSome then
    members.map fun (other, old) => if other == name then (other, content) else (other, old)
  else members ++ [(name, content)]

/-- Edits the part at the end of a key.  Missing tables on the way are made, as dotted or implied
    ones; of a list of tables the last is entered.  A dotted key enters no table that a header has
    opened. -/
def within (dotted : Bool) (edit : Section → Option Section) : Key → Section → Option Section
  | [], part => edit part
  | name :: names, .table origin members => do
    let child ← match members.lookup name with
      | none => within dotted edit names (empty (if dotted then .dotted else .implied))
      | some (.value _) => none
      | some (.table inner content) =>
        if dotted && inner == .opened then none
        else within dotted edit names (.table inner content)
      | some (.tables items) => do
        let last ← within dotted edit names (← items.getLast?)
        pure (.tables (items.dropLast ++ [last]))
    return .table origin (replaced name child members)
  | _, _ => none

/-- Adds a value under a key.  The tables that the key goes through must all be its own kind. -/
def put (key : Key) (v : Toml) (part : Section) : Option Section := do
  let name ← key.getLast?
  part.within true (fun
    | .table origin members =>
      if (origin == .dotted) == key.dropLast.isEmpty || (members.lookup name).isSome then none
      else some (.table origin (members ++ [(name, .value v)]))
    | _ => none) key.dropLast

/-- Opens a table by a header. -/
def openTable (key : Key) (part : Section) : Option Section := do
  let name ← key.getLast?
  part.within false (fun
    | .table origin members =>
      match members.lookup name with
      | none => some (.table origin (members ++ [(name, empty .opened)]))
      | some (.table .implied content) =>
        some (.table origin (replaced name (.table .opened content) members))
      | some _ => none
    | _ => none) key.dropLast

/-- Opens the next table of a list of tables by a header. -/
def openItem (key : Key) (part : Section) : Option Section := do
  let name ← key.getLast?
  part.within false (fun
    | .table origin members =>
      match members.lookup name with
      | none => some (.table origin (members ++ [(name, .tables [empty .opened])]))
      | some (.tables items) =>
        some (.table origin (replaced name (.tables (items ++ [empty .opened])) members))
      | some _ => none
    | _ => none) key.dropLast

mutual

/-- A part as a finished value. -/
def toToml : Section → Toml
  | .value v => v
  | .table _ members => .table (membersToToml members)
  | .tables items => .list (itemsToToml items)
  termination_by structural part => part

/-- Members as finished values. -/
def membersToToml : List (String × Section) → List (String × Toml)
  | [] => []
  | (name, part) :: rest => (name, part.toToml) :: membersToToml rest
  termination_by structural members => members

/-- Tables of a list as finished values. -/
def itemsToToml : List Section → List Toml
  | [] => []
  | part :: rest => part.toToml :: itemsToToml rest
  termination_by structural items => items

end

end Section

end CardSearch.Toml
