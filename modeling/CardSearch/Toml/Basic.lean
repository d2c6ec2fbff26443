import CardSearch.Number.Basic

/-
  TOML documents.

  A document is a table of values; tables and lists nest.  Dates and times are kept as they are
  written.
-/

namespace CardSearch

/-- A TOML value. -/
inductive Toml where
  | text (value : String)
  | whole (value : Int)
  | real (value : Number)
  | bool (value : Bool)
  /-- A date, a time or both. -/
  | moment (written : String)
  | list (items : List Toml)
  | table (members : List (String × Toml))
  deriving Inhabited

namespace Toml

/-- The member of a table under a key. -/
def get? (key : String) : Toml → Option Toml
  | .table members => members.lookup key
  | _ => none

end Toml

end CardSearch
