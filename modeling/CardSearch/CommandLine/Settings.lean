import CardSearch.Json.Basic
import CardSearch.Storage.Directory
import CardSearch.Toml.Document

/-
  The settings file.

  It is a TOML document with a version, a catalog and the preferences for output, all of which may
  be left out; what else it holds is ignored.  A file that is not there stands for settings that
  say nothing.  A version from the future is refused rather than misread.
-/

namespace CardSearch.CommandLine

/-- What a settings file may say. -/
structure Settings where
  /-- The catalog to search. -/
  catalog : Option String := none
  /-- Whether output is colored. -/
  color : Option Bool := none
  /-- How many cards are shown. -/
  limit : Option Nat := none
  deriving DecidableEq

namespace Settings

/-- The version of the settings file that is understood. -/
def version : Nat := 1

/-- Why settings cannot be read or made. -/
inductive Error where
  /-- No folder for configuration is known. -/
  | homeless
  | unreadable (fault : Fault)
  | malformed
  | tooNew (version : Nat)
  | noFolder (fault : Fault)
  | noFile (fault : Fault)
  deriving DecidableEq, Repr

/-- The wording of an error. -/
def Error.message : Error → String
  | .homeless => "Could not determine config directory"
  | .unreadable fault => "Failed to read config: " ++ fault.message
  | .malformed => "Failed to parse config"
  | .tooNew v =>
    "Config version " ++ String.ofList (digits v) ++ " is newer than supported version " ++
      String.ofList (digits version)
  | .noFolder fault => "Failed to create config directory: " ++ fault.message
  | .noFile fault => "Failed to create config file: " ++ fault.message

/-! ## Reading -/

/-- A member that may be left out. -/
def optional {α : Type} (read : Toml → Option α) : Option Toml → Option (Option α)
  | none => some none
  | some value => (read value).map some

/-- A text. -/
def text? : Toml → Option String
  | .text s => some s
  | _ => none

/-- A truth value. -/
def flag? : Toml → Option Bool
  | .bool b => some b
  | _ => none

/-- A number of things. -/
def count? : Toml → Option Nat
  | .whole n => if n < 0 then none else some n.toNat
  | _ => none

/-- The preferences for output: whether it is colored, and how many cards are shown.  They may also
    be given as a list in this order.  A date or time counts as a table without either. -/
def output? : Toml → Option (Option Bool × Option Nat)
  | .table members => do
    return (← optional flag? (members.lookup "color"), ← optional count? (members.lookup "limit"))
  | .list (color :: limit :: _) => do return (some (← flag? color), some (← count? limit))
  | .moment _ => some (none, none)
  | _ => none

/-- The version of a document and its settings. -/
def ofToml? (document : Toml) : Option (Nat × Settings) := do
  let given ← optional count? (document.get? "version")
  if given.any (· ≥ Nat.pow 2 32) then none
  else
    let catalog ← optional text? (document.get? "catalog")
    let output ← optional output? (document.get? "output")
    let (color, limit) := output.getD (none, none)
    return (given.getD version, { catalog, color, limit })

/-- The settings of a file's text. -/
def ofText (text : String) : Except Error Settings :=
  match (Toml.read? text.toList).bind ofToml? with
  | none => throw .malformed
  | some (given, settings) => if given > version then throw (.tooNew given) else return settings

/-- The settings at a path. -/
def load (d : Directory) (path : String) : Except Error Settings :=
  if d.has path.toList then
    match d.read path.toList with
    | .error fault => throw (.unreadable fault)
    | .ok text => ofText text
  else return {}

/-! ## Writing -/

/-- The text of a new settings file, in which every preference is a comment. -/
def template : String :=
  "# cq - Card Query Configuration\n" ++
  "\n" ++
  "# Config schema version (do not modify)\n" ++
  "version = 1\n" ++
  "\n" ++
  "# Default catalog file (can also use --catalog or the CQ_CATALOG env var)\n" ++
  "# catalog = \"/path/to/cards.json\"\n" ++
  "\n" ++
  "# Output preferences\n" ++
  "[output]\n" ++
  "# color = true    # Enable colors (respects NO_COLOR env)\n" ++
  "# limit = 50      # Cards shown by \x60cq search\x60 unless --all is given\n"

/-- Makes the folders on the way to a path. -/
def provideFolder (d : Directory) (path : String) : Directory × Option Fault :=
  match Path.parent? path.toList with
  | none => (d, none)
  | some folder => d.makeFolders folder

/-- Writes a new settings file; its folders stay also when it cannot be written. -/
def create (d : Directory) (path : String) : Directory × Option Error :=
  match provideFolder d path with
  | (made, some fault) => (made, some (.noFolder fault))
  | (made, none) =>
    match made.write path.toList template.toUTF8 with
    | .error fault => (made, some (.noFile fault))
    | .ok written => (written, none)

/-- The settings as a document. -/
def toJson (s : Settings) : Json :=
  .object (
    (s.catalog.map fun path => ("catalog", Json.text path)).toList ++
    [("output", .object (
      (s.color.map fun b => ("color", Json.bool b)).toList ++
      (s.limit.map fun n => ("limit", Json.nat n)).toList)),
     ("version", .nat version)])

end Settings

end CardSearch.CommandLine
