import CardSearch.Card.Json
import CardSearch.Json.Read
import CardSearch.Json.Write
import CardSearch.Storage.Directory

/-
  Catalogs: lists of cards kept in a JSON file.

  `Catalog.ofText` reads the file's text.  The text is read from the front, so whichever comes first
  decides the error: an entry that is no card or a place where the text stops being JSON.

  Saving writes beside the file and then moves the new file into place, so that the old catalog can
  be read until the new one is complete.  The steps are data (`saveSteps`) and are carried out in
  order until one fails.
-/

namespace CardSearch.Catalog

/-! ## Text -/

/-- The cards of a list of entries, or none when one of them is no card. -/
def cards? (items : List Json) : Option (List Card) := items.mapM Card.ofEntry?

/-- The cards of a catalog's text. -/
def ofText (text : String) : Except Json.Problem (List Card) :=
  let entries := Json.entries text.toList
  match cards? entries.items with
  | none => throw .misshapen
  | some cards =>
    match entries.problem with
    | some problem => throw problem
    | none => return cards

/-- The text of a catalog, indented. -/
def toText (cards : List Card) : String := (Json.list (cards.map Card.toJson)).pretty

/-! ## Files -/

/-- Why a catalog cannot be loaded or saved. -/
inductive Error where
  /-- No folder for the user's data is known. -/
  | noFolder
  | unreadable (path : String) (fault : Fault)
  | unwritable (path : String) (fault : Fault)
  | notCatalog (problem : Json.Problem)
  deriving DecidableEq, Repr

/-- The wording of an error.  What is wrong with a catalog's text has no wording of its own. -/
def Error.message? : Error → Option String
  | .noFolder => some "failed to determine data directory: no valid home directory found"
  | .unreadable path fault =>
    some ("failed to read catalog file '" ++ path ++ "': " ++ fault.message)
  | .unwritable path fault =>
    some ("failed to write catalog file '" ++ path ++ "': " ++ fault.message)
  | .notCatalog _ => none

/-- The cards of the catalog at a path. -/
def load (d : Directory) (path : String) : Except Error (List Card) :=
  match d.read path.toList with
  | .error fault => throw (.unreadable path fault)
  | .ok text =>
    match ofText text with
    | .error problem => throw (.notCatalog problem)
    | .ok cards => return cards

/-- The cards of the catalog at a path; a catalog that is not there has none. -/
def loadOrEmpty (d : Directory) (path : String) : Except Error (List Card) :=
  match load d path with
  | .error (.unreadable _ .missing) => return []
  | result => result

/-- One step of saving, with the path that is named when it fails. -/
inductive Step where
  | makeFolders (path : List Char)
  | write (path : List Char) (text : String)
  | move (source target : List Char)

/-- The path that a step works on. -/
def Step.path : Step → List Char
  | .makeFolders path => path
  | .write path _ => path
  | .move _ target => target

/-- Carries out a step. -/
def Step.run (d : Directory) : Step → Directory × Option Fault
  | .makeFolders path => d.makeFolders path
  | .write path text => d.after (d.write path text.toUTF8)
  | .move source target => d.after (d.move source target)

/-- The file that is written before it is moved into place. -/
def draftPath (path : List Char) : List Char := Path.withExtension ['t', 'm', 'p'] path

/-- The steps that save cards at a path. -/
def saveSteps (path : String) (cards : List Card) : List Step :=
  let target := path.toList
  let draft := draftPath target
  (match Path.parent? target with
    | some parent => [.makeFolders parent]
    | none => []) ++ [.write draft (toText cards), .move draft target]

/-- Carries out steps until one fails; what was done until then stays done. -/
def runSteps (d : Directory) : List Step → Directory × Option Error
  | [] => (d, none)
  | step :: rest =>
    match step.run d with
    | (changed, some fault) => (changed, some (.unwritable (String.ofList step.path) fault))
    | (changed, none) => runSteps changed rest

/-- Saves cards at a path. -/
def save (d : Directory) (path : String) (cards : List Card) : Directory × Option Error :=
  runSteps d (saveSteps path cards)

end CardSearch.Catalog
