import CardSearch.Catalog
import CardSearch.CommandLine.Arguments
import CardSearch.CommandLine.Settings
import CardSearch.Report.FieldTable
import CardSearch.Report.Outline
import CardSearch.Report.Page

/-
  Running a command.

  A run takes the environment and the working directory, and gives an outcome: what is printed, the
  failure if there is one, and the directory afterwards.  Only a search insists on settings that can
  be read; other commands go on without them.  The completion scripts are not made here: whoever runs
  the program hands over a generator for them.
-/

namespace CardSearch.CommandLine

/-! ## Failures -/

/-- Why a command fails. -/
inductive Failure where
  | filter (e : Query.Error)
  | catalog (e : Catalog.Error)
  | settings (e : Settings.Error)
  deriving DecidableEq

namespace Failure

/-- The name of a kind of failure in JSON output. -/
def code : Failure → String
  | .filter e => if e.isConfiguration then "FILTER_CONFIG_ERROR" else "FILTER_ERROR"
  | .catalog _ => "CATALOG_ERROR"
  | .settings _ => "CONFIG_ERROR"

/-- The wording of a failure, where it has one. -/
def message? : Failure → Option String
  | .filter e => some ("filter error: " ++ e.message)
  | .catalog e => e.message?.map ("catalog error: " ++ ·)
  | .settings e => some ("configuration error: " ++ e.message)

/-- The exit code of a failure. -/
def exit : Failure → Nat
  | .filter _ => 1
  | .catalog (.notCatalog _) => 4
  | .catalog _ => 3
  | .settings _ => 5

end Failure

/-- What a run leaves behind. -/
structure Outcome where
  directory : Directory
  output : String := ""
  failure : Option Failure := none

/-- The exit code of a run. -/
def Outcome.exit (o : Outcome) : Nat := (o.failure.map Failure.exit).getD 0

/-! ## Output -/

/-- How output is written. -/
structure Manner where
  json : Bool
  quiet : Bool
  colored : Bool

/-- The manner of an invocation: colors are on unless a flag, the environment or the settings turn
    them off. -/
def Manner.of (env : Environment) (settings : Settings) (i : Invocation) : Manner where
  json := i.json
  quiet := i.quiet
  colored := !i.noColor && !env.noColor && settings.color.getD true

/-- A document as output, or a text in its place unless output is to be quiet. -/
def Manner.print (m : Manner) (document : Json) (text : String) : String :=
  if m.json then document.pretty ++ "\n" else if m.quiet then "" else text

/-! ## Commands -/

/-- How many cards are shown where nothing sets a limit. -/
def defaultLimit : Nat := 50

/-- The number of cards to show: the argument's, the settings' or the default. -/
def effectiveLimit (all : Bool) (argument setting : Option Nat) : Option Nat :=
  if all then none else some ((argument.or setting).getD defaultLimit)

/-- The catalog to search: the argument's, the settings' or the one in the folder for data. -/
def catalogPath (env : Environment) (settings : Settings) (catalog : Option String) :
    Except Catalog.Error String :=
  match (catalog.or settings.catalog).or env.defaultCatalog? with
  | some path => return path
  | none => throw .noFolder

/-- The page of a search.  The query is looked at before the catalog. -/
def searchPage (env : Environment) (d : Directory) (settings : Settings) (query : String)
    (catalog : Option String) (limit : Option Nat) (all : Bool) : Except Failure Report.Page := do
  let filter ← (Query.Filter.ofText query).mapError .filter
  let path ← (catalogPath env settings catalog).mapError .catalog
  let cards ← (Catalog.load d path).mapError .catalog
  return .ofFilter filter cards (effectiveLimit all limit settings.limit)

/-- The filter to be explained; a blank query has none. -/
def explained (query : String) : Except Failure Query.Filter := do
  match ← (Query.Filter.ofText query).mapError .filter with
  | none => throw (.filter .empty)
  | some filter => return filter

/-- The lines that show the settings. -/
def settingsText (m : Manner) (path : String) (present : Bool) (settings : Settings) : String :=
  let paint (style : Report.Style) (text : List Char) := Report.paintIf m.colored style text
  let header := String.ofList (paint .bold (paint .green "Configuration".toList))
  header ++ "\n\nFile: " ++ path ++ "\nExists: " ++ (if present then "true" else "false") ++
    "\n\n" ++
    if present then
      "Settings:\n" ++
      ((settings.catalog.map fun c => "  catalog: " ++ c ++ "\n").getD "") ++
      "\n[output]\n" ++
      ((settings.color.map fun b => "  color: " ++ (if b then "true" else "false") ++ "\n").getD
        "") ++
      ((settings.limit.map fun n => "  limit: " ++ String.ofList (digits n) ++ "\n").getD "")
    else "(No config file exists. Run 'cq config init' to create one.)\n"

/-- Shows the settings at a path. -/
def showSettings (m : Manner) (path : String) (d : Directory) : Outcome :=
  let present := d.has path.toList
  match Settings.load d path with
  | .error e => { directory := d, failure := some (.settings e) }
  | .ok settings =>
    let document := Json.object [("config", settings.toJson), ("exists", .bool present),
      ("path", .text path)]
    { directory := d, output := m.print document (settingsText m path present settings) }

/-- Shows the path of the settings file, also when output is to be quiet. -/
def showPath (m : Manner) (path : String) (d : Directory) : Outcome :=
  let document := Json.object [("exists", .bool (d.has path.toList)), ("path", .text path)]
  { directory := d, output := { m with quiet := false }.print document (path ++ "\n") }

/-- Writes a new settings file unless one is there. -/
def initSettings (m : Manner) (path : String) (d : Directory) : Outcome :=
  let report (status text : String) :=
    m.print (.object [("path", .text path), ("status", .text status)]) (text ++ path ++ "\n")
  if d.has path.toList then
    { directory := d, output := report "exists" "Config already exists at: " }
  else
    match Settings.create d path with
    | (changed, some e) => { directory := changed, failure := some (.settings e) }
    | (changed, none) =>
      { directory := changed, output := report "created" "Created default config at: " }

/-- An outcome that prints what could be computed. -/
def outcomeOf {α : Type} (d : Directory) (result : Except Failure α) (print : α → String) :
    Outcome :=
  match result with
  | .error e => { directory := d, failure := some e }
  | .ok value => { directory := d, output := print value }

/-- What is printed when no command is given. -/
def overviewText : String := "cq - card catalog search\nUse --help for usage information\n"

/-- Runs a command on the settings file. -/
def runSettingsCommand (m : Manner) (path : String) (d : Directory) : SettingsCommand → Outcome
  | .showAll => showSettings m path d
  | .path => showPath m path d
  | .init => initSettings m path d

/-- The path of the settings file. -/
def settingsPath (env : Environment) : Except Settings.Error String :=
  match env.settingsPath? with
  | some path => return path
  | none => throw .homeless

/-- Runs a command.  The script of a shell is the one that the generator makes for it. -/
def runCommand (script : Shell → String) (env : Environment) (d : Directory) (settings : Settings)
    (m : Manner) : Command → Outcome
  | .overview => { directory := d, output := if m.quiet then "" else overviewText }
  | .search query catalog limit all =>
    outcomeOf d (searchPage env d settings query catalog limit all) fun page =>
      m.print page.toJson (page.table m.colored)
  | .explain query =>
    outcomeOf d (explained query) fun filter =>
      m.print (Report.Outline.toJson filter) (Report.Outline.outline filter m.colored)
  | .fields =>
    let fields := Query.Field.all
    { directory := d
      output := m.print (Report.FieldTable.toJson fields)
        (Report.FieldTable.table fields m.colored) }
  | .settings command =>
    match settingsPath env with
    | .error e => { directory := d, failure := some (.settings e) }
    | .ok path => runSettingsCommand m path d command
  | .completions shell => { directory := d, output := script shell }

/-- Whether a command insists on settings that can be read. -/
def Command.needsSettings : Command → Bool
  | .search .. => true
  | _ => false

/-- The settings that hold in an environment. -/
def loadSettings (env : Environment) (d : Directory) : Except Settings.Error Settings := do
  Settings.load d (← settingsPath env)

/-- Runs an invocation. -/
def run (script : Shell → String) (env : Environment) (d : Directory) (i : Invocation) : Outcome :=
  let go (settings : Settings) := runCommand script env d settings (.of env settings i) i.command
  match loadSettings env d with
  | .ok settings => go settings
  | .error e =>
    if i.command.needsSettings then { directory := d, failure := some (.settings e) } else go {}

/-- The level of detail that is logged where the environment does not set it. -/
def logDirective (i : Invocation) : String :=
  if i.verbose then "cardquery=debug,cq=debug"
  else if i.quiet then "error"
  else "cardquery=warn,cq=warn"

end CardSearch.CommandLine
