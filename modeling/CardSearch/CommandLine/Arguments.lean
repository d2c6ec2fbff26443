import CardSearch.CommandLine.Environment
import CardSearch.Number.Digits

/-
  The arguments of the command line.

  Arguments are read on levels: the program's own, that of a command, and that of a command of
  `config`.  Every level takes the common flags; what else it takes is its `Level`.  A level is read
  from the front until a command hands over to the next one.

  1. **Values** — an option with a value takes the next argument, unless that is an option itself.
     The value is checked only when the next option or word comes, or at the end (`Reading.settle`).
  2. **Queries** — where a level takes a query, an option that it does not know is a word of the
     query, and from the first word on everything is.  A `--` before that is dropped.
  3. **Order of complaints** — the arguments of a level are complained about in their order; then
     flags that exclude each other, then what is missing; an outer level complains last.
-/

namespace CardSearch.CommandLine

/-! ## What can be asked for -/

/-- An option without a value. -/
inductive Flag where
  | verbose
  | quiet
  | json
  | noColor
  | all
  deriving DecidableEq, Repr

/-- An option with a value. -/
inductive Parameter where
  | catalog
  | limit
  deriving DecidableEq, Repr

/-- Any option. -/
inductive Choice where
  | flag (f : Flag)
  | parameter (p : Parameter)
  | help
  | version
  deriving DecidableEq, Repr

/-- A shell for which completions can be made. -/
inductive Shell where
  | bash
  | zsh
  | fish
  | powershell
  deriving DecidableEq, Repr

/-- The shell of a name. -/
def Shell.ofName? : String → Option Shell
  | "bash" => some .bash
  | "zsh" => some .zsh
  | "fish" => some .fish
  | "powershell" => some .powershell
  | _ => none

/-- A command that looks at the settings or makes them. -/
inductive SettingsCommand where
  | showAll
  | path
  | init
  deriving DecidableEq, Repr

/-- A command. -/
inductive Command where
  /-- No command is given. -/
  | overview
  | search (query : String) (catalog : Option String) (limit : Option Nat) (all : Bool)
  | explain (query : String)
  | fields
  | settings (command : SettingsCommand)
  | completions (shell : Shell)
  deriving DecidableEq, Repr

/-- A command with the flags that hold for any command. -/
structure Invocation where
  command : Command
  verbose : Bool := false
  quiet : Bool := false
  json : Bool := false
  noColor : Bool := false
  deriving DecidableEq, Repr

/-- Why arguments are not run: help or the version is asked for, or something is wrong with them. -/
inductive Usage where
  | help
  | version
  | unknownArgument
  | unknownCommand
  | conflict
  | invalidValue
  | invalidNumber
  | unwantedValue
  | missingArgument
  deriving DecidableEq, Repr

/-- The exit code with which arguments are turned down. -/
def Usage.exit : Usage → Nat
  | .help | .version => 0
  | _ => 2

/-! ## Levels -/

/-- The words that a level takes. -/
inductive Words where
  | none
  | shell
  | query
  deriving DecidableEq, Repr

/-- What a level takes beside the common flags. -/
structure Level where
  /-- Whether it takes the options of a search. -/
  searches : Bool := false
  words : Words := .none
  commands : List String := []

namespace Level

/-- The program's own level. -/
def top : Level where
  commands := ["search", "s", "explain", "fields", "config", "completions", "help"]

/-- The level of `search`. -/
def search : Level where
  searches := true
  words := .query

/-- The level of `explain`. -/
def explain : Level where
  words := .query

/-- The level of `config`. -/
def config : Level where
  commands := ["show", "path", "init", "help"]

/-- The level of `completions`. -/
def completions : Level where
  words := .shell

/-- A level that takes nothing more. -/
def bare : Level := {}

/-- The option of a long name. -/
def long? (level : Level) (name : String) : Option Choice :=
  match name with
  | "verbose" => some (.flag .verbose)
  | "quiet" => some (.flag .quiet)
  | "json" => some (.flag .json)
  | "no-color" => some (.flag .noColor)
  | "help" => some .help
  | "version" => some .version
  | "all" => if level.searches then some (.flag .all) else none
  | "catalog" => if level.searches then some (.parameter .catalog) else none
  | "limit" => if level.searches then some (.parameter .limit) else none
  | _ => none

/-- The option of a letter. -/
def short? (c : Char) : Option Choice :=
  match c with
  | 'v' => some (.flag .verbose)
  | 'q' => some (.flag .quiet)
  | 'h' => some .help
  | 'V' => some .version
  | _ => none

end Level

/-! ## Reading options -/

/-- A value that is not checked yet. -/
inductive Pending where
  | nothing
  /-- An option whose value must come next. -/
  | awaited (p : Parameter)
  | given (p : Parameter) (value : String)
  | shell (word : String)
  deriving DecidableEq, Repr

/-- What has been read of a level. -/
structure Reading where
  flags : List Flag := []
  catalog : Option String := none
  limit : Option Nat := none
  shell : Option Shell := none
  query : List String := []
  pending : Pending := .nothing

namespace Reading

/-- Gives an option its value.  An option is given once; a catalog is not empty. -/
def assign (r : Reading) (p : Parameter) (value : String) : Except Usage Reading :=
  match p with
  | .catalog =>
    if r.catalog.isSome then throw .conflict
    else if value.isEmpty then throw .invalidValue
    else return { r with catalog := some value }
  | .limit =>
    if r.limit.isSome then throw .conflict
    else match unsigned64? value.toList with
      | none => throw .invalidNumber
      | some n => return { r with limit := some n }

/-- Checks the value that is pending. -/
def settle (r : Reading) : Except Usage Reading :=
  let settled := { r with pending := .nothing }
  match r.pending with
  | .nothing => return settled
  | .awaited _ => throw .invalidValue
  | .given p value => settled.assign p value
  | .shell word =>
    match Shell.ofName? word with
    | none => throw .invalidValue
    | some shell => return { settled with shell := some shell }

/-- Takes an option, with the value that is attached to it.  A flag is given once and has none. -/
def take (r : Reading) (choice : Choice) (value : Option String) : Except Usage Reading :=
  match choice, value with
  | .parameter p, none => do return { ← r.settle with pending := .awaited p }
  | .parameter p, some v => do (← r.settle).assign p v
  | _, some _ => throw .unwantedValue
  | .help, none => do
    let _ ← r.settle
    throw .help
  | .version, none => do
    let _ ← r.settle
    throw .version
  | .flag f, none => do
    let r ← r.settle
    if r.flags.contains f then throw .conflict else return { r with flags := r.flags ++ [f] }

/-- Takes an option by its letter. -/
def takeLetter (r : Reading) (c : Char) : Except Usage Reading :=
  match Level.short? c with
  | none => throw .unknownArgument
  | some choice => r.take choice none

end Reading

/-- A long option cut into its name and the value after an equals sign. -/
def cutLong (body : List Char) : String × Option String :=
  let name := String.ofList (body.takeWhile (· != '='))
  match body.dropWhile (· != '=') with
  | [] => (name, none)
  | _ :: value => (name, some (String.ofList value))

namespace Level

/-- Takes an argument as one or more options; none if it is a word. -/
def takeOptions (level : Level) (r : Reading) (argument : String) :
    Except Usage (Option Reading) :=
  match argument.toList with
  | '-' :: '-' :: body =>
    let (name, value) := cutLong body
    match level.long? name with
    | some choice => do return some (← r.take choice value)
    | none => if level.words == .query then return none else throw .unknownArgument
  | '-' :: c :: letters =>
    if level.words == .query && !(c :: letters).all fun c => (short? c).isSome then return none
    else do return some (← (c :: letters).foldlM Reading.takeLetter r)
  | _ => return none

/-- The complaint about a word where a level takes none.  After `--` the name of a command is no
    command any more. -/
def unexpectedWord (level : Level) (free : Bool) (word : String) : Usage :=
  if level.commands.isEmpty || (free && level.commands.contains word) then .unknownArgument
  else .unknownCommand

/-- Reads the arguments of a level, up to a command with what follows it; `free` says that only
    words can come. -/
def read (level : Level) (r : Reading) (free : Bool) :
    List String → Except Usage (Reading × Option (String × List String))
  | [] => return (r, none)
  | argument :: rest =>
    if !free && level.commands.contains argument then return (r, some (argument, rest))
    else if !free && argument == "--" then level.read r true rest
    else do
      match ← if free then pure none else level.takeOptions r argument with
      | some r => level.read r false rest
      | none =>
        match free, r.pending with
        | false, .awaited p => level.read { r with pending := .given p argument } false rest
        | _, _ =>
          match level.words with
          | .none => throw (level.unexpectedWord free argument)
          | .query => do return ({ ← r.settle with query := argument :: rest }, none)
          | .shell =>
            if r.shell.isSome || r.pending != .nothing then throw .unknownArgument
            else level.read { r with pending := .shell argument } free rest

/-- Ends the reading of a level: the last value is checked, the environment fills in the catalog,
    and flags that exclude each other are turned down. -/
def finish (level : Level) (env : Environment) (r : Reading) : Except Usage Reading := do
  let r ← r.settle
  let r ← match level.searches && r.catalog.isNone, env.catalog? with
    | true, some path => r.assign .catalog path
    | _, _ => pure r
  if r.flags.contains .verbose && r.flags.contains .quiet then throw .conflict else return r

/-- Reads all arguments of a level without commands. -/
def readAll (level : Level) (env : Environment) (arguments : List String) :
    Except Usage Reading := do
  let (r, _) ← level.read {} false arguments
  level.finish env r

end Level

/-! ## Commands -/

/-- The words of a query, joined by blanks. -/
def Reading.queryText (r : Reading) : String := " ".intercalate r.query

/-- Help for the command that a path of words leads to from a level. -/
def helpFor (level : Level) : List String → Usage
  | [] => .help
  | word :: rest =>
    if !level.commands.contains word then .unknownCommand
    else match word, rest with
      | "config", [inner] =>
        if Level.config.commands.contains inner then .help else .unknownCommand
      | _, [] => .help
      | _, _ => .unknownCommand

/-- The flags of all levels with a command. -/
abbrev Flagged := List Flag × Command

/-- Reads a command of `config`. -/
def readSettingsCommand (env : Environment) (word : String) (rest : List String) :
    Except Usage Flagged := do
  let command ← match word with
    | "show" => pure SettingsCommand.showAll
    | "path" => pure .path
    | "init" => pure .init
    | _ => throw (helpFor .config rest)
  let r ← Level.bare.readAll env rest
  return (r.flags, .settings command)

/-- Reads a command. -/
def readCommand (env : Environment) (word : String) (rest : List String) :
    Except Usage Flagged :=
  match word with
  | "search" | "s" => do
    let r ← Level.search.readAll env rest
    return (r.flags, .search r.queryText r.catalog r.limit (r.flags.contains .all))
  | "explain" => do
    let r ← Level.explain.readAll env rest
    if r.query.isEmpty then throw .missingArgument else return (r.flags, .explain r.queryText)
  | "fields" => do
    let r ← Level.bare.readAll env rest
    return (r.flags, .fields)
  | "config" => do
    let (r, next) ← Level.config.read {} false rest
    let (inner, command) ← match next with
      | none => pure ([], Command.settings .showAll)
      | some (word, rest) => readSettingsCommand env word rest
    let r ← Level.config.finish env r
    return (r.flags ++ inner, command)
  | "completions" => do
    let r ← Level.completions.readAll env rest
    match r.shell with
    | none => throw .missingArgument
    | some shell => return (r.flags, .completions shell)
  | _ => throw (helpFor .top rest)

/-- Reads all arguments. -/
def Invocation.ofArguments (env : Environment) (arguments : List String) :
    Except Usage Invocation := do
  let (r, next) ← Level.top.read {} false arguments
  let (inner, command) ← match next with
    | none => pure ([], Command.overview)
    | some (word, rest) => readCommand env word rest
  let r ← Level.top.finish env r
  let flags := r.flags ++ inner
  return {
    command
    verbose := flags.contains .verbose
    quiet := flags.contains .quiet
    json := flags.contains .json
    noColor := flags.contains .noColor }

end CardSearch.CommandLine
