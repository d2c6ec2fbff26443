import CardSearch.Storage.Path

/-
  What the program learns from its environment: the values of variables, the home folder of the
  account that runs it, and the places of files that follow from them.

  A catalog lies in the folder for the user's data, settings in the folder for configuration.
  Either folder may be named by a variable; otherwise it lies in the home folder.  Where no home
  folder is known there is no folder for data, whatever its variable says.
-/

namespace CardSearch.CommandLine

/-- What surrounds the program. -/
structure Environment where
  /-- The values of environment variables. -/
  value? : String → Option String
  /-- The home folder of the account, which counts where no variable gives one. -/
  accountHome : Option String := none

namespace Environment

/-- The home folder. -/
def home? (env : Environment) : Option String :=
  ((env.value? "HOME").filter fun folder => !folder.isEmpty).or env.accountHome

/-- A path inside another. -/
def under (folder path : String) : String :=
  String.ofList (Path.under folder.toList path.toList)

/-- The folder for the user's data.  A variable counts only if it holds an absolute path. -/
def dataFolder? (env : Environment) : Option String :=
  env.home?.map fun home =>
    ((env.value? "XDG_DATA_HOME").filter fun folder => Path.isAbsolute folder.toList).getD
      (under home ".local/share")

/-- The catalog that is searched when no other is named. -/
def defaultCatalog? (env : Environment) : Option String :=
  env.dataFolder?.map fun folder => under (under folder "cq") "cards.json"

/-- The folder for configuration. -/
def configFolder? (env : Environment) : Option String :=
  match env.value? "XDG_CONFIG_HOME" with
  | some folder => some (under folder "cq")
  | none => env.home?.map fun home => under (under home ".config") "cq"

/-- The file with the settings. -/
def settingsPath? (env : Environment) : Option String :=
  match env.value? "CQ_CONFIG" with
  | some path => some path
  | none => env.configFolder?.map fun folder => under folder "config.toml"

/-- The catalog that the environment names. -/
def catalog? (env : Environment) : Option String := env.value? "CQ_CATALOG"

/-- Whether the environment turns colors off. -/
def noColor (env : Environment) : Bool :=
  match env.value? "NO_COLOR" with
  | some value => !value.isEmpty
  | none => false

end Environment

end CardSearch.CommandLine
