import CardSearch.CommandLine.Run

/-
  The program.

  Everything is decided by `CommandLine.run`, which works on a picture of the files it may look at.
  This module takes the picture, runs the command, prints, and writes what the command has made.
-/

namespace CardSearch.CommandLine

/-- The environment variables that the program looks at. -/
def variableNames : List String :=
  ["HOME", "XDG_DATA_HOME", "XDG_CONFIG_HOME", "CQ_CONFIG", "CQ_CATALOG", "NO_COLOR"]

/-- The environment of the process. -/
def processEnvironment : IO Environment := do
  let values ← variableNames.mapM fun name => do return (name, ← IO.getEnv name)
  return { value? := fun name => (values.lookup name).join }

/-- A picture with what stands at a path, if anything does. -/
def picture (d : Directory) (path : String) : IO Directory := do
  try
    let place ← IO.FS.realPath path
    if ← place.isDir then return (d.makeFolders path.toList).1
    else return (d.write path.toList (← IO.FS.readBinFile path)).toOption.getD d
  catch _ => return d

/-- A picture with what stands at a path and on the way to it. -/
def pictureTo (d : Directory) (path : String) : IO Directory :=
  (Directory.ancestors path.toList path.length).reverse.foldlM
    (fun d part => picture d (String.ofList part)) d

/-- The catalogs that a command may look at. -/
def catalogs (env : Environment) (settings : Settings) : Command → List String
  | .search _ catalog _ _ => (catalogPath env settings catalog).toOption.toList
  | _ => []

/-- Makes the folders and the settings file that a command has made. -/
def keep (path : String) (before after : Directory) : IO Unit := do
  for part in (Directory.ancestors path.toList path.length).reverse do
    if !before.has part && after.hasFolder part then IO.FS.createDirAll (String.ofList part)
  match before.has path.toList, after.read path.toList with
  | false, .ok text => IO.FS.writeFile path text
  | _, _ => pure ()

/-- Prints a failure. -/
def complain (i : Invocation) (failure : Failure) : IO Unit := do
  let message := failure.message?.getD "catalog error: not a catalog"
  if i.json then
    let detail := Json.object [("code", .text failure.code), ("message", .text message)]
    IO.eprintln (Json.object [("error", detail)]).pretty
  else IO.eprintln ("Error: " ++ message)

/-- No generator of completion scripts comes with this program, so it offers none. -/
def noScript (_ : Shell) : String := ""

/-- How the program is called. -/
def usageText : String :=
  "Usage: cq [OPTIONS] [search QUERY | explain QUERY | fields | config | completions SHELL]"

end CardSearch.CommandLine

open CardSearch CardSearch.CommandLine

/-- Runs the program. -/
def main (arguments : List String) : IO UInt32 := do
  let env ← processEnvironment
  match Invocation.ofArguments env arguments with
  | .error usage =>
    if usage.exit == 0 then IO.println usageText else IO.eprintln usageText
    return usage.exit.toUInt32
  | .ok i =>
    let d ← env.settingsPath?.toList.foldlM pictureTo {}
    let settings := (loadSettings env d).toOption.getD {}
    let d ← (catalogs env settings i.command).foldlM pictureTo d
    let outcome := run noScript env d i
    for path in env.settingsPath? do keep path d outcome.directory
    IO.print outcome.output
    if let some failure := outcome.failure then complain i failure
    return outcome.exit.toUInt32
