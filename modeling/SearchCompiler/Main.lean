import SearchCompiler.Cli.Run

/-!
# The program

Reads the files that a command may look at, runs the command, and writes what it changed.
-/

namespace SearchCompiler.Main

open Files Cli

/-- The text that is shown when the arguments are no command. -/
def usageText : String :=
  "Usage: lucent [-v] <" ++ Text.joinTexts "|" Command.names ++ "> [OPTIONS] [ARGUMENT]"

/-- The paths that a command may look at. -/
def pathsOf (directory : Path) (home : Option Path) : Command → List Path
  | .compile argument _ _ => directory.join (.ofText argument) :: configurationPaths
  | _ => configurationPaths
where
  /-- The paths of configuration files. -/
  configurationPaths : List Path :=
    directory.ancestors.map Config.fileIn ++ (home.map Config.fileIn).toList

/-- Puts the file under a path, with the directories above it. -/
def install (tree : Tree) (path : Path) (content : String) : Tree :=
  match path.segments.reverse with
  | [] => tree
  | name :: parents =>
    let (tree, names) := tree.makePath [] parents.reverse
    tree.put (names ++ [name]) content

def look (tree : Tree) (path : Path) : IO Tree := do
  match ← (IO.FS.readFile path.text).toBaseIO with
  | .ok content => return install tree path content
  | .error (.noFileOrDirectory ..) => return tree
  | .error _ => return (tree.makePath [] path.segments).1

/-- Writes the files that differ. -/
def store (before after : Tree) (paths : List Path) : IO Unit := do
  for path in paths do
    match after.read path with
    | .ok content =>
      if before.content? ((before.locate path).toOption.getD []) != some content then
        IO.FS.writeFile path.text content
    | .error _ => pure ()

def takesInput : Command → Bool
  | .compile argument _ _ => (Path.ofText argument).same (.ofText "-")
  | _ => false

def perform (command : Command) : IO UInt32 := do
  let directory := Path.ofText (← IO.currentDir).toString
  let home := (← IO.getEnv "HOME").map Path.ofText
  let paths := pathsOf directory home command
  let places := (Tree.empty.makePath [] directory.segments).1
  let places := (places.makePath [] ((home.map (·.segments)).getD [])).1
  let files ← paths.foldlM look places
  let input ← if takesInput command then (← IO.getStdin).readToEnd else pure ""
  let outcome := Environment.run ⟨files, directory, home, input⟩ command
  store files outcome.files paths
  IO.print outcome.output
  for warning in outcome.warnings do
    IO.eprintln warning.message
  IO.eprint outcome.errors
  return if outcome.success then 0 else 1

end SearchCompiler.Main

def main (arguments : List String) : IO UInt32 := do
  match SearchCompiler.Cli.Command.read arguments with
  | .ok command => SearchCompiler.Main.perform command
  | .error .asked => do
    IO.println SearchCompiler.Main.usageText
    return 0
  | .error .refused => do
    IO.eprintln SearchCompiler.Main.usageText
    return 2
