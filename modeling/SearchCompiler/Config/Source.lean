import SearchCompiler.Config.Merged
import SearchCompiler.Files.Tree

/-!
# Where settings come from

Files in a directory and the directories above it, closest first, up to one that says it is the
root. The file in the home directory comes last, unless a root file keeps it out.
-/

namespace SearchCompiler.Config

open Files

def fileName : String := ".lucent.toml"

def fileIn (directory : Path) : Path :=
  directory.join (.ofText fileName)

/-- Whose file it is. -/
inductive SourceKind where
  /-- The file of a project. -/
  | project
  /-- The file in the home directory. -/
  | global
deriving DecidableEq, Repr

def SourceKind.name : SourceKind → String
  | project => "project"
  | global => "global"

/-- A configuration file that applies. -/
structure Source where
  path : Path
  kind : SourceKind
  /-- Whether files further up the tree are left out. -/
  root : Bool
deriving DecidableEq, Repr

/-- Whether a path leads to a file that says it is the root. A file that cannot be read is none. -/
def isRoot (files : Tree) (path : Path) : Bool :=
  match files.read path with
  | .ok text => ((File.read? text).bind (·.root)) == some true
  | .error _ => false

def source? (files : Tree) (global : Option Path) (path : Path) : Option Source :=
  if files.isFile path then
    some ⟨path, if global.any (·.same path) then .global else .project, isRoot files path⟩
  else none

/-- The files of directories in order, up to the first root. -/
def upward (files : Tree) (global : Option Path) : List Path → List Source
  | [] => []
  | directory :: rest =>
    match source? files global (fileIn directory) with
    | none => upward files global rest
    | some source => if source.root then [source] else source :: upward files global rest

/-- The files that apply to a directory, closest first. -/
def discover (files : Tree) (directory : Path) (home : Option Path) : List Source :=
  let global := home.map fileIn
  let met := upward files global directory.ancestors
  if met.any Source.root then met
  else
    match global with
    | none => met
    | some path =>
      if met.any (·.path.same path) then met else met ++ (source? files global path).toList

inductive LoadError where
  /-- A file cannot be read. -/
  | unreadable (path : Path) (reason : AccessError)
  /-- A file is not a configuration file. -/
  | malformed (path : Path)
deriving DecidableEq, Repr

/-- The error in words; what is wrong inside a malformed file is not told. -/
def LoadError.message : LoadError → String
  | unreadable path reason => "failed to read config file " ++ path.text ++ ": " ++ reason.message
  | malformed path => "failed to parse config file " ++ path.text

def fileAt (files : Tree) (path : Path) : Except LoadError File :=
  match files.read path with
  | .error reason => .error (.unreadable path reason)
  | .ok text =>
    match File.read? text with
    | some file => .ok file
    | none => .error (.malformed path)

def placedAt (files : Tree) : List Path → Except LoadError (List Placed)
  | [] => .ok []
  | path :: rest => do
    let file ← fileAt files path
    let others ← placedAt files rest
    return ⟨path, file⟩ :: others

/-- The settings of several files, the first of which takes precedence. -/
def loadFiles (files : Tree) (paths : List Path) : Except LoadError Config := do
  return merge (← placedAt files paths)

/-- The settings that apply to a directory. -/
def load (files : Tree) (directory : Path) (home : Option Path) : Except LoadError Config :=
  loadFiles files ((discover files directory home).map (·.path))

end SearchCompiler.Config
