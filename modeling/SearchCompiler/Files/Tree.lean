import SearchCompiler.Files.Path

/-!
# File trees

Files with their contents, and directories, below one root. Every directory above a file or another
directory exists. A path is followed segment by segment, so that `..` leaves a directory only when
there is one. The system refuses paths and names that are too long.
-/

namespace SearchCompiler.Files

/-- Why a path cannot be read or written. -/
inductive AccessError where
  | notFound
  | notDirectory
  | isDirectory
  /-- The path or one of its names has too many bytes. -/
  | nameTooLong
  /-- The path holds the character that ends a name on the system. -/
  | endedName
deriving DecidableEq, Repr

def AccessError.message : AccessError → String
  | notFound => "No such file or directory (os error 2)"
  | notDirectory => "Not a directory (os error 20)"
  | isDirectory => "Is a directory (os error 21)"
  | nameTooLong => "File name too long (os error 36)"
  | endedName => "file name contained an unexpected NUL byte"

/-- Files and directories, each under the names that lead to it from the root. -/
structure Tree where
  files : List (List String × String)
  directories : List (List String)
deriving Inhabited

/-- The number of bytes that a path has to stay below. -/
def pathLimit : Nat := 4096

def nameLimit : Nat := 255

/-- Refuses the text of a path that the system cannot take, whatever files there are. -/
def checkPath (path : Path) : Except AccessError Unit :=
  if path.segments.any fun s => s.toList.contains '\x00' then .error .endedName
  else if pathLimit ≤ path.text.utf8ByteSize then .error .nameTooLong
  else .ok ()

namespace Tree

def empty : Tree := ⟨[], []⟩

def content? (t : Tree) (names : List String) : Option String :=
  t.files.lookup names

def hasDirectory (t : Tree) (names : List String) : Bool :=
  names.isEmpty || t.directories.any (names.isPrefixOf ·) ||
    t.files.any fun f => names.isPrefixOf f.1 && names != f.1

/-- Follows segments from a directory to the names of what they lead to. -/
def follow (t : Tree) (here : List String) : List String → Except AccessError (List String)
  | [] => .ok here
  | segment :: rest =>
    if t.hasDirectory here then
      if segment = "" ∨ segment = "." then t.follow here rest
      else if segment = ".." then t.follow here.dropLast rest
      else if nameLimit < segment.utf8ByteSize then .error .nameTooLong
      else t.follow (here ++ [segment]) rest
    else .error (if (t.content? here).isSome then .notDirectory else .notFound)

/-- The names that a path leads to from a directory. -/
def locateFrom (t : Tree) (directory path : Path) : Except AccessError (List String) := do
  checkPath path
  t.follow [] (directory.join path).segments

/-- The names that an absolute path leads to. -/
def locate (t : Tree) (path : Path) : Except AccessError (List String) :=
  t.locateFrom ⟨true, []⟩ path

/-- The content of the file that a path leads to from a directory. -/
def readFrom (t : Tree) (directory path : Path) : Except AccessError String := do
  let names ← t.locateFrom directory path
  match t.content? names with
  | some content => .ok content
  | none => .error (if t.hasDirectory names then .isDirectory else .notFound)

def read (t : Tree) (path : Path) : Except AccessError String :=
  t.readFrom ⟨true, []⟩ path

def isFile (t : Tree) (path : Path) : Bool :=
  (t.read path).isOk

def contains (t : Tree) (path : Path) : Bool :=
  match t.locate path with
  | .ok names => (t.content? names).isSome || t.hasDirectory names
  | .error _ => false

/-- Puts a file under some names, in place of the one that is there. -/
def put (t : Tree) (names : List String) (content : String) : Tree :=
  { t with files := (names, content) :: t.files.filter fun f => f.1 != names }

def write (t : Tree) (path : Path) (content : String) : Except AccessError Tree := do
  let names ← t.locate path
  if t.hasDirectory names then .error .isDirectory
  else if t.hasDirectory names.dropLast then .ok (t.put names content)
  else .error (if (t.content? names.dropLast).isSome then .notDirectory else .notFound)

def makeDirectory (t : Tree) (names : List String) : Tree :=
  { t with directories := names :: t.directories }

/-- Makes the directories that an absolute path names one after the other, and gives the names of
the last. -/
def makePath (t : Tree) (here : List String) : List String → Tree × List String
  | [] => (t, here)
  | segment :: rest =>
    if segment = "" ∨ segment = "." then t.makePath here rest
    else if segment = ".." then t.makePath here.dropLast rest
    else (t.makeDirectory (here ++ [segment])).makePath (here ++ [segment]) rest

end Tree

end SearchCompiler.Files
