import SearchCompiler.Toml.Value

/-!
# Documents in the making

A document names its tables piece by piece: by headers, by headers of elements, and by dotted keys.
What a later piece may still add to depends on how a table came to be. A header may define a table
that so far was only passed through, dotted keys may add to tables of dotted keys, and nothing may
be defined twice.
-/

namespace SearchCompiler.Toml

/-- How a table came to be. -/
inductive Form where
  /-- A header passed through it. -/
  | passed
  /-- A dotted key passed through it. -/
  | dotted
  /-- It has a header of its own. -/
  | defined
deriving DecidableEq, Repr

/-- A part of a document in the making. -/
inductive Draft where
  /-- A value that is complete. -/
  | closed (value : Toml)
  | table (form : Form) (members : List (String × Draft))
  /-- A list of tables that headers of elements extend, in order. -/
  | tables (elements : List (List (String × Draft)))

namespace Draft

/-- The members of a table in the making. -/
abbrev Members := List (String × Draft)

mutual

def toToml : Draft → Toml
  | .closed value => value
  | .table _ members => .table (membersToToml members)
  | .tables elements => .list (elementsToToml elements)

def membersToToml : List (String × Draft) → List (String × Toml)
  | [] => []
  | (key, part) :: rest => (key, part.toToml) :: membersToToml rest

def elementsToToml : List (List (String × Draft)) → List Toml
  | [] => []
  | members :: rest => .table (membersToToml members) :: elementsToToml rest

end

/-- Changes the member with a key, or adds it at the end. -/
def change (key : String) (f : Option Draft → Option Draft) : Members → Option Members
  | [] => (f none).map fun part => [(key, part)]
  | (k, part) :: rest =>
    if k = key then (f (some part)).map fun part => (k, part) :: rest
    else (change key f rest).map ((k, part) :: ·)

/-- Changes the last element of a list of tables. -/
def changeLast (f : Members → Option Members) :
    List Members → Option (List Members)
  | [] => none
  | [members] => (f members).map ([·])
  | members :: rest => (changeLast f rest).map (members :: ·)

/-- Follows a path of keys and changes the table at its end, which `f` is given with the form it
has. Tables that are missing are made with the form `made`; those that are there may be entered as
`mayEnter` says, and of a list of tables the last is entered. -/
def within (made : Form) (mayEnter : Form → Bool) (f : Form → Members → Option Members) :
    List String → Form → Members → Option Members
  | [], form, members => f form members
  | key :: path, _, members =>
    change key (fun
      | none => (within made mayEnter f path made []).map (.table made)
      | some (.table form inner) =>
        if mayEnter form then (within made mayEnter f path form inner).map (.table form) else none
      | some (.tables elements) =>
        (changeLast (within made mayEnter f path .defined) elements).map .tables
      | some (.closed _) => none) members

def atHeader (path : List String) (f : Members → Option Members) (root : Members) :
    Option Members :=
  within .passed (fun _ => true) (fun _ => f) path .defined root

/-- Defines the table of a header with a last key. -/
def define (path : List String) (key : String) (root : Members) : Option Members :=
  atHeader path (change key fun
    | none => some (.table .defined [])
    | some (.table .passed members) => some (.table .defined members)
    | some _ => none) root

/-- Adds an element to the list of tables of a header with a last key. -/
def extend (path : List String) (key : String) (root : Members) : Option Members :=
  atHeader path (change key fun
    | none => some (.tables [[]])
    | some (.tables elements) => some (.tables (elements ++ [[]]))
    | some _ => none) root

/-- Adds a value to a table under a dotted key. Only tables of dotted keys can be added to in this
way. -/
def assign (path : List String) (key : String) (value : Toml) (members : Members) :
    Option Members :=
  within .dotted (· ≠ .defined)
    (fun form inner =>
      if (form = .dotted) = path.isEmpty then none
      else change key (fun
        | none => some (.closed value)
        | some _ => none) inner)
    path .defined members

end Draft

end SearchCompiler.Toml
