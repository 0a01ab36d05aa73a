import SearchCompiler.Toml.Draft
import SearchCompiler.Toml.Literal
import SearchCompiler.Toml.Quoted

/-!
# Reading configuration documents

A document is a sequence of lines: headers, keys with values, comments. Arrays and inline tables may
run over several lines, also around the equals sign of a member, and may end in a comma. The fuel is
the length of the document: every step takes at least one character.
-/

namespace SearchCompiler.Toml

/-- The levels of nesting that are read. -/
def levels : Nat := 80

def isSpace (c : Char) : Bool :=
  c == ' ' || c == '\t'

def skipSpace (cs : List Char) : List Char :=
  cs.dropWhile isSpace

def skipComment : List Char → List Char
  | '#' :: rest => rest.dropWhile isPlain
  | cs => cs

def lineEnd? : List Char → Option (List Char)
  | '\n' :: rest => some rest
  | '\r' :: '\n' :: rest => some rest
  | _ => none

/-- Drops blanks, comments and line ends. A comment has to end with its line. -/
def skipFill : Nat → List Char → Option (List Char)
  | 0, _ => none
  | fuel + 1, cs =>
    match skipSpace cs with
    | '#' :: rest =>
      match skipComment ('#' :: rest) with
      | [] => some []
      | rest => (lineEnd? rest).bind (skipFill fuel)
    | cs =>
      match lineEnd? cs with
      | some rest => skipFill fuel rest
      | none => some cs

/-- Drops the rest of a line that holds nothing more. -/
def endLine? (cs : List Char) : Option (List Char) :=
  match skipComment (skipSpace cs) with
  | [] => some []
  | rest => lineEnd? rest

def isKeyChar (c : Char) : Bool :=
  c.isAlphanum || c == '_' || c == '-'

def readKey : List Char → Option (String × List Char)
  | '"' :: rest => readShort '"' rest
  | '\'' :: rest => readShort '\'' rest
  | cs =>
    let key := cs.takeWhile isKeyChar
    if key.isEmpty then none else some (String.ofList key, cs.dropWhile isKeyChar)

/-- Reads keys with dots between them. -/
def readKeys : Nat → List Char → Option (List String × String × List Char)
  | 0, _ => none
  | fuel + 1, cs => do
    let (key, rest) ← readKey (skipSpace cs)
    match skipSpace rest with
    | '.' :: rest => do
      let (path, last, rest) ← readKeys fuel rest
      return (key :: path, last, rest)
    | rest => return ([], key, rest)

/-- Reads keys with dots between them, no more than the levels of nesting: the path, the last key,
and the rest behind blanks. -/
def readPath (cs : List Char) : Option (List String × String × List Char) := do
  let (path, key, rest) ← readKeys (cs.length + 1) cs
  if levels ≤ path.length then none
  return (path, key, rest)

/-- The characters that end an unquoted value, apart from blanks. -/
def closers : List Char :=
  ['=', ',', '[', ']', '\x7b', '\x7d', '#', '\r', '\n']

def isLiteralChar (c : Char) : Bool :=
  !isSpace c && !closers.contains c

/-- Whether an unquoted value goes on behind blanks: with anything but a point or a quote. -/
def goesOn (cs : List Char) : Bool :=
  match skipSpace cs with
  | c :: _ => isLiteralChar c && c != '.' && c != '"' && c != '\''
  | [] => false

/-- Takes the text of an unquoted value. Blanks belong to it when it goes on behind them. -/
def takeLiteral : List Char → List Char × List Char
  | [] => ([], [])
  | c :: rest =>
    if isLiteralChar c || (isSpace c && goesOn rest) then
      let (taken, rest) := takeLiteral rest
      (c :: taken, rest)
    else ([], c :: rest)

def readLiteral (cs : List Char) : Option (Toml × List Char) :=
  let (taken, rest) := takeLiteral cs
  (literal? taken).map (·, rest)

mutual

def readValue (fuel level : Nat) (cs : List Char) : Option (Toml × List Char) :=
  match fuel with
  | 0 => none
  | fuel + 1 =>
    match cs with
    | '"' :: '"' :: '"' :: rest => (readLong '"' rest).map fun (s, rest) => (.text s, rest)
    | '"' :: rest => (readShort '"' rest).map fun (s, rest) => (.text s, rest)
    | '\'' :: '\'' :: '\'' :: rest => (readLong '\'' rest).map fun (s, rest) => (.text s, rest)
    | '\'' :: rest => (readShort '\'' rest).map fun (s, rest) => (.text s, rest)
    | '[' :: rest => do
      if levels ≤ level then none
      let (items, rest) ← readItems fuel (level + 1) (← skipFill (rest.length + 1) rest)
      return (.list items, rest)
    | '\x7b' :: rest => do
      if levels ≤ level then none
      let (members, rest) ← readMembers fuel (level + 1) [] (← skipFill (rest.length + 1) rest)
      return (.table (Draft.membersToToml members), rest)
    | cs => readLiteral cs

def readItems (fuel level : Nat) (cs : List Char) : Option (List Toml × List Char) :=
  match fuel with
  | 0 => none
  | fuel + 1 =>
    match cs with
    | ']' :: rest => some ([], rest)
    | cs => do
      let (item, rest) ← readValue fuel level cs
      match ← skipFill (rest.length + 1) rest with
      | ',' :: rest => do
        let (items, rest) ← readItems fuel level (← skipFill (rest.length + 1) rest)
        return (item :: items, rest)
      | ']' :: rest => return ([item], rest)
      | _ => none

/-- Reads the members of an inline table up to its closing brace. -/
def readMembers (fuel level : Nat) (seen : Draft.Members) (cs : List Char) :
    Option (Draft.Members × List Char) :=
  match fuel with
  | 0 => none
  | fuel + 1 =>
    match cs with
    | '\x7d' :: rest => some (seen, rest)
    | cs => do
      let (path, key, rest) ← readPath cs
      let rest ← expect? '=' (← skipFill (rest.length + 1) rest)
      let (value, rest) ← readValue fuel level (← skipFill (rest.length + 1) rest)
      let seen ← Draft.assign path key value seen
      match ← skipFill (rest.length + 1) rest with
      | ',' :: rest => do readMembers fuel level seen (← skipFill (rest.length + 1) rest)
      | '\x7d' :: rest => return (seen, rest)
      | _ => none

end

/-- A document in the making: what was read, and the path of the latest header. -/
structure Page where
  root : Draft.Members
  header : List String

/-- Reads one header or one key with its value. -/
def readLine (page : Page) (cs : List Char) : Option (Page × List Char) :=
  match cs with
  | '[' :: '[' :: rest => do
    let (path, key, rest) ← readPath rest
    let rest ← expect? ']' (← expect? ']' rest)
    return (⟨← Draft.extend path key page.root, path ++ [key]⟩, rest)
  | '[' :: rest => do
    let (path, key, rest) ← readPath rest
    let rest ← expect? ']' rest
    return (⟨← Draft.define path key page.root, path ++ [key]⟩, rest)
  | cs => do
    let (path, key, rest) ← readPath cs
    let rest ← expect? '=' rest
    let (value, rest) ← readValue (2 * rest.length + 2) 0 (skipSpace rest)
    let root ← Draft.atHeader page.header (Draft.assign path key value) page.root
    return (⟨root, page.header⟩, rest)

def readLines : Nat → Page → List Char → Option Draft.Members
  | 0, _, _ => none
  | fuel + 1, page, cs => do
    match ← skipFill (cs.length + 1) cs with
    | [] => return page.root
    | cs => do
      let (page, rest) ← readLine page cs
      readLines fuel page (← endLine? rest)

/-- Reads a document; a byte order mark in front is skipped. -/
def read? (document : String) : Option Toml :=
  let cs := match document.toList with
    | '\ufeff' :: rest => rest
    | cs => cs
  (readLines (cs.length + 1) ⟨[], []⟩ cs).map fun root => .table (Draft.membersToToml root)

end SearchCompiler.Toml
