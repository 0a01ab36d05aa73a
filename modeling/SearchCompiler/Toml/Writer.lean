import SearchCompiler.Decimal.Style
import SearchCompiler.Text.Pieces
import SearchCompiler.Toml.Value

/-!
# Writing configuration documents

A text is written in the plainest form that can hold it. Every table that holds values of its own,
or nothing at all, gets a header; an array of several items takes one line for each.
-/

namespace SearchCompiler.Toml

/-- Whether a character has to be escaped in any form but those between single quotes. -/
def isControl (c : Char) : Bool :=
  c.toNat < 0x20 || c.toNat = 0x7F

def upperHex (n : Nat) : Char :=
  (Nat.digitChar n).toUpper

/-- A control character as it is written between double quotes. -/
def writtenControl (c : Char) : List Char :=
  if c = '\x08' then ['\\', 'b']
  else if c = '\t' then ['\\', 't']
  else if c = '\n' then ['\\', 'n']
  else if c = '\x0c' then ['\\', 'f']
  else if c = '\r' then ['\\', 'r']
  else ['\\', 'u', '0', '0', upperHex (c.toNat / 16), upperHex (c.toNat % 16)]

/-- The inside of a text between double quotes on one line. -/
def shortBody : List Char → List Char
  | [] => []
  | c :: rest =>
    (if c = '"' ∨ c = '\\' then ['\\', c] else if isControl c then writtenControl c else [c]) ++
      shortBody rest

/-- The inside of a text between double quotes on several lines, given how many quotes stand in
front: the third of a run is escaped, so that the run does not close the text. -/
def longBody (quotes : Nat) : List Char → List Char
  | [] => []
  | c :: rest =>
    if c = '"' then
      if quotes = 2 then '\\' :: '"' :: longBody 0 rest else '"' :: longBody (quotes + 1) rest
    else if c = '\n' then '\n' :: longBody 0 rest
    else if c = '\\' then '\\' :: '\\' :: longBody 0 rest
    else if isControl c then writtenControl c ++ longBody 0 rest
    else c :: longBody 0 rest

/-- The length of the longest run of a character, given the length of the run in front. -/
def longestRun (mark : Char) (run : Nat) : List Char → Nat
  | [] => run
  | c :: rest =>
    if c = mark then longestRun mark (run + 1) rest else max run (longestRun mark 0 rest)

/-- A text on one line between double quotes. -/
def shortText (cs : List Char) : List Char :=
  '"' :: (shortBody cs ++ ['"'])

/-- A text on several lines between three quotes; a text with line ends begins on a new line. -/
def longText (mark : Char) (body : List Char) (hasLines : Bool) : List Char :=
  List.replicate 3 mark ++ (if hasLines then ['\n'] else []) ++ body ++ List.replicate 3 mark

/-- A text in the plainest form that can hold it. -/
def writtenChars (cs : List Char) : List Char :=
  let hasLines := cs.contains '\n'
  let hidden := cs.any fun c => isControl c && c != '\t' && c != '\n'
  let backslash := cs.contains '\\'
  let double := longestRun '"' 0 cs
  let single := longestRun '\'' 0 cs
  if !hidden && !backslash && !hasLines && double = 0 then shortText cs
  else if !hidden && !hasLines && single = 0 then '\'' :: (cs ++ ['\''])
  else if !hidden && !backslash && double ≤ 2 then longText '"' (longBody 0 cs) hasLines
  else if !hidden && single ≤ 2 then longText '\'' cs hasLines
  else if hasLines then longText '"' (longBody 0 cs) hasLines
  else shortText cs

def writtenText (s : String) : String :=
  String.ofList (writtenChars s.toList)

def isBareChar (c : Char) : Bool :=
  c.isAlphanum || c == '_' || c == '-'

/-- A key: without quotes if possible, and else on one line. -/
def writtenKey (key : String) : String :=
  let cs := key.toList
  let hidden := cs.any fun c => isControl c && c != '\t'
  String.ofList
    (if !cs.isEmpty && cs.all isBareChar then cs
    else if !hidden && !cs.contains '\\' && !cs.contains '"' then shortText cs
    else if !hidden && !cs.contains '\'' then '\'' :: (cs ++ ['\''])
    else shortText cs)

/-- Items of an array: one for each line when there are several. -/
def arrayText (items : List String) : String :=
  match items with
  | [] => "[]"
  | [item] => "[" ++ item ++ "]"
  | items => "[\n" ++ String.join (items.map fun item => "    " ++ item ++ ",\n") ++ "]"

mutual

def writtenValue : Toml → String
  | .text s => writtenText s
  | .integer n => toString n
  | .real x => Decimal.Style.document.double x
  | .single x => Decimal.Style.document.single x
  | .bool b => if b then "true" else "false"
  | .moment s => s
  | .noValue => "nan"
  | .list items => arrayText (writtenItems items)
  | .table members => "\x7b " ++ Text.joinTexts ", " (writtenMembers members) ++ " \x7d"

def writtenItems : List Toml → List String
  | [] => []
  | item :: rest => writtenValue item :: writtenItems rest

def writtenMembers : List (String × Toml) → List String
  | [] => []
  | (key, value) :: rest => (writtenKey key ++ " = " ++ writtenValue value) :: writtenMembers rest

end

def isTable : Toml → Bool
  | .table _ => true
  | _ => false

def headerText (path : List String) : String :=
  "[" ++ Text.joinTexts "." (path.map writtenKey) ++ "]\n"

/-- The values that a table holds of its own, with a header in front unless it is the document. -/
def ownSection (path : List String) (members : List (String × Toml)) : List String :=
  let own := members.filter fun m => !m.2.isTable
  if path.isEmpty then
    if own.isEmpty then [] else [String.join ((writtenMembers own).map (· ++ "\n"))]
  else if own.isEmpty && !members.isEmpty then []
  else [headerText path ++ String.join ((writtenMembers own).map (· ++ "\n"))]

mutual

/-- The sections of a table: its own, then those of its tables. -/
def sections (path : List String) : Toml → List String
  | .table members => ownSection path members ++ memberSections path members
  | _ => []

/-- The sections of the tables among members. -/
def memberSections (path : List String) : List (String × Toml) → List String
  | [] => []
  | (key, value) :: rest => value.sections (path ++ [key]) ++ memberSections path rest

end

/-- The text of a document, with a blank line between sections. -/
def documentText (document : Toml) : String :=
  Text.joinTexts "\n" (document.sections [])

end SearchCompiler.Toml
