import SearchCompiler.Json.Value
import SearchCompiler.Decimal.Style
import SearchCompiler.Text.Pieces

/-!
# Writing JSON

Two layouts of a document: on one line without space, and indented by two blanks a level.
-/

namespace SearchCompiler.Json

def writtenChar (c : Char) : List Char :=
  if c = '"' ∨ c = '\\' then ['\\', c]
  else if c = '\x08' then ['\\', 'b']
  else if c = '\x0c' then ['\\', 'f']
  else if c = '\n' then ['\\', 'n']
  else if c = '\r' then ['\\', 'r']
  else if c = '\t' then ['\\', 't']
  else if c.toNat < 0x20 then
    ['\\', 'u', '0', '0', Nat.digitChar (c.toNat / 16), Nat.digitChar (c.toNat % 16)]
  else [c]

def writeText (s : String) : String :=
  String.ofList ('"' :: (s.toList.flatMap writtenChar ++ ['"']))

/-- A value without parts; what cannot be written is `null`. -/
def writeScalar : Json → String
  | .bool true => "true"
  | .bool false => "false"
  | .integer n => toString n
  | .real x => Decimal.Style.json.double x
  | .single x => Decimal.Style.json.single x
  | .text s => writeText s
  | _ => "null"

mutual

/-- Writes a value on one line. -/
def compact : Json → String
  | .list items => "[" ++ Text.joinTexts "," (compactItems items) ++ "]"
  | .object members => "\x7b" ++ Text.joinTexts "," (compactMembers members) ++ "\x7d"
  | value => writeScalar value

def compactItems : List Json → List String
  | [] => []
  | item :: rest => item.compact :: compactItems rest

def compactMembers : List (String × Json) → List String
  | [] => []
  | (name, value) :: rest => (writeText name ++ ":" ++ value.compact) :: compactMembers rest

end

/-- Puts parts on lines of their own between two brackets; no parts leave the brackets closed. -/
def indented (level : Nat) (opening closing : String) (parts : List String) : String :=
  if parts.isEmpty then opening ++ closing
  else
    let inner := "\n" ++ Text.blanks (2 * (level + 1))
    opening ++ inner ++ Text.joinTexts ("," ++ inner) parts ++ "\n" ++ Text.blanks (2 * level) ++
      closing

mutual

/-- Writes a value on a level of indentation. -/
def prettyAt (level : Nat) : Json → String
  | .list items => indented level "[" "]" (prettyItems (level + 1) items)
  | .object members => indented level "\x7b" "\x7d" (prettyMembers (level + 1) members)
  | value => writeScalar value

def prettyItems (level : Nat) : List Json → List String
  | [] => []
  | item :: rest => item.prettyAt level :: prettyItems level rest

def prettyMembers (level : Nat) : List (String × Json) → List String
  | [] => []
  | (name, value) :: rest =>
    (writeText name ++ ": " ++ value.prettyAt level) :: prettyMembers level rest

end

/-- Writes a value on several lines. -/
def pretty (value : Json) : String :=
  value.prettyAt 0

end SearchCompiler.Json
