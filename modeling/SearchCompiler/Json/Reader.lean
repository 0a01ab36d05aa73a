import SearchCompiler.Bounds
import SearchCompiler.Json.Value
import SearchCompiler.Decimal.Reading
import SearchCompiler.Text.Hex

/-!
# Reading JSON

A reader by descent over the characters of a document. The fuel is the length of the document:
every step takes at least one character. Arrays and objects from the 128th level on are skipped
over and come out as unreadable.
-/

namespace SearchCompiler.Json

/-- The characters that may stand between tokens. -/
def isSpace (c : Char) : Bool :=
  c == ' ' || c == '\t' || c == '\n' || c == '\r'

/-- The levels of nesting that are read. -/
def levels : Nat := 127

/-- The character that a letter after a backslash stands for. -/
def namedEscape? : Char → Option Char
  | '"' => some '"'
  | '\\' => some '\\'
  | '/' => some '/'
  | 'b' => some '\x08'
  | 'f' => some '\x0c'
  | 'n' => some '\n'
  | 'r' => some '\r'
  | 't' => some '\t'
  | _ => none

/-- A text read up to its closing quote: the characters, or nothing when an escape names no
character, and the rest of the document. -/
abbrev TextRead := Option (List Char) × List Char

def TextRead.push (c : Char) (r : TextRead) : TextRead :=
  (r.1.map (c :: ·), r.2)

/-- Marks a text that is being read as unreadable. -/
def TextRead.spoil (r : TextRead) : TextRead :=
  (none, r.2)

/-- Reads a text after its opening quote. -/
def readText : Nat → List Char → Option TextRead
  | 0, _ => none
  | fuel + 1, cs =>
    match cs with
    | [] => none
    | '"' :: rest => some (some [], rest)
    | '\\' :: 'u' :: a :: b :: c :: d :: rest => do
      let high ← Text.hexNumber? [a, b, c, d]
      if high < 0xD800 || 0xE000 ≤ high then
        return (← readText fuel rest).push (Char.ofNat high)
      match rest with
      | '\\' :: 'u' :: a' :: b' :: c' :: d' :: rest' =>
        match Text.hexNumber? [a', b', c', d'] with
        | some low =>
          if high < 0xDC00 && 0xDC00 ≤ low && low < 0xE000 then
            return (← readText fuel rest').push
              (Char.ofNat (0x10000 + (high - 0xD800) * 0x400 + (low - 0xDC00)))
          else
            return (← readText fuel rest).spoil
        | none => none
      | _ => return (← readText fuel rest).spoil
    | '\\' :: e :: rest => do
      let c ← namedEscape? e
      return (← readText fuel rest).push c
    | c :: rest =>
      if c.toNat < 0x20 then none
      else do return (← readText fuel rest).push c

def takeDigits (cs : List Char) : List Char × List Char :=
  (cs.takeWhile Char.isDigit, cs.dropWhile Char.isDigit)

def readExponent (cs : List Char) : Option (Int × List Char) :=
  let (negative, cs) := Decimal.takeSign cs
  let (digits, cs) := takeDigits cs
  let n : Int := Decimal.digitsValue digits
  if digits.isEmpty then none else some (if negative then -n else n, cs)

/-- Reads the power of ten of a number, if there is one: its value and whether it was there. -/
def readPower : List Char → Option (Option Int × List Char)
  | c :: rest =>
    if c = 'e' ∨ c = 'E' then (readExponent rest).map fun (n, rest) => (some n, rest)
    else some (none, c :: rest)
  | [] => some (none, [])

/-- The sign of a number, and what follows it. -/
def takeMinus : List Char → Bool × List Char
  | '-' :: rest => (true, rest)
  | rest => (false, rest)

def readFraction : List Char → Option (List Char × List Char)
  | '.' :: rest =>
    let (digits, rest) := takeDigits rest
    if digits.isEmpty then none else some (digits, rest)
  | rest => some ([], rest)

/-- The number that its sign, its digits on both sides of the point and its power of ten make: an
integer if there is no point, no power and no sign at a zero, and if 64 bits can hold it. -/
def numberOf (negative : Bool) (whole fraction : List Char) (power : Option Int) : Json :=
  let digits := Decimal.digitsValue (whole ++ fraction)
  let value : Int := if negative then -(digits : Int) else digits
  if fraction.isEmpty && power.isNone && fits64 value && !(negative && digits == 0) then
    .integer value
  else .real (Decimal.toDouble negative digits (power.getD 0 - fraction.length))

/-- Reads a number. A leading zero stands alone. -/
def readNumber (cs : List Char) : Option (Json × List Char) :=
  let (negative, cs) := takeMinus cs
  let (whole, cs) := takeDigits cs
  if whole.isEmpty || (whole.head? == some '0' && whole.length != 1) then none
  else do
    let (fraction, cs) ← readFraction cs
    let (power, cs) ← readPower cs
    return (numberOf negative whole fraction power, cs)

def skipSpace (cs : List Char) : List Char :=
  cs.dropWhile isSpace

mutual

def readValue (fuel level : Nat) (cs : List Char) : Option (Json × List Char) :=
  match fuel with
  | 0 => none
  | fuel + 1 =>
    match cs with
    | 'n' :: 'u' :: 'l' :: 'l' :: rest => some (.null, rest)
    | 't' :: 'r' :: 'u' :: 'e' :: rest => some (.bool true, rest)
    | 'f' :: 'a' :: 'l' :: 's' :: 'e' :: rest => some (.bool false, rest)
    | '"' :: rest => do
      let (read, rest) ← readText (rest.length + 1) rest
      return (match read with
        | some chars => Json.text (String.ofList chars)
        | none => .unreadable, rest)
    | '[' :: rest => do
      let (items, rest) ← match skipSpace rest with
        | ']' :: rest => some ([], rest)
        | rest => readItems fuel (level + 1) rest
      return (if level < levels then .list items else .unreadable, rest)
    | '\x7b' :: rest => do
      let (members, rest) ← match skipSpace rest with
        | '\x7d' :: rest => some (some [], rest)
        | rest => readMembers fuel (level + 1) rest
      return (match members with
        | some members => if level < levels then .object members else .unreadable
        | none => .unreadable, rest)
    | _ => readNumber cs

def readItems (fuel level : Nat) (cs : List Char) : Option (List Json × List Char) :=
  match fuel with
  | 0 => none
  | fuel + 1 => do
    let (item, rest) ← readValue fuel level cs
    match skipSpace rest with
    | ',' :: rest =>
      let (items, rest) ← readItems fuel level (skipSpace rest)
      return (item :: items, rest)
    | ']' :: rest => return ([item], rest)
    | _ => none

/-- Reads the members of an object up to its closing brace: nothing when a name is unreadable. -/
def readMembers (fuel level : Nat) (cs : List Char) :
    Option (Option (List (String × Json)) × List Char) :=
  match fuel with
  | 0 => none
  | fuel + 1 =>
    match cs with
    | '"' :: rest => do
      let (name, rest) ← readText (rest.length + 1) rest
      match skipSpace rest with
      | ':' :: rest =>
        let (value, rest) ← readValue fuel level (skipSpace rest)
        let member := name.map fun chars => (String.ofList chars, value)
        match skipSpace rest with
        | ',' :: rest =>
          let (members, rest) ← readMembers fuel level (skipSpace rest)
          return (member.bind fun m => members.map (m :: ·), rest)
        | '\x7d' :: rest => return (member.map ([·]), rest)
        | _ => none
      | _ => none
    | _ => none

end

/-- Reads a document: one value with nothing but space around it. -/
def read? (document : String) : Option Json := do
  let cs := document.toList
  let (value, rest) ← readValue (2 * cs.length + 2) 0 (skipSpace cs)
  if (skipSpace rest).isEmpty then some value else none

end SearchCompiler.Json
