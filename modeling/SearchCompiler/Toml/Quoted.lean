import SearchCompiler.Text.Hex

/-!
# Quoted texts of documents

Four forms of a text: between double or single quotes, on one line or on several. Only double quotes
give a meaning to the backslash. A form on several lines is opened and closed by three quotes; up to
two more quotes in front of the closing ones belong to the text.
-/

namespace SearchCompiler.Toml

structure Quoting where
  /-- The quote. -/
  mark : Char
  /-- Whether the text may run over several lines. -/
  long : Bool
deriving DecidableEq, Repr

/-- Whether a backslash has a meaning. -/
def Quoting.escapes (q : Quoting) : Bool :=
  q.mark == '"'

/-- Whether a character may stand for itself on one line. -/
def isPlain (c : Char) : Bool :=
  c == '\t' || (0x20 ≤ c.toNat && c.toNat != 0x7F)

/-- The character that a letter after a backslash stands for. -/
def namedEscape? : Char → Option Char
  | 'b' => some '\x08'
  | 't' => some '\t'
  | 'n' => some '\n'
  | 'f' => some '\x0c'
  | 'r' => some '\r'
  | 'e' => some '\x1b'
  | '"' => some '"'
  | '\\' => some '\\'
  | _ => none

/-- The number of digits that a letter after a backslash asks for. -/
def escapeDigits? : Char → Option Nat
  | 'x' => some 2
  | 'u' => some 4
  | 'U' => some 8
  | _ => none

/-- Reads what follows a backslash: the character, and the rest. -/
def escaped? : List Char → Option (Char × List Char)
  | [] => none
  | c :: rest =>
    match escapeDigits? c with
    | some count => do
      let digits := rest.take count
      if digits.length ≠ count then none
      let n ← Text.hexNumber? digits
      if n.isValidChar then some (Char.ofNat n, rest.drop count) else none
    | none => (namedEscape? c).map fun d => (d, rest)

/-- Drops line ends and the blanks between them. -/
def skipLines : List Char → List Char
  | [] => []
  | '\r' :: '\n' :: rest => skipLines rest
  | c :: rest => if c = ' ' ∨ c = '\t' ∨ c = '\n' then skipLines rest else c :: rest

/-- What follows a line end that a backslash joins to the next line. -/
def joined? (cs : List Char) : Option (List Char) :=
  match cs.dropWhile fun c => c == ' ' || c == '\t' with
  | '\n' :: rest => some (skipLines rest)
  | '\r' :: '\n' :: rest => some (skipLines rest)
  | _ => none

/-- Reads a quoted text behind its opening quotes: its characters, and the rest. -/
def readQuoted (q : Quoting) : Nat → List Char → Option (List Char × List Char)
  | 0, _ => none
  | _ + 1, [] => none
  | fuel + 1, c :: rest =>
    let push := fun (c : Char) (rest : List Char) =>
      (readQuoted q fuel rest).map fun (cs, left) => (c :: cs, left)
    if c = q.mark then
      if q.long then
        let quotes := (c :: rest).takeWhile (· == q.mark)
        if 3 ≤ quotes.length then
          let own := min (quotes.length - 3) 2
          some (quotes.take own, (c :: rest).drop (own + 3))
        else push c rest
      else some ([], rest)
    else if c = '\\' ∧ q.escapes then
      match if q.long then joined? rest else none with
      | some next => readQuoted q fuel next
      | none =>
        match escaped? rest with
        | some (d, next) => push d next
        | none => none
    else if isPlain c then push c rest
    else if q.long ∧ (c = '\n' ∨ (c = '\r' ∧ rest.head? = some '\n')) then push c rest
    else none

/-- Drops the line end that may follow the opening quotes of a text on several lines. -/
def dropFirstLine : List Char → List Char
  | '\n' :: rest => rest
  | '\r' :: '\n' :: rest => rest
  | rest => rest

/-- Reads a quoted text on one line behind its opening quote. -/
def readShort (mark : Char) (cs : List Char) : Option (String × List Char) :=
  (readQuoted ⟨mark, false⟩ (cs.length + 1) cs).map fun (text, rest) => (String.ofList text, rest)

/-- Reads a quoted text on several lines behind its opening quotes. -/
def readLong (mark : Char) (cs : List Char) : Option (String × List Char) :=
  (readQuoted ⟨mark, true⟩ (cs.length + 1) (dropFirstLine cs)).map fun (text, rest) =>
    (String.ofList text, rest)

end SearchCompiler.Toml
