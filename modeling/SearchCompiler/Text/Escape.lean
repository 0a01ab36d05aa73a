import SearchCompiler.Text.Blank

/-!
# Escaped literals

The two written forms of a literal in a query. A bare term puts a backslash before every character
with a meaning of its own; a phrase stands in double quotes and escapes only what could end it.
Both forms lose nothing: a reader that takes the character after a backslash as it is gets the
literal back.
-/

namespace SearchCompiler.Text

/-- The characters with a meaning of their own in a query. -/
def syntaxChars : List Char :=
  ['\\', '+', '-', '!', '(', ')', ':', '^', '[', ']', '"', '\x7b', '\x7d', '~', '*', '?', '|', '&',
    '/']

/-- Whether a bare term has to escape a character: it would end the term or act as an operator. -/
def needsEscape (c : Char) : Bool :=
  syntaxChars.contains c || isBlank c

/-- Writes a literal as one bare term. -/
def bareTerm : List Char → List Char
  | [] => []
  | c :: rest => if needsEscape c then '\\' :: c :: bareTerm rest else c :: bareTerm rest

/-- The inside of a phrase: quotes and backslashes are escaped. -/
def phraseBody : List Char → List Char
  | [] => []
  | c :: rest =>
    if c = '"' ∨ c = '\\' then '\\' :: c :: phraseBody rest else c :: phraseBody rest

/-- Writes a literal as a phrase in double quotes. -/
def phrase (cs : List Char) : List Char :=
  '"' :: (phraseBody cs ++ ['"'])

def escapeTerm (s : String) : String :=
  String.ofList (bareTerm s.toList)

def escapePhrase (s : String) : String :=
  String.ofList (phrase s.toList)

end SearchCompiler.Text
