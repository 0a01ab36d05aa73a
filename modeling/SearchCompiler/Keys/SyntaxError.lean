import SearchCompiler.Text.Pieces

/-!
# Errors in keys

What can be wrong with typed keys, where, and how it is told: the message, the input with a mark
under the position, and a hint. Positions count bytes.
-/

namespace SearchCompiler.Keys

/-- What is wrong with typed keys. -/
inductive Fault where
  /-- A quote opens a phrase that does not end. -/
  | unclosedQuote
  /-- A closing parenthesis follows complete keys. -/
  | leftOver
  /-- A parenthesis is open where the keys go on or end. -/
  | missingClose
  /-- A closing parenthesis stands where keys are needed. -/
  | strayClose
  /-- `OR` stands where keys are needed. -/
  | misplacedOr
  /-- The keys end where more are needed. -/
  | unexpectedEnd
deriving DecidableEq, Repr

def Fault.message : Fault → String
  | unclosedQuote => "unclosed quote"
  | leftOver => "unexpected token: RParen"
  | missingClose => "expected closing parenthesis"
  | strayClose => "unexpected closing parenthesis"
  | misplacedOr => "unexpected OR (needs keys before it)"
  | unexpectedEnd => "unexpected end of keys"

/-- Where an error was found: while the input was cut into tokens, or while tokens were combined. -/
inductive Stage where
  | lexing
  | parsing
deriving DecidableEq, Repr

structure SyntaxError where
  stage : Stage
  message : String
  /-- The offset in bytes, if known. -/
  position : Option Nat
  /-- The keys as they were typed, if known. -/
  input : Option String
deriving DecidableEq, Repr

namespace SyntaxError

def ofFault (stage : Stage) (fault : Fault) (position : Nat) (input : String) : SyntaxError :=
  ⟨stage, fault.message, some position, some input⟩

/-- A hint for common errors, chosen by the words of the message. -/
def suggestion (e : SyntaxError) : Option String :=
  if Text.mentions e.message "unclosed quote" then
    some "Add a closing quote (\") to complete the phrase"
  else if Text.mentions e.message "closing parenthesis" then
    some "Add a closing parenthesis ) to match the opening one"
  else if Text.mentions e.message "OR" then
    some "OR requires keys on both sides, e.g., 'rust OR golang'"
  else none

def marker (position : Nat) : String :=
  "  " ++ Text.blanks position ++ "^"

/-- The error as it is shown: message, input, mark and hint. The mark never lies beyond the input.
-/
def display (e : SyntaxError) : String :=
  let context := match e.input with
    | none => ""
    | some input => "  " ++ input ++ "\n" ++
      match e.position with
      | none => ""
      | some position => marker (min position input.utf8ByteSize) ++ "\n"
  let hint := match e.suggestion with
    | none => ""
    | some text => "hint: " ++ text
  "keys syntax error: " ++ e.message ++ "\n" ++ context ++ hint

/-- The short form of an error found while lexing, which ends with the mark. -/
def lexDisplay (e : SyntaxError) : String :=
  "keys syntax error: " ++ e.message ++ "\n  " ++ e.input.getD "" ++ "\n" ++
    marker (e.position.getD 0)

/-- The short form of an error found while parsing: one line. -/
def parseDisplay (e : SyntaxError) : String :=
  match e.position with
  | some position => "at offset " ++ toString position ++ ": " ++ e.message
  | none => e.message

end SyntaxError

end SearchCompiler.Keys
