import SearchCompiler.Keys.Expression
import SearchCompiler.Keys.Mode
import SearchCompiler.Keys.Token

/-!
# Reading keys

Keys follow the grammar

    alternatives  =  sequence, (OR, sequence)*
    sequence      =  unary+
    unary         =  '-', unary  |  primary
    primary       =  term  |  phrase  |  '(', alternatives, ')'

where a sequence combines by a conjunction of the caller's choice. Every function takes the tokens
that are left and returns those behind what it read, with a proof that there are fewer.
-/

namespace SearchCompiler.Keys

/-- What reading needs to know besides the tokens. -/
structure Grammar where
  /-- The conjunction between neighbours. -/
  adjacent : Conjunction
  /-- The offset just behind the last token. -/
  stop : Nat

abbrev FaultAt := Fault × Nat

/-- Tokens that are left after reading something. -/
abbrev Behind (tokens : List Spanned) := { rest : List Spanned // rest.length < tokens.length }

/-- Tokens that are left after reading something or nothing. -/
abbrev Within (tokens : List Spanned) := { rest : List Spanned // rest.length ≤ tokens.length }

/-- The members that an expression adds to a group of a conjunction: a group of the same
conjunction that is not negated dissolves. -/
def membersUnder (conjunction : Conjunction) : Expression → List Expression
  | .group c negated escaped children =>
    if !negated && !escaped && c == conjunction then children
    else [.group c negated escaped children]
  | .term text => [.term text]

/-- Combines siblings under a conjunction; a single one stays as it is. -/
def combine (conjunction : Conjunction) : List Expression → Expression
  | [single] => single
  | several => .group conjunction false false (several.flatMap (membersUnder conjunction))

/-- A term in a group of its own; groups stay as they are. -/
def grouped (conjunction : Conjunction) : Expression → Expression
  | .term text => .group conjunction false false [.term text]
  | group => group

def Token.startsUnary : Token → Bool
  | .term _ | .phrase _ | .not | .opening => true
  | .or | .closing => false

mutual

def readAlternatives (g : Grammar) (tokens : List Spanned) :
    Except FaultAt (Expression × Behind tokens) :=
  match readSequence g tokens with
  | .error e => .error e
  | .ok (first, ⟨rest, hrest⟩) =>
    match readMoreAlternatives g rest with
    | .error e => .error e
    | .ok (others, ⟨left, hleft⟩) => .ok (combine .or (first :: others), ⟨left, by omega⟩)
termination_by (tokens.length, 5)

/-- Reads the alternatives behind the first, each after an `OR`. -/
def readMoreAlternatives (g : Grammar) (tokens : List Spanned) :
    Except FaultAt (List Expression × Within tokens) :=
  match tokens with
  | ⟨.or, _⟩ :: rest =>
    match readSequence g rest with
    | .error e => .error e
    | .ok (next, ⟨rest', hrest'⟩) =>
      match readMoreAlternatives g rest' with
      | .error e => .error e
      | .ok (others, ⟨left, hleft⟩) => .ok (next :: others, ⟨left, by simp; omega⟩)
  | tokens => .ok ([], ⟨tokens, Nat.le_refl _⟩)
termination_by (tokens.length, 4)

def readSequence (g : Grammar) (tokens : List Spanned) :
    Except FaultAt (Expression × Behind tokens) :=
  match readUnary g tokens with
  | .error e => .error e
  | .ok (first, ⟨rest, hrest⟩) =>
    match readMoreUnaries g rest with
    | .error e => .error e
    | .ok (others, ⟨left, hleft⟩) => .ok (combine g.adjacent (first :: others), ⟨left, by omega⟩)
termination_by (tokens.length, 3)

/-- Reads the neighbours behind the first. -/
def readMoreUnaries (g : Grammar) (tokens : List Spanned) :
    Except FaultAt (List Expression × Within tokens) :=
  match tokens with
  | [] => .ok ([], ⟨[], Nat.le_refl _⟩)
  | ⟨token, offset⟩ :: rest =>
    if token.startsUnary then
      match readUnary g (⟨token, offset⟩ :: rest) with
      | .error e => .error e
      | .ok (next, ⟨rest', hrest'⟩) =>
        match readMoreUnaries g rest' with
        | .error e => .error e
        | .ok (others, ⟨left, hleft⟩) => .ok (next :: others, ⟨left, by omega⟩)
    else .ok ([], ⟨⟨token, offset⟩ :: rest, Nat.le_refl _⟩)
termination_by (tokens.length, 2)

/-- Reads a negation, a term, a phrase or keys in parentheses. -/
def readUnary (g : Grammar) (tokens : List Spanned) :
    Except FaultAt (Expression × Behind tokens) :=
  match tokens with
  | [] => .error (.unexpectedEnd, g.stop)
  | ⟨.not, _⟩ :: rest =>
    match readUnary g rest with
    | .error e => .error e
    | .ok (inner, ⟨left, hleft⟩) => .ok (inner.negate, ⟨left, by simp; omega⟩)
  | ⟨.term text, _⟩ :: rest => .ok (.term text, ⟨rest, by simp⟩)
  | ⟨.phrase text, _⟩ :: rest => .ok (.term text, ⟨rest, by simp⟩)
  | ⟨.opening, _⟩ :: rest =>
    match readAlternatives g rest with
    | .error e => .error e
    | .ok (inner, ⟨⟨.closing, _⟩ :: left, hleft⟩) =>
      .ok (grouped g.adjacent inner, ⟨left, by simp at hleft ⊢; omega⟩)
    | .ok (_, ⟨⟨_, offset⟩ :: _, _⟩) => .error (.missingClose, offset)
    | .ok (_, ⟨[], _⟩) => .error (.missingClose, g.stop)
  | ⟨.closing, offset⟩ :: _ => .error (.strayClose, offset)
  | ⟨.or, offset⟩ :: _ => .error (.misplacedOr, offset)
termination_by (tokens.length, 1)

end

/-- The offset just behind the last token. -/
def stopOf (tokens : List Spanned) : Nat :=
  match tokens.getLast? with
  | some last => last.offset + 1
  | none => 0

/-- Reads all tokens as keys; no tokens are no keys. -/
def readTokens (adjacent : Conjunction) (tokens : List Spanned) :
    Except FaultAt (Option Expression) :=
  if tokens.isEmpty then .ok none
  else
    match readAlternatives ⟨adjacent, stopOf tokens⟩ tokens with
    | .error e => .error e
    | .ok (keys, ⟨[], _⟩) => .ok (some keys)
    | .ok (_, ⟨⟨_, offset⟩ :: _, _⟩) => .error (.leftOver, offset)

/-- Reads typed keys. The direct mode takes the whole input as a query and the phrase mode as one
term; blank input holds no keys. -/
def parse (input : String) (mode : Mode) (adjacent : Conjunction) :
    Except SyntaxError (Option Expression) :=
  if Text.isBlankText input then .ok none
  else
    match mode with
    | .direct => .ok (some (.term (Text.trimText input)))
    | .phrase => .ok (some (.terms adjacent [Text.trimText input]))
    | .terms | .edismax =>
      match lex input with
      | .error e => .error e
      | .ok tokens =>
        match readTokens adjacent tokens with
        | .error (fault, offset) => .error (.ofFault .parsing fault offset input)
        | .ok keys => .ok (keys.map (grouped adjacent))

end SearchCompiler.Keys
