import SearchCompiler.Text.Escape
import SearchCompiler.Text.Pieces

/-!
# Clauses

Every query that is written is the printed form of a tree of clauses, and this is the only place
where such a text is put together. Literals are escaped once, when their clause is printed.
-/

namespace SearchCompiler

/-- The sign in front of a clause: it has to hold, or must not hold. -/
inductive Sign where
  | must
  | mustNot
deriving DecidableEq, Repr

def Sign.char : Sign → Char
  | must => '+'
  | mustNot => '-'

/-- A backend field to search, with what stands behind its clauses, such as a boost. -/
structure Target where
  name : String
  suffix : String
deriving DecidableEq, Repr

/-- A clause without parts. -/
inductive Atom where
  /-- What every document matches. -/
  | all
  /-- A literal as one bare term. -/
  | term (text : String)
  /-- A literal as a phrase in quotes. -/
  | phrase (text : String)
  /-- The values between two bounds, each of which may be open, with or without the bounds
  themselves. -/
  | range (lower upper : Option String) (withLower withUpper : Bool)
  /-- A query in the syntax of another parser, nested as a quoted text. -/
  | nested (query : String)
  /-- A text that is a query already. -/
  | raw (text : String)
deriving DecidableEq, Repr

inductive Clause where
  | atom (a : Atom)
  | signed (sign : Sign) (c : Clause)
  /-- A clause on a backend field, with what stands behind it. -/
  | onField (name : String) (c : Clause) (suffix : String)
  /-- Clauses in parentheses. -/
  | list (cs : List Clause)
  /-- Clauses side by side. -/
  | row (cs : List Clause)
  /-- Two clauses that both have to hold, joined by `AND` in parentheses. -/
  | both (a b : Clause)
  /-- Clauses for an inline query over several fields. -/
  | dismax (targets : List Target) (cs : List Clause)
deriving Repr, Inhabited

/-- A range with bounds in their written form; an open bound is a star. -/
def rangeChars (lower upper : Option (List Char)) (withLower withUpper : Bool) : List Char :=
  (if withLower then '[' else '\x7b') :: (lower.getD ['*'] ++ " TO ".toList ++ upper.getD ['*'] ++
    [if withUpper then ']' else '\x7d'])

def Atom.chars : Atom → List Char
  | .all => ['*', ':', '*']
  | .term text => Text.bareTerm text.toList
  | .phrase text => Text.phrase text.toList
  | .range lower upper withLower withUpper =>
    rangeChars (lower.map fun s => Text.phrase s.toList) (upper.map fun s => Text.phrase s.toList)
      withLower withUpper
  | .nested query => "_query_:\"".toList ++ query.toList ++ ['"']
  | .raw text => text.toList

/-- The fields of an inline query with their boosts. -/
def targetsText (targets : List Target) : String :=
  Text.joinTexts " " (targets.map fun t => t.name ++ t.suffix)

namespace Clause

mutual

def chars : Clause → List Char
  | .atom a => a.chars
  | .signed sign c => sign.char :: c.chars
  | .onField name c suffix => name.toList ++ ':' :: (c.chars ++ suffix.toList)
  | .list cs => '(' :: (charsAll cs ++ [')'])
  | .row cs => charsAll cs
  | .both a b => '(' :: (a.chars ++ " AND ".toList ++ b.chars ++ [')'])
  | .dismax targets cs =>
    "\x7b!edismax qf='".toList ++ (targetsText targets).toList ++ "'\x7d".toList ++ charsAll cs

def charsAll : List Clause → List Char
  | [] => []
  | [c] => c.chars
  | c :: d :: rest => c.chars ++ ' ' :: charsAll (d :: rest)

end

def render (c : Clause) : String :=
  String.ofList c.chars

/-- A text that is a query already. -/
def raw (text : String) : Clause := .atom (.raw text)

/-- The query that every document matches. -/
def everything : Clause := .atom .all

def present (name : String) : Clause :=
  .onField name (.atom (.range none none true true)) ""

def equals (name value : String) : Clause :=
  .onField name (.atom (.phrase value)) ""

def not (c : Clause) : Clause := .signed .mustNot c

def must (c : Clause) : Clause := .signed .must c

/-- A list of clauses, unless there is just one. -/
def anyOf : List Clause → Clause
  | [c] => c
  | cs => .list cs

/-- Whether the written form begins with a sign. -/
def isSigned (c : Clause) : Bool :=
  match c.chars with
  | '+' :: _ => true
  | '-' :: _ => true
  | _ => false

end Clause

/-- The range of a field between two bounds in their written form. -/
def rangeQuery (field : String) (lower upper : Option String) (withLower withUpper : Bool) : String :=
  field ++ ":" ++
    String.ofList (rangeChars (lower.map String.toList) (upper.map String.toList) withLower withUpper)

end SearchCompiler
