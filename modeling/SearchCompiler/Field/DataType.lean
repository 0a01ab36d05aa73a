/-!
# Data types

What a field of an index holds, and whether it holds one value or many.
-/

namespace SearchCompiler

inductive DataType where
  | string
  /-- Tokenized text, kept apart by language. -/
  | text
  | integer
  | decimal
  | boolean
  | date
  | dateRange
  | location
deriving DecidableEq, Repr, Inhabited

namespace DataType

def all : List DataType :=
  [string, text, integer, decimal, boolean, date, dateRange, location]

def name : DataType → String
  | string => "string"
  | text => "text"
  | integer => "integer"
  | decimal => "decimal"
  | boolean => "boolean"
  | date => "date"
  | dateRange => "date_range"
  | location => "location"

def ofName? (text : String) : Option DataType :=
  all.find? fun t => t.name == text

/-- Reads a name, or says that it is unknown. -/
def parse (text : String) : Except String DataType :=
  match ofName? text with
  | some t => .ok t
  | none => .error ("unknown data type '" ++ text ++ "'")

/-- Whether fields of the type are searched by keys. -/
def isText (t : DataType) : Bool :=
  t == .text

end DataType

/-- Whether a field holds at most one value or any number. -/
inductive Cardinality where
  | single
  | multi
deriving DecidableEq, Repr, Inhabited

namespace Cardinality

def name : Cardinality → String
  | single => "single"
  | multi => "multi"

def ofName? : String → Option Cardinality
  | "single" => some single
  | "multi" => some multi
  | _ => none

def ofMulti (multi : Bool) : Cardinality :=
  if multi then .multi else .single

end Cardinality

end SearchCompiler
