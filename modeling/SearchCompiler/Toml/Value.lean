/-!
# Configuration documents

A document after reading and before writing: a table of named values. The members of a table are
kept in order and no name occurs twice.
-/

namespace SearchCompiler

inductive Toml where
  | text (value : String)
  /-- An integer of up to 128 bits, signed or unsigned. -/
  | integer (value : Int)
  | real (value : Float)
  /-- A number of single precision; only writers produce it, so that its own digits are written. -/
  | single (value : Float32)
  | bool (value : Bool)
  /-- A date, a time or both, as it was written. -/
  | moment (text : String)
  /-- A number without a value: it is too large, or what it is made of is no number. -/
  | noValue
  | list (items : List Toml)
  | table (members : List (String × Toml))
deriving Inhabited

namespace Toml

mutual

/-- Whether every number of a value has one. A value that is skipped has to pass this. -/
def readable : Toml → Bool
  | .noValue => false
  | .list items => readableItems items
  | .table members => readableMembers members
  | _ => true

def readableItems : List Toml → Bool
  | [] => true
  | item :: rest => item.readable && readableItems rest

def readableMembers : List (String × Toml) → Bool
  | [] => true
  | (_, value) :: rest => value.readable && readableMembers rest

end

/-- A member that is left out when there is no value. -/
def member? {α : Type} (name : String) (encode : α → Toml) : Option α → List (String × Toml)
  | some a => [(name, encode a)]
  | none => []

end Toml

end SearchCompiler
