import SearchCompiler.Bounds
import SearchCompiler.Decimal.Binary
import SearchCompiler.Toml.Value

/-!
# Reading values out of configuration documents

A record is written as a table, whose unknown members are skipped, or as an array of its members in
order, of which surplus ones are skipped. A date counts as a table of unknown members.
-/

namespace SearchCompiler

/-- The members of a record that are present. -/
structure Toml.Record where
  members : List (String × Toml)

namespace Toml

/-- Reads a record with the given member names, in order. What is skipped has to be readable. -/
def record? (names : List String) : Toml → Option Record
  | .table members =>
    if members.all fun m => names.contains m.1 || m.2.readable then some ⟨members⟩ else none
  | .list items => some ⟨names.zip items⟩
  | .moment _ => some ⟨[]⟩
  | _ => none

def Record.get? (r : Record) (name : String) : Option Toml :=
  r.members.lookup name

def Record.required {α : Type} (r : Record) (name : String) (decode : Toml → Option α) : Option α :=
  (r.get? name).bind decode

def Record.optional {α : Type} (r : Record) (name : String) (decode : Toml → Option α) :
    Option (Option α) :=
  match r.get? name with
  | some value => (decode value).map some
  | none => some none

def text? : Toml → Option String
  | .text s => some s
  | _ => none

def bool? : Toml → Option Bool
  | .bool b => some b
  | _ => none

def below? (bound : Nat) : Toml → Option Nat
  | .integer n => if 0 ≤ n ∧ n < bound then some n.toNat else none
  | _ => none

/-- Reads a number of single precision. An integer has to fit 64 bits, signed or unsigned. -/
def single? : Toml → Option Float32
  | .integer n => if fits64 n then some (Decimal.singleOfInt n) else none
  | .real x => some (Decimal.singleOfDouble x)
  | .single x => some x
  | _ => none

/-- Whether a value holds no other. -/
def isHollow : Toml → Bool
  | .list [] => true
  | .table [] => true
  | _ => false

/-- Reads the name of a case: a text, or a table whose only member has that name and holds
nothing. -/
def caseName? : Toml → Option String
  | .text s => some s
  | .table [(name, value)] => if value.isHollow then some name else none
  | _ => none

def case? {α : Type} (ofName? : String → Option α) (value : Toml) : Option α :=
  value.caseName?.bind ofName?

/-- Reads one value or a list of values. -/
def oneOrMany? {α : Type} (decode : Toml → Option α) : Toml → Option (List α)
  | .list items => items.mapM decode
  | value => (decode value).map ([·])

end Toml

end SearchCompiler
