import SearchCompiler.Json.Value
import SearchCompiler.Decimal.Binary

/-!
# Reading values out of JSON

A record is written as an object, whose unknown members are skipped, or as an array of its members
in order. Scalars never convert into each other, except that a number may be read as a real one.
-/

namespace SearchCompiler

/-- The members of a record that are present. -/
structure Json.Record where
  members : List (String × Json)

namespace Json

/-- Whether a name occurs among the members more than once. -/
def repeats (name : String) (members : List (String × Json)) : Bool :=
  1 < (members.filter fun m => m.1 == name).length

/-- Reads a record with the given member names, in order. A known member may not be repeated and
an array may not be longer than the record. -/
def record? (names : List String) : Json → Option Record
  | .object members =>
    if names.any (repeats · members) then none else some ⟨members⟩
  | .list items =>
    if names.length < items.length then none else some ⟨names.zip items⟩
  | _ => none

def Record.get? (r : Record) (name : String) : Option Json :=
  r.members.lookup name

def Record.required {α : Type} (r : Record) (name : String) (decode : Json → Option α) : Option α :=
  (r.get? name).bind decode

def Record.withDefault {α : Type} (r : Record) (name : String) (default : α)
    (decode : Json → Option α) : Option α :=
  match r.get? name with
  | some value => decode value
  | none => some default

/-- Reads a member that may be absent or `null`. -/
def Record.optional {α : Type} (r : Record) (name : String) (decode : Json → Option α) :
    Option (Option α) :=
  match r.get? name with
  | some .null => some none
  | some value => (decode value).map some
  | none => some none

def text? : Json → Option String
  | .text s => some s
  | _ => none

def bool? : Json → Option Bool
  | .bool b => some b
  | _ => none

/-- Reads a natural below a bound. -/
def below? (bound : Nat) : Json → Option Nat
  | .integer n => if 0 ≤ n ∧ n < bound then some n.toNat else none
  | _ => none

/-- Reads a real number. An infinite one comes from digits beyond the range and is refused. -/
def real? : Json → Option Float
  | .integer n => some (Decimal.ofInt n)
  | .real x => if x.isFinite then some x else none
  | .single x => some x.toFloat
  | _ => none

def single? : Json → Option Float32
  | .integer n => some (Decimal.singleOfInt n)
  | .real x => if x.isFinite then some (Decimal.singleOfDouble x) else none
  | .single x => some x
  | _ => none

def list? {α : Type} (decode : Json → Option α) : Json → Option (List α)
  | .list items => items.mapM decode
  | _ => none

def textPair? : Json → Option (String × String)
  | .list [.text a, .text b] => some (a, b)
  | _ => none

/-- Reads the name of a case: a text, or an object whose only member has that name and the value
`null`. -/
def caseName? : Json → Option String
  | .text s => some s
  | .object [(name, .null)] => some name
  | _ => none

def case? {α : Type} (ofName? : String → Option α) (value : Json) : Option α :=
  value.caseName?.bind ofName?

end Json

end SearchCompiler
