/-!
# JSON values

A document after reading and before writing. Objects keep their members in order and keep repeated
members, because a record with a repeated member is refused while an unknown one is skipped.
-/

namespace SearchCompiler

inductive Json where
  | null
  | bool (value : Bool)
  /-- A number without fraction and exponent that fits 64 bits, signed or unsigned. -/
  | integer (value : Int)
  /-- Any other number. -/
  | real (value : Float)
  /-- A number of single precision; only writers produce it, so that its own digits are written. -/
  | single (value : Float32)
  | text (value : String)
  /-- A value that can be skipped but not read: a text whose escapes name no character, or an
  array or object that is nested too deeply. -/
  | unreadable
  | list (items : List Json)
  | object (members : List (String × Json))

namespace Json

mutual

/-- Whether a value can be read as a whole: it holds nothing unreadable and no infinite number. -/
def readable : Json → Bool
  | .unreadable => false
  | .real x => x.isFinite
  | .list items => readableItems items
  | .object members => readableMembers members
  | _ => true

def readableItems : List Json → Bool
  | [] => true
  | item :: rest => item.readable && readableItems rest

def readableMembers : List (String × Json) → Bool
  | [] => true
  | (_, value) :: rest => value.readable && readableMembers rest

end

mutual

/-- How many arrays and objects are nested in a value. -/
def depth : Json → Nat
  | .list items => depthItems items + 1
  | .object members => depthMembers members + 1
  | _ => 0

def depthItems : List Json → Nat
  | [] => 0
  | item :: rest => max item.depth (depthItems rest)

def depthMembers : List (String × Json) → Nat
  | [] => 0
  | (_, value) :: rest => max value.depth (depthMembers rest)

end

instance : Inhabited Json := ⟨.null⟩

def texts (items : List String) : Json :=
  .list (items.map .text)

def orNull {α : Type} (encode : α → Json) : Option α → Json
  | some a => encode a
  | none => .null

/-- A member that is left out when there is no value. -/
def member? {α : Type} (name : String) (encode : α → Json) : Option α → List (String × Json)
  | some a => [(name, encode a)]
  | none => []

/-- A member that is left out when the list is empty. -/
def listMember {α : Type} (name : String) (encode : α → Json) (items : List α) :
    List (String × Json) :=
  if items.isEmpty then [] else [(name, .list (items.map encode))]

end Json

end SearchCompiler
