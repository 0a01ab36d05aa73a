import SearchCompiler.Conjunction
import SearchCompiler.Decimal.Style
import SearchCompiler.Filter.Operator
import SearchCompiler.Text.TextSet

/-!
# Conditions

A filter is a tree of groups whose leaves compare one field with an operand. Groups carry tags, by
which a facet can be counted without the filter of its own selection.
-/

namespace SearchCompiler.Filter

/-- A literal that a field is compared with. -/
inductive Value where
  | boolean (value : Bool)
  /-- An integer of 64 bits; on dates, seconds since 1970. -/
  | integer (value : Int)
  | decimal (value : Float)
  | string (value : String)
deriving Inhabited

namespace Value

def text : Value → String
  | .boolean b => if b then "true" else "false"
  | .integer n => toString n
  | .decimal x => Decimal.Style.plain.double x
  | .string s => s

def kind : Value → String
  | .boolean _ => "boolean"
  | .integer _ => "integer"
  | .decimal _ => "decimal"
  | .string _ => "string"

end Value

/-- What a field is compared with. -/
inductive Operand where
  /-- No value: the field is absent. -/
  | null
  /-- A list, in which an absent member stands for the absent field. -/
  | list (values : List (Option Value))
  | scalar (value : Value)
deriving Inhabited

/-- A list without absent members. -/
def Operand.ofValues (values : List Value) : Operand :=
  .list (values.map some)

/-- The values of an operand, without absent ones. -/
def Operand.values : Operand → List Value
  | .null => []
  | .list values => values.filterMap id
  | .scalar value => [value]

structure Condition where
  field : String
  operator : Operator
  operand : Operand
deriving Inhabited

namespace Condition

def equal (field : String) (value : Value) : Condition := ⟨field, .eq, .scalar value⟩

def differs (field : String) (value : Value) : Condition := ⟨field, .neq, .scalar value⟩

def absent (field : String) : Condition := ⟨field, .eq, .null⟩

def present (field : String) : Condition := ⟨field, .neq, .null⟩

/-- The field lies between two bounds, both included. -/
def between (field : String) (low high : Value) : Condition :=
  ⟨field, .between, .ofValues [low, high]⟩

def outside (field : String) (low high : Value) : Condition :=
  ⟨field, .notBetween, .ofValues [low, high]⟩

def oneOf (field : String) (values : List Value) : Condition := ⟨field, .isIn, .ofValues values⟩

def noneOf (field : String) (values : List Value) : Condition := ⟨field, .notIn, .ofValues values⟩

end Condition

/-- A member of a group: a condition, or a group with its conjunction, members and tags. -/
inductive Item where
  | condition (c : Condition)
  | group (conjunction : Conjunction) (members : List Item) (tags : Text.TextSet)
deriving Inhabited

structure Group where
  conjunction : Conjunction
  members : List Item
  tags : Text.TextSet
deriving Inhabited

namespace Group

/-- A group without members. -/
def ofConjunction (conjunction : Conjunction) : Group := ⟨conjunction, [], .empty⟩

def toItem (g : Group) : Item := .group g.conjunction g.members g.tags

def tagged (g : Group) (tag : String) : Group :=
  { g with tags := g.tags.insert tag }

def append (g : Group) (item : Item) : Group :=
  { g with members := g.members ++ [item] }

def isEmpty (g : Group) : Bool := g.members.isEmpty

/-- The conditions that are members of the group itself. -/
def conditions (g : Group) : List Condition :=
  g.members.filterMap fun
    | .condition c => some c
    | .group _ _ _ => none

end Group

end SearchCompiler.Filter
