import SearchCompiler.Bounds
import SearchCompiler.Filter.Condition
import SearchCompiler.Json.Record

/-!
# Filters in JSON

A member of a group is read as a condition if it can be, and otherwise as a group, all of whose
parts have defaults. Values are told apart by their form.
-/

namespace SearchCompiler.Filter

/-- Reads a value; an integer beyond 64 bits becomes a decimal. -/
def Value.ofJson? : Json → Option Value
  | .bool b => some (.boolean b)
  | .integer n => some (if fitsSigned64 n then .integer n else .decimal (Decimal.ofInt n))
  | .text s => some (.string s)
  | .null | .unreadable | .list _ | .object _ => none
  | number => number.real?.map .decimal

def Value.toJson : Value → Json
  | .boolean b => .bool b
  | .integer n => .integer n
  | .decimal x => .real x
  | .string s => .text s

/-- Reads a member of a list, which may be `null`. -/
def Value.ofMember? : Json → Option (Option Value)
  | .null => some none
  | value => (Value.ofJson? value).map some

def Operand.ofJson? : Json → Option Operand
  | .null => some .null
  | .list items => (items.mapM Value.ofMember?).map .list
  | value => (Value.ofJson? value).map .scalar

def Operand.toJson : Operand → Json
  | .null => .null
  | .list values => .list (values.map (Json.orNull Value.toJson))
  | .scalar value => value.toJson

def Condition.ofJson? (value : Json) : Option Condition := do
  let r ← value.record? ["field", "operator", "value"]
  return {
    field := ← r.required "field" Json.text?
    operator := ← r.required "operator" (Json.case? Operator.ofName?)
    operand := ← r.withDefault "value" .null Operand.ofJson? }

def Condition.toJson (c : Condition) : Json :=
  .object [("field", .text c.field), ("operator", .text c.operator.symbol),
    ("value", c.operand.toJson)]

/-- Reads a set of texts. -/
def tagsOfJson? (value : Json) : Option Text.TextSet :=
  (value.list? Json.text?).map .ofList

/-- A set of texts in JSON, left out when it is empty. -/
def tagsMember (tags : Text.TextSet) : List (String × Json) :=
  Json.listMember "tags" .text tags.items

/-- Reads the parts of a group, its members by `decode`. -/
def Group.ofJsonWith? (decode : Json → Option Item) (value : Json) : Option Group := do
  let r ← value.record? ["conjunction", "conditions", "tags"]
  return {
    conjunction := ← r.withDefault "conjunction" .and (Json.case? Conjunction.ofName?)
    members := ← r.withDefault "conditions" [] (Json.list? decode)
    tags := ← r.withDefault "tags" .empty tagsOfJson? }

/-- Reads a member of at most so many levels. -/
def Item.ofJsonWithin : Nat → Json → Option Item
  | 0, value => (Condition.ofJson? value).map .condition
  | fuel + 1, value =>
    match Condition.ofJson? value with
    | some c => some (.condition c)
    | none => (Group.ofJsonWith? (Item.ofJsonWithin fuel) value).map Group.toItem

def Item.ofJson? (value : Json) : Option Item :=
  if value.readable then ofJsonWithin value.depth value else none

def Group.ofJson? (value : Json) : Option Group :=
  Group.ofJsonWith? Item.ofJson? value

mutual

def Item.toJson : Item → Json
  | .condition c => c.toJson
  | .group conjunction members tags =>
    .object ([("conjunction", .text conjunction.name), ("conditions", .list (Item.listToJson members))] ++
      tagsMember tags)

def Item.listToJson : List Item → List Json
  | [] => []
  | item :: rest => item.toJson :: Item.listToJson rest

end

def Group.toJson (g : Group) : Json :=
  g.toItem.toJson

end SearchCompiler.Filter
