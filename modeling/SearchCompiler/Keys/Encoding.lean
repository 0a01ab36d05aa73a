import SearchCompiler.Json.Record
import SearchCompiler.Keys.Expression
import SearchCompiler.Keys.Mode

/-!
# Keys in JSON

A term is a text, a group a record of its four parts, all of which have defaults.
-/

namespace SearchCompiler.Keys

/-- Reads keys of at most so many levels. -/
def Expression.ofJsonWithin : Nat → Json → Option Expression
  | _, .text s => some (.term s)
  | 0, _ => none
  | fuel + 1, value => do
    let r ← value.record? ["conjunction", "negation", "escaped", "children"]
    let conjunction ← r.withDefault "conjunction" .and (Json.case? Conjunction.ofName?)
    let negated ← r.withDefault "negation" false Json.bool?
    let escaped ← r.withDefault "escaped" false Json.bool?
    let children ← r.withDefault "children" [] (Json.list? (Expression.ofJsonWithin fuel))
    return .group conjunction negated escaped children

def Expression.ofJson? (value : Json) : Option Expression :=
  if value.readable then ofJsonWithin value.depth value else none

mutual

def Expression.toJson : Expression → Json
  | .term text => .text text
  | .group conjunction negated escaped children =>
    .object [("conjunction", .text conjunction.name), ("negation", .bool negated),
      ("escaped", .bool escaped), ("children", .list (Expression.listToJson children))]

def Expression.listToJson : List Expression → List Json
  | [] => []
  | child :: rest => child.toJson :: Expression.listToJson rest

end

end SearchCompiler.Keys
