import SearchCompiler.Json.Writer
import SearchCompiler.Request.Query
import SearchCompiler.Text.Pieces

/-!
# Compiled requests

A request as it is sent to the backend, as ordered parameters and as JSON.
-/

namespace SearchCompiler.Request

abbrev Parameter := String × String

structure Compiled where
  /-- The main query. -/
  query : String
  /-- The filters, in order. -/
  filters : List String
  sort : Option String
  start : Nat
  rows : Nat
  /-- The fields that are returned. -/
  returned : List String
  facets : List Parameter
  groups : List Parameter
deriving DecidableEq, Repr

namespace Compiled

/-- The request as parameters; a name may occur several times. -/
def parameters (c : Compiled) : List Parameter :=
  [("q", c.query)] ++ c.filters.map (fun f => ("fq", f)) ++
    (c.sort.map fun s => ("sort", s)).toList ++
    [("start", toString c.start), ("rows", toString c.rows),
      ("fl", Text.joinTexts "," c.returned)] ++
    c.facets ++ c.groups

def parameterJson (p : Parameter) : Json := Json.texts [p.1, p.2]

def ofJson? (value : Json) : Option Compiled := do
  let r ← value.record? ["q", "fq", "sort", "start", "rows", "fl", "facet", "group"]
  return {
    query := ← r.required "q" Json.text?
    filters := ← r.withDefault "fq" [] (Json.list? Json.text?)
    sort := ← r.optional "sort" Json.text?
    start := ← r.required "start" (Json.below? bound64)
    rows := ← r.required "rows" (Json.below? bound64)
    returned := ← r.required "fl" (Json.list? Json.text?)
    facets := ← r.withDefault "facet" [] (Json.list? Json.textPair?)
    groups := ← r.withDefault "group" [] (Json.list? Json.textPair?) }

def toJson (c : Compiled) : Json :=
  .object ([("q", .text c.query)] ++
    Json.listMember "fq" .text c.filters ++
    Json.member? "sort" .text c.sort ++
    [("start", countJson c.start), ("rows", countJson c.rows), ("fl", Json.texts c.returned)] ++
    Json.listMember "facet" parameterJson c.facets ++
    Json.listMember "group" parameterJson c.groups)

/-- The request as a JSON document on several lines. -/
def document (c : Compiled) : String := c.toJson.pretty

end Compiled

end SearchCompiler.Request
