import SearchCompiler.Filter.Encoding
import SearchCompiler.Filter.Location
import SearchCompiler.Index.Settings
import SearchCompiler.Keys.Encoding

/-!
# Search queries

What is searched, independent of any backend: keys, filters, order, facets, groups and the part of
the results that is wanted. Every part of a query has a default.
-/

namespace SearchCompiler.Request

inductive Direction where
  | ascending
  | descending
deriving DecidableEq, Repr, Inhabited

def Direction.name : Direction → String
  | ascending => "asc"
  | descending => "desc"

def Direction.ofName? : String → Option Direction
  | "asc" => some ascending
  | "desc" => some descending
  | _ => none

structure Order where
  field : String
  direction : Direction
deriving DecidableEq, Repr, Inhabited

/-- How the selected values of a facet combine. -/
inductive FacetMode where
  /-- They narrow the results, and counts follow all filters. -/
  | and
  /-- They widen the results, and counts leave out the facet's own filter. -/
  | or
deriving DecidableEq, Repr, Inhabited

def FacetMode.name : FacetMode → String
  | and => "and"
  | or => "or"

def FacetMode.ofName? : String → Option FacetMode
  | "and" => some and
  | "or" => some or
  | _ => none

/-- The counts of the values of a field. -/
structure Facet where
  field : String
  /-- The number of values. -/
  limit : Option Nat
  /-- The least count of a value. -/
  minCount : Option Nat
  /-- Whether items without a value are counted. -/
  missing : Bool
  mode : FacetMode
deriving DecidableEq, Repr, Inhabited

def Facet.simple (field : String) : Facet := ⟨field, none, none, false, .and⟩

/-- The tag of the filter of a facet's own selection. -/
def Facet.exclusionTag (f : Facet) : String := "facet:" ++ f.field

structure Grouping where
  fields : List String
  /-- The number of results in a group. -/
  limit : Option Nat
  /-- The order within a group. -/
  sorts : List Order
deriving DecidableEq, Repr, Inhabited

structure Query where
  keys : Option Keys.Expression
  /-- Keys as they were typed, for a query without keys. -/
  text : Option String
  /-- The text fields to search; none means all. -/
  fields : List String
  mode : Option Keys.Mode
  filter : Filter.Group
  /-- The languages to search; none means those of the index. -/
  languages : List LanguageId
  sorts : List Order
  facets : List Facet
  grouping : Option Grouping
  locations : List Filter.LocationFilter
  /-- The number of results to leave out. -/
  offset : Nat
  limit : Option Nat
  /-- Whether results may come from other indexes of the backend. -/
  unscoped : Bool

/-- The query that asks for everything. -/
def Query.empty : Query :=
  ⟨none, none, [], none, .ofConjunction .and, [], [], [], none, [], 0, none, false⟩

instance : Inhabited Query := ⟨.empty⟩

def Order.ofJson? (value : Json) : Option Order := do
  let r ← value.record? ["field", "order"]
  return ⟨← r.required "field" Json.text?,
    ← r.withDefault "order" .ascending (Json.case? Direction.ofName?)⟩

def Order.toJson (s : Order) : Json :=
  .object [("field", .text s.field), ("order", .text s.direction.name)]

def countJson (n : Nat) : Json := .integer n

def Facet.ofJson? (value : Json) : Option Facet := do
  let r ← value.record? ["field", "limit", "min_count", "missing", "operator"]
  return {
    field := ← r.required "field" Json.text?
    limit := ← r.optional "limit" (Json.below? bound32)
    minCount := ← r.optional "min_count" (Json.below? bound32)
    missing := ← r.withDefault "missing" false Json.bool?
    mode := ← r.withDefault "operator" .and (Json.case? FacetMode.ofName?) }

def Facet.toJson (f : Facet) : Json :=
  .object ([("field", .text f.field)] ++ Json.member? "limit" countJson f.limit ++
    Json.member? "min_count" countJson f.minCount ++
    [("missing", .bool f.missing), ("operator", .text f.mode.name)])

def Grouping.ofJson? (value : Json) : Option Grouping := do
  let r ← value.record? ["fields", "limit", "sort"]
  return {
    fields := ← r.required "fields" (Json.list? Json.text?)
    limit := ← r.optional "limit" (Json.below? bound32)
    sorts := ← r.withDefault "sort" [] (Json.list? Order.ofJson?) }

def Grouping.toJson (g : Grouping) : Json :=
  .object ([("fields", Json.texts g.fields)] ++ Json.member? "limit" countJson g.limit ++
    Json.listMember "sort" Order.toJson g.sorts)

namespace Query

def memberNames : List String :=
  ["keys", "text", "fields", "parse_mode", "conditions", "languages", "sorts", "facets", "grouping",
    "locations", "offset", "limit", "skip_scoping"]

def ofJson? (value : Json) : Option Query := do
  let r ← value.record? memberNames
  return {
    keys := ← r.optional "keys" Keys.Expression.ofJson?
    text := ← r.optional "text" Json.text?
    fields := ← r.withDefault "fields" [] (Json.list? Json.text?)
    mode := ← r.optional "parse_mode" (Json.case? Keys.Mode.ofName?)
    filter := ← r.withDefault "conditions" (.ofConjunction .and) Filter.Group.ofJson?
    languages := ← r.withDefault "languages" [] (Json.list? LanguageId.ofJson?)
    sorts := ← r.withDefault "sorts" [] (Json.list? Order.ofJson?)
    facets := ← r.withDefault "facets" [] (Json.list? Facet.ofJson?)
    grouping := ← r.optional "grouping" Grouping.ofJson?
    locations := ← r.withDefault "locations" [] (Json.list? Filter.LocationFilter.ofJson?)
    offset := ← r.withDefault "offset" 0 (Json.below? bound64)
    limit := ← r.optional "limit" (Json.below? bound64)
    unscoped := ← r.withDefault "skip_scoping" false Json.bool? }

def toJson (q : Query) : Json :=
  .object (Json.member? "keys" Keys.Expression.toJson q.keys ++
    Json.member? "text" .text q.text ++
    Json.listMember "fields" .text q.fields ++
    Json.member? "parse_mode" (fun m => .text m.name) q.mode ++
    [("conditions", q.filter.toJson)] ++
    Json.listMember "languages" LanguageId.toJson q.languages ++
    Json.listMember "sorts" Order.toJson q.sorts ++
    Json.listMember "facets" Facet.toJson q.facets ++
    Json.member? "grouping" Grouping.toJson q.grouping ++
    Json.listMember "locations" Filter.LocationFilter.toJson q.locations ++
    [("offset", countJson q.offset)] ++
    Json.member? "limit" countJson q.limit ++
    [("skip_scoping", .bool q.unscoped)])

end Query

end SearchCompiler.Request
