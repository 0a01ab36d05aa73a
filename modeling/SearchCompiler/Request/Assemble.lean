import SearchCompiler.Compile.Conditions
import SearchCompiler.Keys.Parser
import SearchCompiler.Request.Compiled

/-!
# Assembled requests

A query becomes a request in a fixed order, which also says which of two errors is told: the main
query, the conditions, the locations, the sort, the facets, the groups.
-/

namespace SearchCompiler.Request

open Compile

/-- What assembling needs to know besides the query. -/
structure Assembly where
  context : Context
  settings : Index.SearchSettings

namespace Assembly

def schema (a : Assembly) : Index.Schema := a.context.schema

/-- The languages of a query: its own, or those of the index. -/
def languages (a : Assembly) (q : Query) : List LanguageId :=
  if q.languages.isEmpty then a.schema.languages else q.languages

def fieldsOf (a : Assembly) : List String → Except Error (List Field)
  | [] => .ok []
  | id :: rest => do
    let field ← a.context.field id
    let fields ← a.fieldsOf rest
    return field :: fields

/-- Adds the targets of a field in several languages, each target once. -/
def addTargets (a : Assembly) (field : Field) : List LanguageId → List Target →
    Traced (List Target)
  | [], targets => pure targets
  | language :: rest, targets => do
    let name ← a.context.name field language
    let target := Target.boosted name field.boost
    a.addTargets field rest (if targets.contains target then targets else targets ++ [target])

/-- The targets of several fields. A field that is not searched by keys is left out with a
warning. -/
def targetsOf (a : Assembly) (languages : List LanguageId) : List Field → List Target →
    Traced (List Target)
  | [], targets => pure targets
  | field :: rest, targets => do
    if field.isText then
      if languages.isEmpty then throw (Error.missingLanguage field.id)
      let targets ← a.addTargets field languages targets
      a.targetsOf languages rest targets
    else
      Traced.warn (.notSearchable field.id field.type)
      a.targetsOf languages rest targets

/-- The targets of the fields with the given ids, or of all text fields. -/
def targets (a : Assembly) (ids : List String) (languages : List LanguageId) :
    Traced (List Target) := do
  let fields ← Traced.ofExcept
    (if ids.isEmpty then .ok a.schema.fields.textFields else a.fieldsOf ids)
  a.targetsOf languages fields []

/-- The keys of a query: its own, or else its text as typed. -/
def keys (a : Assembly) (q : Query) (mode : Keys.Mode) : Except Error (Option Keys.Expression) :=
  match q.keys, q.text with
  | some keys, _ => .ok (some keys)
  | none, some text =>
    match Keys.parse text mode a.settings.conjunction with
    | .ok keys => .ok keys
    | .error e => .error (.keys e)
  | none, none => .ok none

/-- The main query; without keys it matches every document. -/
def mainQuery (a : Assembly) (q : Query) (languages : List LanguageId) : Traced Clause := do
  let mode := q.mode.getD a.settings.mode
  match ← Traced.ofExcept (a.keys q mode) with
  | none => return .everything
  | some keys =>
    let targets ← a.targets q.fields languages
    let clause ← Traced.ofExcept ((Keys.Flattening.mk targets mode).compile keys)
    return clause.getD .everything

/-- The filter that keeps results to the index and the site. -/
def scopeFilter (a : Assembly) : Clause :=
  .row [(Clause.onField "index_id" (.atom (.term a.schema.scope.indexId)) "").must,
    (Clause.onField "hash" (.atom (.term a.schema.scope.siteHash)) "").must]

def locationFilter (a : Assembly) (l : Filter.LocationFilter) : Traced String := do
  let field ← Traced.ofExcept (a.context.field l.field)
  if field.type ≠ .location then throw (Error.unsupportedOperator field.id field.type .lte)
  let name ← a.context.name field .unspecified
  return l.circle.query name

/-- The backend name of a field to sort, count or group by; a text field is taken in the first
language. -/
def nameOf (a : Assembly) (languages : List LanguageId) (id : String) : Traced String := do
  let field ← Traced.ofExcept (a.context.field id)
  if field.isText then
    match languages with
    | [] => throw (Error.missingLanguage field.id)
    | language :: _ => a.context.name field language
  else a.context.name field .unspecified

/-- An order in a request; no criteria are no order. -/
def sortClause (a : Assembly) (languages : List LanguageId) (sorts : List Order) :
    Traced (Option String) := do
  if sorts.isEmpty then return none
  let clauses ← sorts.mapM fun s => do
    return (← a.nameOf languages s.field) ++ " " ++ s.direction.name
  return some (Text.joinTexts "," clauses)

def facetParameters (a : Assembly) (languages : List LanguageId) (f : Facet) :
    Traced (List Parameter) := do
  let name ← a.nameOf languages f.field
  let counted := match f.mode with
    | .and => name
    | .or => "\x7b!ex=" ++ f.exclusionTag ++ "\x7d" ++ name
  let option := fun (suffix : String) (value : Option String) =>
    (value.map fun v => ("f." ++ name ++ ".facet." ++ suffix, v)).toList
  return [("facet.field", counted)] ++ option "limit" (f.limit.map toString) ++
    option "mincount" (f.minCount.map toString) ++
    option "missing" (if f.missing then some "true" else none)

def facetsParameters (a : Assembly) (languages : List LanguageId) (facets : List Facet) :
    Traced (List Parameter) := do
  if facets.isEmpty then return []
  let parameters ← facets.mapM (a.facetParameters languages)
  return ("facet", "true") :: parameters.flatten

/-- The parameters of groups of results; groups by no field are no groups. -/
def groupParameters (a : Assembly) (languages : List LanguageId) (g : Grouping) :
    Traced (List Parameter) := do
  if g.fields.isEmpty then return []
  let fields ← g.fields.mapM (a.nameOf languages)
  let sort ← a.sortClause languages g.sorts
  return [("group", "true")] ++ fields.map (fun name => ("group.field", name)) ++
    (g.limit.map fun n => ("group.limit", toString n)).toList ++
    (sort.map fun s => ("group.sort", s)).toList

/-- The fields that every request asks for. -/
def returnedFields (a : Assembly) : List String :=
  [Name.itemId, Name.relevanceId, Name.languageId].map fun id =>
    (a.schema.special.nameOf? id).getD id

def request (a : Assembly) (q : Query) : Traced Compiled := do
  let languages := a.languages q
  let main ← a.mainQuery q languages
  let scope := if !q.unscoped && !a.schema.foreign then [a.scopeFilter.render] else []
  let fragments ← a.context.conditions languages q.filter
  let locations ← q.locations.mapM a.locationFilter
  let sort ← a.sortClause languages q.sorts
  let facets ← a.facetsParameters languages q.facets
  let groups ← match q.grouping with
    | some g => a.groupParameters languages g
    | none => pure []
  return {
    query := main.render
    filters := scope ++ fragments.map Filter.Fragment.render ++ locations
    sort
    start := q.offset
    rows := q.limit.getD a.settings.limit
    returned := a.returnedFields
    facets
    groups }

end Assembly

end SearchCompiler.Request
