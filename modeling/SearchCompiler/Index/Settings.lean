import SearchCompiler.Bounds
import SearchCompiler.Keys.Mode
import SearchCompiler.Conjunction
import SearchCompiler.Name.Special

/-!
# Settings

What an index description says besides its fields: how the index lives on its backend, and how
searches behave unless a query says otherwise.
-/

namespace SearchCompiler.Index

/-- How an index lives on its backend. -/
structure BackendSettings where
  /-- The name that the site hash is derived from. -/
  siteName : String
  /-- A site hash that replaces the derived one. -/
  siteHash : Option String
  /-- The id that every item of the index carries. -/
  indexId : String
  /-- The backend field of the item id. -/
  idField : String
  /-- The backend field of the item language. -/
  languageField : String
  /-- Whether the items on the backend carry neither index id nor site hash. -/
  foreign : Bool
deriving DecidableEq, Repr

/-- How searches behave unless a query says otherwise. -/
structure SearchSettings where
  mode : Keys.Mode
  /-- The conjunction between neighbouring keys. -/
  conjunction : Conjunction
  languages : List LanguageId
  /-- The number of results of a request. -/
  limit : Nat
deriving DecidableEq, Repr

namespace BackendSettings

/-- The settings of a backend that says nothing. -/
def standard : BackendSettings :=
  ⟨"default", none, "default", Name.Special.standard.itemField,
    Name.Special.standard.languageField, false⟩

instance : Inhabited BackendSettings := ⟨standard⟩

def special (b : BackendSettings) : Name.Special :=
  ⟨b.idField, b.languageField⟩

def ofJson? (value : Json) : Option BackendSettings := do
  let r ← value.record?
    ["site_name", "site_hash", "index_id", "id_field", "language_field", "foreign_schema"]
  return {
    siteName := ← r.withDefault "site_name" standard.siteName Json.text?
    siteHash := ← r.optional "site_hash" Json.text?
    indexId := ← r.withDefault "index_id" standard.indexId Json.text?
    idField := ← r.withDefault "id_field" standard.idField Json.text?
    languageField := ← r.withDefault "language_field" standard.languageField Json.text?
    foreign := ← r.withDefault "foreign_schema" standard.foreign Json.bool? }

end BackendSettings

namespace SearchSettings

def standard : SearchSettings := ⟨.terms, .and, [], 10⟩

instance : Inhabited SearchSettings := ⟨standard⟩

def ofJson? (value : Json) : Option SearchSettings := do
  let r ← value.record? ["parse_mode", "conjunction", "languages", "limit"]
  return {
    mode := ← r.withDefault "parse_mode" standard.mode (Json.case? Keys.Mode.ofName?)
    conjunction := ← r.withDefault "conjunction" standard.conjunction
      (Json.case? Conjunction.ofName?)
    languages := ← r.withDefault "languages" standard.languages (Json.list? LanguageId.ofJson?)
    limit := ← r.withDefault "limit" standard.limit (Json.below? bound64) }

end SearchSettings

end SearchCompiler.Index
