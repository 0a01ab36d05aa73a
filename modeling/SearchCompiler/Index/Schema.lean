import SearchCompiler.Index.FieldSet
import SearchCompiler.Index.Settings
import SearchCompiler.Index.SiteHash
import SearchCompiler.Name.Book

/-!
# Schemas

The index as the compiler sees it: fields, languages, and what keeps its items apart from those of
other indexes on the same backend. The reserved ids are fields of every schema and come before
configured fields of the same id.
-/

namespace SearchCompiler.Index

/-- What keeps the items of an index of a site apart on a backend. -/
structure Scope where
  indexId : String
  siteHash : String
deriving DecidableEq, Repr

/-- The scope of a backend; the hash is derived from the site name unless it is given. -/
def BackendSettings.scope (b : BackendSettings) : Scope :=
  ⟨b.indexId, b.siteHash.getD (Index.siteHash b.siteName)⟩

structure Schema where
  fields : FieldSet
  /-- The languages that are searched when a query names none. -/
  languages : List LanguageId
  scope : Scope
  /-- Whether items carry neither index id nor site hash. -/
  foreign : Bool
  /-- The backend names of the reserved ids. -/
  special : Name.Special

/-- The field of a reserved id: the relevance is a number, all others are strings. -/
def reservedField? (id : String) : Option Field :=
  if Name.reservedIds.contains id then
    some (.simple id (if id = Name.relevanceId then .decimal else .string))
  else none

namespace Schema

/-- An index without fields and languages on a backend. -/
def ofBackend (b : BackendSettings) : Schema :=
  ⟨.empty, [], b.scope, b.foreign, b.special⟩

def build (b : BackendSettings) (fields : List Field) (languages : List LanguageId) : Schema :=
  { ofBackend b with fields := .ofList fields, languages }

/-- The field with an id, reserved ids first. -/
def field? (s : Schema) (id : String) : Option Field :=
  (reservedField? id).or (s.fields.find? id)

end Schema

/-- A schema together with the book of the names that were asked for. -/
structure Catalog where
  schema : Schema
  names : Name.Book

namespace Catalog

/-- A schema whose names were not asked for yet. -/
def ofSchema (schema : Schema) : Catalog := ⟨schema, .empty⟩

/-- Adds a field and forgets all names. -/
def addField (c : Catalog) (field : Field) : Catalog :=
  ⟨{ c.schema with fields := c.schema.fields.insert field }, .empty⟩

/-- Removes the field with an id. Names are forgotten only when there was one. -/
def removeField (c : Catalog) (id : String) : Catalog × Option Field :=
  match c.schema.fields.find? id with
  | some field => (⟨{ c.schema with fields := c.schema.fields.erase id }, .empty⟩, some field)
  | none => (c, none)

def setLanguages (c : Catalog) (languages : List LanguageId) : Catalog :=
  ⟨{ c.schema with languages }, .empty⟩

/-- Says whether items carry index id and site hash. Names do not depend on that and stay. -/
def setForeign (c : Catalog) (foreign : Bool) : Catalog :=
  { c with schema := { c.schema with foreign } }

def reset (c : Catalog) : Catalog :=
  { c with names := .empty }

def nameOf (c : Catalog) (field : Field) (language : LanguageId) : String :=
  c.names.nameOf c.schema.special field language

def remember (c : Catalog) (entries : List Name.Entry) : Catalog :=
  { c with names := c.names.rememberAll entries }

/-- The name of a field in a language, which is remembered from then on. -/
def ask (c : Catalog) (field : Field) (language : LanguageId) : Catalog × String :=
  let name := c.nameOf field language
  (c.remember [⟨field.id, language, name⟩], name)

end Catalog

end SearchCompiler.Index
