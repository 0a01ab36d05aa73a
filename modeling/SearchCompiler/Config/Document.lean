import SearchCompiler.Config.Merged
import SearchCompiler.Toml.Writer

/-!
# Settings as a document

Settings are written in the form of a configuration file that says all of them.
-/

namespace SearchCompiler.Config

def backendToToml (b : Index.BackendSettings) : Toml :=
  .table ([("site_name", .text b.siteName)] ++ Toml.member? "site_hash" .text b.siteHash ++
    [("index_id", .text b.indexId), ("id_field", .text b.idField),
      ("language_field", .text b.languageField), ("foreign_schema", .bool b.foreign)])

def searchToToml (s : Index.SearchSettings) : Toml :=
  .table [("parse_mode", .text s.mode.name), ("conjunction", .text s.conjunction.name),
    ("languages", .list (s.languages.map fun l => .text l.text)), ("limit", .integer s.limit)]

def fieldToToml (f : Field) : Toml :=
  .table ([("type", .text f.type.name), ("multi", .bool (f.cardinality == .multi))] ++
    Toml.member? "boost" .single f.boost ++ Toml.member? "datasource" .text f.datasource ++
    Toml.member? "name" .text f.pinned)

/-- Settings as a document. Of several fields with one id the last is written. -/
def toToml (c : Config) : Toml :=
  .table [("backend", backendToToml c.backend), ("search", searchToToml c.search),
    ("field", .table ((Index.FieldSet.ofList c.fields).items.map fun f => (f.id, fieldToToml f)))]

def document (c : Config) : String :=
  c.toToml.documentText

end SearchCompiler.Config
