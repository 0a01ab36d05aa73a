import SearchCompiler.Config.File
import SearchCompiler.Files.Path
import SearchCompiler.Index.Schema

/-!
# Merged configuration

The settings that result from several files, of which earlier ones take precedence. Every setting is
that of the first file that has it, and so is every field, as a whole.
-/

namespace SearchCompiler

/-- The settings of an index. -/
structure Config where
  backend : Index.BackendSettings
  search : Index.SearchSettings
  fields : List Field
  /-- The directory of the file that takes precedence over all others. -/
  root : Option Files.Path
deriving Inhabited

namespace Config

/-- The settings when there are no files. -/
def standard : Config := ⟨.standard, .standard, [], none⟩

/-- A file with its place. -/
structure Placed where
  path : Files.Path
  file : File
deriving Inhabited

/-- Puts what a file says about the backend over settings. What it does not say stays. -/
def BackendPart.over (part : BackendPart) (settings : Index.BackendSettings) :
    Index.BackendSettings :=
  { siteName := part.siteName.getD settings.siteName
    siteHash := part.siteHash.or settings.siteHash
    indexId := part.indexId.getD settings.indexId
    idField := part.idField.getD settings.idField
    languageField := part.languageField.getD settings.languageField
    foreign := part.foreign.getD settings.foreign }

def SearchPart.over (part : SearchPart) (settings : Index.SearchSettings) : Index.SearchSettings :=
  { mode := part.mode.getD settings.mode
    conjunction := part.conjunction.getD settings.conjunction
    languages := part.languages.getD settings.languages
    limit := part.limit.getD settings.limit }

/-- The settings of the backend. Files are put over the standard from the last to the first. -/
def mergeBackend (files : List Placed) : Index.BackendSettings :=
  files.foldr (fun f settings => (f.file.backend.map (·.over settings)).getD settings) .standard

def mergeSearch (files : List Placed) : Index.SearchSettings :=
  files.foldr (fun f settings => (f.file.search.map (·.over settings)).getD settings) .standard

/-- Adds a field unless there is one with its id. -/
def addMissing (known : List Field) (field : Field) : List Field :=
  if known.any (·.id == field.id) then known else known ++ [field]

/-- The fields, in the order of their ids. Files are taken from the first to the last, and a field
that is known already stays as it is. -/
def mergeFields (files : List Placed) : List Field :=
  ((files.flatMap (·.file.fieldList)).foldl addMissing []).mergeSort fun f g => f.id ≤ g.id

/-- The settings of several files, the first of which takes precedence. -/
def merge (files : List Placed) : Config :=
  ⟨mergeBackend files, mergeSearch files, mergeFields files,
    files.head?.bind (·.path.parent?)⟩

def field? (c : Config) (id : String) : Option Field :=
  c.fields.find? fun f => f.id == id

/-- The fields that are searched by keys. -/
def textFields (c : Config) : List Field :=
  c.fields.filter Field.isText

/-- The index that the settings describe. -/
def schema (c : Config) : Index.Schema :=
  .build c.backend c.fields c.search.languages

end Config

end SearchCompiler
