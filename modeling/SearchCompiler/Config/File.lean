import SearchCompiler.Field.Descriptor
import SearchCompiler.Index.Settings
import SearchCompiler.Toml.Reader
import SearchCompiler.Toml.Record

/-!
# Configuration files

What one file says about an index. Every setting may be missing, so that other files can provide it.
-/

namespace SearchCompiler.Config

structure BackendPart where
  siteName : Option String
  siteHash : Option String
  indexId : Option String
  idField : Option String
  languageField : Option String
  foreign : Option Bool
deriving DecidableEq, Repr, Inhabited

structure SearchPart where
  mode : Option Keys.Mode
  conjunction : Option Conjunction
  languages : Option (List LanguageId)
  limit : Option Nat
deriving DecidableEq, Repr, Inhabited

structure FieldPart where
  type : DataType
  multi : Option Bool
  boost : Option Float32
  datasource : Option String
  name : Option String
deriving Inhabited

/-- What one file says. -/
structure File where
  /-- Whether files further up the tree are left out. -/
  root : Option Bool
  backend : Option BackendPart
  search : Option SearchPart
  /-- The fields by id, in order. -/
  fields : Option (List (String × FieldPart))
deriving Inhabited

def BackendPart.ofToml? (value : Toml) : Option BackendPart := do
  let r ← value.record?
    ["site_name", "site_hash", "index_id", "id_field", "language_field", "foreign_schema"]
  return {
    siteName := ← r.optional "site_name" Toml.text?
    siteHash := ← r.optional "site_hash" Toml.text?
    indexId := ← r.optional "index_id" Toml.text?
    idField := ← r.optional "id_field" Toml.text?
    languageField := ← r.optional "language_field" Toml.text?
    foreign := ← r.optional "foreign_schema" Toml.bool? }

def languageOfToml? (value : Toml) : Option LanguageId :=
  value.text?.bind fun text => (LanguageId.parse text).toOption

def SearchPart.ofToml? (value : Toml) : Option SearchPart := do
  let r ← value.record? ["parse_mode", "conjunction", "languages", "limit"]
  return {
    mode := ← r.optional "parse_mode" (Toml.case? Keys.Mode.ofName?)
    conjunction := ← r.optional "conjunction" (Toml.case? Conjunction.ofName?)
    languages := ← r.optional "languages" (Toml.oneOrMany? languageOfToml?)
    limit := ← r.optional "limit" (Toml.below? bound64) }

def FieldPart.memberNames : List String :=
  ["type", "multi", "boost", "datasource", "name"]

/-- Whether a field that is written as an array lacks members. -/
def FieldPart.isShort : Toml → Bool
  | .list items => items.length < memberNames.length
  | _ => false

def FieldPart.ofToml? (value : Toml) : Option FieldPart := do
  if isShort value then none
  let r ← value.record? memberNames
  return {
    type := ← r.required "type" (Toml.case? DataType.ofName?)
    multi := ← r.optional "multi" Toml.bool?
    boost := ← r.optional "boost" Toml.single?
    datasource := ← r.optional "datasource" Toml.text?
    name := ← r.optional "name" Toml.text? }

def fieldsOfToml? : Toml → Option (List (String × FieldPart))
  | .table members => do
    let fields ← members.mapM fun (id, value) => do return (id, ← FieldPart.ofToml? value)
    return fields.mergeSort fun a b => a.1 ≤ b.1
  | _ => none

def File.ofToml? (document : Toml) : Option File := do
  let r ← document.record? ["root", "backend", "search", "field"]
  return {
    root := ← r.optional "root" Toml.bool?
    backend := ← r.optional "backend" BackendPart.ofToml?
    search := ← r.optional "search" SearchPart.ofToml?
    fields := ← r.optional "field" fieldsOfToml? }

def File.read? (text : String) : Option File :=
  (Toml.read? text).bind File.ofToml?

def FieldPart.field (part : FieldPart) (id : String) : Field :=
  ⟨id, part.type, .ofMulti (part.multi.getD false), part.datasource, part.boost, part.name⟩

def File.fieldList (file : File) : List Field :=
  (file.fields.getD []).map fun (id, part) => part.field id

end SearchCompiler.Config
