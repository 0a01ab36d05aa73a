import SearchCompiler.Field.DataType
import SearchCompiler.Json.Record

/-!
# Field descriptors

A field of an index as the compiler sees it, and its form in JSON.
-/

namespace SearchCompiler

structure Field where
  /-- The id, unique within the index. -/
  id : String
  type : DataType
  cardinality : Cardinality
  /-- The source of its values, which plays no part in queries. -/
  datasource : Option String
  /-- How much a match in this field counts. -/
  boost : Option Float32
  /-- A name on the backend that replaces the derived one. -/
  pinned : Option String
deriving DecidableEq, Inhabited

namespace Field

/-- A field of single values without any options. -/
def simple (id : String) (type : DataType) : Field :=
  ⟨id, type, .single, none, none, none⟩

/-- Whether the field is searched by keys. -/
def isText (field : Field) : Bool :=
  field.type.isText

def ofJson? (value : Json) : Option Field := do
  let r ← value.record? ["id", "type", "cardinality", "datasource", "boost", "backend_name"]
  let id ← r.required "id" Json.text?
  let type ← r.required "type" (Json.case? DataType.ofName?)
  let cardinality ← r.withDefault "cardinality" .single (Json.case? Cardinality.ofName?)
  let datasource ← r.optional "datasource" Json.text?
  let boost ← r.optional "boost" Json.single?
  let pinned ← r.optional "backend_name" Json.text?
  return ⟨id, type, cardinality, datasource, boost, pinned⟩

def toJson (field : Field) : Json :=
  .object ([("id", .text field.id), ("type", .text field.type.name),
      ("cardinality", .text field.cardinality.name)] ++
    Json.member? "datasource" .text field.datasource ++
    Json.member? "boost" .single field.boost ++
    Json.member? "backend_name" .text field.pinned)

end Field

end SearchCompiler
