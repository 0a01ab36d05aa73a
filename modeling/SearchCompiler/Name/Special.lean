import SearchCompiler.Field.Descriptor
import SearchCompiler.Field.Language
import SearchCompiler.Name.Codec

/-!
# Backend names

Every field has a name on the backend. Four reserved ids have fixed names; a field may pin its name;
any other name is derived from the data type, the cardinality, the language of a text field, and
the encoded id, for instance `ts_X3b_en_body` for the text field `body` in English.
-/

namespace SearchCompiler.Name

def itemId : String := "search_api_id"

def relevanceId : String := "search_api_relevance"

def languageId : String := "search_api_language"

def datasourceId : String := "search_api_datasource"

def reservedIds : List String := [itemId, relevanceId, languageId, datasourceId]

/-- The backend names of the reserved ids that a backend can choose. -/
structure Special where
  itemField : String
  languageField : String
deriving DecidableEq, Repr

namespace Special

/-- The names that a backend has unless it says otherwise. -/
def standard : Special := ⟨"ss_search_api_id", "ss_search_api_language"⟩

/-- The fixed name of a reserved id. -/
def nameOf? (s : Special) (id : String) : Option String :=
  if id = itemId then some s.itemField
  else if id = relevanceId then some "score"
  else if id = languageId then some s.languageField
  else if id = datasourceId then some "ss_search_api_datasource"
  else none

end Special

def typeLetters : DataType → String
  | .string => "s"
  | .text => "t"
  | .integer => "i"
  | .decimal => "f"
  | .boolean => "b"
  | .date => "d"
  | .dateRange => "dr"
  | .location => "loc"

/-- The mark in front of a derived name: data type and cardinality. Ranges of time always count as
many values. -/
def typeMark (type : DataType) (cardinality : Cardinality) : String :=
  let many := type = .dateRange || cardinality = .multi
  typeLetters type ++ (if many then "m" else "s")

/-- The part of a derived name for a language: the encoding of a semicolon and the language. -/
def languageSegment (language : LanguageId) : String :=
  encode (";" ++ language.text)

/-- The name derived from a field. Only text fields depend on the language. -/
def derived (field : Field) (language : LanguageId) : String :=
  let segment :=
    if field.isText && language ≠ LanguageId.unspecified then languageSegment language else ""
  typeMark field.type field.cardinality ++ segment ++ "_" ++ encode field.id

def Special.fieldName (s : Special) (field : Field) (language : LanguageId) : String :=
  match s.nameOf? field.id with
  | some name => name
  | none => field.pinned.getD (derived field language)

end SearchCompiler.Name
