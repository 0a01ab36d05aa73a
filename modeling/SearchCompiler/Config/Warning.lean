import SearchCompiler.Config.Merged
import SearchCompiler.Decimal.Style
import SearchCompiler.Text.TextSet

/-!
# Warnings about settings

What is worth telling about settings that can be read, but hardly mean what they say.
-/

namespace SearchCompiler.Config

/-- Something worth telling about settings. -/
inductive Warning where
  /-- There are no fields. -/
  | noFields
  /-- Text fields have no language to be named for. -/
  | noLanguages (fields : List String)
  /-- A field has a reserved id. -/
  | reservedId (field : String)
  /-- A field has a boost that cannot count. -/
  | uselessBoost (field : String) (type : DataType)
  /-- A boost is zero or below. -/
  | badBoost (field : String) (boost : Float32)

def Warning.message : Warning → String
  | noFields => "no fields are defined in configuration"
  | noLanguages fields =>
    "fulltext fields (" ++ Text.joinTexts ", " fields ++
      ") need a language, but [search] languages is empty"
  | reservedId field => "field '" ++ field ++ "' uses a reserved id and will be ignored"
  | uselessBoost field type =>
    "field '" ++ field ++ "' has a boost but is of type " ++ type.name ++
      "; only text fields are boosted"
  | badBoost field boost =>
    "field '" ++ field ++ "' has a non-positive boost: " ++ Decimal.Style.plain.single boost

def Warning.hint : Warning → String
  | noFields => "Add [field.<id>] sections to .lucent.toml."
  | noLanguages _ => "Set languages in the [search] section, e.g. languages = [\"en\"]."
  | reservedId _ => "Rename the field; search_api_* ids map to fixed backend fields."
  | uselessBoost _ _ => "Boosts only apply to fulltext fields; remove them elsewhere."
  | badBoost _ _ => "Boosts must be greater than zero."

def boostWarnings (field : Field) (boost : Float32) : List Warning :=
  (if field.isText then [] else [.uselessBoost field.id field.type]) ++
    if boost ≤ 0 then [.badBoost field.id boost] else []

def fieldWarnings (field : Field) : List Warning :=
  (if Name.reservedIds.contains field.id then [.reservedId field.id] else []) ++
    match field.boost with
    | some boost => boostWarnings field boost
    | none => []

def warnings (c : Config) : List Warning :=
  if c.fields.isEmpty then [.noFields]
  else
    (if !c.textFields.isEmpty && c.search.languages.isEmpty then
      [.noLanguages (c.textFields.map (·.id))] else []) ++
    c.fields.flatMap fieldWarnings

/-- The hints for several warnings, each once, in order. -/
def hints (warnings : List Warning) : List String :=
  (Text.TextSet.ofList (warnings.map Warning.hint)).items

end SearchCompiler.Config
