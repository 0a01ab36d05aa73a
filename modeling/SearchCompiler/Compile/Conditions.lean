import SearchCompiler.Compile.Traced
import SearchCompiler.Filter.Fragment
import SearchCompiler.Filter.Location
import SearchCompiler.Filter.Timestamp
import SearchCompiler.Index.Schema
import SearchCompiler.Keys.Flatten

/-!
# Compiled conditions

A tree of conditions becomes filter queries. The members of an AND group at the top stay filters of
their own, so that each can be tagged and cached; nested groups fold into one filter each. A filter
on the languages is added, unless the backend is foreign or the top group restricts the language
itself.
-/

namespace SearchCompiler.Compile

open SearchCompiler.Filter

/-- What becomes of conditions on locations. -/
inductive Spatial where
  /-- They add no filter. -/
  | skip
  /-- Distances become circles. -/
  | circles
  /-- Another builder says what they become, from the field, its name and the condition: a query as
  it stands, no filter, or an error. -/
  | other (builder : Field → String → Condition → Except Error (Option String))
deriving Inhabited

/-- What compiling needs to know besides the query. -/
structure Context where
  catalog : Index.Catalog
  spatial : Spatial

namespace Context

def schema (ctx : Context) : Index.Schema := ctx.catalog.schema

/-- Asks for the name of a field in a language. -/
def name (ctx : Context) (field : Field) (language : LanguageId) : Traced String :=
  let name := ctx.catalog.nameOf field language
  ⟨.ok name, [.named ⟨field.id, language, name⟩]⟩

def field (ctx : Context) (id : String) : Except Error Field :=
  match ctx.schema.field? id with
  | some field => .ok field
  | none => .error (.unknownField id)

/-- Asks for the names of a field in several languages, each name once. -/
def distinctNames (ctx : Context) (field : Field) : List LanguageId → List String →
    Traced (List String)
  | [], names => pure names
  | language :: rest, names => do
    let name ← ctx.name field language
    ctx.distinctNames field rest (if names.contains name then names else names ++ [name])

end Context

/-- The text that a value has in a field. Truth values are written alike, and dates as such. -/
def valueText (field : Field) (operator : Operator) (value : Value) : Except Error String :=
  match field.type, value with
  | .boolean, .integer n => .ok (if n ≠ 0 then "true" else "false")
  | .boolean, .string s =>
    if s = "1" ∨ s = "true" then .ok "true"
    else if s = "0" ∨ s = "false" then .ok "false"
    else .error (.invalidOperand field.id operator (.notBoolean s))
  | .date, .integer n =>
    match Timestamp.text? n with
    | some text => .ok text
    | none => .error (.invalidOperand field.id operator (.timestamp n))
  | _, value => .ok value.text

def valueTexts (field : Field) (operator : Operator) : List Value → Except Error (List String)
  | [] => .ok []
  | value :: rest => do
    let text ← valueText field operator value
    let texts ← valueTexts field operator rest
    return text :: texts

/-- One of the values, or none when `orAbsent`. -/
def inClause (name : String) (texts : List String) (orAbsent : Bool) : Clause :=
  .anyOf (texts.map (Clause.equals name) ++
    if orAbsent then [.list [.everything, (Clause.present name).not]] else [])

/-- None of the values; and present, when `andPresent`. -/
def notInClause (name : String) (texts : List String) (andPresent : Bool) : Clause :=
  if texts.isEmpty then .present name
  else
    .list ((if andPresent then (Clause.present name).must else .everything) ::
      texts.map fun text => (Clause.equals name text).not)

def rangeClause (name : String) (lower upper : Option String) (withBounds : Bool) : Clause :=
  .onField name (.atom (.range lower upper withBounds withBounds)) ""

/-- A condition on a field that is neither text nor location. -/
def valueClause (field : Field) (name : String) (operator : Operator) (operand : Operand) :
    Except Error Clause :=
  let text := valueText field operator
  let invalid := fun fault => Except.error (Error.invalidOperand field.id operator fault)
  if field.type = .boolean ∧ (operator.isComparison || operator.isRange) then
    .error (.unsupportedOperator field.id field.type operator)
  else
    match operator, operand with
    | .eq, .null => .ok (Clause.present name).not
    | .neq, .null => .ok (.present name)
    | .eq, .scalar v => do return .equals name (← text v)
    | .neq, .scalar v => do return .both .everything (Clause.equals name (← text v)).not
    | .lt, .scalar v => do return rangeClause name none (some (← text v)) false
    | .lte, .scalar v => do return rangeClause name none (some (← text v)) true
    | .gt, .scalar v => do return rangeClause name (some (← text v)) none false
    | .gte, .scalar v => do return rangeClause name (some (← text v)) none true
    | .between, .list [some low, some high] => do
      let low ← text low
      let high ← text high
      return rangeClause name (some low) (some high) true
    | .notBetween, .list [some low, some high] => do
      let low ← text low
      let high ← text high
      return .list [.everything, (rangeClause name (some low) (some high) true).not]
    | .isIn, .list values =>
      if values.isEmpty then invalid .noValues
      else do
        let texts ← valueTexts field operator (values.filterMap id)
        return inClause name texts (values.any Option.isNone)
    | .notIn, .list values =>
      if values.isEmpty then invalid .noValues
      else do
        let texts ← valueTexts field operator (values.filterMap id)
        return notInClause name texts (values.any Option.isNone)
    | .between, _ | .notBetween, _ => invalid .notTwoValues
    | .isIn, _ | .notIn, _ => invalid .noList
    | _, .list _ => invalid .listForScalar
    | .lt, .null | .lte, .null | .gt, .null | .gte, .null => invalid .nullBound

/-- The phrases that a condition on a text field compares with. -/
def textValues (field : Field) (operator : Operator) (operand : Operand) :
    Except Error (List Value) :=
  match operator, operand with
  | .eq, .scalar v | .neq, .scalar v => .ok [v]
  | .isIn, .list values | .notIn, .list values =>
    if values.any Option.isNone then .error (.invalidOperand field.id operator .nullOnText)
    else .ok (values.filterMap id)
  | _, _ => .error (.unsupportedOperator field.id field.type operator)

/-- A condition on a text field with a name for every language: any of the values as a phrase, in
any of the languages. Values that are all blank add no filter. -/
def textClause (field : Field) (names : List String) (operator : Operator) (operand : Operand) :
    Except Error (Option Clause) :=
  match operator, operand with
  | .eq, .null =>
    let absent := names.map fun name => (Clause.present name).not
    .ok (some (match absent with
      | [single] => single
      | several => .list (.everything :: several)))
  | .neq, .null => .ok (some (.anyOf (names.map Clause.present)))
  | operator, operand => do
    let values ← textValues field operator operand
    let keys := Keys.Expression.terms .or (values.map Value.text)
    let keys := if operator = .neq ∨ operator = .notIn then keys.negate else keys
    let targets := names.map fun name => (⟨name, Target.plainSuffix⟩ : Target)
    (Keys.Flattening.mk targets .phrase).compile keys

/-- A condition on a location: presence, or a distance. -/
def locationClause (field : Field) (name : String) (operator : Operator) (operand : Operand) :
    Except Error Clause :=
  match operator, operand with
  | .eq, .null => .ok (Clause.present name).not
  | .neq, .null => .ok (.present name)
  | .lt, .scalar (.string text) | .lte, .scalar (.string text) =>
    match Circle.ofText? text with
    | some circle => .ok (.atom (.nested (circle.query name)))
    | none => .error (.invalidOperand field.id operator (.notDistance text))
  | _, _ => .error (.unsupportedOperator field.id field.type operator)

/-- The languages that a group restricts its members to, by the first of its own conditions on the
language that asks for one or one of several. -/
def languageOverride (members : List Item) : Except Error (Option (List LanguageId)) :=
  let restricts := members.filterMap fun
    | .condition c =>
      if c.field = Name.languageId ∧ (c.operator = .eq ∨ c.operator = .isIn) then some c else none
    | .group _ _ _ => none
  match restricts with
  | [] => .ok none
  | c :: _ =>
    let language := fun (v : Value) =>
      match LanguageId.parse v.text with
      | .ok language => Except.ok language
      | .error e => .error (Error.invalidOperand Name.languageId c.operator (.language e))
    match c.operand with
    | .null => .ok none
    | .scalar v => do return some [← language v]
    | .list values => do return some (← (values.filterMap id).mapM language)

namespace Context

/-- Compiles a condition; it may add no filter. -/
def condition (ctx : Context) (languages : List LanguageId) (c : Condition) :
    Traced (Option Fragment) := do
  let field ← Traced.ofExcept (ctx.field c.field)
  match field.type with
  | .location =>
    let name ← ctx.name field .unspecified
    match ctx.spatial with
    | .skip =>
      Traced.warn (.locationSkipped field.id c.operator)
      return none
    | .circles =>
      let clause ← Traced.ofExcept (locationClause field name c.operator c.operand)
      return some (.ofClause clause)
    | .other builder =>
      let query ← Traced.ofExcept (builder field name c)
      return query.map fun text => .ofClause (.raw text)
  | .text =>
    if languages.isEmpty then throw (Error.missingLanguage field.id)
    let names ← ctx.distinctNames field languages []
    let clause ← Traced.ofExcept (textClause field names c.operator c.operand)
    return clause.map Fragment.ofClause
  | _ =>
    let name ← ctx.name field .unspecified
    let clause ← Traced.ofExcept (valueClause field name c.operator c.operand)
    return some (.ofClause clause)

mutual

def item (ctx : Context) (languages : List LanguageId) : Item → Traced (Option Fragment)
  | .condition c => ctx.condition languages c
  | .group conjunction members tags => do
    let override ← Traced.ofExcept (languageOverride members)
    let fragments ← ctx.items (override.getD languages) members
    return Fragment.reduce fragments conjunction tags false

/-- Compiles the members of a group; those that add no filter are left out. -/
def items (ctx : Context) (languages : List LanguageId) : List Item → Traced (List Fragment)
  | [] => pure []
  | member :: rest => do
    let fragment ← ctx.item languages member
    let fragments ← ctx.items languages rest
    return fragment.toList ++ fragments

end

def languageCondition (languages : List LanguageId) : Condition :=
  ⟨Name.languageId, .isIn, .ofValues (languages.map fun l => .string l.text)⟩

/-- Compiles the group at the top into filters. -/
def conditions (ctx : Context) (languages : List LanguageId) (group : Group) :
    Traced (List Fragment) := do
  let override ← Traced.ofExcept (languageOverride group.members)
  let fragments ← ctx.items (override.getD languages) group.members
  let filters := match group.conjunction with
    | .and => fragments.map (Fragment.withTags · group.tags)
    | .or => (Fragment.reduce fragments .or group.tags true).toList
  if override.isNone && !ctx.schema.foreign && !languages.isEmpty then
    let language ← ctx.condition languages (languageCondition languages)
    return filters ++ language.toList
  else return filters

end Context

end SearchCompiler.Compile
