import Mathlib.Data.List.Forall2
import SearchCompiler.Proofs.Compile.Leaf
import SearchCompiler.Proofs.Keys.Structure

/-!
# Strings that vary

Two groups of conditions that differ at most in strings (`Context.ItemVaries`), and the texts that a
group writes (`Context.groupTexts`). Where a string decides what is compiled, it must not vary: it
may be read as a truth value, as a circle or as a language. A blank string is no phrase, so the
strings on a text field are blank together.

Values that differ at most in such strings have texts together, or none together for the same reason
(`Context.valueTexts_agree`).
-/

namespace SearchCompiler.Filter

/-- Two operands of one form whose values are related. -/
inductive Operand.Varies (related : Value → Value → Prop) : Operand → Operand → Prop where
  | null : Varies related .null .null
  | list {vs ws : List (Option Value)} : List.Forall₂ (Option.Rel related) vs ws →
      Varies related (.list vs) (.list ws)
  | scalar {v w : Value} : related v w → Varies related (.scalar v) (.scalar w)

variable {related : Value → Value → Prop}

theorem Operand.Varies.refl (same : ∀ v, related v v) (x : Operand) : Varies related x x := by
  cases x with
  | null => exact .null
  | scalar v => exact .scalar (same v)
  | list vs =>
    refine .list (List.forall₂_same.mpr ?_)
    rintro (_ | v) _
    · exact .none
    · exact .some (same v)

theorem Operand.Varies.eq (equal : ∀ v w, related v w → v = w) {x y : Operand}
    (varies : Varies related x y) : x = y := by
  cases varies with
  | null => rfl
  | scalar same => rw [equal _ _ same]
  | list all =>
    have members : ∀ v w : Option Value, Option.Rel related v w → v = w := by
      rintro _ _ (same | _)
      · rw [equal _ _ same]
      · rfl
    have lists := all.imp members
    rw [List.forall₂_eq_eq_eq] at lists
    rw [lists]

theorem forall₂_filterMap {vs ws : List (Option Value)}
    (all : List.Forall₂ (Option.Rel related) vs ws) :
    List.Forall₂ related (vs.filterMap id) (ws.filterMap id) := by
  induction all with
  | nil => exact .nil
  | cons own _ ih =>
    cases own with
    | none => exact ih
    | some both => exact .cons both ih

theorem any_isNone {vs ws : List (Option Value)}
    (all : List.Forall₂ (Option.Rel related) vs ws) :
    vs.any Option.isNone = ws.any Option.isNone := by
  induction all with
  | nil => rfl
  | cons own _ ih =>
    rw [List.any_cons, List.any_cons, ih]
    cases own <;> rfl

end SearchCompiler.Filter

namespace SearchCompiler.Compile

open Filter
open Keys (Agree)

/-! ### The texts of values -/

/-- The text of a value in a field: a string stands for itself, unless it is a truth value, and so
does an integer, unless it is one or a point in time. -/
def writtenText (field : Field) : Value → String
  | .string s =>
    if field.type = .boolean then if s = "1" ∨ s = "true" then "true" else "false" else s
  | .integer n =>
    if field.type = .boolean then if n ≠ 0 then "true" else "false"
    else if field.type = .date then (Timestamp.text? n).getD ""
    else toString n
  | other => other.text

/-- What a value is written as depends on the type of the field alone. -/
theorem valueText_eq {field : Field} {operator : Operator} {value : Value} {text : String}
    (success : valueText field operator value = .ok text) : text = writtenText field value := by
  unfold valueText at success
  unfold writtenText
  generalize field.type = type at success ⊢
  cases value with
  | boolean | decimal => cases type <;> exact (Except.ok.inj success).symm
  | integer n =>
    cases type with
    | date =>
      change text = (Timestamp.text? n).getD ""
      dsimp only at success
      cases known : Timestamp.text? n with
      | none =>
        rw [known] at success
        cases success
      | some point =>
        rw [known] at success
        exact (Except.ok.inj success).symm
    | _ => exact (Except.ok.inj success).symm
  | string s =>
    cases type with
    | boolean =>
      change text = if s = "1" ∨ s = "true" then "true" else "false"
      dsimp only at success
      split at success
      · next yes =>
        rw [if_pos yes]
        exact (Except.ok.inj success).symm
      · next no =>
        rw [if_neg no]
        split at success
        · exact (Except.ok.inj success).symm
        · cases success
    | _ => exact (Except.ok.inj success).symm

theorem valueText_string {field : Field} (noTruth : field.type ≠ .boolean) (operator : Operator)
    (text : String) : valueText field operator (.string text) = .ok text := by
  unfold valueText
  generalize field.type = type at noTruth ⊢
  cases type with
  | boolean => exact absurd rfl noTruth
  | _ => rfl

theorem writtenText_string {field : Field} (noTruth : field.type ≠ .boolean) (text : String) :
    writtenText field (.string text) = text :=
  if_neg noTruth

namespace Context

variable (ctx : Context)

/-- Whether the strings in conditions on a field may vary. -/
def IsFree (id : String) : Prop :=
  id ≠ Name.languageId ∧
    ∀ field, ctx.schema.field? id = some field → field.type ≠ .boolean ∧ field.type ≠ .location

/-- Two values in conditions on a field that are the same, or two strings where they may vary; on a
text field they are blank together. -/
inductive ValueVaries (id : String) : Value → Value → Prop where
  | same (value : Value) : ValueVaries id value value
  | string (s t : String) : ctx.IsFree id →
      (∀ field, ctx.schema.field? id = some field → field.isText = true →
        Text.isBlankText s = Text.isBlankText t) →
      ValueVaries id (.string s) (.string t)

/-- Two conditions that differ at most in strings that may vary. -/
structure ConditionVaries (c d : Condition) : Prop where
  field : c.field = d.field
  operator : c.operator = d.operator
  operand : Operand.Varies (ctx.ValueVaries c.field) c.operand d.operand

mutual

/-- Two members of groups that differ at most in strings that may vary. -/
def ItemVaries : Item → Item → Prop
  | .condition c, .condition d => ctx.ConditionVaries c d
  | .group conjunction members tags, .group conjunction' members' tags' =>
    conjunction = conjunction' ∧ ItemsVary members members' ∧ tags = tags'
  | _, _ => False

def ItemsVary : List Item → List Item → Prop
  | [], [] => True
  | i :: is, j :: js => ItemVaries i j ∧ ItemsVary is js
  | _, _ => False

end

/-- The text that a distance becomes: a query in the syntax of another parser. -/
def circleTexts (name : String) : Operand → List String
  | .scalar (.string text) => ((Circle.ofText? text).map (Circle.query name)).toList
  | _ => []

/-- The texts that a condition on a field writes: nothing for what is absent, on a text field the
phrases that are not blank, trimmed, under each of its names, and otherwise one text a value. What
a builder from outside writes has no part in this. -/
def fieldTexts (languages : List LanguageId) (field : Field) (operand : Operand) : List String :=
  match field.type with
  | .location =>
    match ctx.spatial with
    | .skip | .other _ => []
    | .circles => circleTexts (ctx.catalog.nameOf field .unspecified) operand
  | .text =>
    (ctx.namesIn field languages []).flatMap fun _ => shownTexts (operand.values.map Value.text)
  | _ => operand.values.map (writtenText field)

mutual

def itemTexts (languages : List LanguageId) : Item → List String
  | .condition c =>
    match ctx.schema.field? c.field with
    | some field => ctx.fieldTexts languages field c.operand
    | none => []
  | .group _ members _ => itemsTexts (languagesWithin languages members) members

def itemsTexts (languages : List LanguageId) : List Item → List String
  | [] => []
  | member :: rest => itemTexts languages member ++ itemsTexts languages rest

end

/-- The languages of the filter that is added to a group, unless the backend is foreign or the group
restricts the language itself. -/
def ambientTexts (languages : List LanguageId) (members : List Item) : List String :=
  match languageOverride members with
  | .ok none => if ctx.schema.foreign then [] else languages.map LanguageId.text
  | _ => []

/-- The texts that a group writes, and those of the filter that is added to it. -/
def groupTexts (languages : List LanguageId) (group : Group) : List String :=
  ctx.itemTexts languages group.toItem ++ ctx.ambientTexts languages group.members

end Context

namespace Context

variable {ctx : Context} {key : String} {field : Field}

/-- Where strings must not vary, values are the same. -/
theorem ValueVaries.eq (fixed : ¬ ctx.IsFree key) {v w : Value} (varies : ctx.ValueVaries key v w) :
    v = w := by
  cases varies with
  | same => rfl
  | string s t free => exact absurd free fixed

/-- Conditions on the language do not vary, so a group keeps the languages that it asks for. -/
theorem languageOverride_varies {is js : List Item} (vary : ctx.ItemsVary is js) :
    languageOverride is = languageOverride js := by
  have same : ∀ (f : Item → Option Condition), (∀ i j, ctx.ItemVaries i j → f i = f j) →
      ∀ is js, ctx.ItemsVary is js → is.filterMap f = js.filterMap f := by
    intro f each is
    induction is with
    | nil =>
      rintro (_ | _) vary
      · rfl
      · exact vary.elim
    | cons i is ih =>
      rintro (_ | ⟨j, js⟩) vary
      · exact vary.elim
      · rw [ItemsVary] at vary
        rw [List.filterMap_cons, List.filterMap_cons, each i j vary.1, ih js vary.2]
  unfold languageOverride
  rw [same _ ?_ is js vary]
  rintro (c | _) (d | _) varies
  · obtain ⟨key, operator, x⟩ := c
    obtain ⟨key', operator', y⟩ := d
    obtain ⟨rfl, rfl, operands⟩ := varies
    dsimp only at operands ⊢
    split
    · next asked =>
      have fixed : ¬ ctx.IsFree key := fun free => free.1 asked.1
      rw [operands.eq fun v w => ValueVaries.eq fixed]
    · rfl
  · exact varies.elim
  · exact varies.elim
  · rfl

theorem languagesWithin_varies {is js : List Item} (vary : ctx.ItemsVary is js)
    (languages : List LanguageId) :
    languagesWithin languages is = languagesWithin languages js := by
  rw [languagesWithin, languagesWithin, languageOverride_varies vary]

/-- The filter on the languages is added exactly where its texts are. -/
theorem ambientTexts_eq {members : List Item} {override : Option (List LanguageId)}
    (scope : languageOverride members = .ok override) (ctx : Context)
    (languages : List LanguageId) :
    ctx.ambientTexts languages members =
      if override.isNone && !ctx.schema.foreign && !languages.isEmpty then
        languages.map LanguageId.text
      else [] := by
  rw [ambientTexts, scope]
  cases override <;> cases ctx.schema.foreign <;> cases languages <;> rfl

section

variable (found : ctx.schema.field? key = some field)

include found

/-- Values that vary are both written or both at fault. -/
theorem valueText_agree {v w : Value} (varies : ctx.ValueVaries key v w) (operator : Operator) :
    Agree (fun s t => s = writtenText field v ∧ t = writtenText field w)
      (valueText field operator v) (valueText field operator w) := by
  cases varies with
  | same value => exact Agree.self fun text success => ⟨valueText_eq success, valueText_eq success⟩
  | string s t free =>
    have noTruth : field.type ≠ .boolean := (free.2 field found).1
    rw [valueText_string noTruth, valueText_string noTruth, writtenText_string noTruth,
      writtenText_string noTruth]
    exact .ok ⟨rfl, rfl⟩

theorem valueTexts_agree {vs ws : List Value} (varies : List.Forall₂ (ctx.ValueVaries key) vs ws)
    (operator : Operator) :
    Agree (fun ss ts => ss = vs.map (writtenText field) ∧ ts = ws.map (writtenText field))
      (valueTexts field operator vs) (valueTexts field operator ws) := by
  induction varies with
  | nil => exact .ok ⟨rfl, rfl⟩
  | cons own _ ih =>
    refine Agree.bind (valueText_agree found own operator) ?_
    rintro _ _ ⟨rfl, rfl⟩
    refine Agree.bind ih ?_
    rintro _ _ ⟨rfl, rfl⟩
    exact .ok ⟨rfl, rfl⟩

end

end Context

end SearchCompiler.Compile
