import SearchCompiler.Proofs.Compile.Scopes
import SearchCompiler.Proofs.Compile.Structure

/-!
# Empty lists of values

A condition can ask for one of several values, or for none of them, and name no value at all
(`Condition.isEmptyChoice`). On a field that is neither text nor location such a condition is at
fault. On a text field it is at fault only where no languages are in force; elsewhere it adds no
filter, like a condition whose values are all blank.

A condition that adds no filter and restricts no languages can be left out of a tree without a
change (`conditions_pruned`). So a tree either fails to compile for an empty list or is compiled as
if its empty lists on text fields were not there (`empty_choices_outcome`): such a tree can let
everything through (`empty_choice_ignored`).
-/

namespace SearchCompiler.Filter

/-- A condition that offers an empty list of values, to choose one or to rule them out. -/
def Condition.isEmptyChoice (c : Condition) : Bool :=
  c.operator.isList &&
    match c.operand with
    | .list values => values.isEmpty
    | .null | .scalar _ => false

theorem Condition.isEmptyChoice_iff {c : Condition} :
    c.isEmptyChoice = true ↔ (c.operator = .isIn ∨ c.operator = .notIn) ∧ c.operand = .list [] := by
  obtain ⟨field, operator, operand⟩ := c
  cases operator <;> cases operand <;> simp [isEmptyChoice, Operator.isList]

mutual

/-- What is left of a member without some conditions. -/
def Item.pruned (drop : Condition → Bool) : Item → List Item
  | .condition c => if drop c then [] else [.condition c]
  | .group conjunction members tags => [.group conjunction (Item.prunedAll drop members) tags]

def Item.prunedAll (drop : Condition → Bool) : List Item → List Item
  | [] => []
  | member :: rest => member.pruned drop ++ Item.prunedAll drop rest

end

/-- A group without some of the conditions in it. -/
def Group.pruned (group : Group) (drop : Condition → Bool) : Group :=
  { group with members := Item.prunedAll drop group.members }

end SearchCompiler.Filter

namespace SearchCompiler.Compile

open Filter

/-- Conditions that do not ask for a language can be left out without a change to the languages that
a group restricts its members to. -/
theorem languageOverride_pruned {drop : Condition → Bool}
    (blind : ∀ c, drop c = true → c.field ≠ Name.languageId) (members : List Item) :
    languageOverride (Item.prunedAll drop members) = languageOverride members := by
  have same : ∀ g : Item → Option Condition, (∀ c, drop c = true → g (.condition c) = none) →
      (∀ conjunction members tags, g (.group conjunction members tags) = none) →
      (Item.prunedAll drop members).filterMap g = members.filterMap g := by
    intro g dropped groups
    induction members with
    | nil => rfl
    | cons member rest ih =>
      rw [Item.prunedAll, List.filterMap_append, ih]
      cases member with
      | condition c =>
        rw [Item.pruned]
        split
        · next drops =>
          rw [List.filterMap_cons_none (dropped c drops)]
          rfl
        · rw [List.filterMap_cons, List.filterMap_cons]
          cases g (.condition c) <;> rfl
      | group conjunction members tags =>
        rw [Item.pruned, List.filterMap_cons_none (groups _ _ _),
          List.filterMap_cons_none (groups _ _ _)]
        rfl
  unfold languageOverride
  rw [same]
  · intro c drops
    exact if_neg fun asks => blind c drops asks.1
  · exact fun _ _ _ => rfl

namespace Context

variable {ctx : Context}

/-- What the first of several members becomes, in front of what the others become. -/
theorem items_cons_outcome (languages : List LanguageId) (member : Item) (rest : List Item) :
    (ctx.items languages (member :: rest)).outcome =
      (ctx.item languages member).outcome >>= fun o =>
        (ctx.items languages rest).outcome.map (o.toList ++ ·) := by
  rw [items, Traced.outcome_bind]
  congr 1
  funext o
  rw [Traced.outcome_bind]
  cases (ctx.items languages rest).outcome <;> rfl

/-- What a group becomes, as one equation that covers its errors. -/
theorem item_group_outcome (languages : List LanguageId) (conjunction : Conjunction)
    (members : List Item) (tags : Text.TextSet) :
    (ctx.item languages (.group conjunction members tags)).outcome =
      languageOverride members >>= fun override =>
        (ctx.items (override.getD languages) members).outcome.map
          (Fragment.reduce · conjunction tags false) := by
  rw [item, Traced.outcome_bind, Traced.outcome_ofExcept]
  congr 1
  funext override
  rw [Traced.outcome_bind]
  cases (ctx.items (override.getD languages) members).outcome <;> rfl

theorem items_single_outcome (languages : List LanguageId) (member : Item) :
    (ctx.items languages [member]).outcome =
      (ctx.item languages member).outcome.map Option.toList := by
  rw [items_cons_outcome]
  cases (ctx.item languages member).outcome with
  | error e => rfl
  | ok o => exact congrArg Except.ok (List.append_nil o.toList)

/-- Members are compiled from left to right, and the first fault ends it. -/
theorem items_append_outcome (languages : List LanguageId) (is js : List Item) :
    (ctx.items languages (is ++ js)).outcome =
      (ctx.items languages is).outcome >>= fun fs =>
        (ctx.items languages js).outcome.map (fs ++ ·) := by
  induction is with
  | nil =>
    rw [List.nil_append]
    cases (ctx.items languages js).outcome <;> rfl
  | cons i rest ih =>
    rw [List.cons_append, items_cons_outcome, ih, items_cons_outcome]
    cases (ctx.item languages i).outcome with
    | error e => rfl
    | ok o =>
      cases (ctx.items languages rest).outcome with
      | error e => rfl
      | ok fs =>
        cases (ctx.items languages js).outcome with
        | error e => rfl
        | ok gs => exact congrArg Except.ok (List.append_assoc o.toList fs gs).symm

/-- The conditions that are to be dropped add no filter in the languages they are compiled in. -/
def AreSilent (ctx : Context) (drop : Condition → Bool) (parts : List Part) : Prop :=
  ∀ languages c, Part.condition languages c ∈ parts → drop c = true →
    (ctx.condition languages c).outcome = .ok none

mutual

/-- Conditions that add no filter can be dropped from a member, if none of them is on the language.
-/
theorem item_pruned {drop : Condition → Bool}
    (blind : ∀ c, drop c = true → c.field ≠ Name.languageId) (languages : List LanguageId) (i : Item)
    (silent : ctx.AreSilent drop (itemParts languages i)) :
    (ctx.items languages (i.pruned drop)).outcome =
      (ctx.item languages i).outcome.map Option.toList := by
  cases i with
  | condition c =>
    rw [Item.pruned]
    split
    · next drops =>
      rw [item, silent languages c List.mem_cons_self drops]
      rfl
    · exact items_single_outcome languages _
  | group conjunction members tags =>
    rw [Item.pruned, items_single_outcome, item_group_outcome, item_group_outcome,
      languageOverride_pruned blind]
    cases scope : languageOverride members with
    | error e => rfl
    | ok override =>
      have inside := items_pruned blind (languagesWithin languages members) members
        fun others c among => silent others c (List.mem_cons_of_mem _ among)
      rw [languagesWithin_eq scope] at inside
      change ((ctx.items _ _).outcome.map _).map _ = ((ctx.items _ _).outcome.map _).map _
      rw [inside]

theorem items_pruned {drop : Condition → Bool}
    (blind : ∀ c, drop c = true → c.field ≠ Name.languageId) (languages : List LanguageId)
    (is : List Item) (silent : ctx.AreSilent drop (itemsParts languages is)) :
    (ctx.items languages (Item.prunedAll drop is)).outcome = (ctx.items languages is).outcome := by
  cases is with
  | nil => rfl
  | cons i rest =>
    rw [Item.prunedAll, items_append_outcome, items_cons_outcome,
      item_pruned blind languages i fun others c among =>
        silent others c (List.mem_append_left _ among),
      items_pruned blind languages rest fun others c among =>
        silent others c (List.mem_append_right _ among)]
    cases (ctx.item languages i).outcome <;> rfl

end

/-- Conditions that add no filter and do not ask for a language can be left out. -/
theorem conditions_pruned {drop : Condition → Bool}
    (blind : ∀ c, drop c = true → c.field ≠ Name.languageId) (languages : List LanguageId)
    (group : Group) (silent : ctx.AreSilent drop (itemParts languages group.toItem)) :
    (ctx.conditions languages (group.pruned drop)).outcome =
      (ctx.conditions languages group).outcome := by
  rw [conditions, conditions, Traced.outcome_bind, Traced.outcome_bind, Traced.outcome_ofExcept,
    Traced.outcome_ofExcept, Group.pruned, languageOverride_pruned blind]
  cases scope : languageOverride group.members with
  | error e => rfl
  | ok override =>
    have inside := items_pruned blind (languagesWithin languages group.members) group.members
      fun others c among => silent others c (List.mem_cons_of_mem _ among)
    rw [languagesWithin_eq scope] at inside
    change Traced.outcome (_ >>= _) = Traced.outcome (_ >>= _)
    rw [Traced.outcome_bind, Traced.outcome_bind, inside]

def OnText (ctx : Context) (c : Condition) : Prop :=
  ∃ field, ctx.schema.field? c.field = some field ∧ field.type = .text

def OnLocation (ctx : Context) (c : Condition) : Prop :=
  ∃ field, ctx.schema.field? c.field = some field ∧ field.type = .location

/-- Without values there is nothing to choose from. -/
theorem valueClause_no_values (field : Field) (name : String) {operator : Operator}
    (choice : operator = .isIn ∨ operator = .notIn) :
    valueClause field name operator (.list []) =
      .error (.invalidOperand field.id operator .noValues) := by
  have comparesNothing : ¬ (field.type = .boolean ∧
      (operator.isComparison || operator.isRange) = true) := by
    rcases choice with rfl | rfl <;> rintro ⟨-, ⟨⟩⟩
  unfold valueClause
  dsimp only
  rw [if_neg comparesNothing]
  rcases choice with rfl | rfl <;> rfl

/-- On a text field an empty list adds no filter where some languages are in force. -/
theorem emptyChoice_silent {languages : List LanguageId} {c : Condition}
    (empty : c.isEmptyChoice = true) (text : ctx.OnText c) (spoken : languages ≠ []) :
    (ctx.condition languages c).outcome = .ok none := by
  obtain ⟨choice, operand⟩ := Condition.isEmptyChoice_iff.mp empty
  obtain ⟨field, found, type⟩ := text
  have named : ctx.namesIn field languages [] ≠ [] := namesIn_ne_nil ctx field (.inl spoken)
  have nothing : textValues field c.operator (.list []) = .ok [] := by
    rcases choice with same | same <;> rw [same] <;> rfl
  have given : Operand.list [] ≠ .null := nofun
  rw [condition_of_field found, leaf, type]
  dsimp only
  rw [if_neg (mt List.isEmpty_iff.mp spoken), operand, textClause_values field named _ given,
    nothing]
  rfl

/-- On other fields than locations an empty list is at fault, and also on a text field where no
languages are in force. -/
theorem emptyChoice_fails {languages : List LanguageId} {c : Condition}
    (empty : c.isEmptyChoice = true) (elsewhere : ¬ ctx.OnLocation c)
    (unsaid : ctx.OnText c → languages = []) :
    ∃ e, (ctx.condition languages c).outcome = .error e := by
  obtain ⟨choice, operand⟩ := Condition.isEmptyChoice_iff.mp empty
  cases found : ctx.schema.field? c.field with
  | none =>
    refine ⟨.unknownField c.field, ?_⟩
    rw [condition_outcome, Context.field, found]
    rfl
  | some field =>
    have refused : ∃ e, ctx.leaf languages c field = .error e := by
      unfold leaf
      split
      · next location => exact absurd ⟨field, found, location⟩ elsewhere
      · next text =>
        rw [unsaid ⟨field, found, text⟩]
        exact ⟨_, rfl⟩
      · rw [operand, valueClause_no_values field _ choice]
        exact ⟨_, rfl⟩
    obtain ⟨e, failed⟩ := refused
    refine ⟨e, ?_⟩
    rw [condition_of_field found, failed]
    rfl

/-- Whether a condition offers an empty list of values for a text field. -/
def isEmptyTextChoice (ctx : Context) (c : Condition) : Bool :=
  c.isEmptyChoice && (ctx.schema.field? c.field).any Field.isText

theorem isEmptyTextChoice_iff {c : Condition} :
    ctx.isEmptyTextChoice c = true ↔ c.isEmptyChoice = true ∧ ctx.OnText c := by
  rw [isEmptyTextChoice, Bool.and_eq_true, Option.any_eq_true]
  simp [OnText, Field.isText, DataType.isText]

/-- The language is not a text, so no group restricts its members by an empty list for one. -/
theorem isEmptyTextChoice_blind {c : Condition} (drops : ctx.isEmptyTextChoice c = true) :
    c.field ≠ Name.languageId := by
  intro language
  obtain ⟨-, field, found, text⟩ := isEmptyTextChoice_iff.mp drops
  rw [language, schema_language] at found
  cases found
  cases text

/-- A tree fails to compile if an empty list of values, at whatever depth, stands on a field that is
neither text nor location, or on a text field where no languages are in force. Otherwise the empty
lists on text fields have no effect: the outcome is that of the tree without them. -/
theorem empty_choices_outcome (ctx : Context) (languages : List LanguageId) (group : Group) :
    ((∃ others c, Part.condition others c ∈ itemParts languages group.toItem ∧
        c.isEmptyChoice = true ∧ ¬ ctx.OnLocation c ∧ (ctx.OnText c → others = [])) →
      ∃ e, (ctx.conditions languages group).outcome = .error e) ∧
    ((∀ others c, Part.condition others c ∈ itemParts languages group.toItem →
        c.isEmptyChoice = true → ctx.OnText c → others ≠ []) →
      (ctx.conditions languages group).outcome =
        (ctx.conditions languages (group.pruned ctx.isEmptyTextChoice)).outcome) := by
  constructor
  · rintro ⟨others, c, among, empty, elsewhere, unsaid⟩
    obtain ⟨e, failed⟩ := emptyChoice_fails empty elsewhere unsaid
    cases compiled : (ctx.conditions languages group).outcome with
    | error e => exact ⟨e, rfl⟩
    | ok fragments =>
      have sound := fault?_conditions ctx languages group
      rw [compiled] at sound
      have own := List.findSome?_eq_none_iff.mp sound.symm _ among
      rw [partFault?, failed] at own
      cases own
  · intro spoken
    refine (conditions_pruned (fun c => isEmptyTextChoice_blind) languages group ?_).symm
    intro others c among drops
    obtain ⟨empty, text⟩ := isEmptyTextChoice_iff.mp drops
    exact emptyChoice_silent empty text (spoken others c among empty text)

/-- Only an empty list of values for a field. -/
def emptyChoice (field : String) (operator : Operator) : Group :=
  ⟨.and, [.condition ⟨field, operator, .list []⟩], .empty⟩

/-- An empty list for a text field leaves nothing but the filter on the language; for a string it is
at fault. -/
theorem empty_choice_ignored :
    (catalogue.conditions [english] (emptyChoice "body" .isIn)).outcome.map
        (List.map Fragment.query) = .ok ["ss_search_api_language:\"en\""] ∧
    (catalogue.conditions [english] (emptyChoice "body" .notIn)).outcome.map
        (List.map Fragment.query) = .ok ["ss_search_api_language:\"en\""] ∧
    (catalogue.conditions [english] (emptyChoice "title" .isIn)).outcome =
      .error (.invalidOperand "title" .isIn .noValues) :=
  ⟨rfl, rfl, rfl⟩

end Context

end SearchCompiler.Compile
