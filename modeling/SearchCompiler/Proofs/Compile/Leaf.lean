import SearchCompiler.Compile.Conditions

/-!
# What a condition becomes

A compiled condition has one of a dozen forms. They are listed here once (`LeafForm`), with what
holds of the names and texts in them, and every condition that compiles is shown to take one of
them (`condition_form`), unless a builder from outside writes the query of a location. Facts about
the leaves of a compiled filter are read off this list and not off the compiler. What all forms
have and folding keeps, all members of a group have at every depth (`items_keep`).
-/

namespace SearchCompiler.Compile

open Filter

theorem bind_eq_ok {ε α β : Type} {step : Except ε α} {next : α → Except ε β} {value : β}
    (success : (step >>= next) = .ok value) : ∃ x, step = .ok x ∧ next x = .ok value := by
  cases step with
  | error e => cases success
  | ok x => exact ⟨x, rfl, success⟩

/-- The phrases of texts, each in every field, behind a sign. -/
def phrasesClause (sign : Sign) (names texts : List String) : Clause :=
  .signed sign (.list (names.map fun name =>
    .onField name (.list (texts.map fun text => .atom (.phrase text))) Target.plainSuffix))

/-- The forms of a compiled condition, over fields whose names have a property. -/
inductive LeafForm (named : String → Prop) : Clause → Prop where
  | absent (name : String) : named name → LeafForm named (Clause.present name).not
  | present (name : String) : named name → LeafForm named (.present name)
  | equals (name text : String) : named name → LeafForm named (.equals name text)
  | differs (name text : String) : named name →
      LeafForm named (.both .everything (Clause.equals name text).not)
  | range (name : String) (lower upper : Option String) (withBounds : Bool) : named name →
      LeafForm named (rangeClause name lower upper withBounds)
  | outside (name low high : String) : named name →
      LeafForm named (.list [.everything, (rangeClause name (some low) (some high) true).not])
  | oneOf (name : String) (texts : List String) (orAbsent : Bool) : named name →
      (texts = [] → orAbsent = true) → LeafForm named (inClause name texts orAbsent)
  | noneOf (name : String) (texts : List String) (andPresent : Bool) : named name →
      LeafForm named (notInClause name texts andPresent)
  | circle (name : String) (circle : Filter.Circle) : named name →
      LeafForm named (.atom (.nested (circle.query name)))
  | allAbsent (names : List String) : (∀ name ∈ names, named name) →
      LeafForm named (.list (.everything :: names.map fun name => (Clause.present name).not))
  | anyPresent (names : List String) : (∀ name ∈ names, named name) → names ≠ [] →
      LeafForm named (.anyOf (names.map Clause.present))
  | phrases (sign : Sign) (names texts : List String) : (∀ name ∈ names, named name) →
      names ≠ [] → texts ≠ [] → LeafForm named (phrasesClause sign names texts)

/-- Every value has a text. -/
theorem valueTexts_length {field : Field} {operator : Operator} {values : List Value}
    {texts : List String} (success : valueTexts field operator values = .ok texts) :
    texts.length = values.length := by
  induction values generalizing texts with
  | nil => cases success; rfl
  | cons value rest ih =>
    obtain ⟨text, -, success⟩ := bind_eq_ok success
    obtain ⟨others, read, success⟩ := bind_eq_ok success
    cases success
    rw [List.length_cons, List.length_cons, ih read]

/-- Without texts all values are absent. -/
theorem absent_of_no_texts {field : Field} {operator : Operator} {values : List (Option Value)}
    {texts : List String} (given : values ≠ [])
    (read : valueTexts field operator (values.filterMap id) = .ok texts) (empty : texts = []) :
    values.any Option.isNone = true := by
  have none_left : (values.filterMap id).length = 0 := by
    rw [← valueTexts_length read, empty, List.length_nil]
  obtain ⟨first, rest, rfl⟩ := List.exists_cons_of_ne_nil given
  cases first with
  | none => rfl
  | some value => simp at none_left

/-- The forms of conditions on values. -/
theorem valueClause_form {field : Field} {name : String} {operator : Operator} {operand : Operand}
    {c : Clause} {named : String → Prop} (known : named name)
    (success : valueClause field name operator operand = .ok c) : LeafForm named c := by
  unfold valueClause at success
  dsimp only at success
  split at success
  · cases success
  split at success
  case h_1 => cases success; exact .absent name known
  case h_2 => cases success; exact .present name known
  case h_3 =>
    obtain ⟨text, -, success⟩ := bind_eq_ok success
    cases success
    exact .equals name text known
  case h_4 =>
    obtain ⟨text, -, success⟩ := bind_eq_ok success
    cases success
    exact .differs name text known
  case h_5 | h_6 | h_7 | h_8 =>
    obtain ⟨text, -, success⟩ := bind_eq_ok success
    cases success
    exact .range name _ _ _ known
  case h_9 =>
    obtain ⟨low, -, success⟩ := bind_eq_ok success
    obtain ⟨high, -, success⟩ := bind_eq_ok success
    cases success
    exact .range name (some low) (some high) true known
  case h_10 =>
    obtain ⟨low, -, success⟩ := bind_eq_ok success
    obtain ⟨high, -, success⟩ := bind_eq_ok success
    cases success
    exact .outside name low high known
  case h_11 values _ =>
    split at success
    · cases success
    · next nonempty =>
      obtain ⟨texts, read, success⟩ := bind_eq_ok success
      cases success
      exact .oneOf name texts _ known (absent_of_no_texts (by simpa using nonempty) read)
  case h_12 values _ =>
    split at success
    · cases success
    · obtain ⟨texts, -, success⟩ := bind_eq_ok success
      cases success
      exact .noneOf name texts _ known
  all_goals cases success

/-- The texts of phrases that are not blank. -/
def shownTexts (texts : List String) : List String :=
  (texts.filter fun text => !Text.isBlankText text).map Text.trimText

/-- Plain terms are no nested groups. -/
theorem members_terms (f : Keys.Flattening) (conjunction : Conjunction) (escaped : Bool)
    (texts : List String) :
    f.members conjunction escaped (texts.map .term) =
      .ok ([], texts.filterMap (Keys.Flattening.literal f.mode escaped)) := by
  induction texts with
  | nil => rfl
  | cons text rest ih =>
    rw [List.map_cons, Keys.Flattening.members, ih, List.filterMap_cons]
    cases Keys.Flattening.literal f.mode escaped text <;> rfl

theorem literals_phrase (texts : List String) :
    texts.filterMap (Keys.Flattening.literal .phrase false) =
      (shownTexts texts).map fun text => .atom (.phrase text) := by
  induction texts with
  | nil => rfl
  | cons text rest ih =>
    by_cases blank : Text.isBlankText text
    · simp [Keys.Flattening.literal, shownTexts, blank] at ih ⊢
      exact ih
    · simp [Keys.Flattening.literal, shownTexts, blank] at ih ⊢
      exact ih

/-- Phrases that are alternatives, in every field of a list. -/
theorem compile_phrases (names texts : List String) (negated : Bool) (nonempty : names ≠ []) :
    (Keys.Flattening.mk (names.map fun name => ⟨name, Target.plainSuffix⟩) .phrase).compile
        (.group .or negated false (texts.map .term)) =
      .ok (if shownTexts texts = [] then none
        else some (phrasesClause (if negated then .mustNot else .must) names
          (shownTexts texts))) := by
  simp only [Keys.Flattening.compile, Keys.Flattening.clause, Keys.Flattening.groupBody,
    members_terms, literals_phrase]
  by_cases none_left : shownTexts texts = []
  · simp [none_left, Keys.Flattening.bodyOf, Keys.Flattening.termClauses]
  · have unsigned : Keys.Flattening.under .or = id := rfl
    simp [none_left, nonempty, Keys.Flattening.bodyOf, Keys.Flattening.termClauses, phrasesClause,
      Keys.Flattening.onTarget, unsigned, Function.comp_def]

/-- The keys of a comparison with texts become its phrases. -/
theorem compile_textKeys (names : List String) (operator : Operator) (texts : List String)
    (nonempty : names ≠ []) :
    (Keys.Flattening.mk (names.map fun name => ⟨name, Target.plainSuffix⟩) .phrase).compile
        (if operator = .neq ∨ operator = .notIn then (Keys.Expression.terms .or texts).negate
        else Keys.Expression.terms .or texts) =
      .ok (if shownTexts texts = [] then none
        else some (phrasesClause (if operator = .neq ∨ operator = .notIn then .mustNot else .must)
          names (shownTexts texts))) := by
  split
  · exact compile_phrases names texts true nonempty
  · exact compile_phrases names texts false nonempty

/-- The forms of conditions on text. -/
theorem textClause_form {field : Field} {names : List String} {operator : Operator}
    {operand : Operand} {c : Clause} {named : String → Prop} (known : ∀ name ∈ names, named name)
    (nonempty : names ≠ []) (success : textClause field names operator operand = .ok (some c)) :
    LeafForm named c := by
  unfold textClause at success
  split at success
  · cases success
    cases names with
    | nil => exact absurd rfl nonempty
    | cons name rest =>
      cases rest with
      | nil => exact .absent name (known name List.mem_cons_self)
      | cons other rest => exact .allAbsent (name :: other :: rest) known
  · cases success
    exact .anyPresent names known nonempty
  · obtain ⟨values, -, success⟩ := bind_eq_ok success
    dsimp only at success
    rw [compile_textKeys _ _ _ nonempty] at success
    split at success
    · cases success
    · next shown =>
      cases success
      exact .phrases _ names _ known nonempty shown

/-- The forms of conditions on locations. -/
theorem locationClause_form {field : Field} {name : String} {operator : Operator}
    {operand : Operand} {c : Clause} {named : String → Prop} (known : named name)
    (success : locationClause field name operator operand = .ok c) : LeafForm named c := by
  unfold locationClause at success
  split at success
  · cases success
    exact .absent name known
  · cases success
    exact .present name known
  · split at success
    · cases success
      exact .circle name _ known
    · cases success
  · split at success
    · cases success
      exact .circle name _ known
    · cases success
  · cases success

/-- One of the two builders of the compiler's own. What another builder writes is not known. -/
def Spatial.IsBuiltIn : Spatial → Prop
  | .skip | .circles => True
  | .other _ => False

namespace Context

/-- A backend name of a field of the index in some language. -/
def IsName (ctx : Context) (name : String) : Prop :=
  ∃ id field language, ctx.schema.field? id = some field ∧ ctx.catalog.nameOf field language = name

/-- A reserved or pinned name does not depend on the language. -/
theorem fieldName_of_fixed {special : Name.Special} {field : Field} {name : String}
    (fixed : (special.nameOf? field.id).or field.pinned = some name) (language : LanguageId) :
    special.fieldName field language = name := by
  unfold Name.Special.fieldName
  cases reserved : special.nameOf? field.id with
  | none =>
    rw [reserved, Option.none_or] at fixed
    rw [fixed]
    rfl
  | some other =>
    rw [reserved] at fixed
    cases fixed
    rfl

/-- The names of a field in several languages behind names that are there already, each once. -/
def namesIn (ctx : Context) (field : Field) : List LanguageId → List String → List String
  | [], names => names
  | language :: rest, names =>
    let name := ctx.catalog.nameOf field language
    ctx.namesIn field rest (if names.contains name then names else names ++ [name])

/-- Asking for names yields them without a fault. -/
theorem distinctNames_outcome (ctx : Context) (field : Field) (languages : List LanguageId)
    (names : List String) :
    (ctx.distinctNames field languages names).outcome =
      .ok (ctx.namesIn field languages names) := by
  induction languages generalizing names with
  | nil => rfl
  | cons language rest ih => exact ih _

theorem namesIn_ne_nil (ctx : Context) (field : Field) {languages : List LanguageId}
    {names : List String} (nonempty : languages ≠ [] ∨ names ≠ []) :
    ctx.namesIn field languages names ≠ [] := by
  induction languages generalizing names with
  | nil => simpa [namesIn] using nonempty
  | cons language rest ih =>
    rw [namesIn]
    apply ih
    right
    split
    · next known => exact List.ne_nil_of_mem (List.contains_iff_mem.mp known)
    · simp

/-- A name of a field in several languages is its name in one of them. -/
theorem mem_namesIn {ctx : Context} {field : Field} {languages : List LanguageId}
    {names : List String} {name : String} (member : name ∈ ctx.namesIn field languages names) :
    name ∈ names ∨ ∃ language ∈ languages, ctx.catalog.nameOf field language = name := by
  induction languages generalizing names with
  | nil => exact .inl member
  | cons language rest ih =>
    rw [namesIn] at member
    rcases ih member with old | ⟨other, among, named⟩
    · split at old
      · exact .inl old
      · rcases List.mem_append.mp old with old | new
        · exact .inl old
        · exact .inr ⟨language, List.mem_cons_self, (List.mem_singleton.mp new).symm⟩
    · exact .inr ⟨other, List.mem_cons_of_mem _ among, named⟩

theorem field_eq_ok {ctx : Context} {id : String} {field : Field}
    (found : ctx.field id = .ok field) : ctx.schema.field? id = some field := by
  unfold Context.field at found
  split at found
  · cases found
    assumption
  · cases found

/-- The clause of a condition on a field, without the record of names and warnings. -/
def leaf (ctx : Context) (languages : List LanguageId) (c : Condition) (field : Field) :
    Except Error (Option Clause) :=
  match field.type with
  | .location =>
    match ctx.spatial with
    | .skip => .ok none
    | .circles =>
      (locationClause field (ctx.catalog.nameOf field .unspecified) c.operator c.operand).map some
    | .other builder =>
      (builder field (ctx.catalog.nameOf field .unspecified) c).map (Option.map Clause.raw)
  | .text =>
    if languages.isEmpty then .error (.missingLanguage field.id)
    else textClause field (ctx.namesIn field languages []) c.operator c.operand
  | _ => (valueClause field (ctx.catalog.nameOf field .unspecified) c.operator c.operand).map some

theorem outcome_name_bind {β : Type} (ctx : Context) (field : Field) (language : LanguageId)
    (next : String → Traced β) :
    (ctx.name field language >>= next).outcome =
      (next (ctx.catalog.nameOf field language)).outcome := rfl

theorem outcome_bind_pure {α β : Type} (step : Except Error α) (f : α → β) :
    (Traced.ofExcept step >>= fun a => pure (f a)).outcome = step.map f := by
  cases step <;> rfl

/-- Compiling a condition, without the record: find the field, write the clause, and wrap it up. -/
theorem condition_outcome (ctx : Context) (languages : List LanguageId) (c : Condition) :
    (ctx.condition languages c).outcome =
      (ctx.field c.field >>= ctx.leaf languages c).map (Option.map Fragment.ofClause) := by
  unfold Context.condition
  rw [Traced.outcome_bind, Traced.outcome_ofExcept]
  cases ctx.field c.field with
  | error e => rfl
  | ok field =>
    change Traced.outcome _ = (ctx.leaf languages c field).map (Option.map Fragment.ofClause)
    unfold leaf
    cases type : field.type
    case location =>
      dsimp only
      rw [outcome_name_bind]
      cases ctx.spatial with
      | skip => rfl
      | circles =>
        dsimp only
        rw [outcome_bind_pure]
        cases locationClause field (ctx.catalog.nameOf field .unspecified) c.operator c.operand <;>
          rfl
      | other builder =>
        dsimp only
        rw [outcome_bind_pure]
        cases builder field (ctx.catalog.nameOf field .unspecified) c with
        | error e => rfl
        | ok query => cases query <;> rfl
    case text =>
      dsimp only
      split
      · rfl
      · rw [Traced.outcome_bind, distinctNames_outcome]
        exact outcome_bind_pure _ _
    all_goals
      dsimp only
      rw [outcome_name_bind, outcome_bind_pure]
      cases valueClause field (ctx.catalog.nameOf field .unspecified) c.operator c.operand <;> rfl

theorem condition_of_field {ctx : Context} {languages : List LanguageId} {c : Condition}
    {field : Field} (found : ctx.schema.field? c.field = some field) :
    (ctx.condition languages c).outcome =
      (ctx.leaf languages c field).map (Option.map Fragment.ofClause) := by
  rw [condition_outcome, Context.field, found]
  rfl

theorem map_eq_ok {ε α β : Type} {step : Except ε α} {f : α → β} {value : β}
    (success : step.map f = .ok value) : ∃ x, step = .ok x ∧ f x = value := by
  cases step with
  | error e => cases success
  | ok x => cases success; exact ⟨x, rfl, rfl⟩

/-- A compiled condition has one of the forms, or it is the query of a builder from outside. -/
theorem leaf_form_or_raw {ctx : Context} {languages : List LanguageId} {c : Condition}
    {field : Field} {clause : Clause} {named : String → Prop}
    (known : ∀ language, named (ctx.catalog.nameOf field language))
    (success : ctx.leaf languages c field = .ok (some clause)) :
    LeafForm named clause ∨ ¬ ctx.spatial.IsBuiltIn ∧ ∃ text, clause = .raw text := by
  unfold leaf at success
  split at success
  · split at success
    · cases success
    · left
      obtain ⟨x, read, same⟩ := map_eq_ok success
      cases same
      exact locationClause_form (known _) read
    · next builder outside =>
      right
      obtain ⟨query, -, same⟩ := map_eq_ok success
      cases query with
      | none => cases same
      | some text =>
        cases same
        rw [outside]
        exact ⟨id, text, rfl⟩
  · left
    split at success
    · cases success
    · next present =>
      refine textClause_form (fun name member => ?_) (namesIn_ne_nil ctx field (.inl ?_)) success
      · rcases mem_namesIn member with old | ⟨language, -, rfl⟩
        · cases old
        · exact known language
      · simpa using present
  · left
    obtain ⟨x, read, same⟩ := map_eq_ok success
    cases same
    exact valueClause_form (known _) read

theorem leaf_form {ctx : Context} (builtIn : ctx.spatial.IsBuiltIn)
    {languages : List LanguageId} {c : Condition} {field : Field} {clause : Clause}
    {named : String → Prop} (known : ∀ language, named (ctx.catalog.nameOf field language))
    (success : ctx.leaf languages c field = .ok (some clause)) : LeafForm named clause := by
  rcases leaf_form_or_raw known success with form | ⟨outside, -⟩
  · exact form
  · exact absurd builtIn outside

/-- Every filter of a condition takes one of the forms, or is the text of a builder from outside. -/
theorem condition_form_or_raw {ctx : Context} {languages : List LanguageId} {c : Condition}
    {f : Fragment} (success : (ctx.condition languages c).outcome = .ok (some f)) :
    LeafForm ctx.IsName f.clause ∨ ¬ ctx.spatial.IsBuiltIn ∧ ∃ text, f.clause = .raw text := by
  rw [condition_outcome] at success
  obtain ⟨clause, compiled, same⟩ := map_eq_ok success
  obtain ⟨field, found, compiled⟩ := bind_eq_ok compiled
  cases clause with
  | none => cases same
  | some clause =>
    cases same
    apply leaf_form_or_raw _ compiled
    exact fun language => ⟨c.field, field, language, field_eq_ok found, rfl⟩

/-- A condition that adds a filter takes one of the forms. -/
theorem condition_form {ctx : Context} (builtIn : ctx.spatial.IsBuiltIn)
    {languages : List LanguageId} {c : Condition} {f : Fragment}
    (success : (ctx.condition languages c).outcome = .ok (some f)) :
    LeafForm ctx.IsName f.clause := by
  rcases condition_form_or_raw success with form | ⟨outside, -⟩
  · exact form
  · exact absurd builtIn outside

/-- The languages that the members of a group are compiled in. -/
def languagesWithin (languages : List LanguageId) (members : List Item) : List LanguageId :=
  match languageOverride members with
  | .ok (some others) => others
  | _ => languages

theorem languagesWithin_eq {members : List Item} {override : Option (List LanguageId)}
    (scope : languageOverride members = .ok override) (languages : List LanguageId) :
    languagesWithin languages members = override.getD languages := by
  rw [languagesWithin, scope]
  cases override <;> rfl

/-- What members become is what the first becomes, in front of what the others become. -/
theorem items_cons_eq_ok {ctx : Context} {languages : List LanguageId} {member : Item}
    {rest : List Item} {fs : List Fragment}
    (success : (ctx.items languages (member :: rest)).outcome = .ok fs) :
    ∃ o others, (ctx.item languages member).outcome = .ok o ∧
      (ctx.items languages rest).outcome = .ok others ∧ fs = o.toList ++ others := by
  rw [items, Traced.outcome_bind] at success
  obtain ⟨o, compiled, success⟩ := bind_eq_ok success
  rw [Traced.outcome_bind] at success
  obtain ⟨others, rest_compiled, success⟩ := bind_eq_ok success
  cases success
  exact ⟨o, others, compiled, rest_compiled, rfl⟩

/-- What a group becomes is folded from what its members become. -/
theorem group_outcome {ctx : Context} {languages : List LanguageId} {conjunction : Conjunction}
    {members : List Item} {tags : Text.TextSet} {o : Option Fragment}
    (success : (ctx.item languages (.group conjunction members tags)).outcome = .ok o) :
    ∃ fs, (ctx.items (languagesWithin languages members) members).outcome = .ok fs ∧
      o = Fragment.reduce fs conjunction tags false := by
  rw [item, Traced.outcome_bind] at success
  obtain ⟨override, scope, success⟩ := bind_eq_ok success
  rw [Traced.outcome_bind] at success
  obtain ⟨fs, compiled, success⟩ := bind_eq_ok success
  cases success
  rw [Traced.outcome_ofExcept] at scope
  exact ⟨fs, languagesWithin_eq scope languages ▸ compiled, rfl⟩

section

variable {ctx : Context} {holds : Fragment → Prop}

mutual

/-- The case of a single member in `items_keep`. -/
theorem item_keeps (builtIn : ctx.spatial.IsBuiltIn)
    (leaf : ∀ f, LeafForm ctx.IsName f.clause → holds f)
    (fold : ∀ fs conjunction tags, (∀ f ∈ fs, holds f) →
      ∀ f ∈ Fragment.reduce fs conjunction tags false, holds f)
    {languages : List LanguageId} (i : Item) {o : Option Fragment}
    (success : (ctx.item languages i).outcome = .ok o) : ∀ f ∈ o, holds f := by
  cases i with
  | condition c =>
    rintro f rfl
    rw [item] at success
    exact leaf f (condition_form builtIn success)
  | group conjunction members tags =>
    obtain ⟨fs, compiled, rfl⟩ := group_outcome success
    exact fold fs conjunction tags (items_keep builtIn leaf fold members compiled)

/-- What holds of compiled conditions and of what is folded from such fragments holds of whatever
members become. -/
theorem items_keep (builtIn : ctx.spatial.IsBuiltIn)
    (leaf : ∀ f, LeafForm ctx.IsName f.clause → holds f)
    (fold : ∀ fs conjunction tags, (∀ f ∈ fs, holds f) →
      ∀ f ∈ Fragment.reduce fs conjunction tags false, holds f)
    {languages : List LanguageId} (is : List Item) {fs : List Fragment}
    (success : (ctx.items languages is).outcome = .ok fs) : ∀ f ∈ fs, holds f := by
  cases is with
  | nil =>
    cases success
    simp
  | cons i rest =>
    obtain ⟨o, others, compiled, rest_compiled, rfl⟩ := items_cons_eq_ok success
    intro f among
    rcases List.mem_append.mp among with own | later
    · exact item_keeps builtIn leaf fold i compiled f (Option.mem_toList.mp own)
    · exact items_keep builtIn leaf fold rest rest_compiled f later

end

end

end Context

end SearchCompiler.Compile
