import Mathlib.Data.Option.Basic
import SearchCompiler.Proofs.Compile.Evaluation

/-!
# Opposite operators

Three operators have an opposite: to be equal, to lie between two bounds and to be one of several
values. Every form of operand, data type and number of languages has a text of its own for either of
the two, and these texts exclude each other and leave nothing out: of two conditions with opposite
operators exactly one holds for a document (`opposite_conditions`).

A document is given by the queries on fields that it matches. What every document matches always
holds, both sides of `AND` have to hold, and clauses side by side are read as in every query
(`clausesHold`). The texts that are sent exclude each other like the clauses (`opposite_texts`).
-/

namespace SearchCompiler.Compile

open Filter

/-- Operators of which one asks for what the other leaves out. -/
inductive Opposite : Operator → Operator → Prop where
  | equal : Opposite .eq .neq
  | inside : Opposite .between .notBetween
  | oneOf : Opposite .isIn .notIn

/-- Exactly one of two clauses holds, whatever matches. -/
def Exclude (c d : Clause) : Prop :=
  ∀ truth, d.holds truth = !c.holds truth

section

variable {names texts : List String} {name : String}

theorem exclude_of_not (c : Clause) : Exclude c.not c := fun truth => by
  rw [Clause.holds_not, Bool.not_not]

theorem exclude_differs (name text : String) :
    Exclude (.equals name text) (.both .everything (Clause.equals name text).not) := fun truth => by
  rw [Clause.holds_both, Clause.holds_everything, Clause.holds_not, Bool.true_and]

theorem exclude_outside (c : Clause) : Exclude c (.list [.everything, c.not]) := fun truth => by
  have free : Clause.everything.sign? ≠ some .mustNot := by decide
  have base := Clause.holds_list_except truth free [c]
  simpa [Clause.holds_everything] using base

/-- One of several values, or none of them. -/
theorem exclude_notIn (orAbsent : Bool) (some_value : texts = [] → orAbsent = true) :
    Exclude (inClause name texts orAbsent) (notInClause name texts orAbsent) := by
  intro truth
  have one : (inClause name texts orAbsent).holds truth =
      ((texts.any fun text => (Clause.equals name text).holds truth) ||
        (orAbsent && !(Clause.present name).holds truth)) := by
    unfold inClause
    rw [Clause.holds_anyOf]
    · have absent := exclude_outside (Clause.present name) truth
      cases orAbsent <;> simp [List.any_map, Function.comp_def, absent]
    · cases orAbsent with
      | true => simp
      | false => simpa using fun empty => absurd (some_value empty) Bool.false_ne_true
    · intro c among
      rcases List.mem_append.mp among with equal | absent
      · obtain ⟨text, -, rfl⟩ := List.mem_map.mp equal
        rfl
      · split at absent
        · cases List.mem_singleton.mp absent
          rfl
        · cases absent
  have none_of : (notInClause name texts orAbsent).holds truth =
      ((!orAbsent || (Clause.present name).holds truth) &&
        texts.all fun text => !(Clause.equals name text).holds truth) := by
    unfold notInClause
    split
    · next empty =>
      rw [List.isEmpty_iff] at empty
      rw [empty, some_value empty]
      simp
    · have each : (texts.map fun text => (Clause.equals name text).not) =
          (texts.map (Clause.equals name)).map Clause.not := by
        rw [List.map_map]
        rfl
      have based : (if orAbsent then (Clause.present name).must else .everything).sign? ≠
          some .mustNot := by
        cases orAbsent <;> exact fun same => nomatch same
      rw [each, Clause.holds_list_except truth based, List.all_map]
      cases orAbsent <;> rfl
  rw [one, none_of]
  cases orAbsent <;> simp [List.not_any_eq_all_not, Bool.and_comm]

/-- Without a value in any language, or with a value in one. -/
theorem exclude_anyPresent (some_name : names ≠ []) :
    Exclude (match names.map fun name => (Clause.present name).not with
        | [single] => single
        | several => .list (.everything :: several))
      (.anyOf (names.map Clause.present)) := by
  intro truth
  have some_clause : names.map Clause.present ≠ [] := by simpa using some_name
  rw [Clause.holds_anyOf truth some_clause (by simp [Clause.present, Clause.sign?]), List.any_map]
  split
  · next single alone =>
    obtain ⟨name, rfl, rfl⟩ : ∃ name, names = [name] ∧ single = (Clause.present name).not := by
      cases names with
      | nil => cases alone
      | cons name rest =>
        cases rest with
        | nil => exact ⟨name, rfl, (List.singleton_inj.mp alone).symm⟩
        | cons => cases alone
    simp [Clause.holds_not]
  · have each : (names.map fun name => (Clause.present name).not) =
        (names.map Clause.present).map Clause.not := by
      rw [List.map_map]
      rfl
    rw [each, Clause.holds_list_except truth (by decide), Clause.holds_everything, Bool.true_and,
      List.all_map]
    change names.any (fun name => (Clause.present name).holds truth) =
      !names.all fun name => !(Clause.present name).holds truth
    rw [← List.not_any_eq_all_not, Bool.not_not]

/-- Phrases behind either sign. -/
theorem exclude_phrases (names texts : List String) :
    Exclude (phrasesClause .must names texts) (phrasesClause .mustNot names texts) := fun _ => rfl

end

/-- The text of a value in a field is the same under every operator, where it has one. -/
theorem valueText_operator (field : Field) (operator other : Operator) (v : Value) :
    (valueText field operator v).toOption = (valueText field other v).toOption := by
  unfold valueText
  split
  · rfl
  · split
    · rfl
    · split <;> rfl
  · split <;> rfl
  · rfl

theorem toOption_bind {ε α β : Type} (step : Except ε α) (next : α → Except ε β) :
    (step >>= next).toOption = step.toOption.bind fun a => (next a).toOption := by
  cases step <;> rfl

/-- Opposite operators take the same values. -/
theorem valueTexts_operator (field : Field) (operator other : Operator) (vs : List Value) :
    (valueTexts field operator vs).toOption = (valueTexts field other vs).toOption := by
  induction vs with
  | nil => rfl
  | cons v rest ih =>
    rw [valueTexts, valueTexts, toOption_bind, toOption_bind, valueText_operator field operator other]
    congr 1
    funext text
    rw [toOption_bind, toOption_bind, ih]

/-- What two steps yield, where they do: both or neither, and excluding each other. -/
def ExcludeIn (x y : Except Error Clause) : Prop :=
  Option.Rel Exclude x.toOption y.toOption

theorem excludeIn_text {x y : Except Error String} {form opposite : String → Clause}
    (same : x.toOption = y.toOption) (apart : ∀ text, Exclude (form text) (opposite text)) :
    ExcludeIn (x >>= fun text => pure (form text)) (y >>= fun text => pure (opposite text)) := by
  unfold ExcludeIn
  rw [toOption_bind, toOption_bind, same]
  cases y.toOption with
  | none => exact .none
  | some text => exact .some (apart text)

/-- Opposite conditions on a field that is neither text nor location. -/
theorem valueClause_exclude {operator other : Operator} (opposite : Opposite operator other)
    (field : Field) (name : String) (operand : Operand) :
    ExcludeIn (valueClause field name operator operand) (valueClause field name other operand) := by
  unfold valueClause
  dsimp only
  cases opposite with
  | equal =>
    rw [if_neg (by simp [Operator.isComparison, Operator.isRange]),
      if_neg (by simp [Operator.isComparison, Operator.isRange])]
    cases operand with
    | null => exact .some (exclude_of_not _)
    | scalar v =>
      exact excludeIn_text (valueText_operator field .eq .neq v) (exclude_differs name)
    | list values => exact .none
  | inside =>
    by_cases boolean : field.type = .boolean
    · rw [if_pos ⟨boolean, rfl⟩, if_pos ⟨boolean, rfl⟩]
      exact .none
    · rw [if_neg (boolean ·.1), if_neg (boolean ·.1)]
      cases operand with
      | null => exact .none
      | scalar v => exact .none
      | list values =>
        match values with
        | [some low, some high] =>
          unfold ExcludeIn
          dsimp only
          simp only [toOption_bind, valueText_operator field .notBetween .between]
          cases (valueText field .between low).toOption with
          | none => exact .none
          | some low =>
            cases (valueText field .between high).toOption with
            | none => exact .none
            | some high => exact .some (exclude_outside _)
        | [] | none :: _ | [some _] | some _ :: none :: _ | some _ :: some _ :: _ :: _ =>
          exact .none
  | oneOf =>
    rw [if_neg (by simp [Operator.isComparison, Operator.isRange]),
      if_neg (by simp [Operator.isComparison, Operator.isRange])]
    cases operand with
    | null => exact .none
    | scalar v => exact .none
    | list values =>
      dsimp only
      by_cases given : values = []
      · subst given
        exact .none
      · have some_value : ¬values.isEmpty = true := by simpa using given
        unfold ExcludeIn
        simp only [if_neg some_value, toOption_bind, valueTexts_operator field .notIn .isIn]
        cases read : valueTexts field .isIn (values.filterMap id) with
        | error e => exact .none
        | ok texts => exact .some (exclude_notIn _ (absent_of_no_texts given read))

/-- The values of a text are the same under opposite operators, where they are taken. -/
theorem textValues_opposite {operator other : Operator} (opposite : Opposite operator other)
    (field : Field) (operand : Operand) :
    (textValues field operator operand).toOption = (textValues field other operand).toOption := by
  unfold textValues
  cases opposite <;> cases operand <;> (dsimp only; try split) <;> rfl

/-- A text compared with values becomes their phrases. -/
theorem textClause_phrases (field : Field) {names : List String} (nonempty : names ≠ [])
    (operator : Operator) {operand : Operand} (given : operand ≠ .null) :
    (textClause field names operator operand).toOption =
      (textValues field operator operand).toOption.map fun values =>
        if shownTexts (values.map Value.text) = [] then none
        else some (phrasesClause (if operator = .neq ∨ operator = .notIn then .mustNot else .must)
          names (shownTexts (values.map Value.text))) := by
  unfold textClause
  split
  · exact absurd rfl given
  · exact absurd rfl given
  · rw [toOption_bind, Option.map_eq_bind]
    congr 1
    funext values
    dsimp only
    rw [compile_textKeys _ _ _ nonempty]
    rfl

/-- Opposite conditions on a text: neither adds a filter, or they exclude each other. -/
theorem textClause_exclude {operator other : Operator} (opposite : Opposite operator other)
    (field : Field) {names : List String} (nonempty : names ≠ []) (operand : Operand) :
    Option.Rel (Option.Rel Exclude) (textClause field names operator operand).toOption
      (textClause field names other operand).toOption := by
  by_cases null : operand = .null
  · subst null
    cases opposite with
    | equal => exact .some (.some (exclude_anyPresent nonempty))
    | inside => exact .none
    | oneOf => exact .none
  · rw [textClause_phrases field nonempty operator null, textClause_phrases field nonempty other null,
      textValues_opposite opposite]
    cases taken : (textValues field other operand).toOption with
    | none => exact .none
    | some values =>
      refine .some ?_
      dsimp only
      split
      · exact .none
      · cases opposite with
        | equal => exact .some (exclude_phrases names _)
        | inside => cases taken
        | oneOf => exact .some (exclude_phrases names _)

/-- Opposite conditions on a location: only its absence has an opposite. -/
theorem locationClause_exclude {operator other : Operator} (opposite : Opposite operator other)
    (field : Field) (name : String) (operand : Operand) :
    ExcludeIn (locationClause field name operator operand)
      (locationClause field name other operand) := by
  cases opposite <;> cases operand
  case equal.null => exact .some (exclude_of_not _)
  all_goals exact .none

theorem toOption_map {ε α β : Type} (f : α → β) (step : Except ε α) :
    (step.map f).toOption = step.toOption.map f := by
  cases step <;> rfl

theorem option_rel_map {α β γ δ : Type} {related : α → β → Prop} {related' : γ → δ → Prop}
    {f : α → γ} {g : β → δ} (step : ∀ a b, related a b → related' (f a) (g b)) {x : Option α}
    {y : Option β} (each : Option.Rel related x y) : Option.Rel related' (x.map f) (y.map g) := by
  cases each with
  | none => exact .none
  | some both => exact .some (step _ _ both)

namespace Context

/-- Opposite conditions on one field. -/
theorem leaf_exclude {operator other : Operator} (opposite : Opposite operator other)
    (ctx : Context) (languages : List LanguageId) (id : String) (operand : Operand)
    (field : Field) (known : ctx.spatial.IsBuiltIn ∨ field.type ≠ .location) :
    Option.Rel (Option.Rel Exclude) (ctx.leaf languages ⟨id, operator, operand⟩ field).toOption
      (ctx.leaf languages ⟨id, other, operand⟩ field).toOption := by
  have single : ∀ {x y : Except Error Clause}, ExcludeIn x y →
      Option.Rel (Option.Rel Exclude) (x.map some).toOption (y.map some).toOption := by
    intro x y apart
    rw [toOption_map, toOption_map]
    exact option_rel_map (fun _ _ => .some) apart
  unfold leaf
  split
  · next location =>
    split
    · exact .some .none
    · exact single (locationClause_exclude opposite field _ operand)
    · next builder outside =>
      rw [outside] at known
      rcases known with inside | other
      · exact inside.elim
      · exact absurd location other
  · split
    · exact .none
    · next asked =>
      exact textClause_exclude opposite field
        (ctx.namesIn_ne_nil field (.inl (by simpa using asked))) operand
  · exact single (valueClause_exclude opposite field _ operand)

/-- Opposite conditions on the field with an id, if the index has it. -/
theorem condition_exclude (ctx : Context) (languages : List LanguageId) (field : String)
    (operand : Operand) {operator other : Operator} (opposite : Opposite operator other)
    (known : ctx.spatial.IsBuiltIn ∨
      ∀ found, ctx.schema.field? field = some found → found.type ≠ .location) :
    Option.Rel (Option.Rel fun f g => Exclude f.clause g.clause)
      (ctx.condition languages ⟨field, operator, operand⟩).outcome.toOption
      (ctx.condition languages ⟨field, other, operand⟩).outcome.toOption := by
  rw [condition_outcome, condition_outcome, toOption_map, toOption_map, toOption_bind, toOption_bind]
  have wrapped : ∀ c d, Option.Rel Exclude c d →
      Option.Rel (fun f g => Exclude f.clause g.clause) (c.map Fragment.ofClause)
        (d.map Fragment.ofClause) := by
    intro c d each
    refine option_rel_map (fun a b apart => ?_) each
    exact apart
  refine option_rel_map wrapped ?_
  cases read : ctx.field field with
  | error e => exact .none
  | ok found =>
    exact leaf_exclude opposite ctx languages _ operand found
      (known.imp_right fun plain => plain found (field_eq_ok read))

/-- Of two conditions with opposite operators on one field either both fail, or neither adds a
filter, or they become filters of which exactly one holds for every document. What a builder from
outside makes of a location is left out. -/
theorem opposite_conditions (ctx : Context) (languages : List LanguageId) (field : String)
    (operand : Operand) {operator other : Operator} (opposite : Opposite operator other)
    (known : ctx.spatial.IsBuiltIn ∨
      ∀ found, ctx.schema.field? field = some found → found.type ≠ .location) :
    Option.Rel (Option.Rel fun f g => Exclude f.clause g.clause)
      (ctx.condition languages ⟨field, operator, operand⟩).outcome.toOption
      (ctx.condition languages ⟨field, other, operand⟩).outcome.toOption :=
  ctx.condition_exclude languages field operand opposite known

/-- Of the texts of two opposite filters exactly one holds, read without the clauses. -/
theorem opposite_texts (ctx : Context) (languages : List LanguageId) (field : String)
    (operand : Operand) {operator other : Operator} (opposite : Opposite operator other)
    (builtIn : ctx.spatial.IsBuiltIn) (words : ∀ name, ctx.IsName name → Name.IsWord name)
    {f g : Fragment}
    (one : (ctx.condition languages ⟨field, operator, operand⟩).outcome = .ok (some f))
    (two : (ctx.condition languages ⟨field, other, operand⟩).outcome = .ok (some g))
    (truth : String → Bool) :
    Text.holds truth g.query.toList = !Text.holds truth f.query.toList := by
  have apart := condition_exclude ctx languages field operand opposite (.inl builtIn)
  rw [one, two] at apart
  obtain ⟨⟨apart⟩⟩ := apart
  have own : ∀ {h : Fragment} {c : Condition},
      (ctx.condition languages c).outcome = .ok (some h) →
      Text.holds truth h.query.toList = h.clause.holds truth :=
    fun compiled => IsSentOf.holds_text words (.inl (condition_form builtIn compiled).isMadeOf) truth
  rw [own one, own two]
  exact apart truth

/-- A title `A` or none, and its opposite, with their texts. -/
theorem opposite_conditions_title :
    Opposite .isIn .notIn ∧ catalogue.spatial.IsBuiltIn ∧
    ∃ f g, (catalogue.condition [english]
        ⟨"title", .isIn, .list [some (.string "A"), none]⟩).outcome = .ok (some f) ∧
      (catalogue.condition [english]
        ⟨"title", .notIn, .list [some (.string "A"), none]⟩).outcome = .ok (some g) ∧
      f.query = "(ss_title:\"A\" (*:* -ss_title:[* TO *]))" ∧
      g.query = "(+ss_title:[* TO *] -ss_title:\"A\")" ∧
      Exclude f.clause g.clause := by
  have ran : ∃ f, (catalogue.condition [english]
      ⟨"title", .isIn, .list [some (.string "A"), none]⟩).outcome = .ok (some f) ∧
      f.query = "(ss_title:\"A\" (*:* -ss_title:[* TO *]))" := ⟨_, rfl, rfl⟩
  have ran' : ∃ g, (catalogue.condition [english]
      ⟨"title", .notIn, .list [some (.string "A"), none]⟩).outcome = .ok (some g) ∧
      g.query = "(+ss_title:[* TO *] -ss_title:\"A\")" := ⟨_, rfl, rfl⟩
  obtain ⟨f, compiled, text⟩ := ran
  obtain ⟨g, compiled', text'⟩ := ran'
  have apart := opposite_conditions catalogue [english] "title"
    (.list [some (.string "A"), none]) .oneOf (.inl trivial)
  rw [compiled, compiled'] at apart
  obtain ⟨⟨apart⟩⟩ := apart
  exact ⟨.oneOf, trivial, f, g, compiled, compiled', text, text', apart⟩

end Context

end SearchCompiler.Compile
