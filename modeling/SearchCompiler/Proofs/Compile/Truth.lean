import SearchCompiler.Proofs.Compile.Structure
import SearchCompiler.Proofs.Decimal

/-!
# Conditions on truth values

A field of truth values is compared with truth values. The values of a condition denote some
(`Value.truth?`): a number that is not zero denotes true, and so do the strings `1` and `true`. A
condition on such a field compiles iff its operator tests for equality and all its values denote a
truth value; its filter then has one literal for each value (`boolean_literals`).

A literal is `true` or `false`, as its value denotes, unless the value is a decimal. A decimal
stands as it is written, and no number is written like a truth value, so that the field is compared
with what it never holds (`boolean_decimal_verbatim`).
-/

namespace SearchCompiler.Filter

/-- The truth value that a value denotes, if it denotes one. -/
def Value.truth? : Value → Option Bool
  | .boolean b => some b
  | .integer n => some (n ≠ 0)
  | .decimal x => some (x != 0)
  | .string s =>
    if s = "1" ∨ s = "true" then some true
    else if s = "0" ∨ s = "false" then some false
    else none

def Value.isDecimal : Value → Bool
  | .decimal _ => true
  | .boolean _ | .integer _ | .string _ => false

def truthText (truth : Bool) : String :=
  if truth then "true" else "false"

theorem truthText_eq_true_iff {truth : Bool} : truthText truth = "true" ↔ truth = true := by
  cases truth <;> decide

/-- An operator tests for equality with an operand: with one value or with none, or with the values
of a list that is not empty. -/
def Operand.FitsTruth (operator : Operator) : Operand → Prop
  | .null | .scalar _ => operator = .eq ∨ operator = .neq
  | .list values => operator.isList = true ∧ values ≠ []

theorem Operand.FitsTruth.not_compares {operator : Operator} {operand : Operand}
    (fits : operand.FitsTruth operator) : (operator.isComparison || operator.isRange) = false := by
  cases operand with
  | null | scalar => rcases fits with rfl | rfl <;> rfl
  | list values =>
    cases operator with
    | isIn | notIn => rfl
    | _ => cases fits.1

end SearchCompiler.Filter

namespace SearchCompiler.Compile

open Filter

/-! ### The texts of a condition -/

/-- Values that each have a relative have a list of relatives. -/
theorem exists_forall₂_iff {α β : Type} {related : α → β → Prop} {as : List α} :
    (∃ bs, List.Forall₂ related as bs) ↔ ∀ a ∈ as, ∃ b, related a b := by
  induction as with
  | nil => simp
  | cons a rest ih =>
    rw [List.forall_mem_cons, ← ih]
    constructor
    · rintro ⟨bs, all⟩
      obtain ⟨b, others, own, all, -⟩ := List.forall₂_cons_left_iff.mp all
      exact ⟨⟨b, own⟩, others, all⟩
    · rintro ⟨⟨b, own⟩, others, all⟩
      exact ⟨b :: others, .cons own all⟩

/-- The texts of several values are the texts of each. -/
theorem valueTexts_eq_ok_iff {field : Field} {operator : Operator} {values : List Value}
    {texts : List String} : valueTexts field operator values = .ok texts ↔
      List.Forall₂ (fun v t => valueText field operator v = .ok t) values texts := by
  induction values generalizing texts with
  | nil =>
    rw [List.forall₂_nil_left_iff, valueTexts, Except.ok.injEq]
    exact eq_comm
  | cons v rest ih =>
    rw [List.forall₂_cons_left_iff]
    constructor
    · intro success
      obtain ⟨text, own, success⟩ := bind_eq_ok success
      obtain ⟨others, read, success⟩ := bind_eq_ok success
      cases success
      exact ⟨text, others, own, ih.mp read, rfl⟩
    · rintro ⟨text, others, own, all, rfl⟩
      rw [valueTexts, own, ih.mpr all]
      rfl

/-- The literals of a condition have the texts of its values, one for each. -/
theorem valueClause_texts {field : Field} {name : String} {operator : Operator} {operand : Operand}
    {c : Clause} (success : valueClause field name operator operand = .ok c) :
    List.Forall₂ (fun v t => valueText field operator v = .ok t) operand.values c.texts := by
  unfold valueClause at success
  dsimp only at success
  split at success
  · cases success
  split at success
  case h_1 =>
    cases success
    rw [(sameShape_present name).not.texts_left]
    exact .nil
  case h_2 =>
    cases success
    rw [(sameShape_present name).texts_left]
    exact .nil
  case h_3 v _ =>
    obtain ⟨text, own, success⟩ := bind_eq_ok success
    cases success
    rw [(sameShape_equals name text text).texts_left]
    exact .cons own .nil
  case h_4 v _ =>
    obtain ⟨text, own, success⟩ := bind_eq_ok success
    cases success
    rw [(sameShape_differs name text text).texts_left]
    exact .cons own .nil
  case h_5 | h_6 | h_7 | h_8 =>
    obtain ⟨text, own, success⟩ := bind_eq_ok success
    cases success
    rw [(sameShape_range name _ _ _ _ rfl rfl _).texts_left]
    exact .cons own .nil
  case h_9 =>
    obtain ⟨low, below, success⟩ := bind_eq_ok success
    obtain ⟨high, above, success⟩ := bind_eq_ok success
    cases success
    rw [(sameShape_range name _ _ _ _ rfl rfl _).texts_left]
    exact .cons below (.cons above .nil)
  case h_10 =>
    obtain ⟨low, below, success⟩ := bind_eq_ok success
    obtain ⟨high, above, success⟩ := bind_eq_ok success
    cases success
    have range := sameShape_range name (some low) (some low) (some high) (some high) rfl rfl true
    have texts : (Clause.list [.everything, (rangeClause name (some low) (some high) true).not]).texts
        = [low, high] := (sameShape_everything.append range.not).list.texts_left
    rw [texts]
    exact .cons below (.cons above .nil)
  case h_11 values _ =>
    split at success
    · cases success
    · obtain ⟨texts, read, success⟩ := bind_eq_ok success
      cases success
      rw [(sameShape_inClause name rfl _).texts_left]
      exact valueTexts_eq_ok_iff.mp read
  case h_12 values _ =>
    split at success
    · cases success
    · obtain ⟨texts, read, success⟩ := bind_eq_ok success
      cases success
      rw [(sameShape_notInClause name rfl _).texts_left]
      exact valueTexts_eq_ok_iff.mp read
  all_goals cases success

section

variable {field : Field} (boolean : field.type = .boolean)

include boolean

/-- A value that denotes a truth value is written as that, unless it is a decimal; another one is at
fault. -/
theorem valueText_boolean_iff (operator : Operator) (v : Value) (text : String) :
    valueText field operator v = .ok text ↔
      ∃ truth, v.truth? = some truth ∧
        text = if v.isDecimal then v.text else truthText truth := by
  have written : ∀ (own : Bool) (form : Bool → String),
      (Except.ok (form own) : Except Error String) = .ok text ↔
        ∃ truth, some own = some truth ∧ text = form truth := by
    intro own form
    simp only [Except.ok.injEq, Option.some.injEq, exists_eq_left']
    exact eq_comm
  unfold valueText
  rw [boolean]
  cases v with
  | boolean b => exact written b truthText
  | integer n =>
    have same : (if n ≠ 0 then "true" else "false") = truthText (n ≠ 0) := by simp [truthText]
    dsimp only
    rw [same]
    exact written _ truthText
  | decimal x => exact written _ fun _ => (Value.decimal x).text
  | string s =>
    dsimp only [Value.truth?]
    split
    · exact written true truthText
    · split
      · exact written false truthText
      · exact iff_of_false (by rintro ⟨⟩) (by rintro ⟨truth, ⟨⟩, -⟩)

theorem exists_text_iff (operator : Operator) (v : Value) :
    (∃ text, valueText field operator v = .ok text) ↔ v.truth? ≠ none := by
  simp only [valueText_boolean_iff boolean, Option.ne_none_iff_exists']
  constructor
  · rintro ⟨text, truth, denotes, -⟩
    exact ⟨truth, denotes⟩
  · rintro ⟨truth, denotes⟩
    exact ⟨_, truth, denotes, rfl⟩

/-- A condition on truth values only compiles if its operator tests for equality. -/
theorem fitsTruth_of_compiles {name : String} {operator : Operator} {operand : Operand} {c : Clause}
    (success : valueClause field name operator operand = .ok c) : operand.FitsTruth operator := by
  unfold valueClause at success
  rw [boolean] at success
  cases operator with
  | eq | neq =>
    cases operand with
    | null => first | exact .inl rfl | exact .inr rfl
    | scalar v => first | exact .inl rfl | exact .inr rfl
    | list values => cases success
  | isIn | notIn =>
    cases operand with
    | null | scalar => cases success
    | list values =>
      refine ⟨rfl, ?_⟩
      rintro rfl
      cases success
  | _ => cases success

/-- A condition on truth values compiles iff its operator tests for equality and all values denote
truth values. -/
theorem valueClause_boolean_iff (name : String) (operator : Operator) (operand : Operand) :
    (∃ c, valueClause field name operator operand = .ok c) ↔
      operand.FitsTruth operator ∧ ∀ v ∈ operand.values, v.truth? ≠ none := by
  simp only [← exists_text_iff boolean operator]
  constructor
  · rintro ⟨c, success⟩
    exact ⟨fitsTruth_of_compiles boolean success,
      exists_forall₂_iff.mp ⟨c.texts, valueClause_texts success⟩⟩
  · rintro ⟨fits, each⟩
    have tested : ¬ (field.type = .boolean ∧
        (operator.isComparison || operator.isRange) = true) := by
      rw [fits.not_compares]
      rintro ⟨-, ⟨⟩⟩
    unfold valueClause
    dsimp only
    rw [if_neg tested]
    cases operand with
    | null => rcases fits with rfl | rfl <;> exact ⟨_, rfl⟩
    | scalar v =>
      obtain ⟨text, own⟩ := each v List.mem_cons_self
      rcases fits with rfl | rfl <;> simp only [own] <;> exact ⟨_, rfl⟩
    | list values =>
      obtain ⟨listed, some_values⟩ := fits
      obtain ⟨texts, all⟩ := exists_forall₂_iff.mpr each
      have read : valueTexts field operator (values.filterMap id) = .ok texts :=
        valueTexts_eq_ok_iff.mpr all
      have nonempty : values.isEmpty = false := List.isEmpty_eq_false_iff.mpr some_values
      cases operator with
      | isIn | notIn =>
        simp only [nonempty, read]
        exact ⟨_, rfl⟩
      | _ => cases listed

end

/-- A literal says `true` or `false`, as its value denotes. -/
def IsTruthLiteral (v : Value) (text : String) : Prop :=
  (text = "true" ∨ text = "false") ∧ (text = "true" ↔ v.truth? = some true)

/-- The literal of a value in a condition on truth values: a decimal stands as it is written, which
is no truth value. -/
def IsLiteralOf (v : Value) (text : String) : Prop :=
  if v.isDecimal then text = v.text ∧ text ≠ "true" ∧ text ≠ "false" else IsTruthLiteral v text

theorem isTruthLiteral_truthText {v : Value} {truth : Bool} (denotes : v.truth? = some truth) :
    IsTruthLiteral v (truthText truth) := by
  rw [IsTruthLiteral, truthText_eq_true_iff, denotes, Option.some.injEq]
  exact ⟨by cases truth <;> decide, .rfl⟩

theorem isLiteralOf_text {field : Field} (boolean : field.type = .boolean) {operator : Operator}
    {v : Value} {text : String} (written : valueText field operator v = .ok text) :
    IsLiteralOf v text := by
  obtain ⟨truth, denotes, rfl⟩ := (valueText_boolean_iff boolean operator v text).mp written
  unfold IsLiteralOf
  cases v with
  | decimal x =>
    exact ⟨rfl, Decimal.plain_ne_truth _ true, Decimal.plain_ne_truth _ false⟩
  | boolean | integer | string => exact isTruthLiteral_truthText denotes

theorem IsLiteralOf.is_truth_iff {v : Value} {text : String} (literal : IsLiteralOf v text) :
    (text = "true" ∨ text = "false") ↔ v.isDecimal = false := by
  unfold IsLiteralOf at literal
  split at literal
  · next decimal =>
    rw [decimal]
    exact iff_of_false (not_or.mpr literal.2) (by decide)
  · next whole => exact iff_of_true literal.1 (Bool.eq_false_iff.mpr whole)

/-- The literals are truth values iff no value is a decimal. -/
theorem forall_literals_iff {values : List Value} {texts : List String}
    (literals : List.Forall₂ IsLiteralOf values texts) :
    (∀ text ∈ texts, text = "true" ∨ text = "false") ↔ ∀ v ∈ values, v.isDecimal = false := by
  induction literals with
  | nil => simp
  | cons own _ ih => rw [List.forall_mem_cons, List.forall_mem_cons, own.is_truth_iff, ih]

namespace Context

/-- A condition on a field of truth values compiles iff its operator tests for equality and all its
values denote truth values. It then has one literal for each value, which is `true` or `false` as
the value denotes, unless the value is a decimal. Where the name of the field has no quotes, these
are all literals that are read in the query. -/
theorem boolean_literals (ctx : Context) (languages : List LanguageId) {c : Condition}
    {field : Field} (found : ctx.schema.field? c.field = some field) (boolean : field.type = .boolean) :
    ((∃ o, (ctx.condition languages c).outcome = .ok o) ↔
      c.operand.FitsTruth c.operator ∧ ∀ v ∈ c.operand.values, v.truth? ≠ none) ∧
    ∀ o, (ctx.condition languages c).outcome = .ok o → ∃ f, o = some f ∧
      (Text.IsUnquoted (ctx.catalog.nameOf field .unspecified).toList →
        f.literals = f.clause.texts) ∧
      f.clause.texts.length = c.operand.values.length ∧
      List.Forall₂ IsLiteralOf c.operand.values f.clause.texts ∧
      ((∀ text ∈ f.clause.texts, text = "true" ∨ text = "false") ↔
        ∀ v ∈ c.operand.values, v.isDecimal = false) := by
  have compiled : (ctx.condition languages c).outcome =
      (valueClause field (ctx.catalog.nameOf field .unspecified) c.operator c.operand).map
        fun clause => some (.ofClause clause) := by
    rw [condition_of_field found, leaf, boolean]
    cases valueClause field (ctx.catalog.nameOf field .unspecified) c.operator c.operand <;> rfl
  rw [compiled]
  constructor
  · rw [← valueClause_boolean_iff boolean (ctx.catalog.nameOf field .unspecified)]
    cases valueClause field (ctx.catalog.nameOf field .unspecified) c.operator c.operand <;>
      simp [Except.map]
  · intro o success
    obtain ⟨clause, written, rfl⟩ := map_eq_ok success
    have literals : List.Forall₂ IsLiteralOf c.operand.values clause.texts :=
      (valueClause_texts written).imp fun v text => isLiteralOf_text boolean
    refine ⟨.ofClause clause, rfl, fun plain => ?_, literals.length_eq.symm, literals,
      forall_literals_iff literals⟩
    have form : LeafForm (· = ctx.catalog.nameOf field .unspecified) clause :=
      valueClause_form rfl written
    exact literals_eq (form.isQuoted fun name same => same ▸ plain)

/-- An index with a truth value. -/
def flags : Context where
  catalog := .ofSchema {
    fields := Index.FieldSet.empty.insert (.simple "status" .boolean)
    languages := []
    scope := ⟨"default", "000000"⟩
    foreign := false
    special := .standard }
  spatial := .skip

/-- Truth values in all the forms that denote some, and an absent one. -/
def anyFlag : Condition :=
  ⟨"status", .isIn, .list [some (.boolean true), some (.integer 2), some (.string "0"), none,
    some (.string "true"), some (.integer 0)]⟩

/-- Truth values in all of their forms, with what is sent. -/
theorem boolean_literals_forms :
    (∃ field, flags.schema.field? anyFlag.field = some field ∧ field.type = .boolean) ∧
    ∃ f, (flags.condition [] anyFlag).outcome = .ok (some f) ∧
      f.query = "(bs_status:\"true\" bs_status:\"true\" bs_status:\"false\" bs_status:\"true\" " ++
        "bs_status:\"false\" (*:* -bs_status:[* TO *]))" ∧
      f.literals = ["true", "true", "false", "true", "false"] ∧
      List.Forall₂ IsLiteralOf anyFlag.operand.values f.literals := by
  have found : flags.schema.field? anyFlag.field = some (.simple "status" .boolean) := rfl
  have ran : ∃ f, (flags.condition [] anyFlag).outcome = .ok (some f) ∧
      f.query = "(bs_status:\"true\" bs_status:\"true\" bs_status:\"false\" bs_status:\"true\" " ++
        "bs_status:\"false\" (*:* -bs_status:[* TO *]))" ∧
      f.clause.texts = ["true", "true", "false", "true", "false"] := ⟨_, rfl, rfl, rfl⟩
  obtain ⟨f, compiled, query, texts⟩ := ran
  obtain ⟨-, told⟩ := boolean_literals flags [] found rfl
  obtain ⟨_, ⟨⟩, read, -, each, -⟩ := told _ compiled
  have name : flags.catalog.nameOf (.simple "status" .boolean) .unspecified = "bs_status" := rfl
  have all : f.literals = f.clause.texts := read (by rw [name]; decide)
  exact ⟨⟨_, found, rfl⟩, f, compiled, query, all.trans texts, all ▸ each⟩

/-- A decimal is not made a truth value, although it denotes one. -/
theorem boolean_decimal_verbatim :
    (flags.conditions [] ⟨.and, [.condition (.equal "status" (.decimal 1.5))], .empty⟩).outcome.map
        (List.map Fragment.query) = .ok ["bs_status:\"1.5\""] ∧
      (Value.decimal 1.5).truth? = some true :=
  ⟨rfl, rfl⟩

end Context

end SearchCompiler.Compile
