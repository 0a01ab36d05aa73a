import SearchCompiler.Proofs.Compile.Faults
import SearchCompiler.Proofs.Compile.Truth
import SearchCompiler.Proofs.Filter.Timestamp

/-!
# Conditions on dates

An integer in a condition on a date is a timestamp. A condition whose operand has the form that its
operator needs (`Operand.Fits`) compiles iff all its timestamps lie in the years 0 to 9999;
otherwise the first one that does not is at fault. In the filter each timestamp is the date and time
that it stands for, in twenty characters without escapes (`DateLiteral`), and the bytes of these
texts are in the order of the timestamps (`date_timestamps`).
-/

namespace SearchCompiler.Filter

/-- An operand has the form that an operator needs: nothing or one value to test for equality, one
value to compare with, two ends of a range, or a list that is not empty. -/
def Operand.Fits (operator : Operator) : Operand → Prop
  | .null => operator = .eq ∨ operator = .neq
  | .scalar _ => operator.isRange = false ∧ operator.isList = false
  | .list values =>
    operator.isRange = true ∧ (∃ low high, values = [some low, some high]) ∨
      operator.isList = true ∧ values ≠ []

/-- The timestamp that a value is, if no year of four digits holds it. -/
def Value.unwritten? : Value → Option Int
  | .integer t => if Timestamp.InYears t then none else some t
  | .boolean _ | .decimal _ | .string _ => none

/-- The text of a value in a condition on dates. A timestamp is the date and time that it stands
for; another value stands as it is. -/
def DateLiteral : Value → String → Prop
  | .integer t, text => ∃ d : DateTime, d.timestamp = t ∧ text = d.text
  | v, text => text = v.text

/-- In quotes the text of a date and time has no escapes. -/
theorem DateTime.escapePhrase_text (d : DateTime) :
    Text.escapePhrase d.text = "\"" ++ d.text ++ "\"" := by
  rw [Text.escapePhrase, Text.phrase, Text.phraseBody_unquoted d.isUnquoted_text]
  exact String.toList_inj.mp (by simp)

end SearchCompiler.Filter

namespace SearchCompiler.Compile

open Filter

/-! ### Values one by one -/

/-- The first value that is at fault is that of the list. -/
theorem fault?_valueTexts (field : Field) (operator : Operator) (values : List Value) :
    fault? (valueTexts field operator values) =
      values.findSome? fun v => fault? (valueText field operator v) := by
  induction values with
  | nil => rfl
  | cons v rest ih =>
    rw [valueTexts, List.findSome?_cons, ← ih]
    cases valueText field operator v with
    | error e => rfl
    | ok text => exact fault?_bind_pure _ _

section

variable {field : Field} (other : field.type ≠ .boolean)

include other

/-- A condition of the right form has the fault of its first value at fault. -/
theorem fault?_valueClause {operator : Operator} {operand : Operand} (fits : operand.Fits operator)
    (name : String) : fault? (valueClause field name operator operand) =
      operand.values.findSome? fun v => fault? (valueText field operator v) := by
  rw [← fault?_valueTexts]
  unfold valueClause
  dsimp only
  rw [if_neg fun tested => other tested.1]
  cases operand with
  | null => rcases fits with rfl | rfl <;> rfl
  | scalar v =>
    have value : fault? (valueTexts field operator [v]) = fault? (valueText field operator v) :=
      fault?_bind_pure _ fun text => [text]
    obtain ⟨single, unlisted⟩ := fits
    cases operator with
    | between | notBetween => cases single
    | isIn | notIn => cases unlisted
    | _ => exact (fault?_bind_pure (valueText field _ v) _).trans value.symm
  | list values =>
    rcases fits with ⟨ranges, low, high, rfl⟩ | ⟨listed, some_values⟩
    · have ends : fault? (valueTexts field operator [low, high]) =
          (fault? (valueText field operator low)).or (fault? (valueText field operator high)) :=
        fault?_bind _ _ fun _ _ =>
          (fault?_bind_pure _ _).trans (fault?_bind_pure _ fun text => [text])
      cases operator with
      | between | notBetween =>
        exact (fault?_bind (valueText field _ low) _ fun _ _ =>
          fault?_bind_pure (valueText field _ high) _).trans ends.symm
      | _ => cases ranges
    · have nonempty : values.isEmpty = false := List.isEmpty_eq_false_iff.mpr some_values
      cases operator with
      | isIn | notIn =>
        simp only [nonempty]
        exact fault?_bind_pure _ _
      | _ => cases listed

/-- A condition only compiles if its operand has the form that its operator needs. -/
theorem fits_of_compiles {name : String} {operator : Operator} {operand : Operand} {c : Clause}
    (success : valueClause field name operator operand = .ok c) : operand.Fits operator := by
  unfold valueClause at success
  dsimp only at success
  rw [if_neg fun tested => other tested.1] at success
  cases operand with
  | null =>
    cases operator with
    | eq => exact .inl rfl
    | neq => exact .inr rfl
    | _ => cases success
  | scalar v =>
    cases operator with
    | between | notBetween | isIn | notIn => cases success
    | _ => exact ⟨rfl, rfl⟩
  | list values =>
    cases operator with
    | between | notBetween =>
      match values with
      | [some low, some high] => exact .inl ⟨rfl, low, high, rfl⟩
      | [] | [none] | [some _] | none :: _ :: _ | some _ :: none :: _ | some _ :: some _ :: _ :: _ =>
        cases success
    | isIn | notIn =>
      refine .inr ⟨rfl, ?_⟩
      rintro rfl
      cases success
    | _ => cases success

end

section

variable {field : Field} (date : field.type = .date)

include date

theorem ne_boolean : field.type ≠ .boolean := by
  rw [date]
  decide

/-- A value of a date field is at fault iff it is a timestamp that no year of four digits holds. -/
theorem fault?_valueText_date (operator : Operator) (v : Value) :
    fault? (valueText field operator v) =
      v.unwritten?.map fun t => .invalidOperand field.id operator (.timestamp t) := by
  unfold valueText
  rw [date]
  cases v with
  | integer t =>
    dsimp only [Value.unwritten?]
    by_cases within : Timestamp.InYears t
    · obtain ⟨text, written⟩ := Timestamp.exists_text_iff.mpr within
      rw [if_pos within, written]
      rfl
    · rw [if_neg within, Timestamp.text?_eq_none_iff.mpr within]
      rfl
  | boolean | decimal | string => rfl

/-- The text of a value of a date field is the date that it stands for. -/
theorem dateLiteral_of_valueText {operator : Operator} {v : Value} {text : String}
    (written : valueText field operator v = .ok text) : DateLiteral v text := by
  unfold valueText at written
  rw [date] at written
  cases v with
  | integer t =>
    dsimp only at written
    split at written
    · next text' found =>
      cases written
      exact Timestamp.text?_eq_some_iff.mp found
    · cases written
  | boolean | decimal | string =>
    cases written
    rfl

end

/-- No timestamp is out of range iff all lie in the years 0 to 9999. -/
theorem findSome?_unwritten_eq_none_iff {values : List Value} :
    values.findSome? Value.unwritten? = none ↔ ∀ t, .integer t ∈ values → Timestamp.InYears t := by
  rw [List.findSome?_eq_none_iff]
  constructor
  · intro none t among
    by_contra outside
    exact absurd (none _ among) (by simp [Value.unwritten?, outside])
  · intro within v among
    cases v with
    | integer t => exact if_pos (within t among)
    | boolean | decimal | string => rfl

namespace Context

section

variable {ctx : Context} {languages : List LanguageId} {c : Condition} {field : Field}
  (found : ctx.schema.field? c.field = some field) (date : field.type = .date)

include found date

theorem condition_on_date : (ctx.condition languages c).outcome =
    (valueClause field (ctx.catalog.nameOf field .unspecified) c.operator c.operand).map
      fun clause => some (.ofClause clause) := by
  rw [condition_of_field found, leaf, date]
  cases valueClause field (ctx.catalog.nameOf field .unspecified) c.operator c.operand <;> rfl

/-- The first timestamp that no year of four digits holds is at fault. -/
theorem fault?_on_date (fits : c.operand.Fits c.operator) :
    fault? (ctx.condition languages c).outcome =
      (c.operand.values.findSome? Value.unwritten?).map fun t =>
        .invalidOperand field.id c.operator (.timestamp t) := by
  rw [condition_on_date found date, fault?_map, fault?_valueClause (ne_boolean date) fits,
    List.map_findSome?]
  exact congrArg (List.findSome? · _) (funext (fault?_valueText_date date c.operator))

/-- A condition on a date compiles iff its operand has the form that its operator needs and all its
timestamps lie in the years 0 to 9999. -/
theorem compiles_on_date_iff : (∃ o, (ctx.condition languages c).outcome = .ok o) ↔
    c.operand.Fits c.operator ∧ ∀ t, .integer t ∈ c.operand.values → Timestamp.InYears t := by
  rw [← findSome?_unwritten_eq_none_iff, ← fault?_eq_none_iff]
  constructor
  · intro fine
    have fits : c.operand.Fits c.operator := by
      obtain ⟨o, success⟩ := fault?_eq_none_iff.mp fine
      rw [condition_on_date found date] at success
      obtain ⟨clause, written, -⟩ := map_eq_ok success
      exact fits_of_compiles (ne_boolean date) written
    rw [fault?_on_date found date fits, Option.map_eq_none_iff] at fine
    exact ⟨fits, fine⟩
  · rintro ⟨fits, fine⟩
    rw [fault?_on_date found date fits, fine]
    rfl

end

/-- A condition on a date whose operand has the form that its operator needs compiles iff all its
timestamps lie in the years 0 to 9999, and else the first one that does not is at fault. It then has
one literal for each value; that of a timestamp is the date and time that it stands for, in twenty
characters and without escapes, and the bytes of literals are in the order of the timestamps. -/
theorem date_timestamps (ctx : Context) (languages : List LanguageId) {c : Condition} {field : Field}
    (found : ctx.schema.field? c.field = some field) (date : field.type = .date) :
    ((∃ o, (ctx.condition languages c).outcome = .ok o) ↔
      c.operand.Fits c.operator ∧ ∀ t, .integer t ∈ c.operand.values → Timestamp.InYears t) ∧
    (c.operand.Fits c.operator → fault? (ctx.condition languages c).outcome =
      (c.operand.values.findSome? Value.unwritten?).map fun t =>
        .invalidOperand field.id c.operator (.timestamp t)) ∧
    (∀ o, (ctx.condition languages c).outcome = .ok o → ∃ f, o = some f ∧
      (Text.IsUnquoted (ctx.catalog.nameOf field .unspecified).toList →
        f.literals = f.clause.texts) ∧
      List.Forall₂ DateLiteral c.operand.values f.clause.texts) ∧
    ∀ t text, DateLiteral (.integer t) text →
      text.length = 20 ∧ Text.escapePhrase text = "\"" ++ text ++ "\"" ∧
      ∀ u other, DateLiteral (.integer u) other → (utf8 text < utf8 other ↔ t < u) := by
  refine ⟨compiles_on_date_iff found date, fault?_on_date found date, ?_, ?_⟩
  · intro o success
    rw [condition_on_date found date] at success
    obtain ⟨clause, written, rfl⟩ := map_eq_ok success
    have form : LeafForm (· = ctx.catalog.nameOf field .unspecified) clause :=
      valueClause_form rfl written
    exact ⟨.ofClause clause, rfl,
      fun plain => literals_eq (form.isQuoted fun name same => same ▸ plain),
      (valueClause_texts written).imp fun _ _ => dateLiteral_of_valueText date⟩
  · rintro t text ⟨d, rfl, rfl⟩
    refine ⟨d.length_text, d.escapePhrase_text, ?_⟩
    rintro u other ⟨e, rfl, rfl⟩
    exact DateTime.utf8_text_lt_iff

def dated : Context where
  catalog := .ofSchema {
    fields := Index.FieldSet.empty.insert (.simple "created" .date)
    languages := []
    scope := ⟨"default", "000000"⟩
    foreign := false
    special := .standard }
  spatial := .skip

/-- The second before 1970 and a leap day. -/
def aroundLeapDay : Condition :=
  ⟨"created", .between, .list [some (.integer (-1)), some (.integer 951825600)]⟩

/-- The first second of the year 10000. -/
def tenThousand : Condition :=
  ⟨"created", .lt, .scalar (.integer 253402300800)⟩

/-- The second before 1970 and a leap day, whose texts are in the order of their bytes; and a year
of five digits. -/
theorem date_timestamps_leap :
    (∃ field, dated.schema.field? aroundLeapDay.field = some field ∧ field.type = .date) ∧
    (∃ f, (dated.condition [] aroundLeapDay).outcome = .ok (some f) ∧
      f.query = "ds_created:[\"1969-12-31T23:59:59Z\" TO \"2000-02-29T12:00:00Z\"]" ∧
      f.literals = ["1969-12-31T23:59:59Z", "2000-02-29T12:00:00Z"] ∧
      List.Forall₂ DateLiteral aroundLeapDay.operand.values f.literals) ∧
    utf8 "1969-12-31T23:59:59Z" < utf8 "2000-02-29T12:00:00Z" ∧
    fault? (dated.condition [] tenThousand).outcome =
      some (.invalidOperand "created" .lt (.timestamp 253402300800)) := by
  have found : dated.schema.field? "created" = some (.simple "created" .date) := rfl
  have ran : ∃ f, (dated.condition [] aroundLeapDay).outcome = .ok (some f) ∧
      f.query = "ds_created:[\"1969-12-31T23:59:59Z\" TO \"2000-02-29T12:00:00Z\"]" ∧
      f.clause.texts = ["1969-12-31T23:59:59Z", "2000-02-29T12:00:00Z"] := ⟨_, rfl, rfl, rfl⟩
  obtain ⟨f, compiled, query, texts⟩ := ran
  obtain ⟨-, -, told, order⟩ := date_timestamps dated [] (c := aroundLeapDay) found rfl
  obtain ⟨-, faults, -⟩ := date_timestamps dated [] (c := tenThousand) found rfl
  obtain ⟨_, ⟨⟩, read, each⟩ := told _ compiled
  have name : dated.catalog.nameOf (.simple "created" .date) .unspecified = "ds_created" := rfl
  have all : f.literals = f.clause.texts := read (by rw [name]; decide)
  refine ⟨⟨_, found, rfl⟩, ⟨f, compiled, query, all.trans texts, all ▸ each⟩, ?_, ?_⟩
  · rw [texts] at each
    obtain ⟨first, each⟩ := List.forall₂_cons.mp each
    obtain ⟨second, -⟩ := List.forall₂_cons.mp each
    obtain ⟨-, -, less⟩ := order _ _ first
    exact (less _ _ second).mpr (by decide)
  · exact faults ⟨rfl, rfl⟩

end Context

end SearchCompiler.Compile
