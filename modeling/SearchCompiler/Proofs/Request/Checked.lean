import SearchCompiler.Config.Warning
import SearchCompiler.Proofs.Compile.Faults
import SearchCompiler.Proofs.Keys.Grammar
import SearchCompiler.Proofs.Keys.Modes
import SearchCompiler.Proofs.Request.Reserved

/-!
# Settings without warnings

Settings that give no warning can be searched by typed text: the request of a query that has nothing
but a text, languages and a part of the results fails only if the text is meant for an inline query
and its keys have a group within the outermost group. What is sent otherwise is what the keys
compile to over all text fields (`checked_settings_search`).

What could fail besides is ruled out step by step. Text fields have a language to be named in, as
there is a warning otherwise (`targets_ok`); keys that are read from a text fit their mode but for
inner groups; and the filter on the languages, which is all that is filtered by, can always be
compiled (`conditions_ok`).
-/

namespace SearchCompiler.Index

theorem mem_of_mem_ofList {field : Field} {fields : List Field}
    (among : field ∈ (FieldSet.ofList fields).items) : field ∈ fields := by
  have general : ∀ (added known : List Field),
      field ∈ added.foldl (fun items f => insertField f items) known →
        field ∈ known ∨ field ∈ added := by
    intro added
    induction added with
    | nil => exact fun _ => .inl
    | cons f rest ih =>
      intro known among
      rcases ih _ among with early | late
      · rcases mem_insertField early with rfl | early
        · exact .inr List.mem_cons_self
        · exact .inl early
      · exact .inr (List.mem_cons_of_mem _ late)
  rw [items_ofList] at among
  exact (general fields [] among).resolve_left List.not_mem_nil

end SearchCompiler.Index

namespace SearchCompiler.Compile.Context

open Filter

variable {ctx : Context}

/-- Without conditions only the languages are filtered by, which cannot fail. -/
theorem conditions_ok (ctx : Context) (languages : List LanguageId) (conjunction : Conjunction) :
    ∃ fragments, (ctx.conditions languages (.ofConjunction conjunction)).outcome =
      .ok fragments := by
  unfold conditions
  rw [Traced.outcome_bind]
  change ∃ fragments, Traced.outcome _ = .ok fragments
  rw [Traced.outcome_bind]
  change ∃ fragments, Traced.outcome _ = .ok fragments
  split
  · next added =>
    have spoken : languages ≠ [] := by
      rintro rfl
      simp at added
    obtain ⟨o, compiled⟩ := ctx.languageCondition_ok spoken
    rw [Traced.outcome_bind, compiled]
    exact ⟨_, rfl⟩
  · exact ⟨_, rfl⟩

end SearchCompiler.Compile.Context

namespace SearchCompiler.Config

/-- Without warnings there is a language if there is a text field to be named in it. -/
theorem languages_of_quiet {c : Config} (quiet : c.warnings = []) (text : c.textFields ≠ []) :
    c.search.languages ≠ [] := by
  intro silent
  unfold warnings at quiet
  split at quiet
  · cases quiet
  · have unnamed : (!c.textFields.isEmpty && c.search.languages.isEmpty) = true := by
      rw [silent, List.isEmpty_eq_false_iff.mpr text]
      rfl
    rw [if_pos unnamed] at quiet
    cases quiet

end SearchCompiler.Config

namespace SearchCompiler.Request

open Compile Compile.Traced Index

namespace Assembly

variable {a : Assembly}

/-- All text fields have targets, if there is a language to name them in. -/
theorem targets_ok (a : Assembly) (languages : List LanguageId)
    (spoken : a.schema.fields.textFields ≠ [] → languages ≠ []) :
    ∃ targets, (a.targets [] languages).outcome = .ok targets := by
  change ∃ targets, (a.targetsOf languages a.schema.fields.textFields []).outcome = .ok targets
  by_cases none : a.schema.fields.textFields = []
  · rw [none]
    exact ⟨[], rfl⟩
  · have texts : ∀ f ∈ a.schema.fields.textFields, f.isText = true :=
      fun f among => (List.mem_filter.mp among).2
    obtain ⟨targets, ran, -⟩ := a.targetsOf_mem (spoken none) texts []
    exact ⟨targets, ran⟩

/-- The text fields of the index are among those of the settings. -/
theorem textFields_of_schema {c : Config} (index : a.schema = c.schema)
    (text : a.schema.fields.textFields ≠ []) : c.textFields ≠ [] := by
  obtain ⟨field, among⟩ := List.exists_mem_of_ne_nil _ text
  obtain ⟨configured, isText⟩ := List.mem_filter.mp among
  rw [index] at configured
  exact List.ne_nil_of_mem (List.mem_filter.mpr ⟨mem_of_mem_ofList configured, isText⟩)

/-- A query that is nothing but keys has a request if its main query can be assembled, and fails the
way that fails otherwise. -/
theorem request_of_mainQuery (a : Assembly) {q : Query} {conjunction : Conjunction}
    (plain : q.filter = .ofConjunction conjunction ∧ q.sorts = [] ∧ q.facets = [] ∧
      q.grouping = none ∧ q.locations = []) :
    (∀ e, (a.mainQuery q (a.languages q)).outcome = .error e →
      (a.request q).outcome = .error e) ∧
    (∀ clause, (a.mainQuery q (a.languages q)).outcome = .ok clause →
      ∃ r, (a.request q).outcome = .ok r ∧ r.query = clause.render ∧ r.start = q.offset ∧
        r.rows = q.limit.getD a.settings.limit) := by
  obtain ⟨filter, sorts, facets, grouping, locations⟩ := plain
  constructor
  · intro e failed
    rw [request, outcome_bind, failed]
    rfl
  · intro clause main
    obtain ⟨fragments, filters⟩ := a.context.conditions_ok (a.languages q) conjunction
    let r : Compiled := {
      query := clause.render
      filters := (if !q.unscoped && !a.schema.foreign then [a.scopeFilter.render] else []) ++
        fragments.map Filter.Fragment.render ++ []
      sort := none
      start := q.offset
      rows := q.limit.getD a.settings.limit
      returned := a.returnedFields
      facets := []
      groups := [] }
    refine ⟨r, ?_, rfl, rfl, rfl⟩
    rw [request, outcome_bind, main, filter, sorts, facets, grouping, locations]
    change Traced.outcome _ = _
    rw [outcome_bind, filters]
    rfl

/-- The main query of keys as they are read from a text is what they compile to over all text
fields, unless the text is meant for an inline query and has a group within the outermost group. -/
theorem mainQuery_parsed {q : Query} {keys : Option Keys.Expression} {languages : List LanguageId}
    (all : q.fields = []) (own : q.keys = none)
    (read : q.text.elim (.ok none)
      (Keys.parse · (q.mode.getD a.settings.mode) a.settings.conjunction) = .ok keys)
    (spoken : a.schema.fields.textFields ≠ [] → languages ≠ []) :
    (q.mode.getD a.settings.mode = .edismax ∧ keys.any Keys.Expression.hasInnerGroup = true →
      (a.mainQuery q languages).outcome = .error (.incompatibleMode .edismax .nestedGroup)) ∧
    (¬ (q.mode.getD a.settings.mode = .edismax ∧
        keys.any Keys.Expression.hasInnerGroup = true) →
      ∃ targets query, (a.targets [] languages).outcome = .ok targets ∧
        keys.elim (.ok none) (Keys.Flattening.mk targets (q.mode.getD a.settings.mode)).compile =
          .ok query ∧
        (a.mainQuery q languages).outcome = .ok (query.getD .everything)) := by
  obtain ⟨targets, named⟩ := a.targets_ok languages spoken
  have keys_read : a.keys q (q.mode.getD a.settings.mode) = .ok keys := by
    unfold Assembly.keys
    rw [own]
    cases typed : q.text with
    | none =>
      rw [typed] at read
      cases read
      rfl
    | some text =>
      rw [typed, Option.elim_some] at read
      dsimp only
      rw [read]
  cases keys with
  | none =>
    refine ⟨fun ⟨_, nested⟩ => (Bool.false_ne_true nested).elim, fun _ => ?_⟩
    refine ⟨targets, none, named, rfl, ?_⟩
    unfold mainQuery
    dsimp only
    rw [keys_read]
    rfl
  | some e =>
    have main := Assembly.mainQuery_all languages keys_read all
    change (a.targetsOf languages a.schema.fields.textFields []).outcome = _ at named
    rw [named] at main
    obtain ⟨text, typed⟩ : ∃ text, q.text = some text := by
      cases typed : q.text with
      | none =>
        rw [typed] at read
        cases read
      | some text => exact ⟨text, rfl⟩
    rw [typed, Option.elim_some] at read
    obtain ⟨failing, succeeding⟩ := Keys.compile_parsed read targets
    refine ⟨fun nested => ?_, fun fits => ?_⟩
    · rw [main]
      change Except.map _ (Keys.Flattening.compile _ _) = _
      rw [failing nested]
      rfl
    · obtain ⟨query, compiled⟩ := succeeding fits
      refine ⟨targets, query, named, compiled, ?_⟩
      rw [main]
      change Except.map _ (Keys.Flattening.compile _ _) = _
      rw [compiled]
      rfl

end Assembly

/-- A query that has nothing but a text, the way it is meant, its languages, and the part of the
results that is wanted. -/
def Query.typed (text : Option String) (mode : Option Keys.Mode) (languages : List LanguageId)
    (offset : Nat) (limit : Option Nat) : Query :=
  { Query.empty with text, mode, languages, offset, limit }

/-- A request for what is typed, over settings without warnings, fails only if the text is meant for
an inline query and has a group within the outermost group. Otherwise its main query is what the
keys compile to over all text fields. -/
theorem checked_settings_search (c : Config) (quiet : c.warnings = []) (a : Assembly)
    (index : a.schema = c.schema) (settings : a.settings = c.search) (text : Option String)
    (mode : Option Keys.Mode) (languages : List LanguageId) (offset : Nat) (limit : Option Nat)
    (keys : Option Keys.Expression)
    (read : text.elim (.ok none)
      (Keys.parse · (mode.getD c.search.mode) c.search.conjunction) = .ok keys) :
    (mode.getD c.search.mode = .edismax ∧ keys.any Keys.Expression.hasInnerGroup = true →
      (a.request (.typed text mode languages offset limit)).outcome =
        .error (.incompatibleMode .edismax .nestedGroup)) ∧
    (¬ (mode.getD c.search.mode = .edismax ∧
        keys.any Keys.Expression.hasInnerGroup = true) →
      ∃ targets query r,
        (a.targets [] (a.languages (.typed text mode languages offset limit))).outcome =
          .ok targets ∧
        keys.elim (.ok none) (Keys.Flattening.mk targets (mode.getD c.search.mode)).compile =
          .ok query ∧
        (a.request (.typed text mode languages offset limit)).outcome = .ok r ∧
        r.query = (query.getD .everything).render ∧ r.start = offset ∧
        r.rows = limit.getD c.search.limit) := by
  obtain ⟨failing, succeeding⟩ := a.request_of_mainQuery
    (q := .typed text mode languages offset limit) ⟨rfl, rfl, rfl, rfl, rfl⟩
  have spoken : a.schema.fields.textFields ≠ [] →
      a.languages (.typed text mode languages offset limit) ≠ [] := by
    intro searched
    have configured : c.search.languages ≠ [] :=
      Config.languages_of_quiet quiet (Assembly.textFields_of_schema index searched)
    unfold Assembly.languages
    split
    · rw [index]
      exact configured
    · next own => exact fun none => own (List.isEmpty_iff.mpr none)
  obtain ⟨nesting, fitting⟩ := Assembly.mainQuery_parsed
    (q := .typed text mode languages offset limit) rfl rfl
    (by rw [settings]; exact read) spoken
  rw [settings] at nesting fitting succeeding
  refine ⟨fun nested => failing _ (nesting nested), fun fits => ?_⟩
  obtain ⟨targets, query, named, compiled, main⟩ := fitting fits
  obtain ⟨r, assembled, text, start, rows⟩ := succeeding _ main
  exact ⟨targets, query, r, named, compiled, assembled, text, start, rows⟩

/-- The settings of an index of titles in English. -/
def titlesChecked : Config :=
  ⟨.standard, { SearchSettings.standard with languages := [Context.english] },
    [.simple "title" .text], none⟩

/-- What the word `b` is left out by is a group of its own, so that such keys can be searched as
terms but not inline. -/
theorem checked_settings_without_b :
    titlesChecked.warnings = [] ∧
    (∀ mode ∈ [Keys.Mode.terms, Keys.Mode.edismax], Keys.parse "a -b" mode .and =
      .ok (some (.group .and false false [.term "a", .group .and true false [.term "b"]]))) ∧
    (∃ r, (Assembly.request ⟨⟨.ofSchema titlesChecked.schema, .skip⟩, titlesChecked.search⟩
      (.typed (some "a -b") none [] 20 none)).outcome = .ok r ∧
      r.query = "+(-(ts_X3b_en_title:(+b)^1) +(ts_X3b_en_title:(+a)^1))" ∧ r.start = 20 ∧
      r.rows = 10) ∧
    (Assembly.request ⟨⟨.ofSchema titlesChecked.schema, .skip⟩, titlesChecked.search⟩
      (.typed (some "a -b") (some .edismax) [] 20 none)).outcome =
        .error (.incompatibleMode .edismax .nestedGroup) := by
  have quiet : titlesChecked.warnings = [] := by rfl
  have cut : Keys.lex "a -b" = .ok [⟨.term "a", 0⟩, ⟨.not, 2⟩, ⟨.term "b", 3⟩] := by
    decide +kernel
  let written : Keys.Alternatives :=
    .single (.adjacent (.term "a") (.single (.not (.term "b"))))
  have read : Keys.parse "a -b" .terms .and =
      .ok (some (.group .and false false [.term "a", .group .and true false [.term "b"]])) :=
    (Keys.parse_iff _ _ _).mpr ⟨by decide, _, cut, written, rfl, rfl⟩
  have run := checked_settings_search titlesChecked quiet
    ⟨⟨.ofSchema titlesChecked.schema, .skip⟩, titlesChecked.search⟩ rfl rfl (some "a -b")
  obtain ⟨targets, query, r, named, compiled, assembled, text, start, rows⟩ :=
    (run none [] 20 none _ read).2 nofun
  refine ⟨quiet, ?_, ⟨r, assembled, ?_, start, rows⟩,
    (run (some .edismax) [] 20 none _ read).1 ⟨rfl, rfl⟩⟩
  · simp only [List.mem_cons, List.not_mem_nil, or_false]
    rintro mode (rfl | rfl) <;> exact read
  · cases named
    cases compiled
    rw [text]
    rfl

end SearchCompiler.Request
