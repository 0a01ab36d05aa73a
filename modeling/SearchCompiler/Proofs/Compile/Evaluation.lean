import SearchCompiler.Proofs.Compile.FieldQueries
import SearchCompiler.Proofs.Evaluation

/-!
# What the text of a filter says

A filter is sent as a text, and a document gets through if the text holds for it. That is the case
iff the clause of the filter holds (`conditions_hold_in_text`): no sign, parenthesis or `AND` is
read out of the name of a field or a literal, and none that was written is lost. Names are words,
and the queries of locations come from a builder of the compiler's own.
-/

namespace SearchCompiler.Compile

open Filter Clause

/-- The text of a query on a field begins with the name of the field, or with a label, and has a
colon behind it. -/
theorem IsFieldQuery.front {named : String → Prop}
    (words : ∀ name, named name → Name.IsWord name) {c : Clause} (own : IsFieldQuery named c) :
    ':' ∈ c.chars ∧ c.chars.head? ≠ some '(' ∧ c.chars.head? ≠ some '*' := by
  have onName : ∀ {name suffix : String} {c : Clause}, named name →
      ':' ∈ (Clause.onField name c suffix).chars ∧
        (Clause.onField name c suffix).chars.head? ≠ some '(' ∧
        (Clause.onField name c suffix).chars.head? ≠ some '*' := by
    intro name suffix c known
    have word : name.toList.all Name.isWordChar = true := words name known
    rw [chars_onField]
    refine ⟨List.mem_append_right _ List.mem_cons_self, ?_⟩
    cases letters : name.toList with
    | nil =>
      rw [List.nil_append, List.head?_cons]
      exact ⟨by decide, by decide⟩
    | cons first rest =>
      rw [letters, List.all_cons, Bool.and_eq_true] at word
      rw [List.cons_append, List.head?_cons]
      constructor
      · rintro ⟨⟩
        exact absurd word.1 (by decide)
      · rintro ⟨⟩
        exact absurd word.1 (by decide)
  cases own with
  | range name lower upper withBounds known => exact onName known
  | equals name text known => exact onName known
  | phrases name texts known => exact onName known
  | circle name circle known =>
    have label : (Clause.atom (.nested (circle.query name))).chars =
        '_' :: ("query_:\"".toList ++ (circle.query name).toList ++ ['"']) := rfl
    rw [label, List.head?_cons]
    refine ⟨List.mem_cons_of_mem _ ?_, by decide, by decide⟩
    exact List.mem_append_left _ (List.mem_append_left _ (by decide))

/-- A query on a field is told from everything else by its text. -/
theorem IsFieldQuery.isQuery {named : String → Prop}
    (words : ∀ name, named name → Name.IsWord name) {c : Clause} (own : IsFieldQuery named c) :
    c.IsQuery := by
  obtain ⟨colon, round, star⟩ := own.front words
  have all : c.chars ≠ ['*', ':', '*'] := fun same => star (by rw [same, List.head?_cons])
  have word : c.chars ≠ Text.andWord := by
    intro same
    rw [same] at colon
    exact absurd colon (by decide)
  have body := own.isBody words
  cases own <;> exact ⟨rfl, body, round, all, word, fun _ => rfl⟩

/-- The text of a filter made of queries on fields says what its clause says. -/
theorem IsSentOf.holds_text {named : String → Prop}
    (words : ∀ name, named name → Name.IsWord name) {f : Fragment}
    (sent : IsSentOf (IsFieldQuery named) f.clause) (truth : String → Bool) :
    Text.holds truth f.query.toList = f.clause.holds truth := by
  have queries : ∀ {c : Clause}, c.IsMadeOf (IsFieldQuery named) → c.IsMadeOf IsQuery :=
    fun made => made.mono fun _ own => own.isQuery words
  rw [Fragment.query, toList_render]
  rcases sent with made | ⟨cs, row, made⟩
  · exact holds_chars truth (queries made)
  · rw [row, holds_row]
    exact holds_charsAll truth fun c among => queries (made c among)

namespace Context

/-- A filter holds by its text iff it holds by its clause, for all filters that a tree of conditions
is compiled into and whatever queries on fields match. -/
theorem conditions_hold_in_text (ctx : Context) (languages : List LanguageId) (group : Group)
    (fragments : List Fragment) (builtIn : ctx.spatial.IsBuiltIn)
    (words : ∀ name, ctx.IsName name → Name.IsWord name)
    (success : (ctx.conditions languages group).outcome = .ok fragments) (truth : String → Bool) :
    ∀ f ∈ fragments, Text.holds truth f.query.toList = f.clause.holds truth :=
  fun f among => (conditions_madeOf builtIn success f among).holds_text words truth

end Context

end SearchCompiler.Compile
