import SearchCompiler.Proofs.Compile.FieldQueries
import SearchCompiler.Proofs.Compile.Negation
import SearchCompiler.Proofs.Keys.Prohibition

/-!
# Texts that only prohibit

The lists of which `negative_lists` speaks are lists of clauses. The texts that are sent have the
same lists: a reader of their characters finds one that only prohibits iff there is one among the
clauses, in the query of keys (`Keys.compile_hasNegativeList`) as in filters
(`conditions_hasNegativeList`). Keys must not have texts that are a query already, and the queries
of locations come from a builder of the compiler's own.
-/

namespace SearchCompiler.Compile

open Filter Clause

/-- A query on a field is legible, if the name is a word. -/
theorem IsFieldQuery.isLegible {named : String → Prop}
    (words : ∀ name, named name → Name.IsWord name) {c : Clause} (own : IsFieldQuery named c) :
    c.IsLegible := by
  cases own with
  | range name lower upper withBounds known =>
    exact .onField (words name known) (.range lower upper withBounds) (by decide)
  | equals name text known => exact .onField (words name known) (.phrase text) (by decide)
  | phrases name texts known =>
    exact .onField (words name known) (.list (List.forall_mem_map.mpr fun text _ => .phrase text))
      (by decide)
  | circle name circle known =>
    exact .nested _ (isUnquoted_circle (Keys.isUnquoted_word (words name known)) circle)

/-- In the text of a filter a list that only prohibits is found iff its clause has one. -/
theorem IsSentOf.hasNegativeList_text {named : String → Prop}
    (words : ∀ name, named name → Name.IsWord name) {f : Fragment}
    (sent : IsSentOf (IsFieldQuery named) f.clause) :
    Text.hasNegativeList f.query.toList = f.clause.hasNegativeList := by
  have legible : ∀ {c : Clause}, c.IsMadeOf (IsFieldQuery named) → c.IsLegible :=
    fun made => made.isLegible fun _ own => own.isLegible words
  rw [Fragment.query, toList_render]
  rcases sent with made | ⟨cs, row, made⟩
  · exact hasNegativeList_chars (legible made)
  · rw [row, hasNegativeList_row]
    exact hasNegativeList_charsAll fun c among => legible (made c among)

namespace Context

/-- In the texts of the filters a list of nothing but clauses with a minus is found iff folding adds
one. -/
theorem conditions_hasNegativeList (ctx : Context) (languages : List LanguageId) (group : Group)
    (fragments : List Fragment) (builtIn : ctx.spatial.IsBuiltIn)
    (words : ∀ name, ctx.IsName name → Name.IsWord name)
    (success : (ctx.conditions languages group).outcome = .ok fragments) :
    fragments.any (fun f => Text.hasNegativeList f.query.toList) =
      ctx.groupProhibits languages group := by
  have seen : ∀ f ∈ fragments, Text.hasNegativeList f.query.toList = f.clause.hasNegativeList :=
    fun f among => (conditions_madeOf builtIn success f among).hasNegativeList_text words
  rw [← conditions_negation ctx languages group success, Bool.eq_iff_iff, List.any_eq_true,
    List.any_eq_true]
  exact exists_congr fun f => and_congr_right fun among => by rw [seen f among]

end Context

end SearchCompiler.Compile
