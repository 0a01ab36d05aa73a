import SearchCompiler.Proofs.Keys.Modes
import SearchCompiler.Proofs.Keys.Negation

/-!
# What becomes of keys

Keys have one of three outcomes over any fields (`compile_outcomes`): they do not fit the mode, they
hold no term and have the empty query, or their query is a sign in front of one list in parentheses.
Whether keys hold a term is decided on the tree (`isBlank`) and again while it is flattened, where
blank terms and groups without terms add nothing; the two agree at every depth, in every mode and
also below escaped groups.
-/

namespace SearchCompiler.Keys

open Expression

namespace Flattening

variable {f : Flattening}

/-- A query of keys as it is written: a sign and a list. -/
def IsSignedList (negated : Bool) (c : Clause) : Prop :=
  ∃ parts, c = .signed (if negated then .mustNot else .must) (.list parts)

/-- The text of a sign and a list begins with the sign, and the rest stands in parentheses. -/
theorem IsSignedList.render {negated : Bool} {c : Clause} (form : IsSignedList negated c) :
    ∃ inside, c.render.toList = (if negated then '-' else '+') :: '(' :: (inside ++ [')']) := by
  obtain ⟨parts, rfl⟩ := form
  refine ⟨Clause.charsAll parts, ?_⟩
  rw [Clause.toList_render, Clause.chars_signed, Clause.chars_list]
  cases negated <;> rfl

/-- The body of a group is a list. -/
theorem bodyOf_isList {conjunction : Conjunction} {groups terms : List Clause} {c : Clause}
    (made : f.bodyOf conjunction groups terms = some c) : ∃ parts, c = .list parts := by
  unfold bodyOf at made
  dsimp only at made
  split at made
  · cases made
  · exact ⟨_, (Option.some.inj made).symm⟩

/-- A whole text has a query unless it is blank. -/
theorem wholeText_form (f : Flattening) (text : String) :
    (f.wholeText text).isNone = Text.isBlankText text ∧
      ∀ c ∈ f.wholeText text, IsSignedList false c := by
  unfold wholeText
  cases Text.isBlankText text with
  | true => exact ⟨rfl, nofun⟩
  | false =>
    rw [if_neg Bool.false_ne_true]
    dsimp only
    split
    · exact ⟨rfl, fun c made => ⟨_, (Option.some.inj made).symm⟩⟩
    · exact ⟨rfl, fun c made => ⟨_, (Option.some.inj made).symm⟩⟩

/-- Keys have a query unless they are blank. -/
theorem clause_form {keys : Expression} {query : Option Clause} (success : f.clause keys = .ok query) :
    query.isNone = keys.isBlank ∧ ∀ c ∈ query, IsSignedList keys.isNegated c := by
  cases keys with
  | term text =>
    rw [clause] at success
    split at success
    · cases success
      exact f.wholeText_form text
    · cases success
  | group conjunction negated escaped children =>
    rw [clause, groupBody] at success
    cases inside : f.members conjunction escaped children with
    | error fault =>
      rw [inside] at success
      cases success
    | ok clauses =>
      obtain ⟨groups, terms⟩ := clauses
      rw [inside] at success
      cases success
      have blank := ((members_negation f conjunction escaped children inside).body f conjunction).blank
      refine ⟨by rw [Option.isNone_map, blank, isBlank], fun c made => ?_⟩
      obtain ⟨body, inner, rfl⟩ := Option.map_eq_some_iff.mp made
      obtain ⟨parts, rfl⟩ := bodyOf_isList inner
      exact ⟨parts, rfl⟩

/-- Keys fail in two ways: a plain text outside of the direct mode, and a group within the outermost
one in an inline query. -/
theorem compile_error_iff (f : Flattening) (keys : Expression) (e : Compile.Error) :
    f.compile keys = .error e ↔
      (keys.isGroup = false ∧ f.mode ≠ .direct ∧ e = .incompatibleMode f.mode .plainText) ∨
        (f.mode = .edismax ∧ keys.hasInnerGroup = true ∧
          e = .incompatibleMode f.mode .nestedGroup) := by
  cases keys with
  | term text =>
    simp only [isGroup, hasInnerGroup, Bool.false_eq_true, false_and, and_false, or_false, true_and]
    by_cases direct : f.mode = .direct
    · obtain ⟨query, compiled⟩ := compile_text direct text
      simp [compiled, direct]
    · unfold compile
      rw [clause, if_neg direct]
      simp [direct, eq_comm]
  | group conjunction negated escaped children =>
    have grouped : (Expression.group conjunction negated escaped children).isGroup = true := rfl
    obtain ⟨fails, succeeds⟩ := f.compile_group grouped
    simp only [isGroup, Bool.true_eq_false, false_and, false_or]
    by_cases misfit : f.mode = .edismax ∧
        (Expression.group conjunction negated escaped children).hasInnerGroup = true
    · rw [fails misfit, misfit.1]
      simp [misfit.2, eq_comm]
    · obtain ⟨query, compiled⟩ := succeeds misfit
      rw [compiled]
      refine iff_of_false (by simp) fun unfit => ?_
      exact misfit ⟨unfit.1, unfit.2.1⟩

end Flattening

/-- Over any fields and in every mode keys have one of three outcomes: they fail, where they are a
plain text outside of the direct mode or have a group within the outermost one in an inline query;
or else their query is empty, where they hold no term but blank ones; or else it is a sign, which is
a minus for a negated group only, and something in parentheses. What is read from a text never fails
in the mode it was read in, except for an inline query. -/
theorem compile_outcomes (keys : Expression) (targets : List Target) (mode : Mode) :
    (∀ e, compile keys targets mode = .error e ↔
        (keys.isGroup = false ∧ mode ≠ .direct ∧ e = .incompatibleMode mode .plainText) ∨
          (mode = .edismax ∧ keys.hasInnerGroup = true ∧
            e = .incompatibleMode mode .nestedGroup)) ∧
      (∀ text, compile keys targets mode = .ok text →
        (text = "" ↔ keys.isBlank = true) ∧
          (text ≠ "" → ∃ inside,
            text.toList = (if keys.isNegated then '-' else '+') :: '(' :: (inside ++ [')']))) ∧
      ∀ input adjacent, parse input mode adjacent = .ok (some keys) → mode ≠ .edismax →
        ∃ text, compile keys targets mode = .ok text := by
  have failing := (Flattening.mk targets mode).compile_error_iff keys
  refine ⟨fun e => ?_, fun text compiled => ?_, fun input adjacent read nests => ?_⟩
  · rw [← failing e, compile]
    cases (Flattening.mk targets mode).compile keys with
    | error other => rw [Except.error.injEq, Except.error.injEq]
    | ok query => exact iff_of_false nofun nofun
  · rw [compile, Flattening.compile] at compiled
    cases made : (Flattening.mk targets mode).clause keys with
    | error fault =>
      rw [made] at compiled
      cases compiled
    | ok query =>
      rw [made] at compiled
      cases compiled
      obtain ⟨blank, form⟩ := Flattening.clause_form made
      rw [← blank]
      cases query with
      | none => exact ⟨iff_of_true rfl rfl, fun nonempty => absurd rfl nonempty⟩
      | some c =>
        obtain ⟨inside, written⟩ := (form c rfl).render
        refine ⟨iff_of_false (fun empty => ?_) Bool.false_ne_true, fun _ => ⟨inside, written⟩⟩
        have nothing : c.render = "" := empty
        rw [nothing] at written
        cases written
  · obtain ⟨query, compiled⟩ := (compile_parsed read targets).2 fun misfit => nests misfit.1
    exact ⟨_, by rw [compile, compiled]⟩

/-- One term that is not blank, in an escaped group beside a blank term. -/
def sparseKeys : Expression :=
  .group .or true false
    [.term " ", .group .and false true [.term " a\" ", .group .or false false []]]

/-- A group with an escaped one inside, in phrase mode and in a mode without groups; and a term that
looks negated. -/
theorem compile_outcomes_sparse :
    compile sparseKeys [⟨"title", "^2"⟩] .phrase = .ok "-((title:(+a\")^2))" ∧
      sparseKeys.isBlank = false ∧
      (∃ inside, "-((title:(+a\")^2))".toList = '-' :: '(' :: (inside ++ [')'])) ∧
      compile sparseKeys [] .edismax = .error (.incompatibleMode .edismax .nestedGroup) ∧
      parse " -a " .direct .or = .ok (some (.term "-a")) ∧
      ∃ text, compile (.term "-a") [] .direct = .ok text := by
  have compiled : compile sparseKeys [⟨"title", "^2"⟩] .phrase = .ok "-((title:(+a\")^2))" := by
    decide +kernel
  have read : parse " -a " .direct .or = .ok (some (.term "-a")) := rfl
  obtain ⟨-, succeeds, -⟩ := compile_outcomes sparseKeys [⟨"title", "^2"⟩] .phrase
  obtain ⟨empty, form⟩ := succeeds _ compiled
  obtain ⟨fails, -, -⟩ := compile_outcomes sparseKeys [] .edismax
  obtain ⟨-, -, typed⟩ := compile_outcomes (.term "-a") [] .direct
  refine ⟨compiled, ?_, form (by decide), ?_, read, typed _ _ read (by decide)⟩
  · exact Bool.eq_false_iff.mpr fun blank => absurd (empty.mpr blank) (by decide)
  · exact (fails _).mpr (.inr ⟨rfl, rfl, rfl⟩)

end SearchCompiler.Keys
