import SearchCompiler.Proofs.Compile.Faults
import SearchCompiler.Proofs.Compile.FieldQueries

/-!
# Fragments that are one clause

Folding puts a plus in front of a fragment, or parentheses around it, and looks at no more than its
first character. That is right only if the fragment is a single clause: a blank or a bracket that
stands open in it would leave the sign with a part of it alone.

Every query on a field is a single clause, and what is made of single clauses with signs,
parentheses and `AND` is one. So at every depth of a tree of conditions that compiles, what the
members of a group become are single clauses (`collected_single_clauses`), whatever the texts in
them hold.
-/

namespace SearchCompiler.Compile

open Filter Text

namespace Context

variable {ctx : Context} {languages others : List LanguageId}

/-- What the members of a group become are single clauses. -/
theorem items_areSingleClauses (builtIn : ctx.spatial.IsBuiltIn)
    (words : ∀ name, ctx.IsName name → Name.IsWord name)
    (is : List Item) {fs : List Fragment} (success : (ctx.items languages is).outcome = .ok fs) :
    ∀ f ∈ fs, IsSingleClause f.clause.chars := fun f among =>
  ((items_madeOf builtIn is success f among).isSingleClause fun _ own => own.isBody words).1

/-- A group that stands in a tree free of faults is free of faults. -/
theorem IsSound.within {i : Item} {inner : Group} (sound : ctx.IsSound languages i)
    (stands : Within languages i others inner) : ctx.IsSound others inner.toItem := by
  induction stands with
  | self => exact sound
  | inside member _ ih => exact ih ((isSound_group_iff.mp sound).2 _ member)

/-- What the members of a group inside a tree that compiles are compiled into. -/
theorem exists_collected {group inner : Group} {fragments : List Fragment}
    (success : (ctx.conditions languages group).outcome = .ok fragments)
    (stands : Within languages group.toItem others inner) :
    ∃ fs, (ctx.items (languagesWithin others inner.members) inner.members).outcome = .ok fs := by
  have sound := (ctx.conditions_compile_iff languages group).mp ⟨fragments, success⟩
  obtain ⟨o, compiled⟩ := (ctx.item_compiles_iff others inner.toItem).mpr (sound.within stands)
  obtain ⟨fs, inside, -⟩ := group_outcome compiled
  exact ⟨fs, inside⟩

/-- In a tree of conditions that compiles, over names that are words and with either builder for the
queries of locations, the fragments that the members
of any group become are single clauses: they have at most one sign in front, and behind it brackets
outside quotes that are balanced and properly nested, and blanks only in quotes and brackets. As
they stand, behind a plus and in parentheses they are read as a whole, in front of whatever ends a
clause. -/
theorem collected_single_clauses (ctx : Context) (languages : List LanguageId) (group : Group)
    (fragments : List Fragment) (builtIn : ctx.spatial.IsBuiltIn)
    (words : ∀ name, ctx.IsName name → Name.IsWord name)
    (success : (ctx.conditions languages group).outcome = .ok fragments)
    (others : List LanguageId) (inner : Group)
    (stands : Within languages group.toItem others inner) :
    ∃ collected, (ctx.items (languagesWithin others inner.members) inner.members).outcome =
        .ok collected ∧
      ∀ f ∈ collected, IsSingleClause f.query.toList ∧ ReadAsOne f.query.toList ∧
        ReadAsOne ('+' :: f.query.toList) ∧ ReadAsOne ('(' :: (f.query.toList ++ [')'])) := by
  obtain ⟨collected, compiled⟩ := exists_collected success stands
  refine ⟨collected, compiled, fun f among => ?_⟩
  have single : IsSingleClause f.query.toList := by
    rw [Fragment.query, Clause.toList_render]
    exact items_areSingleClauses builtIn words inner.members compiled f among
  exact ⟨single, single.readAsOne, single.readAsOne_plus, single.readAsOne_parenthesized⟩

/-- A title that looks like the end of a query; or no title, and a body without another. -/
def unruly : Group :=
  ⟨.or, [.condition (.equal "title" (.string "x\\\") OR [y")),
    .group .and [.condition (.absent "title"), .condition (.differs "body" (.string "a \x7db"))]
      .empty], .empty⟩

/-- The unruly choice as the only member of a group. -/
def unrulyInside : Group := ⟨.and, [unruly.toItem], .empty⟩

/-- Titles that look like syntax, at a depth. -/
theorem collected_single_clauses_unruly :
    catalogue.spatial.IsBuiltIn ∧ (∀ name, catalogue.IsName name → Name.IsWord name) ∧
    (∃ fragments, (catalogue.conditions [english] unrulyInside).outcome =
      .ok fragments) ∧
    Within [english] unrulyInside.toItem [english] unruly ∧
    ∃ collected, (catalogue.items (languagesWithin [english] unruly.members)
        unruly.members).outcome = .ok collected ∧
      collected.map Fragment.query = ["ss_title:\"x\\\\\\\") OR [y\"",
        "(-ss_title:[* TO *] -(ts_body:(\"a \x7db\")^1))"] ∧
      ∀ f ∈ collected, IsSingleClause f.query.toList ∧ ReadAsOne f.query.toList ∧
        ReadAsOne ('+' :: f.query.toList) ∧ ReadAsOne ('(' :: (f.query.toList ++ [')'])) := by
  have compiled : ∃ fragments,
      (catalogue.conditions [english] unrulyInside).outcome = .ok fragments :=
    ⟨_, rfl⟩
  have stands : Within [english] unrulyInside.toItem [english] unruly :=
    .inside List.mem_cons_self (.self _ unruly)
  have ran : (catalogue.items (languagesWithin [english] unruly.members)
      unruly.members).outcome.map (List.map Fragment.query) =
      .ok ["ss_title:\"x\\\\\\\") OR [y\"",
        "(-ss_title:[* TO *] -(ts_body:(\"a \x7db\")^1))"] := by
    rfl
  obtain ⟨fragments, success⟩ := compiled
  obtain ⟨collected, inside, single⟩ := collected_single_clauses catalogue [english]
    unrulyInside fragments trivial catalogue_words success [english] unruly stands
  rw [inside] at ran
  exact ⟨trivial, catalogue_words, ⟨fragments, success⟩, stands, collected, inside,
    Except.ok.inj ran, single⟩

end Context

end SearchCompiler.Compile
