import SearchCompiler.Proofs.Keys.Meaning
import SearchCompiler.Proofs.Keys.Negation
import SearchCompiler.Proofs.Prohibition

/-!
# The query of keys is legible

Over fields whose names are words, and without texts that are a query already, the query of keys is
made of clauses that a reader of the text sees through (`isLegible_clause`). So the text has a list
that only prohibits iff the keys have a group of nothing but negated groups
(`compile_hasNegativeList`).
-/

namespace SearchCompiler.Keys

open Clause

/-- A target field whose name is a word and whose suffix is a tag. -/
structure IsPlainField (target : Target) : Prop where
  name : Name.IsWord target.name
  suffix : Text.IsTag target.suffix.toList

namespace Flattening

theorem isLegible_under (conjunction : Conjunction) {c : Clause} (legible : c.IsLegible) :
    (under conjunction c).IsLegible := by
  cases conjunction with
  | and => exact .signed .must legible
  | or => exact legible

theorem isLegible_nestedMember (conjunction : Conjunction) (negated : Bool) {body : Clause}
    (legible : body.IsLegible) : (nestedMember conjunction negated body).IsLegible := by
  cases negated with
  | true => exact .signed .mustNot legible
  | false => exact isLegible_under conjunction legible

/-- The clauses of a text in the modes for terms and phrases. -/
theorem isLegible_literal {mode : Mode} (literary : mode = .terms ∨ mode = .phrase) (text : String) :
    ∀ c ∈ literal mode false text, c.IsLegible := by
  intro c among
  unfold literal at among
  split at among
  · cases among
  · next shown =>
    cases among
    rcases literary with rfl | rfl
    · refine .term _ fun empty => ?_
      have trimmed := Text.trim_ne_nil (Bool.eq_false_iff.mpr shown)
      rw [Text.trimText, ← String.toList_inj, String.toList_ofList] at empty
      exact trimmed empty
    · exact .phrase _

section

variable {f : Flattening} (fields : ∀ t ∈ f.targets, IsPlainField t)
  (literary : f.mode = .terms ∨ f.mode = .phrase)

include fields literary

theorem isLegible_termClauses (conjunction : Conjunction) (beside : Bool) {terms : List Clause}
    (legible : ∀ t ∈ terms, t.IsLegible) :
    ∀ c ∈ f.termClauses conjunction beside terms, c.IsLegible := by
  have members : ∀ c ∈ terms.map (under conjunction), c.IsLegible :=
    List.forall_mem_map.mpr fun t among => isLegible_under conjunction (legible t among)
  have onTargets : ∀ c : Clause, c.IsLegible → ∀ d ∈ f.targets.map (onTarget c), d.IsLegible :=
    fun c own => List.forall_mem_map.mpr fun t among =>
      .onField (fields t among).name own (fields t among).suffix
  have inline : f.mode ≠ .edismax := by
    rcases literary with mode | mode <;> simp [mode]
  have alternatives : ∀ c ∈ (if f.mode = .terms ∧ 1 < f.targets.length ∧ 1 < terms.length then
      [Clause.list (terms.map fun t => under conjunction (.list (f.targets.map (onTarget t))))]
      else []) ++ f.targets.map (onTarget (.list (terms.map (under conjunction)))), c.IsLegible := by
    refine List.forall_mem_append.mpr ⟨?_, onTargets _ (.list members)⟩
    split
    · refine List.forall_mem_singleton.mpr (.list (List.forall_mem_map.mpr fun t among => ?_))
      exact isLegible_under conjunction (.list (onTargets t (legible t among)))
    · exact List.forall_mem_nil _
  unfold termClauses
  dsimp only
  rw [if_neg inline]
  split
  · exact List.forall_mem_nil _
  · split
    · exact members
    · split
      · exact List.forall_mem_singleton.mpr (isLegible_under conjunction (.list alternatives))
      · exact alternatives

theorem isLegible_bodyOf (conjunction : Conjunction) {groups terms : List Clause}
    (nested : ∀ c ∈ groups, c.IsLegible) (legible : ∀ t ∈ terms, t.IsLegible) :
    ∀ c ∈ f.bodyOf conjunction groups terms, c.IsLegible := by
  intro c made
  unfold bodyOf at made
  dsimp only at made
  split at made
  · cases made
  · cases made
    refine .list (List.forall_mem_append.mpr ⟨nested, ?_⟩)
    exact isLegible_termClauses fields literary conjunction _ legible

/-- By induction on the keys: the clauses of nested groups and of terms are legible. -/
theorem isLegible_members (conjunction : Conjunction) (es : List Expression)
    (plain : Expression.areUnescaped es = true) {groups terms : List Clause}
    (success : f.members conjunction false es = .ok (groups, terms)) :
    (∀ c ∈ groups, c.IsLegible) ∧ ∀ t ∈ terms, t.IsLegible := by
  cases es with
  | nil =>
    cases success
    exact ⟨List.forall_mem_nil _, List.forall_mem_nil _⟩
  | cons e rest =>
    rw [Expression.areUnescaped, Bool.and_eq_true] at plain
    cases e with
    | term text =>
      rw [members] at success
      cases made : f.members conjunction false rest with
      | error e =>
        rw [made] at success
        cases success
      | ok parts =>
        rw [made] at success
        cases success
        obtain ⟨nested, legible⟩ := isLegible_members conjunction rest plain.2 made
        refine ⟨nested, List.forall_mem_append.mpr ⟨fun c among => ?_, legible⟩⟩
        exact isLegible_literal literary text c (Option.mem_toList.mp among)
    | group c negated escaped children =>
      rw [Expression.isUnescaped, Bool.and_eq_true, Bool.not_eq_true'] at plain
      obtain ⟨⟨rfl, inside⟩, others⟩ := plain
      rw [members, groupBody] at success
      split at success
      · cases success
      · cases within : f.members c false children with
        | error e =>
          rw [within] at success
          cases success
        | ok parts =>
          cases made : f.members conjunction false rest with
          | error e =>
            rw [within, made] at success
            cases success
          | ok behind =>
            rw [within, made] at success
            cases success
            obtain ⟨nested, own⟩ := isLegible_members c children inside within
            obtain ⟨nested', legible⟩ := isLegible_members conjunction rest others made
            refine ⟨List.forall_mem_append.mpr ⟨fun d among => ?_, nested'⟩, legible⟩
            obtain ⟨body, made, rfl⟩ := Option.map_eq_some_iff.mp (Option.mem_toList.mp among)
            exact isLegible_nestedMember conjunction negated
              (isLegible_bodyOf fields literary c nested own body made)

/-- The query of keys is legible. -/
theorem isLegible_clause (keys : Expression) (plain : keys.isUnescaped = true) {c : Clause}
    (success : f.clause keys = .ok (some c)) : c.IsLegible := by
  cases keys with
  | term text =>
    have inline : f.mode ≠ .direct := by
      rcases literary with mode | mode <;> simp [mode]
    rw [clause, if_neg inline] at success
    cases success
  | group conjunction negated escaped children =>
    rw [Expression.isUnescaped, Bool.and_eq_true, Bool.not_eq_true'] at plain
    obtain ⟨rfl, inside⟩ := plain
    rw [clause, groupBody] at success
    cases made : f.members conjunction false children with
    | error e =>
      rw [made] at success
      cases success
    | ok parts =>
      rw [made] at success
      obtain ⟨nested, own⟩ := isLegible_members fields literary conjunction children inside made
      obtain ⟨body, built, rfl⟩ := Option.map_eq_some_iff.mp (Except.ok.inj success)
      exact .signed _ (isLegible_bodyOf fields literary conjunction nested own body built)

end

end Flattening

/-- The text of a query of keys has a list that only prohibits iff the keys have a group of nothing
but negated groups. -/
theorem compile_hasNegativeList (keys : Expression) (targets : List Target) (mode : Mode)
    (fields : ∀ t ∈ targets, IsPlainField t) (literary : mode = .terms ∨ mode = .phrase)
    (plain : keys.isUnescaped = true) {text : String}
    (success : compile keys targets mode = .ok text) :
    Text.hasNegativeList text.toList = keys.hasNegativeGroup := by
  unfold compile Flattening.compile at success
  cases made : (Flattening.mk targets mode).clause keys with
  | error fault =>
    rw [made] at success
    cases success
  | ok query =>
    rw [made] at success
    cases success
    rw [← Flattening.clause_hasNegativeList _ keys made]
    cases query with
    | none => rfl
    | some c =>
      have legible := Flattening.isLegible_clause fields literary keys plain made
      rw [Option.map_some, Option.getD_some, Clause.toList_render, hasNegativeList_chars legible]
      rfl

end SearchCompiler.Keys
