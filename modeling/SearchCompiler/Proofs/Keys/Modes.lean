import SearchCompiler.Keys.Flatten
import SearchCompiler.Keys.Parser

/-!
# Keys that fit a mode

Keys can fail to fit their mode in two ways only: a plain text outside the direct mode, and a group
within the outermost group in an inline query. All other keys have a query, or none if they hold no
terms (`compile_group`, `compile_text`). Keys that are read from a text are a plain text in the
direct mode and a group in all others (`form_of_parse`), so what is typed can only fail by a nested
group (`compile_parsed`).
-/

namespace SearchCompiler.Keys

namespace Expression

def isGroup : Expression → Bool
  | .term _ => false
  | .group _ _ _ _ => true

def hasInnerGroup : Expression → Bool
  | .term _ => false
  | .group _ _ _ children => children.any isGroup

end Expression

namespace Flattening

variable {f : Flattening}

mutual

/-- Outside of inline queries every group has a body, or none. -/
theorem groupBody_ok (nests : f.mode ≠ .edismax) (e : Expression) :
    ∃ body, f.groupBody e = .ok body := by
  cases e with
  | term text => exact ⟨none, by rw [groupBody]⟩
  | group conjunction negated escaped children =>
    obtain ⟨⟨groups, terms⟩, inside⟩ := members_ok nests conjunction escaped children
    exact ⟨_, by rw [groupBody, inside]⟩

/-- Outside of inline queries all members of a group have clauses, or none. -/
theorem members_ok (nests : f.mode ≠ .edismax) (conjunction : Conjunction) (escaped : Bool)
    (es : List Expression) : ∃ clauses, f.members conjunction escaped es = .ok clauses := by
  cases es with
  | nil => exact ⟨_, by rw [members]⟩
  | cons e rest =>
    obtain ⟨⟨groups, terms⟩, others⟩ := members_ok nests conjunction escaped rest
    cases e with
    | term text => exact ⟨_, by rw [members, others]⟩
    | group c negated escaped' children =>
      obtain ⟨body, inside⟩ := groupBody_ok nests (.group c negated escaped' children)
      exact ⟨_, by rw [members, if_neg nests, inside, others]⟩

end

/-- In inline queries the members of a group have clauses exactly if there is no group among
them. -/
theorem members_inline (inline : f.mode = .edismax) (conjunction : Conjunction) (escaped : Bool)
    (es : List Expression) :
    (es.any Expression.isGroup = true →
      f.members conjunction escaped es = .error .nestedGroup) ∧
    (es.any Expression.isGroup = false →
      ∃ clauses, f.members conjunction escaped es = .ok clauses) := by
  induction es with
  | nil => exact ⟨nofun, fun _ => ⟨_, by rw [members]⟩⟩
  | cons e rest ih =>
    cases e with
    | group c negated escaped' children =>
      exact ⟨fun _ => by rw [members, if_pos inline], nofun⟩
    | term text =>
      refine ⟨fun nested => ?_, fun flat => ?_⟩
      · rw [members, ih.1 nested]
      · obtain ⟨⟨groups, terms⟩, others⟩ := ih.2 flat
        exact ⟨_, by rw [members, others]⟩

/-- A group has a query unless it has an inner group in an inline query. -/
theorem compile_group (f : Flattening) {keys : Expression} (group : keys.isGroup = true) :
    (f.mode = .edismax ∧ keys.hasInnerGroup = true →
      f.compile keys = .error (.incompatibleMode .edismax .nestedGroup)) ∧
    (¬ (f.mode = .edismax ∧ keys.hasInnerGroup = true) → ∃ query, f.compile keys = .ok query) := by
  cases keys with
  | term text => cases group
  | group conjunction negated escaped children =>
    unfold compile
    rw [clause, groupBody]
    refine ⟨fun ⟨inline, nested⟩ => ?_, fun fits => ?_⟩
    · rw [(members_inline inline conjunction escaped children).1 nested, inline]
    · have inside : ∃ clauses, f.members conjunction escaped children = .ok clauses := by
        by_cases inline : f.mode = .edismax
        · have flat : children.any Expression.isGroup = false :=
            Bool.eq_false_iff.mpr fun nested => fits ⟨inline, nested⟩
          exact (members_inline inline conjunction escaped children).2 flat
        · exact members_ok inline conjunction escaped children
      obtain ⟨⟨groups, terms⟩, inside⟩ := inside
      exact ⟨_, by rw [inside]⟩

/-- A plain text has a query in the direct mode. -/
theorem compile_text (direct : f.mode = .direct) (text : String) :
    ∃ query, f.compile (.term text) = .ok query := by
  unfold compile
  rw [clause, if_pos direct]
  exact ⟨_, rfl⟩

end Flattening

/-- Keys that are read from a text are a plain text in the direct mode and a group in others. -/
theorem form_of_parse {input : String} {mode : Mode} {adjacent : Conjunction} {keys : Expression}
    (read : parse input mode adjacent = .ok (some keys)) :
    (mode = .direct ∧ ∃ text, keys = .term text) ∨ (mode ≠ .direct ∧ keys.isGroup = true) := by
  unfold parse at read
  split at read
  · cases read
  · cases mode with
    | direct =>
      cases read
      exact .inl ⟨rfl, _, rfl⟩
    | phrase =>
      cases read
      exact .inr ⟨nofun, rfl⟩
    | terms | edismax =>
      dsimp only at read
      cases cut : lex input with
      | error e =>
        rw [cut] at read
        cases read
      | ok tokens =>
        rw [cut] at read
        dsimp only at read
        cases tree : readTokens adjacent tokens with
        | error fault =>
          rw [tree] at read
          cases read
        | ok found =>
          rw [tree] at read
          obtain ⟨e, -, rfl⟩ := Option.map_eq_some_iff.mp (Except.ok.inj read)
          refine .inr ⟨nofun, ?_⟩
          cases e <;> rfl

/-- Keys that are read from a text have a query over any fields, unless they have an inner group in
an inline query. -/
theorem compile_parsed {input : String} {mode : Mode} {adjacent : Conjunction} {keys : Expression}
    (read : parse input mode adjacent = .ok (some keys)) (targets : List Target) :
    (mode = .edismax ∧ keys.hasInnerGroup = true →
      (Flattening.mk targets mode).compile keys =
        .error (.incompatibleMode .edismax .nestedGroup)) ∧
    (¬ (mode = .edismax ∧ keys.hasInnerGroup = true) →
      ∃ query, (Flattening.mk targets mode).compile keys = .ok query) := by
  rcases form_of_parse read with ⟨direct, text, rfl⟩ | ⟨-, group⟩
  · refine ⟨fun ⟨_, nested⟩ => ?_, fun _ => ?_⟩
    · cases nested
    · exact Flattening.compile_text (f := ⟨targets, mode⟩) direct text
  · exact Flattening.compile_group ⟨targets, mode⟩ group

end SearchCompiler.Keys
