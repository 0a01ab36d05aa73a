import SearchCompiler.Keys.Flatten
import SearchCompiler.Proofs.Keys.Reading
import SearchCompiler.Proofs.Negation

/-!
# Keys that only prohibit

The query of keys has a list of nothing but clauses with a minus exactly where the keys have a group
whose members with terms are all negated groups (`clause_hasNegativeList`). The clauses that spread
the terms of a group over target fields never add one.
-/

namespace SearchCompiler.Keys

namespace Expression

/-- Whether all members that are not blank are negated groups, and there are any. -/
def onlyNegated (members : List Expression) : Bool :=
  let shown := members.filter fun e => !e.isBlank
  !shown.isEmpty && shown.all isNegated

mutual

/-- Whether keys have a group of nothing but negated groups. -/
def hasNegativeGroup : Expression → Bool
  | .term _ => false
  | .group _ _ _ children => onlyNegated children || haveNegativeGroup children

def haveNegativeGroup : List Expression → Bool
  | [] => false
  | e :: rest => e.hasNegativeGroup || haveNegativeGroup rest

end

end Expression

open Expression

namespace Flattening

open Clause

theorem isPlain_under (conjunction : Conjunction) {c : Clause} (plain : c.IsPlain) :
    (under conjunction c).IsPlain := by
  cases conjunction with
  | and => exact plain.must
  | or => exact plain

/-- The clauses of terms are plain in every mode and over any target fields. -/
theorem isPlain_termClauses (f : Flattening) (conjunction : Conjunction) (beside : Bool)
    {terms : List Clause} (plain : ∀ t ∈ terms, t.IsPlain) :
    ∀ c ∈ f.termClauses conjunction beside terms, c.IsPlain := by
  have members : ∀ c ∈ terms.map (under conjunction), c.IsPlain := by
    rw [List.forall_mem_map]
    exact fun t among => isPlain_under conjunction (plain t among)
  unfold termClauses
  dsimp only
  split
  · exact List.forall_mem_nil _
  · next some_left =>
    split
    · exact members
    · next targeted =>
      split
      · rw [List.forall_mem_singleton]
        exact ⟨rfl, by rw [hasNegativeList, haveNegativeList_eq, any_hasNegativeList members]⟩
      · have terms_left : terms ≠ [] := fun empty => some_left (List.isEmpty_iff.mpr empty)
        have targets_left : f.targets ≠ [] := fun empty => targeted (List.isEmpty_iff.mpr empty)
        have onTargets : ∀ c : Clause, c.IsPlain → ∀ t ∈ f.targets.map (onTarget c), t.IsPlain := by
          intro c own
          rw [List.forall_mem_map]
          exact fun t _ => own.onField t.name t.suffix
        have perField := onTargets _ (isPlain_list (by simpa using terms_left) members)
        have perTerm : (Clause.list (terms.map fun t =>
            under conjunction (.list (f.targets.map (onTarget t))))).IsPlain := by
          refine isPlain_list (by simpa using terms_left) ?_
          rw [List.forall_mem_map]
          intro t among
          exact isPlain_under conjunction
            (isPlain_list (by simpa using targets_left) (onTargets t (plain t among)))
        have alternatives :
            ∀ c ∈ (if f.mode = .terms ∧ 1 < f.targets.length ∧ 1 < terms.length then
                [Clause.list
                  (terms.map fun t => under conjunction (.list (f.targets.map (onTarget t))))]
              else []) ++ f.targets.map (onTarget (.list (terms.map (under conjunction)))),
            c.IsPlain := by
          rw [List.forall_mem_append]
          refine ⟨?_, perField⟩
          split
          · rwa [List.forall_mem_singleton]
          · exact List.forall_mem_nil _
        split
        · rw [List.forall_mem_singleton]
          exact isPlain_under conjunction (isPlain_list (by simp [targets_left]) alternatives)
        · exact alternatives

theorem isEmpty_append {α : Type} (xs ys : List α) :
    (xs ++ ys).isEmpty = (xs.isEmpty && ys.isEmpty) := by
  cases xs <;> rfl

/-- Terms have clauses iff there are any terms. -/
theorem termClauses_isEmpty (f : Flattening) (conjunction : Conjunction) (beside : Bool)
    (terms : List Clause) : (f.termClauses conjunction beside terms).isEmpty = terms.isEmpty := by
  unfold termClauses
  dsimp only
  split
  · next empty => rw [empty]; rfl
  · next some_left =>
    rw [Bool.not_eq_true] at some_left
    rw [some_left]
    split
    · rw [List.isEmpty_map, some_left]
    · next targeted =>
      split
      · rfl
      · split
        · rfl
        · rw [isEmpty_append, List.isEmpty_map, Bool.eq_false_iff.mpr targeted, Bool.and_false]

/-- What is known of the clauses of the members of a group. -/
structure Negates (es : List Expression) (groups terms : List Clause) : Prop where
  plain : ∀ t ∈ terms, t.IsPlain
  blank : areBlank es = (terms.isEmpty && groups.isEmpty)
  negated : (es.filter fun e => !e.isBlank).all isNegated =
    (terms.isEmpty && groups.all isProhibited)
  nested : haveNegativeGroup es = groups.any hasNegativeList

theorem filter_isEmpty (es : List Expression) :
    (es.filter fun e => !e.isBlank).isEmpty = areBlank es := by
  induction es with
  | nil => rfl
  | cons e rest ih =>
    rw [areBlank, ← ih, List.filter_cons]
    cases e.isBlank <;> rfl

/-- What is known of the body of a group. -/
structure NegatesBody (children : List Expression) (body : Option Clause) : Prop where
  blank : body.isNone = areBlank children
  free : ∀ c ∈ body, c.isProhibited = false
  negative : body.any hasNegativeList = (onlyNegated children || haveNegativeGroup children)

/-- What is known of members gives what is known of their body. -/
theorem Negates.body (f : Flattening) (conjunction : Conjunction) {es : List Expression}
    {groups terms : List Clause} (known : Negates es groups terms) :
    NegatesBody es (f.bodyOf conjunction groups terms) := by
  have plain := f.isPlain_termClauses conjunction (!groups.isEmpty) known.plain
  have empty := f.termClauses_isEmpty conjunction (!groups.isEmpty) terms
  have shown := filter_isEmpty es
  rw [known.blank] at shown
  unfold bodyOf
  dsimp only
  rw [isEmpty_append, empty]
  cases nothing : groups.isEmpty && terms.isEmpty with
  | true =>
    rw [Bool.and_comm, nothing] at shown
    rw [Bool.and_eq_true, List.isEmpty_iff] at nothing
    refine ⟨?_, (fun c among => nomatch among), ?_⟩
    · rw [known.blank, nothing.1, nothing.2]
      rfl
    · rw [onlyNegated, shown, known.nested, nothing.1]
      rfl
  | false =>
    rw [Bool.and_comm, nothing] at shown
    refine ⟨?_, ?_, ?_⟩
    · rw [known.blank, Bool.and_comm, nothing]
      rfl
    · rintro c ⟨⟩
      rfl
    · rw [onlyNegated, shown, known.negated, known.nested]
      change (Clause.list _).hasNegativeList = _
      rw [hasNegativeList_list, List.all_append, List.any_append, all_isProhibited plain,
        any_hasNegativeList plain, empty, Bool.or_false, Bool.not_false, Bool.true_and,
        Bool.and_comm]

theorem isProhibited_nestedMember (conjunction : Conjunction) (negated : Bool) {body : Clause}
    (free : body.isProhibited = false) :
    (nestedMember conjunction negated body).isProhibited = negated := by
  cases negated with
  | true => rfl
  | false =>
    cases conjunction with
    | and => rfl
    | or => exact free

theorem hasNegativeList_nestedMember (conjunction : Conjunction) (negated : Bool) (body : Clause) :
    (nestedMember conjunction negated body).hasNegativeList = body.hasNegativeList := by
  cases negated <;> cases conjunction <;> rfl

theorem literal_cases (mode : Mode) (escaped : Bool) (text : String) :
    (Text.isBlankText text = true ∧ literal mode escaped text = none) ∨
      (Text.isBlankText text = false ∧ ∃ a, literal mode escaped text = some (.atom a)) := by
  unfold literal
  cases blank : Text.isBlankText text with
  | true => exact .inl ⟨rfl, rfl⟩
  | false => exact .inr ⟨rfl, _, rfl⟩

/-- A blank member adds no clause. -/
theorem Negates.cons_blank {es : List Expression} {groups terms : List Clause}
    (known : Negates es groups terms) {e : Expression} (blank : e.isBlank = true)
    (fine : e.hasNegativeGroup = false) : Negates (e :: es) groups terms := by
  refine ⟨known.plain, ?_, ?_, ?_⟩
  · rw [areBlank, blank, Bool.true_and, known.blank]
  · rw [List.filter_cons, blank]
    exact known.negated
  · rw [haveNegativeGroup, fine, Bool.false_or, known.nested]

/-- A term adds a plain clause. -/
theorem Negates.cons_term {es : List Expression} {groups terms : List Clause}
    (known : Negates es groups terms) {text : String} (shown : Text.isBlankText text = false)
    {c : Clause} (plain : c.IsPlain) : Negates (.term text :: es) groups (c :: terms) := by
  refine ⟨List.forall_mem_cons.mpr ⟨plain, known.plain⟩, ?_, ?_, known.nested⟩
  · rw [areBlank, isBlank, shown]
    rfl
  · rw [List.filter_cons, isBlank, shown]
    rfl

/-- A group adds a clause with a minus iff it is negated, in front of its body. -/
theorem Negates.cons_group {es : List Expression} {groups terms : List Clause}
    (known : Negates es groups terms) {e : Expression} (shown : e.isBlank = false) {c : Clause}
    (sign : c.isProhibited = e.isNegated) (negative : c.hasNegativeList = e.hasNegativeGroup) :
    Negates (e :: es) (c :: groups) terms := by
  refine ⟨known.plain, ?_, ?_, ?_⟩
  · rw [areBlank, shown, List.isEmpty_cons, Bool.and_false, Bool.false_and]
  · have kept : (e :: es).filter (fun e => !e.isBlank) = e :: es.filter fun e => !e.isBlank := by
      rw [List.filter_cons, shown]
      rfl
    rw [kept, List.all_cons, List.all_cons, sign, known.negated, Bool.and_left_comm]
  · rw [haveNegativeGroup, List.any_cons, negative, known.nested]

/-- The clauses of the members of a group prohibit where the members are negated. -/
theorem members_negation (f : Flattening) (conjunction : Conjunction) (escaped : Bool)
    (es : List Expression) {groups terms : List Clause}
    (success : f.members conjunction escaped es = .ok (groups, terms)) :
    Negates es groups terms := by
  cases es with
  | nil =>
    cases success
    exact ⟨List.forall_mem_nil _, rfl, rfl, rfl⟩
  | cons e rest =>
    cases e with
    | term text =>
      rw [members] at success
      split at success
      · cases success
      · next groups terms read =>
        cases success
        have known := members_negation f conjunction escaped rest read
        rcases literal_cases f.mode escaped text with ⟨blank, made⟩ | ⟨shown, a, made⟩
        · rw [made]
          exact known.cons_blank blank rfl
        · rw [made]
          exact known.cons_term shown (isPlain_atom a)
    | group c negated escaped' children =>
      rw [members] at success
      split at success
      · cases success
      · rw [groupBody] at success
        split at success
        · cases success
        · next body made =>
          split at made
          · cases made
          · next groups' terms' inside =>
            cases made
            have within := (members_negation f c escaped' children inside).body f c
            generalize f.bodyOf c groups' terms' = body at within success
            split at success
            · cases success
            · next groups terms read =>
              cases success
              have known := members_negation f conjunction escaped rest read
              have blank := within.blank
              have negative := within.negative
              cases body with
              | none => exact known.cons_blank blank.symm negative.symm
              | some body =>
                have shown : (Expression.group c negated escaped' children).isBlank = false :=
                  blank.symm
                have sign := isProhibited_nestedMember conjunction negated (within.free body rfl)
                refine known.cons_group shown sign ?_
                rw [hasNegativeList_nestedMember]
                exact negative

/-- A whole text as a query has no list that only prohibits. -/
theorem isPlain_wholeText {f : Flattening} {text : String} {c : Clause}
    (made : f.wholeText text = some c) : c.IsPlain := by
  unfold wholeText at made
  split at made
  · cases made
  · have query : (Clause.list [.raw (Text.trimText text)]).IsPlain := by
      refine isPlain_list (List.cons_ne_nil _ _) ?_
      rw [List.forall_mem_singleton]
      exact isPlain_atom _
    dsimp only at made
    split at made
    · cases made
      exact query.must
    · next targeted =>
      cases made
      refine (isPlain_list ?_ ?_).must
      · simpa using targeted
      · rw [List.forall_mem_map]
        exact fun t _ => query.onField t.name t.suffix

/-- The query of keys has a list that only prohibits iff the keys have a group of nothing but
negated groups. -/
theorem clause_hasNegativeList (f : Flattening) (keys : Expression) {query : Option Clause}
    (success : f.clause keys = .ok query) :
    query.any hasNegativeList = keys.hasNegativeGroup := by
  cases keys with
  | term text =>
    rw [clause] at success
    split at success
    · cases success
      have nothing : (Expression.term text).hasNegativeGroup = false := rfl
      rw [nothing]
      cases made : f.wholeText text with
      | none => rfl
      | some c => exact (isPlain_wholeText made).fine
    · cases success
  | group conjunction negated escaped children =>
    rw [clause, groupBody] at success
    split at success
    · cases success
    · next body made =>
      cases success
      split at made
      · cases made
      · next groups terms inside =>
        cases made
        have within := (members_negation f conjunction escaped children inside).body f conjunction
        rw [hasNegativeGroup, ← within.negative]
        cases f.bodyOf conjunction groups terms <;> rfl

end Flattening

end SearchCompiler.Keys
