import SearchCompiler.Keys.Flatten
import SearchCompiler.Proofs.Keys.Reading

/-!
# Keys over several fields

Keys that are searched in target fields become a query whose leaves are asked of one field each: a
literal, or literals in parentheses that are all read on that field. A document is given by the
literals that each of its fields holds.

Expanding the keys over the fields keeps their meaning (`compile_fields_meaning`). In the mode of
terms a term is found when one of the fields holds it, wherever the other terms are found. In the
mode of phrases the terms of one group belong together: they are found when a single field satisfies
them all, or one of them, as the conjunction of the group says.
-/

namespace SearchCompiler

/-- The order of members does not matter. -/
theorem Conjunction.value?_perm (conjunction : Conjunction) {xs ys : List Bool} (same : xs.Perm ys) :
    conjunction.value? xs = conjunction.value? ys := by
  cases xs with
  | nil => rw [same.nil_eq]
  | cons x xs =>
    cases ys with
    | nil => exact absurd same.eq_nil (List.cons_ne_nil x xs)
    | cons y ys =>
      cases conjunction with
      | and => exact congrArg some same.all_eq
      | or => exact congrArg some same.any_eq

/-- Members that hold more often make a group that holds more often. -/
theorem Conjunction.value?_mono {α : Type} (conjunction : Conjunction) {f g : α → Bool} {xs : List α}
    (weaker : ∀ x ∈ xs, f x = true → g x = true)
    (holds : conjunction.value? (xs.map f) = some true) : conjunction.value? (xs.map g) = some true := by
  have nonempty : xs ≠ [] := by
    rintro rfl
    cases holds
  rw [conjunction.value?_map _ nonempty, Option.some_inj] at holds ⊢
  cases conjunction with
  | and =>
    rw [List.all_eq_true] at holds ⊢
    exact fun x among => weaker x among (holds x among)
  | or =>
    rw [List.any_eq_true] at holds ⊢
    obtain ⟨x, among, held⟩ := holds
    exact ⟨x, among, weaker x among held⟩

namespace Keys

/-- A literal as it is written in a mode. -/
def literalAtom : Mode → String → Atom
  | .terms, text => .term text
  | .edismax, text => .term text
  | .phrase, text => .phrase text
  | .direct, text => .raw text

def literalChars (mode : Mode) (text : String) : List Char :=
  (literalAtom mode text).chars

/-- A query that is asked of one field: a literal, or literals in parentheses. -/
structure OnField where
  target : Target
  query : QueryTree String

namespace OnField

/-- The written form: the name of the field, the query and the suffix of the field. -/
def chars (mode : Mode) (q : OnField) : List Char :=
  q.target.name.toList ++ ':' :: (q.query.chars (literalChars mode) ++ q.target.suffix.toList)

/-- Whether the query holds on its field, for a document given by the literals in each field. -/
def holds (document : String → String → Bool) (q : OnField) : Bool :=
  q.query.holds (document q.target.name)

end OnField

/-- The trimmed texts of the terms that are members themselves and not blank. -/
def ownTexts : List Expression → List String
  | [] => []
  | .term text :: rest =>
    if Text.isBlankText text then ownTexts rest else Text.trimText text :: ownTexts rest
  | .group _ _ _ _ :: rest => ownTexts rest

namespace Expression

mutual

/-- Whether no group is negated or escaped. -/
def isPlain : Expression → Bool
  | .term _ => true
  | .group _ negated escaped children => !negated && !escaped && arePlain children

def arePlain : List Expression → Bool
  | [] => true
  | e :: rest => e.isPlain && arePlain rest

end

variable (unit : Conjunction → List String → Option Bool)

mutual

/-- The value of a group whose own terms count as one unit next to the nested groups. Blank terms
and groups without terms have none. -/
def unitValue? : Expression → Option Bool
  | .term _ => none
  | .group conjunction _ _ children =>
    conjunction.value? (nestedValues children ++ (unit conjunction (ownTexts children)).toList)

/-- The values of the groups among several keys. -/
def nestedValues : List Expression → List Bool
  | [] => []
  | e :: rest => (e.unitValue?).toList ++ nestedValues rest

end

end Expression

open Expression

/-- What terms of one group amount to when each may be found in another field. -/
def inSomeField (targets : List Target) (document : String → String → Bool)
    (conjunction : Conjunction) (texts : List String) : Option Bool :=
  conjunction.value? (texts.map fun text => targets.any fun t => document t.name text)

/-- What terms of one group amount to when they have to be found in one field. -/
def inOneField (targets : List Target) (document : String → String → Bool)
    (conjunction : Conjunction) (texts : List String) : Option Bool :=
  Conjunction.or.value? (targets.filterMap fun t => conjunction.value? (texts.map (document t.name)))

def unitOf (mode : Mode) (targets : List Target) (document : String → String → Bool) :
    Conjunction → List String → Option Bool :=
  if mode = .terms then inSomeField targets document else inOneField targets document

def literals (conjunction : Conjunction) (texts : List String) : QueryTree String :=
  .list none ((texts.map (QueryTree.leaf none)).map (QueryTree.member conjunction))

/-- All literals on each of the fields. -/
def perField (targets : List Target) (conjunction : Conjunction) (texts : List String) :
    List (QueryTree OnField) :=
  targets.map fun t => .leaf none ⟨t, literals conjunction texts⟩

/-- One literal on any of the fields. -/
def anyField (targets : List Target) (text : String) : QueryTree OnField :=
  .list none (targets.map fun t => .leaf none ⟨t, .leaf none text⟩)

/-- Each literal on any of the fields. -/
def perTerm (targets : List Target) (conjunction : Conjunction) (texts : List String) :
    QueryTree OnField :=
  .list none ((texts.map (anyField targets)).map (QueryTree.member conjunction))

/-- The literals of one group in all the fields. -/
def unitTree (f : Flattening) (conjunction : Conjunction) (texts : List String) :
    QueryTree OnField :=
  .list none ((if f.mode = .terms ∧ 1 < f.targets.length ∧ 1 < texts.length then
      [perTerm f.targets conjunction texts] else []) ++ perField f.targets conjunction texts)

/-- A clause is the written form of a tree, given that of the leaves. -/
def WrittenAs {α : Type} (write : α → List Char) (c : Clause) (t : QueryTree α) : Prop :=
  c.chars = t.chars write

section

variable {α : Type} {write : α → List Char}

/-- A clause under a conjunction is written as the tree under it. -/
theorem WrittenAs.under (conjunction : Conjunction) {c : Clause} {t : QueryTree α}
    (written : WrittenAs write c t) (free : t.sign = none) :
    WrittenAs write (Flattening.under conjunction c) (t.member conjunction) := by
  unfold WrittenAs
  cases conjunction with
  | and =>
    rw [QueryTree.member, free]
    dsimp only [Option.isSome]
    rw [if_neg Bool.false_ne_true, QueryTree.chars_withSign write free, ← written]
    rfl
  | or =>
    rw [QueryTree.member, free]
    exact written

theorem writtenAs_list {cs : List Clause} {ts : List (QueryTree α)}
    (written : List.Forall₂ (WrittenAs write) cs ts) :
    WrittenAs write (.list cs) (.list none ts) :=
  congrArg ('(' :: · ++ [')']) (QueryTree.charsAll_eq written)

theorem forall₂_map_both {β : Type} {f : β → Clause} {g : β → QueryTree α}
    (each : ∀ x, WrittenAs write (f x) (g x)) (xs : List β) :
    List.Forall₂ (WrittenAs write) (xs.map f) (xs.map g) := by
  rw [List.forall₂_map_left_iff, List.forall₂_map_right_iff, List.forall₂_same]
  exact fun x _ => each x

end

def literalClause (mode : Mode) (text : String) : Clause :=
  .atom (literalAtom mode text)

theorem writtenAs_literal (mode : Mode) (text : String) :
    WrittenAs (literalChars mode) (literalClause mode text) (.leaf none text) := rfl

theorem WrittenAs.onTarget {mode : Mode} {c : Clause} {q : QueryTree String}
    (written : WrittenAs (literalChars mode) c q) (t : Target) :
    WrittenAs (OnField.chars mode) (Flattening.onTarget c t) (.leaf none ⟨t, q⟩) := by
  unfold WrittenAs at written ⊢
  rw [Flattening.onTarget, Clause.chars_onField, written]
  rfl

/-- Literals in parentheses are a tree. -/
theorem writtenAs_literals (mode : Mode) (conjunction : Conjunction) (texts : List String) :
    WrittenAs (literalChars mode)
      (.list ((texts.map (literalClause mode)).map (Flattening.under conjunction)))
      (literals conjunction texts) := by
  apply writtenAs_list
  rw [List.map_map, List.map_map]
  exact forall₂_map_both (fun text => (writtenAs_literal mode text).under conjunction rfl) texts

theorem writtenAs_anyField (mode : Mode) (targets : List Target) (text : String) :
    WrittenAs (OnField.chars mode)
      (.list (targets.map (Flattening.onTarget (literalClause mode text))))
      (anyField targets text) :=
  writtenAs_list (forall₂_map_both (fun t => (writtenAs_literal mode text).onTarget t) targets)

theorem writtenAs_perTerm (mode : Mode) (targets : List Target) (conjunction : Conjunction)
    (texts : List String) :
    WrittenAs (OnField.chars mode)
      (.list ((texts.map (literalClause mode)).map fun c =>
        Flattening.under conjunction (.list (targets.map (Flattening.onTarget c)))))
      (perTerm targets conjunction texts) := by
  apply writtenAs_list
  rw [List.map_map, List.map_map]
  exact forall₂_map_both
    (fun text => (writtenAs_anyField mode targets text).under conjunction rfl) texts

section

variable {f : Flattening} (conjunction : Conjunction) {texts : List String}

/-- Terms without groups beside them become the clauses of their unit. -/
theorem writtenAs_unitTree (some_text : texts ≠ []) (some_field : f.targets ≠ [])
    (inline : f.mode ≠ .edismax) :
    WrittenAs (OnField.chars f.mode)
      (.list (f.termClauses conjunction false (texts.map (literalClause f.mode))))
      (unitTree f conjunction texts) := by
  unfold Flattening.termClauses
  rw [if_neg (by simpa using some_text), if_neg (by simpa using some_field), if_neg inline]
  apply writtenAs_list
  refine List.rel_append ?_ ?_
  · rw [List.length_map]
    split
    · exact .cons (writtenAs_perTerm f.mode f.targets conjunction texts) .nil
    · exact .nil
  · exact forall₂_map_both
      (fun t => (writtenAs_literals f.mode conjunction texts).onTarget t) f.targets

theorem termClauses_ne_nil (some_text : texts ≠ []) (some_field : f.targets ≠ [])
    (inline : f.mode ≠ .edismax) :
    f.termClauses conjunction false (texts.map (literalClause f.mode)) ≠ [] := by
  unfold Flattening.termClauses
  rw [if_neg (by simpa using some_text), if_neg (by simpa using some_field), if_neg inline]
  exact List.append_ne_nil_of_right_ne_nil _ (by simpa using some_field)

/-- Beside groups they become one clause. -/
theorem termClauses_beside (some_text : texts ≠ []) (some_field : f.targets ≠ [])
    (inline : f.mode ≠ .edismax) :
    f.termClauses conjunction true (texts.map (literalClause f.mode)) =
      [Flattening.under conjunction
        (.list (f.termClauses conjunction false (texts.map (literalClause f.mode))))] := by
  have shown : (texts.map (literalClause f.mode)).isEmpty = false := by simpa using some_text
  have fields : f.targets.isEmpty = false := by simpa using some_field
  simp only [Flattening.termClauses, shown, fields, if_neg inline, if_true, Bool.false_eq_true,
    if_false]

end

section

variable (document : String → String → Bool) (conjunction : Conjunction) {texts : List String}
  {targets : List Target}

/-- Clauses without signs hold in parentheses iff one of them does. -/
theorem holds_list_unsigned {α : Type} (truth : α → Bool) {ts : List (QueryTree α)}
    (nonempty : ts ≠ []) (unsigned : ∀ t ∈ ts, t.sign = none) :
    (QueryTree.list none ts).holds truth = ts.any (QueryTree.holds truth) := by
  have same : ts.map (QueryTree.member .or) = ts := by
    conv_rhs => rw [← List.map_id ts]
    refine List.map_congr_left fun t among => ?_
    rw [QueryTree.member, unsigned t among]
    rfl
  have joined := QueryTree.clausesHold_members truth .or nonempty
  rw [same, Conjunction.or.value?_map _ nonempty, Option.some_inj] at joined
  exact joined

/-- Members in parentheses hold as their conjunction says. -/
theorem holds_list_members {α : Type} (truth : α → Bool) {ts : List (QueryTree α)}
    (nonempty : ts ≠ []) :
    some ((QueryTree.list none (ts.map (QueryTree.member conjunction))).holds truth) =
      conjunction.value? (ts.map (QueryTree.holds truth)) :=
  QueryTree.clausesHold_members truth conjunction nonempty

theorem holds_literals (truth : String → Bool) (some_text : texts ≠ []) :
    some ((literals conjunction texts).holds truth) = conjunction.value? (texts.map truth) := by
  rw [literals, holds_list_members conjunction truth (by simpa using some_text), List.map_map]
  rfl

/-- A literal on any of the fields holds iff it is in one of them. -/
theorem holds_anyField (text : String) (some_field : targets ≠ []) :
    (anyField targets text).holds (OnField.holds document) =
      targets.any fun t => document t.name text := by
  rw [anyField, holds_list_unsigned _ (by simpa using some_field), List.any_map]
  · rfl
  · intro t among
    obtain ⟨field, -, rfl⟩ := List.mem_map.mp among
    rfl

theorem holds_perTerm (some_text : texts ≠ []) (some_field : targets ≠ []) :
    some ((perTerm targets conjunction texts).holds (OnField.holds document)) =
      inSomeField targets document conjunction texts := by
  have found : QueryTree.holds (OnField.holds document) ∘ anyField targets =
      fun text => targets.any fun t => document t.name text :=
    funext fun text => holds_anyField document text some_field
  rw [perTerm, holds_list_members conjunction _ (by simpa using some_text), List.map_map, found,
    inSomeField]

theorem any_perField :
    (perField targets conjunction texts).any (QueryTree.holds (OnField.holds document)) =
      targets.any fun t => (literals conjunction texts).holds (document t.name) := by
  rw [perField, List.any_map]
  rfl

theorem inOneField_eq (some_text : texts ≠ []) (some_field : targets ≠ []) :
    inOneField targets document conjunction texts =
      some (targets.any fun t => (literals conjunction texts).holds (document t.name)) := by
  have each : (fun t : Target => conjunction.value? (texts.map (document t.name))) =
      some ∘ fun t => (literals conjunction texts).holds (document t.name) :=
    funext fun t => (holds_literals conjunction (document t.name) some_text).symm
  rw [inOneField, each, List.filterMap_eq_map, Conjunction.or.value?_map _ some_field]

/-- What is found in one field is found. -/
theorem inSomeField_of_inOneField (some_text : texts ≠ []) (some_field : targets ≠ [])
    (found : inOneField targets document conjunction texts = some true) :
    inSomeField targets document conjunction texts = some true := by
  rw [inOneField_eq document conjunction some_text some_field, Option.some_inj,
    List.any_eq_true] at found
  obtain ⟨t, among, holds⟩ := found
  have there := holds_literals conjunction (document t.name) some_text
  rw [holds] at there
  refine conjunction.value?_mono (fun text _ held => ?_) there.symm
  exact List.any_eq_true.mpr ⟨t, among, held⟩

/-- With one field, or one term, it does not matter where terms are found. -/
theorem inOneField_eq_inSomeField (some_text : texts ≠ []) (some_field : targets ≠ [])
    (single : ¬(1 < targets.length ∧ 1 < texts.length)) :
    inOneField targets document conjunction texts =
      inSomeField targets document conjunction texts := by
  cases targets with
  | nil => exact absurd rfl some_field
  | cons t others =>
    cases others with
    | nil =>
      rw [inOneField_eq document conjunction some_text some_field, inSomeField]
      simp only [List.any_cons, List.any_nil, Bool.or_false]
      exact holds_literals conjunction (document t.name) some_text
    | cons other rest =>
      cases texts with
      | nil => exact absurd rfl some_text
      | cons text more =>
        have alone : more = [] := by
          rw [← List.length_eq_zero_iff]
          simp only [List.length_cons] at single
          omega
        subst alone
        have held : ∀ t : Target, (literals conjunction [text]).holds (document t.name) =
            document t.name text := by
          intro t
          have there := holds_literals conjunction (document t.name) some_text
          rw [List.map_singleton, conjunction.value?_single] at there
          exact Option.some.inj there
        rw [inOneField_eq document conjunction some_text some_field, inSomeField,
          List.map_singleton, conjunction.value?_single]
        simp only [held]

/-- The clauses of the terms of a group hold as their unit does. -/
theorem holds_unitTree {f : Flattening} (some_text : texts ≠ []) (some_field : f.targets ≠ []) :
    some ((unitTree f conjunction texts).holds (OnField.holds document)) =
      unitOf f.mode f.targets document conjunction texts := by
  have one := inOneField_eq document conjunction some_text some_field
  rw [← any_perField] at one
  have unsigned : ∀ t ∈ perField f.targets conjunction texts, t.sign = none := by
    intro t among
    obtain ⟨field, -, rfl⟩ := List.mem_map.mp among
    rfl
  have fields : perField f.targets conjunction texts ≠ [] := by simpa [perField] using some_field
  unfold unitTree
  split
  · next several =>
    rw [holds_list_unsigned _ (by simp) (by simpa [perTerm] using unsigned), List.any_append,
      List.any_cons, List.any_nil, Bool.or_false, unitOf, if_pos several.1,
      ← holds_perTerm document conjunction some_text some_field, Option.some_inj]
    cases there : (perField f.targets conjunction texts).any
        (QueryTree.holds (OnField.holds document)) with
    | false => rw [Bool.or_false]
    | true =>
      have found := holds_perTerm document conjunction some_text some_field
      rw [inSomeField_of_inOneField document conjunction some_text some_field
        (one.trans (congrArg some there)), Option.some_inj] at found
      rw [found, Bool.or_true]
  · next single =>
    rw [List.nil_append, holds_list_unsigned _ fields unsigned, ← one, unitOf]
    split
    · next terms =>
      exact inOneField_eq_inSomeField document conjunction some_text some_field
        fun both => single ⟨terms, both⟩
    · rfl

end

theorem literal_plain (mode : Mode) (text : String) :
    Flattening.literal mode false text =
      if Text.isBlankText text then none
      else some (literalClause mode (Text.trimText text)) := by
  cases mode <;> rfl

/-- A body that is the written form of a tree without a sign. -/
structure FieldsBody (f : Flattening) (c : Clause) (t : QueryTree OnField) : Prop where
  written : WrittenAs (OnField.chars f.mode) c t
  unsigned : t.sign = none

section

variable {f : Flattening}

theorem unitOf_nil (mode : Mode) (targets : List Target) (document : String → String → Bool)
    (conjunction : Conjunction) : unitOf mode targets document conjunction [] = none := by
  unfold unitOf
  split
  · rfl
  · simp [inOneField, Conjunction.value?]

/-- Groups without terms beside them are the whole body. -/
theorem bodyOf_groups (conjunction : Conjunction) {groups : List Clause}
    (some_group : groups ≠ []) : f.bodyOf conjunction groups [] = some (.list groups) := by
  have nothing : ∀ beside, f.termClauses conjunction beside [] = [] := fun beside => rfl
  unfold Flattening.bodyOf
  dsimp only
  rw [nothing, List.append_nil, if_neg (by simpa using some_group)]

/-- Terms without groups beside them are the whole body. -/
theorem bodyOf_alone (conjunction : Conjunction) {texts : List String} (some_text : texts ≠ [])
    (some_field : f.targets ≠ []) (inline : f.mode ≠ .edismax) :
    f.bodyOf conjunction [] (texts.map (literalClause f.mode)) =
      some (.list (f.termClauses conjunction false (texts.map (literalClause f.mode)))) := by
  have clauses := termClauses_ne_nil conjunction some_text some_field inline
  unfold Flattening.bodyOf
  dsimp only
  rw [List.nil_append, List.isEmpty_nil, Bool.not_true, if_neg (by simpa using clauses)]

/-- Beside groups the terms are one more clause of the body. -/
theorem bodyOf_beside (conjunction : Conjunction) {texts : List String} (some_text : texts ≠ [])
    (some_field : f.targets ≠ []) (inline : f.mode ≠ .edismax) {groups : List Clause}
    (some_group : groups ≠ []) :
    f.bodyOf conjunction groups (texts.map (literalClause f.mode)) =
      some (.list (groups ++ [Flattening.under conjunction
        (.list (f.termClauses conjunction false (texts.map (literalClause f.mode))))])) := by
  have beside : (!groups.isEmpty) = true := by simpa using some_group
  unfold Flattening.bodyOf
  dsimp only
  rw [beside, termClauses_beside conjunction some_text some_field inline, if_neg (by simp)]

/-- The body of a group is a tree that holds as its nested groups and the unit of its terms do. -/
theorem bodyOf_written (some_field : f.targets ≠ []) (inline : f.mode ≠ .edismax)
    (conjunction : Conjunction) (texts : List String) {groups : List Clause}
    {gs : List (QueryTree OnField)}
    (written : List.Forall₂ (WrittenAs (OnField.chars f.mode)) groups
      (gs.map (QueryTree.member conjunction))) :
    ∃ t, Option.Rel (FieldsBody f)
        (f.bodyOf conjunction groups (texts.map (literalClause f.mode))) t ∧
      ∀ document, t.map (QueryTree.holds (OnField.holds document)) =
        conjunction.value? (gs.map (QueryTree.holds (OnField.holds document)) ++
          (unitOf f.mode f.targets document conjunction texts).toList) := by
  by_cases some_text : texts = []
  · subst some_text
    simp only [unitOf_nil, Option.toList_none, List.append_nil]
    cases gs with
    | nil =>
      cases written
      exact ⟨none, .none, fun document => rfl⟩
    | cons g gs =>
      cases written with
      | cons first rest =>
        rw [List.map_nil, bodyOf_groups conjunction (List.cons_ne_nil _ _)]
        exact ⟨_, .some ⟨writtenAs_list (.cons first rest), rfl⟩,
          fun document => holds_list_members conjunction _ (List.cons_ne_nil g gs)⟩
  · have unit := writtenAs_unitTree conjunction some_text some_field inline
    have value := fun document => holds_unitTree document conjunction some_text some_field
    cases gs with
    | nil =>
      cases written
      rw [bodyOf_alone conjunction some_text some_field inline]
      refine ⟨some (unitTree f conjunction texts), .some ⟨unit, rfl⟩, fun document => ?_⟩
      rw [← value document, Option.toList_some, List.map_nil, List.nil_append,
        conjunction.value?_single]
      rfl
    | cons g gs =>
      have some_group : groups ≠ [] := by
        rintro rfl
        cases written
      have all : List.Forall₂ (WrittenAs (OnField.chars f.mode))
          (groups ++ [Flattening.under conjunction
            (.list (f.termClauses conjunction false (texts.map (literalClause f.mode))))])
          (((g :: gs) ++ [unitTree f conjunction texts]).map (QueryTree.member conjunction)) := by
        rw [List.map_append]
        exact List.rel_append written (.cons (unit.under conjunction rfl) .nil)
      rw [bodyOf_beside conjunction some_text some_field inline some_group]
      refine ⟨some (.list none _), .some ⟨writtenAs_list all, rfl⟩, fun document => ?_⟩
      rw [Option.map_some, holds_list_members conjunction _ (by simp), ← value document,
        List.map_append]
      rfl

/-- The nested groups among the members of a group are trees, and its terms are literals. -/
def FieldsMembers (f : Flattening) (conjunction : Conjunction) (es : List Expression) : Prop :=
  ∃ (groups : List Clause) (gs : List (QueryTree OnField)),
    f.members conjunction false es = .ok (groups, (ownTexts es).map (literalClause f.mode)) ∧
    List.Forall₂ (WrittenAs (OnField.chars f.mode)) groups
      (gs.map (QueryTree.member conjunction)) ∧
    ∀ document, gs.map (QueryTree.holds (OnField.holds document)) =
      nestedValues (unitOf f.mode f.targets document) es

/-- A group becomes a body that holds as the group does. -/
theorem FieldsMembers.groupBody {conjunction : Conjunction} {children : List Expression}
    (writes : FieldsMembers f conjunction children) (some_field : f.targets ≠ [])
    (inline : f.mode ≠ .edismax) :
    ∃ body t, f.groupBody (.group conjunction false false children) = .ok body ∧
      Option.Rel (FieldsBody f) body t ∧
      ∀ document, t.map (QueryTree.holds (OnField.holds document)) =
        (group conjunction false false children).unitValue?
          (unitOf f.mode f.targets document) := by
  obtain ⟨groups, gs, read, written, values⟩ := writes
  obtain ⟨t, body, value⟩ :=
    bodyOf_written some_field inline conjunction (ownTexts children) written
  rw [Flattening.groupBody, read]
  refine ⟨_, t, rfl, body, fun document => ?_⟩
  rw [value document, values document, unitValue?]

/-- By induction on the keys: nested groups become trees, and terms literals. -/
theorem fieldsMembers (some_field : f.targets ≠ []) (inline : f.mode ≠ .edismax)
    (conjunction : Conjunction) (es : List Expression) (plain : arePlain es = true) :
    FieldsMembers f conjunction es := by
  cases es with
  | nil => exact ⟨[], [], rfl, .nil, fun document => rfl⟩
  | cons e rest =>
    rw [arePlain, Bool.and_eq_true] at plain
    obtain ⟨groups, gs, read, written, values⟩ :=
      fieldsMembers some_field inline conjunction rest plain.2
    cases e with
    | term text =>
      refine ⟨groups, gs, ?_, written, values⟩
      rw [Flattening.members, read, literal_plain, ownTexts]
      dsimp only
      split <;> rfl
    | group c negated escaped children =>
      have own := plain.1
      simp only [isPlain, Bool.and_eq_true, Bool.not_eq_true'] at own
      obtain ⟨⟨rfl, rfl⟩, own⟩ := own
      obtain ⟨body, t, made, writes, value⟩ :=
        (fieldsMembers some_field inline c children own).groupBody some_field inline
      rw [FieldsMembers, Flattening.members, if_neg inline, made, read]
      refine ⟨_, t.toList ++ gs, rfl, ?_, fun document => ?_⟩
      · rw [List.map_append]
        refine List.rel_append ?_ written
        cases writes with
        | none => exact .nil
        | some form => exact .cons (form.written.under conjunction form.unsigned) .nil
      · rw [List.map_append, values document, nestedValues, ← value document]
        cases t <;> rfl

end

section

variable (targets : List Target) (document : String → String → Bool)

/-- Whether a term is found in one of the fields. -/
def found (text : String) : Bool :=
  targets.any fun t => document t.name text

/-- The values of groups and the findings of terms, together. -/
def ValuesPermute (es : List Expression) : Prop :=
  (nestedValues (inSomeField targets document) es ++
    (ownTexts es).map (found targets document)).Perm
      (es.filterMap (reading Conjunction.meant (termTruth (found targets document))))

/-- Where every term may be found in another field, keys hold as their terms are found. -/
theorem ValuesPermute.unitValue? {children : List Expression}
    (same : ValuesPermute targets document children) (conjunction : Conjunction) :
    (group conjunction false false children).unitValue? (inSomeField targets document) =
      (group conjunction false false children).reading Conjunction.meant
        (termTruth (found targets document)) := by
  rw [reading_plain, Conjunction.meant, readings_values, Expression.unitValue?, inSomeField,
    ← conjunction.value?_append_right]
  exact conjunction.value?_perm same

/-- Nested groups stand in front of terms, which changes the order of values and nothing else. -/
theorem valuesPermute (es : List Expression) (plain : arePlain es = true) :
    ValuesPermute targets document es := by
  cases es with
  | nil => exact .nil
  | cons e rest =>
    rw [arePlain, Bool.and_eq_true] at plain
    have others := valuesPermute rest plain.2
    unfold ValuesPermute at others ⊢
    cases e with
    | term text =>
      rw [nestedValues, Expression.unitValue?, ownTexts, List.filterMap_cons, reading, termTruth]
      split
      · exact others
      · exact List.perm_middle.trans (others.cons _)
    | group c negated escaped children =>
      have own := plain.1
      simp only [isPlain, Bool.and_eq_true, Bool.not_eq_true'] at own
      obtain ⟨⟨rfl, rfl⟩, own⟩ := own
      have nested := (valuesPermute children own).unitValue? targets document c
      rw [nestedValues, ownTexts, List.filterMap_cons, nested, List.append_assoc]
      cases reading Conjunction.meant (termTruth (found targets document))
          (group c false false children) with
      | none => exact others
      | some value => exact others.cons value

end

section

variable {unit : Conjunction → List String → Option Bool}
  (present : ∀ conjunction texts, texts ≠ [] → (unit conjunction texts).isSome = true)

include present

/-- A group with nested groups or own terms has a value. -/
theorem unitValue?_isSome (conjunction : Conjunction) (negated escaped : Bool)
    {children : List Expression}
    (some_value : nestedValues unit children ≠ [] ∨ ownTexts children ≠ []) :
    ((group conjunction negated escaped children).unitValue? unit).isSome = true := by
  have nonempty :
      nestedValues unit children ++ (unit conjunction (ownTexts children)).toList ≠ [] := by
    rcases some_value with nested | own
    · exact List.append_ne_nil_of_left_ne_nil nested _
    · obtain ⟨value, known⟩ := Option.isSome_iff_exists.mp (present conjunction _ own)
      rw [known]
      exact List.append_ne_nil_of_right_ne_nil _ (List.cons_ne_nil value [])
  obtain ⟨value, values, split⟩ := List.exists_cons_of_ne_nil nonempty
  rw [unitValue?, split]
  rfl

/-- Among keys that are not all blank there is a group with a value or a term. -/
theorem some_value (es : List Expression) (shown : areBlank es = false) :
    nestedValues unit es ≠ [] ∨ ownTexts es ≠ [] := by
  cases es with
  | nil => cases shown
  | cons e rest =>
    rw [areBlank, Bool.and_eq_false_iff] at shown
    cases e with
    | term text =>
      rw [isBlank] at shown
      rw [nestedValues, unitValue?, ownTexts]
      split
      · next blank => exact some_value rest (shown.resolve_left (by simp [blank]))
      · exact .inr (List.cons_ne_nil _ _)
    | group c negated escaped children =>
      rw [isBlank] at shown
      rw [nestedValues, ownTexts]
      rcases shown with own | others
      · obtain ⟨value, known⟩ := Option.isSome_iff_exists.mp
          (unitValue?_isSome present c negated escaped (some_value children own))
        rw [known]
        exact .inl (List.cons_ne_nil _ _)
      · exact (some_value rest others).imp_left fun nested =>
          List.append_ne_nil_of_right_ne_nil _ nested

end

theorem unitOf_isSome (mode : Mode) {targets : List Target} (some_field : targets ≠ [])
    (document : String → String → Bool) (conjunction : Conjunction) (texts : List String)
    (some_text : texts ≠ []) :
    (unitOf mode targets document conjunction texts).isSome = true := by
  unfold unitOf
  split
  · rw [inSomeField, conjunction.value?_map _ some_text]
    rfl
  · rw [inOneField_eq document conjunction some_text some_field]
    rfl

def fieldsText (mode : Mode) (query : QueryTree OnField) : String :=
  String.ofList (query.chars (OnField.chars mode))

/-- Keys over fields become a query that holds as their groups and the units of their terms do. -/
theorem compile_units {targets : List Target} (mode : Mode) (some_field : targets ≠ [])
    (inline : mode ≠ .edismax) (conjunction : Conjunction) (children : List Expression)
    (plain : arePlain children = true) (shown : areBlank children = false) :
    ∃ query, compile (.group conjunction false false children) targets mode =
        .ok (fieldsText mode query) ∧
      ∀ document, some (query.holds (OnField.holds document)) =
        (group conjunction false false children).unitValue? (unitOf mode targets document) := by
  obtain ⟨body, t, made, writes, value⟩ :=
    (fieldsMembers (f := ⟨targets, mode⟩) some_field inline conjunction children plain).groupBody
      some_field inline
  have visible : ∀ document, (t.map (QueryTree.holds (OnField.holds document))).isSome = true := by
    intro document
    rw [value document]
    have present := unitOf_isSome mode some_field document
    exact unitValue?_isSome present conjunction false false (some_value present children shown)
  cases writes with
  | none => exact absurd (visible fun _ _ => true) Bool.false_ne_true
  | @some c t form =>
    refine ⟨t.withSign (some .must), ?_, fun document => ?_⟩
    · rw [compile, Flattening.compile, Flattening.clause, made, fieldsText,
        QueryTree.chars_withSign _ form.unsigned, ← form.written]
      rfl
    · rw [← value document, Option.map_some, QueryTree.holds, QueryTree.holds, form.unsigned,
        QueryTree.sign_withSign, QueryTree.bodyHolds_withSign]
      rfl

/-- Expanding keys over fields keeps their meaning, for keys without negated and escaped groups that
hold some term. In the mode of terms the query holds iff the keys do, where a term is true when one
of the fields holds it. In the mode of phrases the own terms of each group are one unit, which is
true when a single field satisfies them as the conjunction says. -/
theorem compile_fields_meaning (targets : List Target) (conjunction : Conjunction)
    (children : List Expression) (some_field : targets ≠ []) (plain : arePlain children = true)
    (shown : areBlank children = false) :
    (∃ query, compile (.group conjunction false false children) targets .terms =
          .ok (fieldsText .terms query) ∧
        ∀ document, some (query.holds (OnField.holds document)) =
          (group conjunction false false children).reading Conjunction.meant
            (termTruth fun text => targets.any fun t => document t.name text)) ∧
      ∃ query, compile (.group conjunction false false children) targets .phrase =
          .ok (fieldsText .phrase query) ∧
        ∀ document, some (query.holds (OnField.holds document)) =
          (group conjunction false false children).unitValue? (inOneField targets document) := by
  constructor
  · obtain ⟨query, made, value⟩ :=
      compile_units .terms some_field (by decide) conjunction children plain shown
    refine ⟨query, made, fun document => ?_⟩
    have permuted := valuesPermute targets document children plain
    rw [value document, unitOf, if_pos rfl, permuted.unitValue? targets document]
    rfl
  · obtain ⟨query, made, value⟩ :=
      compile_units .phrase some_field (by decide) conjunction children plain shown
    refine ⟨query, made, fun document => ?_⟩
    rw [value document, unitOf, if_neg (by decide)]

/-- Two fields, one of which counts twice. -/
def titleAndBody : List Target := [⟨"title", "^2"⟩, ⟨"body", "^1"⟩]

/-- Two terms, alternatives and what does not count. -/
def bookKeys : List Expression :=
  [.term "rust", .term " safe ", .term " ", .group .or false false [.term "book", .term "c++"],
    .group .and false false []]

/-- Two fields and a nested group, in the terms mode. -/
theorem compile_fields_meaning_nested :
    titleAndBody ≠ [] ∧ arePlain bookKeys = true ∧ areBlank bookKeys = false ∧
      (∃ query, compile (.group .and false false bookKeys) titleAndBody .terms =
          .ok (fieldsText .terms query) ∧
        fieldsText .terms query =
          "+(+(((title:book^2 body:book^1) (title:c\\+\\+^2 body:c\\+\\+^1)) " ++
            "title:(book c\\+\\+)^2 body:(book c\\+\\+)^1) " ++
            "+((+(title:rust^2 body:rust^1) +(title:safe^2 body:safe^1)) " ++
            "title:(+rust +safe)^2 body:(+rust +safe)^1))" ∧
        ∀ document, query.holds (OnField.holds document) =
          ((document "title" "rust" || document "body" "rust") &&
            (document "title" "safe" || document "body" "safe") &&
            ((document "title" "book" || document "body" "book") ||
              (document "title" "c++" || document "body" "c++")))) ∧
      ∃ query, compile (.group .and false false bookKeys) titleAndBody .phrase =
          .ok (fieldsText .phrase query) ∧
        fieldsText .phrase query =
          "+(+(title:(\"book\" \"c++\")^2 body:(\"book\" \"c++\")^1) " ++
            "+(title:(+\"rust\" +\"safe\")^2 body:(+\"rust\" +\"safe\")^1))" ∧
        ∀ document, query.holds (OnField.holds document) =
          (((document "title" "book" || document "title" "c++") ||
              (document "body" "book" || document "body" "c++")) &&
            ((document "title" "rust" && document "title" "safe") ||
              (document "body" "rust" && document "body" "safe"))) := by
  have fields : titleAndBody ≠ [] := List.cons_ne_nil _ _
  have plain : arePlain bookKeys = true := by decide +kernel
  have shown : areBlank bookKeys = false := by decide +kernel
  obtain ⟨⟨inTerms, terms, found⟩, inPhrases, phrases, together⟩ :=
    compile_fields_meaning titleAndBody .and bookKeys fields plain shown
  refine ⟨fields, plain, shown, ⟨inTerms, terms, ?_, fun document => ?_⟩,
    inPhrases, phrases, ?_, fun document => ?_⟩
  · refine Except.ok.inj (terms.symm.trans ?_)
    decide +kernel
  · rw [← Option.some_inj, found document]
    have value : ∀ truth : String → Bool,
        (group .and false false bookKeys).reading Conjunction.meant (termTruth truth) =
          some (truth "rust" && truth "safe" && (truth "book" || truth "c++")) := by
      intro truth
      have rust : termTruth truth "rust" = some (truth "rust") := by rfl
      have safe : termTruth truth " safe " = some (truth "safe") := by rfl
      have blank : termTruth truth " " = none := by rfl
      have book : termTruth truth "book" = some (truth "book") := by rfl
      have other : termTruth truth "c++" = some (truth "c++") := by rfl
      simp [bookKeys, reading, readings, Conjunction.meant, Conjunction.value?, rust, safe, blank,
        book, other, Bool.and_assoc]
    rw [value]
    simp [titleAndBody]
  · refine Except.ok.inj (phrases.symm.trans ?_)
    decide +kernel
  · have own : ownTexts bookKeys = ["rust", "safe"] := by rfl
    have nested : ownTexts [.term "book", .term "c++"] = ["book", "c++"] := by rfl
    have inner : (group .or false false [.term "book", .term "c++"]).unitValue?
        (inOneField titleAndBody document) =
          some ((document "title" "book" || document "title" "c++") ||
            (document "body" "book" || document "body" "c++")) := by
      rw [unitValue?, nested]
      simp [nestedValues, unitValue?, inOneField, titleAndBody, Conjunction.value?]
    have empty : (group .and false false []).unitValue? (inOneField titleAndBody document) = none := by
      rfl
    have groups : nestedValues (inOneField titleAndBody document) bookKeys =
        [(document "title" "book" || document "title" "c++") ||
          (document "body" "book" || document "body" "c++")] := by
      simp only [bookKeys, nestedValues, inner, empty]
      simp [unitValue?]
    rw [← Option.some_inj, together document, unitValue?, own, groups]
    simp [inOneField, titleAndBody, Conjunction.value?]

end Keys

end SearchCompiler
