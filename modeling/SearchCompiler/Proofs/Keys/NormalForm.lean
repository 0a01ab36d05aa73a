import SearchCompiler.Proofs.Keys.Acceptance
import SearchCompiler.Proofs.Keys.Modes

/-!
# The normal form of typed keys

Keys that are read from a text are a group, and every group in them is tidy (`IsTidy`): it has
members and is not escaped, a group of its own conjunction among its members is negated, and a
single member is a term (`parse_normal`).

Groups are made in four places of the reader: siblings are combined, a term in parentheses and a
whole text of one term are grouped, and a term is grouped to be negated. Each of these keeps keys
normal, so everything that is read along a derivation is.
-/

namespace SearchCompiler.Keys

namespace Expression

mutual

/-- The groups in an expression: itself and those inside of it. -/
def groups : Expression → List Expression
  | .term _ => []
  | .group conjunction negated escaped children =>
    .group conjunction negated escaped children :: groupsOf children

def groupsOf : List Expression → List Expression
  | [] => []
  | e :: rest => e.groups ++ groupsOf rest

end

/-- A group as the reader leaves it. -/
structure IsTidy (conjunction : Conjunction) (escaped : Bool) (children : List Expression) :
    Prop where
  plain : escaped = false
  nonempty : children ≠ []
  /-- Any other group of the same conjunction would have dissolved. -/
  apart : ∀ negated escaped' inner,
    .group conjunction negated escaped' inner ∈ children → negated = true
  single : ∀ e, children = [e] → e.isGroup = false

/-- Keys whose groups are all tidy. -/
def IsNormal (keys : Expression) : Prop :=
  ∀ conjunction negated escaped children,
    .group conjunction negated escaped children ∈ keys.groups →
      IsTidy conjunction escaped children

end Expression

open Expression

theorem mem_groupsOf {es : List Expression} {g : Expression} :
    g ∈ groupsOf es ↔ ∃ e ∈ es, g ∈ e.groups := by
  induction es with
  | nil => simp [groupsOf]
  | cons e rest ih => rw [groupsOf, List.mem_append, ih, List.exists_mem_cons_iff]

theorem isNormal_term (text : String) : (Expression.term text).IsNormal := by
  intro conjunction negated escaped children among
  cases among

/-- A group is in normal form iff it is tidy and its children are in normal form. -/
theorem isNormal_group_iff {conjunction : Conjunction} {negated escaped : Bool}
    {children : List Expression} :
    (Expression.group conjunction negated escaped children).IsNormal ↔
      IsTidy conjunction escaped children ∧ ∀ e ∈ children, e.IsNormal := by
  constructor
  · intro normal
    refine ⟨normal _ negated _ _ List.mem_cons_self, fun e member c n x inner among => ?_⟩
    exact normal c n x inner (List.mem_cons_of_mem _ (mem_groupsOf.mpr ⟨e, member, among⟩))
  · rintro ⟨own, within⟩ c n x inner among
    rcases List.mem_cons.mp among with same | deeper
    · cases same
      exact own
    · obtain ⟨e, member, among⟩ := mem_groupsOf.mp deeper
      exact within e member c n x inner among

/-- A group of one term is normal. -/
theorem isNormal_single (conjunction : Conjunction) (negated : Bool) (text : String) :
    (Expression.group conjunction negated false [.term text]).IsNormal := by
  refine isNormal_group_iff.mpr ⟨⟨rfl, List.cons_ne_nil _ _, ?_, ?_⟩, ?_⟩
  · intro negated escaped inner among
    cases List.mem_singleton.mp among
  · rintro e ⟨⟩
    rfl
  · rw [List.forall_mem_singleton]
    exact isNormal_term text

theorem isNormal_negate {e : Expression} (normal : e.IsNormal) : e.negate.IsNormal := by
  cases e with
  | term text => exact isNormal_single .and true text
  | group conjunction negated escaped children =>
    exact isNormal_group_iff.mpr (isNormal_group_iff.mp normal)

theorem isNormal_grouped (conjunction : Conjunction) {e : Expression} (normal : e.IsNormal) :
    (grouped conjunction e).IsNormal := by
  cases e with
  | term text => exact isNormal_single conjunction false text
  | group => exact normal

/-- What normal keys add to a group is not nothing, is normal, and does not dissolve any more. -/
theorem membersUnder_normal (conjunction : Conjunction) {e : Expression} (normal : e.IsNormal) :
    membersUnder conjunction e ≠ [] ∧ ∀ x ∈ membersUnder conjunction e, x.IsNormal ∧
      ∀ negated escaped inner, x = .group conjunction negated escaped inner → negated = true := by
  cases e with
  | term text =>
    rw [membersUnder, List.forall_mem_singleton]
    exact ⟨List.cons_ne_nil _ _, normal, by simp⟩
  | group c negated escaped children =>
    obtain ⟨tidy, within⟩ := isNormal_group_iff.mp normal
    rw [membersUnder]
    split
    · next dissolves =>
      simp only [Bool.and_eq_true, beq_iff_eq] at dissolves
      obtain ⟨-, rfl⟩ := dissolves
      refine ⟨tidy.nonempty, fun x member => ⟨within x member, ?_⟩⟩
      rintro n x inner rfl
      exact tidy.apart n x inner member
    · next stays =>
      rw [List.forall_mem_singleton]
      refine ⟨List.cons_ne_nil _ _, normal, ?_⟩
      rintro n x inner ⟨⟩
      simpa [tidy.plain] using stays

/-- At least two siblings that each add something add no single member. -/
theorem flatMap_ne_single {α β : Type} {f : α → List β} {a b : α} {rest : List α}
    (each : ∀ x ∈ a :: b :: rest, f x ≠ []) (y : β) : (a :: b :: rest).flatMap f ≠ [y] := by
  have first : 0 < (f a).length := List.length_pos_iff.mpr (each a (by simp))
  have second : 0 < (f b).length := List.length_pos_iff.mpr (each b (by simp))
  intro single
  have length := congrArg List.length single
  rw [List.flatMap_cons, List.flatMap_cons, List.length_append, List.length_append,
    List.length_singleton] at length
  omega

/-- Combining normal keys is normal: a group of the same conjunction dissolves. -/
theorem isNormal_combine (conjunction : Conjunction) {es : List Expression} (nonempty : es ≠ [])
    (normal : ∀ e ∈ es, e.IsNormal) : (combine conjunction es).IsNormal := by
  match es with
  | [e] => exact normal e List.mem_cons_self
  | a :: b :: rest =>
    have added := fun e member => membersUnder_normal conjunction (normal e member)
    have members : ∀ x ∈ (a :: b :: rest).flatMap (membersUnder conjunction), x.IsNormal ∧
        ∀ negated escaped inner, x = .group conjunction negated escaped inner → negated = true := by
      intro x among
      obtain ⟨e, member, within⟩ := List.mem_flatMap.mp among
      exact (added e member).2 x within
    have several := flatMap_ne_single fun e member => (added e member).1
    refine isNormal_group_iff.mpr ⟨⟨rfl, ?_, ?_, ?_⟩, fun x among => (members x among).1⟩
    · intro empty
      exact (added a List.mem_cons_self).1 (List.flatMap_eq_nil_iff.mp empty a List.mem_cons_self)
    · intro negated escaped inner among
      exact (members _ among).2 negated escaped inner rfl
    · intro e single
      exact absurd single (several e)

theorem Alternatives.members_ne_nil (adjacent : Conjunction) (a : Alternatives) :
    a.members adjacent ≠ [] := by
  cases a <;> exact List.cons_ne_nil _ _

theorem Sequence.members_ne_nil (adjacent : Conjunction) (s : Sequence) :
    s.members adjacent ≠ [] := by
  cases s <;> exact List.cons_ne_nil _ _

mutual

theorem Alternatives.members_normal (adjacent : Conjunction) (a : Alternatives) :
    ∀ e ∈ a.members adjacent, e.IsNormal := by
  cases a with
  | single s =>
    rw [Alternatives.members, List.forall_mem_singleton]
    exact isNormal_combine adjacent (s.members_ne_nil adjacent) (s.members_normal adjacent)
  | or s rest =>
    rw [Alternatives.members, List.forall_mem_cons]
    exact ⟨isNormal_combine adjacent (s.members_ne_nil adjacent) (s.members_normal adjacent),
      rest.members_normal adjacent⟩

theorem Sequence.members_normal (adjacent : Conjunction) (s : Sequence) :
    ∀ e ∈ s.members adjacent, e.IsNormal := by
  cases s with
  | single u =>
    rw [Sequence.members, List.forall_mem_singleton]
    exact u.expression_normal adjacent
  | adjacent u rest =>
    rw [Sequence.members, List.forall_mem_cons]
    exact ⟨u.expression_normal adjacent, rest.members_normal adjacent⟩

theorem Unary.expression_normal (adjacent : Conjunction) (u : Unary) :
    (u.expression adjacent).IsNormal := by
  cases u with
  | term text => exact isNormal_term text
  | phrase text => exact isNormal_term text
  | not u => exact isNormal_negate (u.expression_normal adjacent)
  | group inside =>
    exact isNormal_grouped adjacent
      (isNormal_combine .or (inside.members_ne_nil adjacent) (inside.members_normal adjacent))

end

/-- Keys that are read from a text, as terms or for an inline query, are a group, and all groups in
them are tidy. -/
theorem parse_normal {input : String} {mode : Mode} (typed : mode = .terms ∨ mode = .edismax)
    {adjacent : Conjunction} {keys : Expression}
    (read : parse input mode adjacent = .ok (some keys)) :
    keys.isGroup = true ∧
      ∀ conjunction negated escaped children,
        .group conjunction negated escaped children ∈ keys.groups →
          IsTidy conjunction escaped children := by
  rw [parse_typed input adjacent typed, parse_iff] at read
  obtain ⟨-, tokens, -, a, -, rfl⟩ := read
  refine ⟨?_, ?_⟩
  · cases a.expression adjacent <;> rfl
  · exact isNormal_grouped adjacent
      (isNormal_combine .or (a.members_ne_nil adjacent) (a.members_normal adjacent))

/-- Not one of two: a group that is negated itself, with a group inside that dissolves, or nothing.
-/
def doubted : Alternatives :=
  .single (.single (.not (.group (.or
    (.single (.not (.group (.single (.adjacent (.term "a")
      (.single (.group (.single (.single (.term "b"))))))))))
    (.single (.single (.phrase "")))))))

def doubtedKeys : Expression :=
  .group .or true false [.group .and true false [.term "a", .term "b"], .term ""]

/-- Nested and negated groups with a blank phrase, and what is left of them. -/
theorem parse_normal_doubted :
    (Mode.terms = .terms ∨ Mode.terms = .edismax) ∧
      parse "-(-(a (b)) OR \"\")" .terms .and = .ok (some doubtedKeys) ∧
      doubtedKeys.isGroup = true ∧
      doubtedKeys.groups = [doubtedKeys, .group .and true false [.term "a", .term "b"]] ∧
      IsTidy .or false [.group .and true false [.term "a", .term "b"], .term ""] ∧
      IsTidy .and false [.term "a", .term "b"] := by
  have cut : lex "-(-(a (b)) OR \"\")" = .ok [⟨.not, 0⟩, ⟨.opening, 1⟩, ⟨.not, 2⟩, ⟨.opening, 3⟩,
      ⟨.term "a", 4⟩, ⟨.opening, 6⟩, ⟨.term "b", 7⟩, ⟨.closing, 8⟩, ⟨.closing, 9⟩, ⟨.or, 11⟩,
      ⟨.phrase "", 14⟩, ⟨.closing, 16⟩] := by
    have blanks : Text.isBlank ' ' = true ∧ Text.isBlank '-' = false ∧ Text.isBlank '(' = false ∧
        Text.isBlank ')' = false ∧ Text.isBlank '"' = false ∧ Text.isBlank 'a' = false ∧
        Text.isBlank 'b' = false ∧ Text.isBlank 'O' = false ∧ Text.isBlank 'R' = false := by
      decide
    simp [lex, lexFrom_cons, lexFrom_nil, bytes, wordToken, inWord, blanks]
    decide
  have read : parse "-(-(a (b)) OR \"\")" .terms .and = .ok (some doubtedKeys) :=
    (parse_iff _ _ _).mpr ⟨by decide, _, cut, doubted, rfl, rfl⟩
  obtain ⟨group, tidy⟩ := parse_normal (.inl rfl) read
  refine ⟨.inl rfl, read, group, rfl, tidy _ true _ _ ?_, tidy _ true _ _ ?_⟩
  · exact List.mem_cons_self
  · exact List.mem_cons_of_mem _ List.mem_cons_self

end SearchCompiler.Keys
