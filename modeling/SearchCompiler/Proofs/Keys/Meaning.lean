import SearchCompiler.Keys.Flatten
import SearchCompiler.Proofs.Keys.Reading

/-!
# The meaning of typed keys

Typed keys without target fields become the written form of a query tree whose leaves are the terms.
The tree holds iff the keys do as they are written (`clause_written`), so that a text keeps its
meaning from the grammar to the query iff its keys have no negated alternative beside another one
(`parse_compile_meaning`).
-/

namespace SearchCompiler.Keys

open Expression

mutual

/-- Whether no group is escaped. -/
def Expression.isUnescaped : Expression → Bool
  | .term _ => true
  | .group _ _ escaped children => !escaped && areUnescaped children

def Expression.areUnescaped : List Expression → Bool
  | [] => true
  | e :: rest => e.isUnescaped && areUnescaped rest

end

theorem areUnescaped_iff {es : List Expression} :
    areUnescaped es = true ↔ ∀ e ∈ es, e.isUnescaped = true := by
  induction es with
  | nil => simp [areUnescaped]
  | cons e rest ih => rw [areUnescaped, Bool.and_eq_true, ih, List.forall_mem_cons]

theorem isUnescaped_negate {e : Expression} (plain : e.isUnescaped = true) :
    e.negate.isUnescaped = true := by
  cases e <;> exact plain

theorem isUnescaped_grouped (conjunction : Conjunction) {e : Expression}
    (plain : e.isUnescaped = true) : (grouped conjunction e).isUnescaped = true := by
  cases e <;> exact plain

/-- Combining adds no escaped group. -/
theorem isUnescaped_combine (conjunction : Conjunction) {es : List Expression}
    (plain : ∀ e ∈ es, e.isUnescaped = true) : (combine conjunction es).isUnescaped = true := by
  unfold combine
  split
  · next single => exact plain single List.mem_cons_self
  · rw [isUnescaped, Bool.not_false, Bool.true_and, areUnescaped_iff]
    intro x among
    obtain ⟨e, member, within⟩ := List.mem_flatMap.mp among
    have own := plain e member
    cases e with
    | term text =>
      cases List.mem_singleton.mp within
      exact own
    | group c negated escaped children =>
      rw [membersUnder] at within
      split at within
      · rw [isUnescaped, Bool.and_eq_true, areUnescaped_iff] at own
        exact own.2 x within
      · cases List.mem_singleton.mp within
        exact own

mutual

theorem Alternatives.members_unescaped (adjacent : Conjunction) (a : Alternatives) :
    ∀ e ∈ a.members adjacent, e.isUnescaped = true := by
  cases a with
  | single s =>
    rw [Alternatives.members, List.forall_mem_singleton]
    exact isUnescaped_combine adjacent (s.members_unescaped adjacent)
  | or s rest =>
    rw [Alternatives.members, List.forall_mem_cons]
    exact ⟨isUnescaped_combine adjacent (s.members_unescaped adjacent),
      rest.members_unescaped adjacent⟩

theorem Sequence.members_unescaped (adjacent : Conjunction) (s : Sequence) :
    ∀ e ∈ s.members adjacent, e.isUnescaped = true := by
  cases s with
  | single u =>
    rw [Sequence.members, List.forall_mem_singleton]
    exact u.expression_unescaped adjacent
  | adjacent u rest =>
    rw [Sequence.members, List.forall_mem_cons]
    exact ⟨u.expression_unescaped adjacent, rest.members_unescaped adjacent⟩

theorem Unary.expression_unescaped (adjacent : Conjunction) (u : Unary) :
    (u.expression adjacent).isUnescaped = true := by
  cases u with
  | term text => rfl
  | phrase text => rfl
  | not u => exact isUnescaped_negate (u.expression_unescaped adjacent)
  | group inside =>
    exact isUnescaped_grouped adjacent (isUnescaped_combine .or (inside.members_unescaped adjacent))

end

/-- The sign of a member under a conjunction. -/
def memberSign (conjunction : Conjunction) (negated : Bool) : Option Sign :=
  if negated then some .mustNot
  else match conjunction with
    | .and => some .must
    | .or => none

/-- The sign of a member and whether its clause holds without it, from its value. -/
def signedMember (conjunction : Conjunction) (m : Bool × Bool) : Option Sign × Bool :=
  (memberSign conjunction m.1, m.1 ^^ m.2)

theorem signedMember_plain (conjunction : Conjunction) (value : Bool) :
    signedMember conjunction (false, value) = (memberSign conjunction false, value) := by
  rw [signedMember, Bool.false_xor]

theorem signedMember_nested (conjunction : Conjunction) (negated value : Bool) :
    signedMember conjunction (negated, negated ^^ value) =
      (memberSign conjunction negated, value) := by
  cases negated <;> cases value <;> rfl

theorem clausesHold_perm {clauses others : List (Option Sign × Bool)} (same : clauses.Perm others) :
    clausesHold clauses = clausesHold others := by
  unfold clausesHold
  rw [same.all_eq, same.all_eq, same.any_eq, same.all_eq, same.any_eq]

/-- The clauses of members hold as the members do as they are written. -/
theorem clausesHold_signedMember (conjunction : Conjunction) {members : List (Bool × Bool)}
    (nonempty : members ≠ []) :
    some (clausesHold (members.map (signedMember conjunction))) = conjunction.written members := by
  obtain ⟨m, ms, rfl⟩ := List.exists_cons_of_ne_nil nonempty
  cases conjunction with
  | and =>
    have signed : ∀ c ∈ (m :: ms).map (signedMember .and), c.1 ≠ none := by
      intro c among
      obtain ⟨⟨_ | _, _⟩, -, rfl⟩ := List.mem_map.mp among <;> exact Option.some_ne_none _
    have value : ∀ x,
        QueryTree.signedValue (signedMember .and x).1 (signedMember .and x).2 = x.2 := by
      rintro ⟨_ | _, _ | _⟩ <;> rfl
    rw [clausesHold_signed signed, List.all_map, Conjunction.written]
    exact congrArg some (congrArg (m :: ms).all (funext value))
  | or =>
    have plus : ∀ x, ((signedMember .or x).1 != some .must || (signedMember .or x).2) = true := by
      rintro ⟨_ | _, _ | _⟩ <;> rfl
    have minus : ∀ x, ((signedMember .or x).1 != some .mustNot || !(signedMember .or x).2) =
        (!x.1 || x.2) := by
      rintro ⟨_ | _, _ | _⟩ <;> rfl
    have required : ∀ x, ((signedMember .or x).1 == some .must) = false := by
      rintro ⟨_ | _, _ | _⟩ <;> rfl
    have signed : ∀ x, (signedMember .or x).1.isSome = x.1 := by
      rintro ⟨_ | _, _ | _⟩ <;> rfl
    have free : ∀ x, ((signedMember .or x).1.isNone && (signedMember .or x).2) = (!x.1 && x.2) := by
      rintro ⟨_ | _, _ | _⟩ <;> rfl
    rw [Conjunction.written, clausesHold]
    simp only [List.all_map, List.any_map, Function.comp_def, plus, minus, required, signed, free]
    have never : ∀ xs : List (Bool × Bool), xs.any (fun _ => false) = false := by
      simp
    have always : ∀ xs : List (Bool × Bool), xs.all (fun _ => true) = true := by
      simp
    rw [never, always, Bool.true_and, Bool.false_or]

/-- The leaves are written as bare terms. -/
def bareLeaf (text : String) : List Char :=
  Text.bareTerm text.toList

/-- A clause that is the written form of a tree of terms. -/
def Writes (c : Clause) (t : QueryTree String) : Prop :=
  c.chars = t.chars bareLeaf

/-- Terms without target fields. -/
def untargeted : Flattening := ⟨[], .terms⟩

theorem untargeted_bodyOf (conjunction : Conjunction) (groups terms : List Clause) :
    untargeted.bodyOf conjunction groups terms =
      if groups ++ terms.map (Flattening.under conjunction) = [] then none
      else some (.list (groups ++ terms.map (Flattening.under conjunction))) := by
  have members : ∀ beside, untargeted.termClauses conjunction beside terms =
      terms.map (Flattening.under conjunction) := by
    intro beside
    cases terms <;> rfl
  simp only [Flattening.bodyOf, members, List.isEmpty_iff]

theorem literal_untargeted (text : String) :
    Flattening.literal untargeted.mode false text =
      if Text.isBlankText text then none else some (.atom (.term (Text.trimText text))) := rfl

theorem writes_term (text : String) : Writes (.atom (.term text)) (.leaf none text) := rfl

theorem writes_under (conjunction : Conjunction) {c : Clause} {t : QueryTree String}
    (writes : Writes c t) (free : t.sign = none) :
    Writes (Flattening.under conjunction c) (t.withSign (memberSign conjunction false)) := by
  unfold Writes
  rw [QueryTree.chars_withSign bareLeaf free, ← writes]
  cases conjunction <;> rfl

theorem writes_nestedMember (conjunction : Conjunction) (negated : Bool) {c : Clause}
    {t : QueryTree String} (writes : Writes c t) (free : t.sign = none) :
    Writes (Flattening.nestedMember conjunction negated c)
      (t.withSign (memberSign conjunction negated)) := by
  cases negated with
  | false => exact writes_under conjunction writes free
  | true =>
    unfold Writes
    rw [QueryTree.chars_withSign bareLeaf free, ← writes]
    rfl

theorem signedBodies_perm (truth : String → Bool) {ts us : List (QueryTree String)}
    (same : ts.Perm us) :
    (QueryTree.signedBodies truth ts).Perm (QueryTree.signedBodies truth us) := by
  rw [QueryTree.signedBodies_eq_map, QueryTree.signedBodies_eq_map]
  exact same.map _

theorem leavesAll_perm {ts us : List (QueryTree String)} (same : ts.Perm us) :
    (QueryTree.leavesAll ts).Perm (QueryTree.leavesAll us) := by
  rw [QueryTree.leavesAll_eq_flatMap, QueryTree.leavesAll_eq_flatMap]
  exact same.flatMap_right _

/-- The clauses of the members of a group are the written forms of trees, groups before terms, and
the trees hold as the members do. -/
structure WritesMembers (conjunction : Conjunction) (es : List Expression)
    (groups terms : List Clause) (gs ts : List (QueryTree String)) : Prop where
  groups : List.Forall₂ Writes groups gs
  terms : List.Forall₂ Writes (terms.map (Flattening.under conjunction)) ts
  holds : ∀ truth, (QueryTree.signedBodies truth (gs ++ ts)).Perm
    ((readings Conjunction.written (termTruth truth) es).map (signedMember conjunction))
  leaves : (QueryTree.leavesAll (gs ++ ts)).Perm (textsAll es)

/-- A body without a sign that is the written form of a tree. -/
def WritesBody (c : Clause) (t : QueryTree String) : Prop :=
  Writes c t ∧ t.sign = none

/-- Members that are trees make a body that is one. -/
theorem WritesMembers.body {conjunction : Conjunction} {es : List Expression}
    {groups terms : List Clause} {gs ts : List (QueryTree String)}
    (writes : WritesMembers conjunction es groups terms gs ts) :
    ∃ t, Option.Rel WritesBody (untargeted.bodyOf conjunction groups terms) t ∧
      (∀ truth, t.map (QueryTree.bodyHolds truth) =
        conjunction.written (readings Conjunction.written (termTruth truth) es)) ∧
      (QueryTree.leavesAll t.toList).Perm (textsAll es) := by
  have all : List.Forall₂ Writes (groups ++ terms.map (Flattening.under conjunction)) (gs ++ ts) :=
    List.rel_append writes.groups writes.terms
  rw [untargeted_bodyOf]
  split
  · next empty =>
    rw [empty, List.forall₂_nil_left_iff] at all
    refine ⟨none, .none, fun truth => ?_, ?_⟩
    · have nothing := writes.holds truth
      rw [all] at nothing
      rw [List.map_eq_nil_iff.mp nothing.nil_eq.symm, follows_written.nothing]
      rfl
    · have nothing := writes.leaves
      rw [all] at nothing
      exact nothing
  · next nonempty =>
    refine ⟨some (.list none (gs ++ ts)), .some ⟨?_, rfl⟩, fun truth => ?_, ?_⟩
    · exact congrArg ('(' :: · ++ [')']) (QueryTree.charsAll_eq all)
    · have some_left : readings Conjunction.written (termTruth truth) es ≠ [] := by
        intro empty
        have nothing := writes.holds truth
        rw [empty] at nothing
        have length := nothing.length_eq
        rw [QueryTree.signedBodies_eq_map, List.length_map, ← all.length_eq] at length
        exact nonempty (List.length_eq_zero_iff.mp length)
      rw [← clausesHold_signedMember conjunction some_left, ← clausesHold_perm (writes.holds truth)]
      rfl
    · rw [Option.toList_some, QueryTree.leavesAll_single, QueryTree.leaves]
      exact writes.leaves

section

variable {conjunction : Conjunction} {es : List Expression} {groups terms : List Clause}
  {gs ts : List (QueryTree String)}

/-- A member without a value adds no clause. -/
theorem WritesMembers.cons_blank (writes : WritesMembers conjunction es groups terms gs ts)
    {e : Expression} (nothing : ∀ truth, e.reading Conjunction.written (termTruth truth) = none)
    (empty : e.texts = []) : WritesMembers conjunction (e :: es) groups terms gs ts := by
  refine ⟨writes.groups, writes.terms, fun truth => ?_, ?_⟩
  · rw [readings, nothing truth]
    exact writes.holds truth
  · rw [textsAll, empty]
    exact writes.leaves

/-- A term adds a leaf in front of the terms. -/
theorem WritesMembers.cons_term (writes : WritesMembers conjunction es groups terms gs ts)
    {text : String} (shown : ¬Text.isBlankText text = true) :
    WritesMembers conjunction (.term text :: es) groups
      (.atom (.term (Text.trimText text)) :: terms) gs
      ((QueryTree.leaf none (Text.trimText text)).withSign (memberSign conjunction false) ::
        ts) := by
  have term := writes_under conjunction (writes_term (Text.trimText text)) rfl
  refine ⟨writes.groups, .cons term writes.terms, fun truth => ?_, ?_⟩
  · have value : readings Conjunction.written (termTruth truth) (.term text :: es) =
        (false, truth (Text.trimText text)) ::
          readings Conjunction.written (termTruth truth) es := by
      rw [readings, reading, termTruth, if_neg shown]
      rfl
    refine (signedBodies_perm truth List.perm_middle).trans ?_
    rw [value, List.map_cons, signedMember_plain, QueryTree.signedBodies, QueryTree.sign_withSign,
      QueryTree.bodyHolds_withSign]
    exact (writes.holds truth).cons _
  · refine (leavesAll_perm List.perm_middle).trans ?_
    rw [textsAll, texts, if_neg shown, QueryTree.leavesAll, QueryTree.leaves_withSign]
    exact writes.leaves.append_left _

/-- A group adds a tree in front of the groups, behind a sign. -/
theorem WritesMembers.cons_group (writes : WritesMembers conjunction es groups terms gs ts)
    {e : Expression} {c : Clause} {t : QueryTree String} (form : WritesBody c t)
    (value : ∀ truth, e.reading Conjunction.written (termTruth truth) =
      some (e.isNegated ^^ t.bodyHolds truth))
    (within : t.leaves.Perm e.texts) :
    WritesMembers conjunction (e :: es)
      (Flattening.nestedMember conjunction e.isNegated c :: groups) terms
      (t.withSign (memberSign conjunction e.isNegated) :: gs) ts := by
  have group := writes_nestedMember conjunction e.isNegated form.1 form.2
  refine ⟨.cons group writes.groups, writes.terms, fun truth => ?_, ?_⟩
  · have first : readings Conjunction.written (termTruth truth) (e :: es) =
        (e.isNegated, e.isNegated ^^ t.bodyHolds truth) ::
          readings Conjunction.written (termTruth truth) es := by
      rw [readings, value truth]
      rfl
    rw [first, List.map_cons, signedMember_nested, List.cons_append, QueryTree.signedBodies,
      QueryTree.sign_withSign, QueryTree.bodyHolds_withSign]
    exact (writes.holds truth).cons _
  · rw [List.cons_append, QueryTree.leavesAll, QueryTree.leaves_withSign, textsAll]
    exact within.append writes.leaves

end

/-- The members of a group are written as trees that hold as the members do. -/
theorem members_written (conjunction : Conjunction) (es : List Expression)
    (plain : areUnescaped es = true) :
    ∃ groups terms gs ts, untargeted.members conjunction false es = .ok (groups, terms) ∧
      WritesMembers conjunction es groups terms gs ts := by
  cases es with
  | nil => exact ⟨[], [], [], [], rfl, .nil, .nil, fun truth => .nil, .nil⟩
  | cons e rest =>
    rw [areUnescaped, Bool.and_eq_true] at plain
    obtain ⟨groups, terms, gs, ts, read, writes⟩ := members_written conjunction rest plain.2
    cases e with
    | term text =>
      rw [Flattening.members, read, literal_untargeted]
      by_cases blank : Text.isBlankText text = true
      · rw [if_pos blank]
        refine ⟨groups, terms, gs, ts, rfl, writes.cons_blank (fun truth => ?_) ?_⟩
        · rw [reading, termTruth, if_pos blank]
        · rw [texts, if_pos blank]
      · rw [if_neg blank]
        exact ⟨groups, _, gs, _, rfl, writes.cons_term blank⟩
    | group c negated escaped children =>
      have own := plain.1
      rw [isUnescaped, Bool.and_eq_true, Bool.not_eq_true'] at own
      obtain ⟨rfl, own⟩ := own
      obtain ⟨groups', terms', gs', ts', read', writes'⟩ := members_written c children own
      obtain ⟨t, body, value, within⟩ := writes'.body
      rw [Flattening.members, if_neg (by decide), Flattening.groupBody, read, read']
      dsimp only
      generalize untargeted.bodyOf c groups' terms' = o at body
      cases body with
      | none =>
        refine ⟨groups, terms, gs, ts, rfl, writes.cons_blank (fun truth => ?_) ?_⟩
        · rw [reading, ← value truth]
          rfl
        · exact within.nil_eq.symm
      | @some c' t form =>
        rw [Option.toList_some, QueryTree.leavesAll_single] at within
        refine ⟨_, terms, _, ts, rfl, writes.cons_group form (fun truth => ?_) within⟩
        rw [reading, ← value truth]
        rfl

/-- Unescaped keys are written as a tree over their terms, which holds as the keys do as they are
written. -/
theorem clause_written (conjunction : Conjunction) (negated : Bool) (children : List Expression)
    (plain : areUnescaped children = true) :
    ∃ query t, untargeted.clause (.group conjunction negated false children) = .ok query ∧
      Option.Rel Writes query t ∧
      (∀ truth, t.map (QueryTree.holds truth) =
        (group conjunction negated false children).reading Conjunction.written (termTruth truth)) ∧
      (QueryTree.leavesAll t.toList).Perm (textsAll children) := by
  obtain ⟨groups, terms, gs, ts, read, writes⟩ := members_written conjunction children plain
  obtain ⟨t, body, value, within⟩ := writes.body
  rw [Flattening.clause, Flattening.groupBody, read]
  dsimp only
  generalize untargeted.bodyOf conjunction groups terms = o at body
  cases body with
  | none =>
    refine ⟨none, none, rfl, .none, fun truth => ?_, within⟩
    rw [reading, ← value truth]
    rfl
  | @some c t form =>
    refine ⟨_, some (t.withSign (if negated then some .mustNot else some .must)), rfl, .some ?_,
      fun truth => ?_, ?_⟩
    · unfold Writes
      rw [QueryTree.chars_withSign bareLeaf form.2, ← form.1]
      cases negated <;> rfl
    · rw [reading, ← value truth, Option.map_some, Option.map_some, Option.map_some,
        QueryTree.holds, QueryTree.sign_withSign, QueryTree.bodyHolds_withSign]
      cases negated <;> cases t.bodyHolds truth <;> rfl
    · rw [Option.toList_some, QueryTree.leavesAll_single] at within ⊢
      rwa [QueryTree.leaves_withSign]

/-- The text of a query, which is empty where there is none. -/
def queryText (query : Option (QueryTree String)) : String :=
  String.ofList ((query.map (QueryTree.chars bareLeaf)).getD [])

/-- Keys without fields are written as a tree whose value is theirs. -/
theorem compile_written (conjunction : Conjunction) (negated : Bool) (children : List Expression)
    (plain : areUnescaped children = true) :
    ∃ query, compile (.group conjunction negated false children) [] .terms = .ok (queryText query) ∧
      (∀ truth, query.map (QueryTree.holds truth) =
        (group conjunction negated false children).reading Conjunction.written (termTruth truth)) ∧
      (QueryTree.leavesAll query.toList).Perm (textsAll children) := by
  obtain ⟨c, t, made, writes, holds, within⟩ := clause_written conjunction negated children plain
  refine ⟨t, ?_, holds, within⟩
  unfold untargeted at made
  rw [compile, Flattening.compile, made]
  cases writes with
  | none => rfl
  | some form => exact congrArg (fun cs => Except.ok (String.ofList cs)) form

theorem grouped_eq_group (adjacent : Conjunction) {e : Expression} (plain : e.isUnescaped = true) :
    ∃ conjunction negated children, grouped adjacent e = .group conjunction negated false children ∧
      areUnescaped children = true := by
  cases e with
  | term text => exact ⟨adjacent, false, [.term text], rfl, rfl⟩
  | group conjunction negated escaped children =>
    rw [isUnescaped, Bool.and_eq_true, Bool.not_eq_true'] at plain
    obtain ⟨rfl, plain⟩ := plain
    exact ⟨conjunction, negated, children, rfl, plain⟩

/-- Typed text that is read as keys becomes a query over its terms. The query holds as the keys do
as they are written; it holds as the text is meant, by any derivation of its tokens, if no negated
alternative stands beside another one, and for distinct terms only then. -/
theorem parse_compile_meaning (input : String) (adjacent : Conjunction) (keys : Expression)
    (read : parse input .terms adjacent = .ok (some keys)) :
    ∃ tokens, lex input = .ok tokens ∧ (∃ a : Alternatives, bare tokens = a.tokens) ∧
      ∃ query : Option (QueryTree String),
        compile keys [] .terms = .ok (queryText query) ∧
        (QueryTree.leavesAll query.toList).Perm keys.texts ∧
        (∀ truth, query.map (QueryTree.holds truth) =
          keys.reading Conjunction.written (termTruth truth)) ∧
        ∀ a : Alternatives, bare tokens = a.tokens →
          (keys.hasNegatedAlternative = false →
            ∀ truth, query.map (QueryTree.holds truth) = a.value? adjacent (termTruth truth)) ∧
          (keys.texts.Nodup →
            (∀ truth, query.map (QueryTree.holds truth) = a.value? adjacent (termTruth truth)) →
            keys.hasNegatedAlternative = false) := by
  obtain ⟨shown, tokens, cut, a, spelled, derived⟩ := (parse_iff input adjacent keys).mp read
  have plain : (a.expression adjacent).isUnescaped = true :=
    isUnescaped_combine .or (a.members_unescaped adjacent)
  obtain ⟨conjunction, negated, children, group, inside⟩ := grouped_eq_group adjacent plain
  obtain ⟨query, made, holds, within⟩ := compile_written conjunction negated children inside
  rw [← group, ← derived] at made holds
  have texts : keys.texts = textsAll children := by
    rw [derived, group, Expression.texts]
  rw [← texts] at within
  refine ⟨tokens, cut, ⟨a, spelled⟩, query, made, within, holds, fun other same => ?_⟩
  have again := (parse_iff input adjacent _).mpr ⟨shown, tokens, cut, other, same, rfl⟩
  have agree : keys = grouped adjacent (other.expression adjacent) :=
    Option.some.inj (Except.ok.inj (read.symm.trans again))
  have meant : ∀ truth, other.value? adjacent (termTruth truth) =
      keys.reading Conjunction.meant (termTruth truth) := by
    intro truth
    rw [agree, other.value?_eq]
  constructor
  · intro unmixed truth
    rw [holds truth, meant truth, reading_written truth keys unmixed]
  · intro distinct kept
    rw [← reading_written_iff keys distinct]
    intro truth
    rw [← holds truth, ← meant truth, kept truth]

/-- A term, and not one of two others. -/
def nested : Alternatives :=
  .single (.adjacent (.term "a")
    (.single (.not (.group (.or (.single (.term "b")) (.single (.single (.term "c"))))))))

def nestedKeys : Expression :=
  .group .and false false [.term "a", .group .or true false [.term "b", .term "c"]]

/-- A negated choice beside a term: what is sent, and what it means. -/
theorem parse_compile_meaning_nested :
    parse "a -(b OR c)" .terms .and = .ok (some nestedKeys) ∧
      compile nestedKeys [] .terms = .ok "+(-(b c) +a)" ∧
      ∃ query : Option (QueryTree String),
        "+(-(b c) +a)" = queryText query ∧
        ∀ truth, query.map (QueryTree.holds truth) =
          some (truth "a" && !(truth "b" || truth "c")) := by
  have cut : lex "a -(b OR c)" = .ok [⟨.term "a", 0⟩, ⟨.not, 2⟩, ⟨.opening, 3⟩,
      ⟨.term "b", 4⟩, ⟨.or, 6⟩, ⟨.term "c", 9⟩, ⟨.closing, 10⟩] := by
    have blanks : Text.isBlank ' ' = true ∧ Text.isBlank '-' = false ∧ Text.isBlank '(' = false ∧
        Text.isBlank ')' = false ∧ Text.isBlank 'a' = false ∧ Text.isBlank 'b' = false ∧
        Text.isBlank 'c' = false ∧ Text.isBlank 'O' = false ∧ Text.isBlank 'R' = false := by
      decide
    simp [lex, lexFrom_cons, lexFrom_nil, bytes, wordToken, inWord, blanks]
    decide
  have read : parse "a -(b OR c)" .terms .and = .ok (some nestedKeys) :=
    (parse_iff _ _ _).mpr ⟨by decide, _, cut, nested, rfl, rfl⟩
  have text : compile nestedKeys [] .terms = .ok "+(-(b c) +a)" := by
    decide +kernel
  obtain ⟨tokens, found, -, query, made, -, -, meaning⟩ := parse_compile_meaning _ _ _ read
  cases Except.ok.inj (cut.symm.trans found)
  refine ⟨read, text, query, Except.ok.inj (text.symm.trans made), fun truth => ?_⟩
  have plain : nestedKeys.hasNegatedAlternative = false := by decide +kernel
  rw [(meaning nested rfl).1 plain truth]
  have first : termTruth truth "a" = some (truth "a") := by rfl
  have second : termTruth truth "b" = some (truth "b") := by rfl
  have third : termTruth truth "c" = some (truth "c") := by rfl
  simp only [nested, Alternatives.value?, Alternatives.values, Sequence.values, Unary.value?, first,
    second, third]
  cases truth "a" <;> cases truth "b" <;> cases truth "c" <;> rfl

/-- A term, or not another. -/
def mixed : Alternatives :=
  .or (.single (.term "a")) (.single (.single (.not (.term "b"))))

def mixedKeys : Expression :=
  .group .or false false [.term "a", .group .and true false [.term "b"]]

/-- Where neither term holds, the text is meant to hold and its query does not. -/
theorem negated_alternative_required :
    parse "a OR -b" .terms .and = .ok (some mixedKeys) ∧
      compile mixedKeys [] .terms = .ok "+(-(+b) a)" ∧
      (∃ tokens, lex "a OR -b" = .ok tokens ∧ bare tokens = mixed.tokens) ∧
      mixed.value? .and (termTruth fun _ => false) = some true ∧
      ∃ query : Option (QueryTree String), "+(-(+b) a)" = queryText query ∧
        query.map (QueryTree.holds fun _ => false) = some false := by
  have cut : lex "a OR -b" = .ok [⟨.term "a", 0⟩, ⟨.or, 2⟩, ⟨.not, 5⟩, ⟨.term "b", 6⟩] := by
    have blanks : Text.isBlank ' ' = true ∧ Text.isBlank '-' = false ∧ Text.isBlank 'a' = false ∧
        Text.isBlank 'b' = false ∧ Text.isBlank 'O' = false ∧ Text.isBlank 'R' = false := by
      decide
    simp [lex, lexFrom_cons, lexFrom_nil, bytes, wordToken, inWord, blanks]
    decide
  have read : parse "a OR -b" .terms .and = .ok (some mixedKeys) :=
    (parse_iff _ _ _).mpr ⟨by decide, _, cut, mixed, rfl, rfl⟩
  have text : compile mixedKeys [] .terms = .ok "+(-(+b) a)" := by
    decide +kernel
  obtain ⟨query, made, holds, -⟩ := compile_written .or false
    [.term "a", .group .and true false [.term "b"]] rfl
  refine ⟨read, text, ⟨_, cut, rfl⟩, by decide +kernel, query,
    Except.ok.inj (text.symm.trans made), ?_⟩
  rw [holds]
  decide +kernel

end SearchCompiler.Keys
