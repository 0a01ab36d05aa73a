import SearchCompiler.Proofs.Keys.Grammar

/-!
# Two readings of keys

Keys are read in two ways that differ in alternatives only. As they are meant, alternatives hold
when one of them does. As they are written, a negated alternative becomes a clause with a minus, and
all of these have to hold besides one of the others.

The first reading is that of the grammar (`Alternatives.value?_eq`). The second is the first
wherever no negated alternative stands beside another (`reading_written`), and for keys with
distinct terms nowhere else (`reading_written_iff`).
-/

namespace SearchCompiler

namespace Conjunction

/-- The value of members as they are meant, given for each whether it is negated and its value. -/
def meant (conjunction : Conjunction) (members : List (Bool × Bool)) : Option Bool :=
  conjunction.value? (members.map Prod.snd)

/-- The value of members as they are written: among alternatives, every negated one has to hold, and
so has one of the others, if there are any. -/
def written : Conjunction → List (Bool × Bool) → Option Bool
  | _, [] => none
  | .and, m :: ms => some ((m :: ms).all Prod.snd)
  | .or, m :: ms =>
    some ((m :: ms).all (fun m => !m.1 || m.2) &&
      ((m :: ms).all Prod.fst || (m :: ms).any fun m => !m.1 && m.2))

theorem value?_append (conjunction : Conjunction) (xs ys : List Bool) :
    conjunction.value? ((conjunction.value? xs).toList ++ ys) = conjunction.value? (xs ++ ys) := by
  cases xs with
  | nil => rfl
  | cons x xs => cases conjunction <;> simp [value?, Bool.and_assoc, Bool.or_assoc]

theorem value?_append_right (conjunction : Conjunction) (xs ys : List Bool) :
    conjunction.value? (xs ++ ys) = conjunction.value? (xs ++ (conjunction.value? ys).toList) := by
  cases ys with
  | nil => rfl
  | cons y ys => cases xs <;> cases conjunction <;> simp [value?]

theorem value?_single (conjunction : Conjunction) (x : Bool) :
    conjunction.value? [x] = some x := by
  cases conjunction <;> simp [value?]

/-- The value of members that decide nothing. -/
def neutral : Conjunction → Bool
  | .and => true
  | .or => false

/-- Members that decide nothing leave the decision to a single one. -/
theorem value?_neutral {conjunction : Conjunction} {before behind : List Bool}
    (rest : ∀ value ∈ before ++ behind, value = conjunction.neutral) (value : Bool) :
    conjunction.value? (before ++ value :: behind) = some value := by
  have nonempty : before ++ value :: behind ≠ [] := by simp
  have joined := conjunction.value?_map id nonempty
  rw [List.map_id] at joined
  rw [joined]
  have first := fun x among => rest x (List.mem_append_left behind among)
  have last := fun x among => rest x (List.mem_append_right before among)
  cases conjunction with
  | and =>
    have left : before.all id = true := List.all_eq_true.mpr first
    have right : behind.all id = true := List.all_eq_true.mpr last
    simp only [List.all_append, List.all_cons, left, right, Bool.true_and, Bool.and_true, id]
  | or =>
    have left : before.any id = false :=
      List.any_eq_false.mpr fun x among => by rw [first x among]; exact Bool.false_ne_true
    have right : behind.any id = false :=
      List.any_eq_false.mpr fun x among => by rw [last x among]; exact Bool.false_ne_true
    simp only [List.any_append, List.any_cons, left, right, Bool.false_or, Bool.or_false, id]

theorem written_or_fails {members : List (Bool × Bool)} (member : (true, false) ∈ members) :
    Conjunction.or.written members = some false := by
  obtain ⟨m, ms, rfl⟩ := List.exists_cons_of_ne_nil (List.ne_nil_of_mem member)
  have fails : (m :: ms).all (fun m => !m.1 || m.2) = false :=
    List.all_eq_false.mpr ⟨_, member, Bool.false_ne_true⟩
  rw [written, fails, Bool.false_and]

theorem meant_or_holds {members : List (Bool × Bool)} {negated : Bool}
    (member : (negated, true) ∈ members) : Conjunction.or.meant members = some true := by
  rw [meant, Conjunction.or.value?_map Prod.snd (List.ne_nil_of_mem member), Option.some_inj]
  exact List.any_eq_true.mpr ⟨_, member, rfl⟩

/-- Both readings agree unless a negated alternative stands beside another. -/
theorem written_eq_meant {conjunction : Conjunction} {members : List (Bool × Bool)}
    (plain : conjunction = .or → 2 ≤ members.length → ∀ m ∈ members, m.1 = false) :
    conjunction.written members = conjunction.meant members := by
  cases members with
  | nil => rfl
  | cons m ms =>
    cases conjunction with
    | and => simp [written, meant, value?]
    | or =>
      cases ms with
      | nil => obtain ⟨_ | _, _ | _⟩ := m <;> rfl
      | cons n ms =>
        have unsigned := plain rfl (by simp)
        have every : (m :: n :: ms).all (fun m => !m.1 || m.2) = true := by
          rw [List.all_eq_true]
          intro x among
          simp [unsigned x among]
        have first : (m :: n :: ms).all Prod.fst = false := by
          simp [unsigned m List.mem_cons_self]
        have held : (m :: n :: ms).any (fun m => !m.1 && m.2) = (m :: n :: ms).any Prod.snd :=
          any_and_eq fun x among => by rw [unsigned x among, Bool.not_false]
        rw [written, every, first, held]
        simp [meant, value?]

end Conjunction

namespace Keys

/-- The truth of a term: that of its trimmed text, unless it is blank. -/
def termTruth (truth : String → Bool) (text : String) : Option Bool :=
  if Text.isBlankText text then none else some (truth (Text.trimText text))

namespace Expression

def isNegated : Expression → Bool
  | .term _ => false
  | .group _ negated _ _ => negated

variable (join : Conjunction → List (Bool × Bool) → Option Bool)

mutual

/-- The value of keys, given what the members of a group amount to and the truth of terms. -/
def reading (truth : String → Option Bool) : Expression → Option Bool
  | .term text => truth text
  | .group conjunction negated _ children =>
    (join conjunction (readings truth children)).map (negated ^^ ·)

/-- Which of the members with a value are negated, and their values. -/
def readings (truth : String → Option Bool) : List Expression → List (Bool × Bool)
  | [] => []
  | e :: rest => ((e.reading truth).map (e.isNegated, ·)).toList ++ readings truth rest

end

theorem reading_plain (truth : String → Option Bool) (conjunction : Conjunction) (escaped : Bool)
    (es : List Expression) :
    (group conjunction false escaped es).reading join truth =
      join conjunction (readings join truth es) := by
  rw [reading]
  cases join conjunction (readings join truth es) with
  | none => rfl
  | some value => rw [Option.map_some, Bool.false_xor]

theorem readings_values (truth : String → Option Bool) (es : List Expression) :
    (readings join truth es).map Prod.snd = es.filterMap (reading join truth) := by
  induction es with
  | nil => rfl
  | cons e rest ih =>
    rw [readings, List.map_append, ih, List.filterMap_cons]
    cases e.reading join truth <;> rfl

end Expression

open Expression

section

variable (truth : String → Option Bool)

/-- Negating keys negates their value. -/
theorem reading_negate (e : Expression) :
    e.negate.reading Conjunction.meant truth = (e.reading Conjunction.meant truth).map (!·) := by
  cases e with
  | term text =>
    simp only [negate, reading, readings, isNegated]
    cases truth text <;> simp [Conjunction.meant, Conjunction.value?]
  | group conjunction negated escaped children =>
    rw [negate, reading, reading, Option.map_map]
    congr 1
    funext value
    cases negated <;> cases value <;> rfl

/-- A group of one term has the value of the term. -/
theorem reading_grouped (conjunction : Conjunction) (e : Expression) :
    (grouped conjunction e).reading Conjunction.meant truth =
      e.reading Conjunction.meant truth := by
  cases e with
  | term text =>
    simp only [grouped, reading, readings, isNegated]
    cases truth text with
    | none => rfl
    | some value => simp [Conjunction.meant, Conjunction.value?_single]
  | group => rfl

/-- Dissolving the groups of the same conjunction does not change what members amount to. -/
theorem value?_membersUnder (conjunction : Conjunction) (e : Expression) (values : List Bool) :
    conjunction.value?
        ((membersUnder conjunction e).filterMap (reading Conjunction.meant truth) ++ values) =
      conjunction.value? ((e.reading Conjunction.meant truth).toList ++ values) := by
  cases e with
  | term text =>
    rw [membersUnder, List.filterMap_cons, List.filterMap_nil]
    cases reading Conjunction.meant truth (.term text) <;> rfl
  | group c negated escaped children =>
    rw [membersUnder]
    split
    · next same =>
      simp only [Bool.and_eq_true, Bool.not_eq_true', beq_iff_eq] at same
      obtain ⟨⟨rfl, -⟩, rfl⟩ := same
      rw [reading_plain, Conjunction.meant, readings_values, Conjunction.value?_append]
    · rw [List.filterMap_cons, List.filterMap_nil]
      cases reading Conjunction.meant truth (.group c negated escaped children) <;> rfl

/-- Groups that dissolve into the one around them keep its value. -/
theorem value?_flatMap_membersUnder (conjunction : Conjunction) (es : List Expression) :
    conjunction.value?
        ((es.flatMap (membersUnder conjunction)).filterMap (reading Conjunction.meant truth)) =
      conjunction.value? (es.filterMap (reading Conjunction.meant truth)) := by
  induction es with
  | nil => rfl
  | cons e rest ih =>
    have split : (e :: rest).filterMap (reading Conjunction.meant truth) =
        (e.reading Conjunction.meant truth).toList ++
          rest.filterMap (reading Conjunction.meant truth) := by
      rw [List.filterMap_cons]
      cases e.reading Conjunction.meant truth <;> rfl
    rw [List.flatMap_cons, List.filterMap_append, value?_membersUnder, split,
      conjunction.value?_append_right, ih, ← conjunction.value?_append_right]

/-- What siblings amount to when they are combined. -/
theorem reading_combine (conjunction : Conjunction) (es : List Expression) :
    (combine conjunction es).reading Conjunction.meant truth =
      conjunction.value? (es.filterMap (reading Conjunction.meant truth)) := by
  unfold combine
  split
  · next single =>
    rw [List.filterMap_cons, List.filterMap_nil]
    cases single.reading Conjunction.meant truth with
    | none => rfl
    | some value => exact (conjunction.value?_single value).symm
  · next several =>
    rw [reading_plain, Conjunction.meant, readings_values, value?_flatMap_membersUnder]

mutual

/-- The keys of alternatives are worth what the alternatives are. -/
theorem Alternatives.values_eq (adjacent : Conjunction) (a : Alternatives) :
    a.values adjacent truth = (a.members adjacent).filterMap (reading Conjunction.meant truth) := by
  cases a with
  | single s =>
    rw [Alternatives.values, Alternatives.members, List.filterMap_cons, reading_combine,
      s.values_eq adjacent, List.filterMap_nil]
    cases adjacent.value? _ <;> rfl
  | or s rest =>
    rw [Alternatives.values, Alternatives.members, List.filterMap_cons, reading_combine,
      s.values_eq adjacent, rest.values_eq adjacent]
    cases adjacent.value? _ <;> rfl

theorem Sequence.values_eq (adjacent : Conjunction) (s : Sequence) :
    s.values adjacent truth = (s.members adjacent).filterMap (reading Conjunction.meant truth) := by
  cases s with
  | single u =>
    rw [Sequence.values, Sequence.members, List.filterMap_cons, u.value?_eq adjacent,
      List.filterMap_nil]
    cases reading Conjunction.meant truth _ <;> rfl
  | adjacent u rest =>
    rw [Sequence.values, Sequence.members, List.filterMap_cons, u.value?_eq adjacent,
      rest.values_eq adjacent]
    cases reading Conjunction.meant truth _ <;> rfl

theorem Unary.value?_eq (adjacent : Conjunction) (u : Unary) :
    u.value? adjacent truth = (u.expression adjacent).reading Conjunction.meant truth := by
  cases u with
  | term text => rfl
  | phrase text => rfl
  | not u => rw [Unary.value?, Unary.expression, reading_negate, u.value?_eq adjacent]
  | group inside =>
    rw [Unary.value?, Unary.expression, reading_grouped, reading_combine, inside.values_eq adjacent]

end

/-- The keys of alternatives are meant as the alternatives are. -/
theorem Alternatives.value?_eq (adjacent : Conjunction) (a : Alternatives) :
    a.value? adjacent truth =
      (grouped adjacent (a.expression adjacent)).reading Conjunction.meant truth := by
  rw [Alternatives.value?, a.values_eq, reading_grouped, Alternatives.expression, reading_combine]

end

namespace Expression

/-- Whether a negated member stands beside another one; blank members do not count. -/
def negatedBeside (members : List Expression) : Bool :=
  let shown := members.filter fun e => !e.isBlank
  2 ≤ shown.length && shown.any isNegated

mutual

/-- Whether a negated alternative stands beside another one anywhere in keys. -/
def hasNegatedAlternative : Expression → Bool
  | .term _ => false
  | .group conjunction _ _ children =>
    (conjunction == .or && negatedBeside children) || haveNegatedAlternative children

def haveNegatedAlternative : List Expression → Bool
  | [] => false
  | e :: rest => e.hasNegatedAlternative || haveNegatedAlternative rest

end

mutual

/-- The trimmed texts of the terms that are not blank. -/
def texts : Expression → List String
  | .term text => if Text.isBlankText text then [] else [Text.trimText text]
  | .group _ _ _ children => textsAll children

def textsAll : List Expression → List String
  | [] => []
  | e :: rest => e.texts ++ textsAll rest

end

end Expression

theorem mem_textsAll {es : List Expression} {e : Expression} (member : e ∈ es) {text : String}
    (among : text ∈ e.texts) : text ∈ textsAll es := by
  induction es with
  | nil => cases member
  | cons first rest ih =>
    rw [textsAll, List.mem_append]
    rcases List.mem_cons.mp member with rfl | other
    · exact .inl among
    · exact .inr (ih other)

/-- A join of members that follows them: there is a value as soon as there are members, and it is
theirs when all have the same. -/
structure Follows (join : Conjunction → List (Bool × Bool) → Option Bool) : Prop where
  nothing : ∀ conjunction, join conjunction [] = none
  something : ∀ conjunction {members}, members ≠ [] → (join conjunction members).isSome = true
  unanimous : ∀ conjunction {members value}, members ≠ [] → (∀ m ∈ members, m.2 = value) →
    join conjunction members = some value

theorem follows_meant : Follows Conjunction.meant where
  nothing _ := rfl
  something conjunction members nonempty := by
    obtain ⟨m, ms, rfl⟩ := List.exists_cons_of_ne_nil nonempty
    rfl
  unanimous conjunction members value nonempty same := by
    have values : members.map Prod.snd = members.map fun _ => value := List.map_congr_left same
    rw [Conjunction.meant, values, conjunction.value?_map _ nonempty]
    obtain ⟨m, ms, rfl⟩ := List.exists_cons_of_ne_nil nonempty
    cases conjunction <;> cases value <;> simp

/-- The value of members as they are written is theirs when all of them agree. -/
theorem follows_written : Follows Conjunction.written where
  nothing conjunction := by cases conjunction <;> rfl
  something conjunction members nonempty := by
    obtain ⟨m, ms, rfl⟩ := List.exists_cons_of_ne_nil nonempty
    cases conjunction <;> rfl
  unanimous conjunction members value nonempty same := by
    obtain ⟨m, ms, rfl⟩ := List.exists_cons_of_ne_nil nonempty
    have first : m.2 = value := same m List.mem_cons_self
    cases conjunction with
    | and =>
      rw [Conjunction.written, Option.some_inj]
      cases value with
      | false => simp [first]
      | true => exact List.all_eq_true.mpr same
    | or =>
      rw [Conjunction.written, Option.some_inj]
      cases value with
      | false =>
        have held : (m :: ms).any (fun m => !m.1 && m.2) = false := by
          rw [List.any_eq_false]
          intro x among
          simp [same x among]
        rw [held, Bool.or_false]
        cases sign : m.1 <;> simp [first, sign]
      | true =>
        have every : (m :: ms).all (fun m => !m.1 || m.2) = true := by
          rw [List.all_eq_true]
          intro x among
          rw [same x among, Bool.or_true]
        rw [every, Bool.true_and, Bool.or_eq_true]
        cases negated : (m :: ms).all Prod.fst with
        | true => exact .inl rfl
        | false =>
          right
          obtain ⟨x, among, plain⟩ := List.all_eq_false.mp negated
          rw [List.any_eq_true]
          exact ⟨x, among, by simp [same x among, plain]⟩

variable {join : Conjunction → List (Bool × Bool) → Option Bool}

mutual

/-- Keys have a value unless they are blank. -/
theorem reading_isNone (follows : Follows join) (truth : String → Bool) (e : Expression) :
    (e.reading join (termTruth truth)).isNone = e.isBlank := by
  cases e with
  | term text =>
    rw [reading, termTruth, isBlank]
    cases Text.isBlankText text <;> rfl
  | group conjunction negated escaped children =>
    rw [reading, isBlank, Option.isNone_map, ← readings_isEmpty follows truth children]
    cases readings join (termTruth truth) children with
    | nil => rw [follows.nothing]; rfl
    | cons m ms =>
      rw [← Option.not_isSome, follows.something conjunction (List.cons_ne_nil m ms)]
      rfl

theorem readings_isEmpty (follows : Follows join) (truth : String → Bool) (es : List Expression) :
    (readings join (termTruth truth) es).isEmpty = areBlank es := by
  cases es with
  | nil => rfl
  | cons e rest =>
    rw [readings, areBlank, ← readings_isEmpty follows truth rest, ← reading_isNone follows truth e]
    cases e.reading join (termTruth truth) <;> rfl

end

mutual

/-- The value of keys depends on the truth of their own terms only. -/
theorem reading_congr {truth other : String → Bool} (e : Expression)
    (agree : ∀ text ∈ e.texts, truth text = other text) :
    e.reading join (termTruth truth) = e.reading join (termTruth other) := by
  cases e with
  | term text =>
    rw [reading, reading, termTruth, termTruth]
    split
    · rfl
    · next shown => rw [agree _ (by simp [texts, shown])]
  | group conjunction negated escaped children =>
    rw [reading, reading, readings_congr children agree]

/-- The value of keys depends on the texts of their terms alone. -/
theorem readings_congr {truth other : String → Bool} (es : List Expression)
    (agree : ∀ text ∈ textsAll es, truth text = other text) :
    readings join (termTruth truth) es = readings join (termTruth other) es := by
  cases es with
  | nil => rfl
  | cons e rest =>
    rw [textsAll] at agree
    rw [List.forall_mem_append] at agree
    rw [readings, readings, reading_congr e agree.1, readings_congr rest agree.2]

end

theorem readings_eq_filterMap (truth : String → Option Bool) (es : List Expression) :
    readings join truth es =
      es.filterMap fun e => (e.reading join truth).map fun value => (e.isNegated, value) := by
  induction es with
  | nil => rfl
  | cons e rest ih =>
    rw [readings, ih, List.filterMap_cons]
    cases e.reading join truth <;> rfl

theorem mem_readings {truth : String → Option Bool} {es : List Expression} {m : Bool × Bool} :
    m ∈ readings join truth es ↔
      ∃ e ∈ es, e.isNegated = m.1 ∧ e.reading join truth = some m.2 := by
  rw [readings_eq_filterMap, List.mem_filterMap]
  constructor
  · rintro ⟨e, among, made⟩
    obtain ⟨value, read, rfl⟩ := Option.map_eq_some_iff.mp made
    exact ⟨e, among, rfl, read⟩
  · rintro ⟨e, among, negated, read⟩
    exact ⟨e, among, by rw [read, Option.map_some, negated]⟩

theorem readings_length (follows : Follows join) (truth : String → Bool) (es : List Expression) :
    (readings join (termTruth truth) es).length = (es.filter fun e => !e.isBlank).length := by
  induction es with
  | nil => rfl
  | cons e rest ih =>
    rw [readings, List.length_append, ih, List.filter_cons, ← reading_isNone follows truth e]
    cases e.reading join (termTruth truth) <;> simp [Nat.add_comm]

theorem readings_plain (follows : Follows join) {truth : String → Bool} {es : List Expression}
    (plain : negatedBeside es = false) (several : 2 ≤ (readings join (termTruth truth) es).length) :
    ∀ m ∈ readings join (termTruth truth) es, m.1 = false := by
  intro m member
  obtain ⟨e, among, negated, value⟩ := mem_readings.mp member
  rw [readings_length follows] at several
  have shown : e.isBlank = false := by
    rw [← reading_isNone follows truth e, value]
    rfl
  rw [negatedBeside, decide_eq_true several, Bool.true_and, List.any_eq_false] at plain
  rw [← negated]
  exact Bool.eq_false_iff.mpr (plain e (List.mem_filter.mpr ⟨among, by rw [shown]; rfl⟩))

mutual

/-- Keys are written as they are meant unless a negated alternative stands beside another one. -/
theorem reading_written (truth : String → Bool) (e : Expression)
    (plain : e.hasNegatedAlternative = false) :
    e.reading Conjunction.written (termTruth truth) =
      e.reading Conjunction.meant (termTruth truth) := by
  cases e with
  | term text => rfl
  | group conjunction negated escaped children =>
    rw [hasNegatedAlternative, Bool.or_eq_false_iff] at plain
    have agree : conjunction.written (readings Conjunction.meant (termTruth truth) children) =
        conjunction.meant (readings Conjunction.meant (termTruth truth) children) := by
      apply Conjunction.written_eq_meant
      rintro rfl several
      exact readings_plain follows_meant plain.1 several
    rw [reading, reading, readings_written truth children plain.2, agree]

/-- Both readings agree where no negated alternative stands beside another. -/
theorem readings_written (truth : String → Bool) (es : List Expression)
    (plain : haveNegatedAlternative es = false) :
    readings Conjunction.written (termTruth truth) es =
      readings Conjunction.meant (termTruth truth) es := by
  cases es with
  | nil => rfl
  | cons e rest =>
    rw [haveNegatedAlternative, Bool.or_eq_false_iff] at plain
    rw [readings, readings, reading_written truth e plain.1, readings_written truth rest plain.2]

end

/-- Keys that are read either way have a given value. -/
def Settled (truth : String → Bool) (value : Bool) (e : Expression) : Prop :=
  e.reading Conjunction.meant (termTruth truth) = some value ∧
    e.reading Conjunction.written (termTruth truth) = some value

theorem Settled.congr {truth other : String → Bool} {value : Bool} {e : Expression}
    (settled : Settled truth value e) (agree : ∀ text ∈ e.texts, other text = truth text) :
    Settled other value e := by
  unfold Settled
  rw [reading_congr e agree, reading_congr e agree]
  exact settled

/-- Truth that is given by one assignment on some texts and by another on all others. -/
def glued (texts : List String) (truth other : String → Bool) (text : String) : Bool :=
  if text ∈ texts then truth text else other text

theorem glued_left {texts : List String} (truth other : String → Bool) :
    ∀ text ∈ texts, glued texts truth other text = truth text := by
  intro text among
  rw [glued, if_pos among]

theorem glued_right {texts others : List String} (apart : ∀ a ∈ texts, ∀ b ∈ others, a ≠ b)
    (truth other : String → Bool) : ∀ text ∈ others, glued texts truth other text = other text := by
  intro text among
  rw [glued, if_neg fun both => apart text both text among rfl]

/-- Members that have a value have the one that all are given. -/
theorem readings_settled (follows : Follows join) {truth : String → Bool} {value : Bool}
    {es : List Expression}
    (settled : ∀ e ∈ es, e.isBlank = false → e.reading join (termTruth truth) = some value) :
    ∀ m ∈ readings join (termTruth truth) es, m.2 = value := by
  intro m member
  obtain ⟨e, among, -, read⟩ := mem_readings.mp member
  have shown : e.isBlank = false := by
    rw [← reading_isNone follows truth e, read]
    rfl
  rw [settled e among shown] at read
  exact (Option.some.inj read).symm

/-- A group of members with one value has it, or its opposite if negated. -/
theorem reading_settled (follows : Follows join) {truth : String → Bool} {value : Bool}
    {conjunction : Conjunction} {negated escaped : Bool} {es : List Expression}
    (shown : areBlank es = false)
    (settled : ∀ e ∈ es, e.isBlank = false →
      e.reading join (termTruth truth) = some (negated ^^ value)) :
    (group conjunction negated escaped es).reading join (termTruth truth) = some value := by
  have nonempty : readings join (termTruth truth) es ≠ [] := by
    rw [← readings_isEmpty follows truth es] at shown
    exact List.isEmpty_eq_false_iff.mp shown
  rw [reading, follows.unanimous conjunction nonempty (readings_settled follows settled)]
  cases negated <;> cases value <;> rfl

mutual

/-- Keys with distinct terms can be given any value, in both readings at once. -/
theorem exists_settled (value : Bool) (e : Expression) (distinct : e.texts.Nodup)
    (shown : e.isBlank = false) : ∃ truth, Settled truth value e := by
  cases e with
  | term text =>
    rw [isBlank] at shown
    refine ⟨fun _ => value, ?_, ?_⟩ <;> simp [reading, termTruth, shown]
  | group conjunction negated escaped children =>
    rw [isBlank] at shown
    obtain ⟨truth, settled⟩ := exists_all_settled (negated ^^ value) children distinct
    refine ⟨truth, ?_, ?_⟩
    · exact reading_settled follows_meant shown fun e among visible => (settled e among visible).1
    · exact reading_settled follows_written shown fun e among visible => (settled e among visible).2

/-- With distinct texts, one assignment settles all members at once. -/
theorem exists_all_settled (value : Bool) (es : List Expression) (distinct : (textsAll es).Nodup) :
    ∃ truth, ∀ e ∈ es, e.isBlank = false → Settled truth value e := by
  cases es with
  | nil => exact ⟨fun _ => value, List.forall_mem_nil _⟩
  | cons e rest =>
    rw [textsAll, List.nodup_append] at distinct
    obtain ⟨own, others, apart⟩ := distinct
    obtain ⟨other, settled⟩ := exists_all_settled value rest others
    cases shown : e.isBlank with
    | true =>
      refine ⟨other, fun x among visible => ?_⟩
      rcases List.mem_cons.mp among with rfl | among
      · rw [shown] at visible
        cases visible
      · exact settled x among visible
    | false =>
      obtain ⟨truth, here⟩ := exists_settled value e own shown
      refine ⟨glued e.texts truth other, fun x among visible => ?_⟩
      rcases List.mem_cons.mp among with rfl | among
      · exact here.congr (glued_left truth other)
      · refine (settled x among visible).congr fun text within => ?_
        exact glued_right apart truth other text (mem_textsAll among within)

end

theorem textsAll_append (es others : List Expression) :
    textsAll (es ++ others) = textsAll es ++ textsAll others := by
  induction es with
  | nil => rfl
  | cons e rest ih => rw [List.cons_append, textsAll, ih, textsAll, List.append_assoc]

/-- A member can keep its value while all members beside it get a value of choice. -/
theorem exists_settled_beside {before behind : List Expression} {e : Expression}
    (distinct : (textsAll (before ++ e :: behind)).Nodup) (truth : String → Bool) (value : Bool) :
    ∃ both, (∀ text ∈ e.texts, both text = truth text) ∧
      ∀ x ∈ before ++ behind, x.isBlank = false → Settled both value x := by
  rw [textsAll_append, textsAll, (List.perm_append_comm_assoc ..).nodup_iff, ← textsAll_append,
    List.nodup_append] at distinct
  obtain ⟨-, others, apart⟩ := distinct
  obtain ⟨other, settled⟩ := exists_all_settled value (before ++ behind) others
  refine ⟨glued e.texts truth other, glued_left truth other, fun x among shown => ?_⟩
  refine (settled x among shown).congr fun text within => ?_
  exact glued_right apart truth other text (mem_textsAll among within)

/-- Members decide nothing that have the neutral value. -/
theorem meant_beside (follows : Follows join) {truth : String → Bool} {conjunction : Conjunction}
    {before behind : List Expression} {e : Expression} (shown : e.isBlank = false)
    (neutral : ∀ x ∈ before ++ behind, x.isBlank = false →
      x.reading join (termTruth truth) = some conjunction.neutral) :
    conjunction.meant (readings join (termTruth truth) (before ++ e :: behind)) =
      e.reading join (termTruth truth) := by
  have value := reading_isNone follows truth e
  rw [shown, Option.isNone_eq_false_iff, Option.isSome_iff_exists] at value
  obtain ⟨value, read⟩ := value
  have rest : ∀ v ∈ before.filterMap (reading join (termTruth truth)) ++
      behind.filterMap (reading join (termTruth truth)), v = conjunction.neutral := by
    intro v member
    rw [← List.filterMap_append, ← readings_values, List.mem_map] at member
    obtain ⟨m, among, rfl⟩ := member
    exact readings_settled follows neutral m among
  rw [Conjunction.meant, readings_values, List.filterMap_append, List.filterMap_cons, read]
  exact Conjunction.value?_neutral rest value

theorem texts_nodup {es : List Expression} (distinct : (textsAll es).Nodup) {e : Expression}
    (member : e ∈ es) : e.texts.Nodup := by
  obtain ⟨before, behind, rfl⟩ := List.append_of_mem member
  rw [textsAll_append, textsAll, List.nodup_append, List.nodup_append] at distinct
  exact distinct.2.1.1

/-- A negated alternative that does not hold is decisive as it is written, and is not as it is meant
when another alternative holds. -/
theorem exists_distinguished_beside {children : List Expression}
    (distinct : (textsAll children).Nodup) (beside : negatedBeside children = true) :
    ∃ truth,
      Conjunction.or.written (readings Conjunction.written (termTruth truth) children) =
          some false ∧
        Conjunction.or.meant (readings Conjunction.meant (termTruth truth) children) =
          some true := by
  rw [negatedBeside, Bool.and_eq_true, decide_eq_true_eq, List.any_eq_true] at beside
  obtain ⟨several, e, among, negated⟩ := beside
  obtain ⟨member, shown⟩ := List.mem_filter.mp among
  obtain ⟨truth, settled⟩ :=
    exists_settled false e (texts_nodup distinct member) (by simpa using shown)
  obtain ⟨before, behind, rfl⟩ := List.append_of_mem member
  obtain ⟨both, same, others⟩ := exists_settled_beside distinct truth true
  have fails := settled.congr same
  have other : ∃ x ∈ before ++ behind, x.isBlank = false := by
    rw [(List.perm_middle.filter _).length_eq, List.filter_cons, if_pos shown,
      List.length_cons] at several
    obtain ⟨x, among⟩ := List.exists_mem_of_length_pos (Nat.lt_of_succ_lt_succ several)
    obtain ⟨member, shown⟩ := List.mem_filter.mp among
    exact ⟨x, member, by simpa using shown⟩
  obtain ⟨x, beside, visible⟩ := other
  have among : x ∈ before ++ e :: behind :=
    List.perm_middle.mem_iff.mpr (List.mem_cons_of_mem e beside)
  refine ⟨both, ?_, ?_⟩
  · exact Conjunction.written_or_fails (mem_readings.mpr ⟨e, member, negated, fails.2⟩)
  · exact Conjunction.meant_or_holds (mem_readings.mpr ⟨x, among, rfl, (others x beside visible).1⟩)

/-- Blank keys have no value in either reading. -/
theorem isBlank_of_differ {truth : String → Bool} {e : Expression}
    (differ : e.reading Conjunction.written (termTruth truth) ≠
      e.reading Conjunction.meant (termTruth truth)) : e.isBlank = false := by
  rw [Bool.eq_false_iff]
  intro blank
  have written := reading_isNone follows_written truth e
  have meant := reading_isNone follows_meant truth e
  rw [blank, Option.isNone_iff_eq_none] at written meant
  exact differ (written.trans meant.symm)

mutual

/-- Keys with distinct terms are told apart from what is written for them wherever a negated
alternative stands beside another one. -/
theorem exists_distinguished (e : Expression) (distinct : e.texts.Nodup)
    (bad : e.hasNegatedAlternative = true) :
    ∃ truth, e.reading Conjunction.written (termTruth truth) ≠
      e.reading Conjunction.meant (termTruth truth) := by
  cases e with
  | term text => cases bad
  | group conjunction negated escaped children =>
    rw [texts] at distinct
    rw [hasNegatedAlternative] at bad
    cases beside : conjunction == .or && negatedBeside children with
    | true =>
      rw [Bool.and_eq_true, beq_iff_eq] at beside
      obtain ⟨rfl, beside⟩ := beside
      obtain ⟨truth, fails, holds⟩ := exists_distinguished_beside distinct beside
      refine ⟨truth, ?_⟩
      rw [reading, reading, fails, holds]
      cases negated <;> simp
    | false =>
      rw [beside, Bool.false_or] at bad
      obtain ⟨before, e, behind, rfl, truth, differ⟩ :=
        exists_distinguished_member children distinct bad
      -- The members beside the one that differs become neutral, so that its value is the group's.
      obtain ⟨both, same, others⟩ := exists_settled_beside distinct truth conjunction.neutral
      rw [← reading_congr e same, ← reading_congr e same] at differ
      have plain : conjunction.written
            (readings Conjunction.written (termTruth both) (before ++ e :: behind)) =
          conjunction.meant
            (readings Conjunction.written (termTruth both) (before ++ e :: behind)) := by
        apply Conjunction.written_eq_meant
        rintro rfl several
        exact readings_plain follows_written beside several
      have shown := isBlank_of_differ differ
      refine ⟨both, ?_⟩
      rw [reading, reading, plain,
        meant_beside follows_written shown fun x among shown => (others x among shown).2,
        meant_beside follows_meant shown fun x among shown => (others x among shown).1]
      intro equal
      refine differ (Option.map_injective (fun x y flipped => ?_) equal)
      exact Bool.xor_right_inj.mp flipped

/-- With distinct texts, a bad alternative makes some member read in two ways. -/
theorem exists_distinguished_member (es : List Expression) (distinct : (textsAll es).Nodup)
    (bad : haveNegatedAlternative es = true) :
    ∃ before e behind, es = before ++ e :: behind ∧ ∃ truth,
      e.reading Conjunction.written (termTruth truth) ≠
        e.reading Conjunction.meant (termTruth truth) := by
  cases es with
  | nil => cases bad
  | cons e rest =>
    rw [textsAll, List.nodup_append] at distinct
    rw [haveNegatedAlternative, Bool.or_eq_true] at bad
    rcases bad with here | there
    · exact ⟨[], e, rest, rfl, exists_distinguished e distinct.1 here⟩
    · obtain ⟨before, x, behind, rfl, apart⟩ := exists_distinguished_member rest distinct.2.1 there
      exact ⟨e :: before, x, behind, rfl, apart⟩

end

/-- Keys with distinct terms are always written as they are meant iff no negated alternative stands
beside another one. -/
theorem reading_written_iff (e : Expression) (distinct : e.texts.Nodup) :
    (∀ truth, e.reading Conjunction.written (termTruth truth) =
      e.reading Conjunction.meant (termTruth truth)) ↔ e.hasNegatedAlternative = false := by
  constructor
  · intro same
    rw [Bool.eq_false_iff]
    intro bad
    obtain ⟨truth, differ⟩ := exists_distinguished e distinct bad
    exact differ (same truth)
  · intro plain truth
    exact reading_written truth e plain

end Keys

end SearchCompiler
