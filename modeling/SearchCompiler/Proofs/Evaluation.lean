import SearchCompiler.Proofs.Nesting
import SearchCompiler.Proofs.Reading

/-!
# What a text says

A query is valued by its text alone, given which of the queries on fields match. Its clauses are
read off the front one after the other (`clauses`), the first character of each is its sign if it is
one, and what begins with a parenthesis is a query again, without its outer characters. In it
clauses may be joined by `AND`, and all of them have to hold then. Everything else is a query on a
field, but for the one that every document matches.

A clause has the value of its text (`holds_chars`), if the queries that it is made of can be told
from signs, parentheses and the word `AND` (`IsQuery`).
-/

namespace SearchCompiler.Text

/-- Up to so many clauses off the front of a text, with a character between every two. -/
def takeClauses : Nat → List Char → List (List Char)
  | 0, _ => []
  | n + 1, cs =>
    match readClause cs with
    | some (c, []) => [c]
    | some (c, _ :: rest) => c :: takeClauses n rest
    | none => []

def clauses (cs : List Char) : List (List Char) :=
  takeClauses cs.length cs

def sign? : List Char → Option Sign
  | '+' :: _ => some .must
  | '-' :: _ => some .mustNot
  | _ => none

def unsigned : List Char → List Char
  | '+' :: cs => cs
  | '-' :: cs => cs
  | cs => cs

/-- The word between clauses that all have to hold. -/
def andWord : List Char := ['A', 'N', 'D']

/-- Whether a clause without its sign holds, given which of the queries on fields match. There are
at most so many parentheses in each other as it has characters. -/
def bodyHolds (truth : String → Bool) : Nat → List Char → Bool
  | 0, _ => false
  | depth + 1, cs =>
    if cs = ['*', ':', '*'] then true
    else match cs with
      | '(' :: inside =>
        let parts := clauses inside.dropLast
        let sides := parts.filter (· != andWord)
        let value := fun c => (sign? c, bodyHolds truth depth (unsigned c))
        if sides.length < parts.length then
          sides.all fun c => QueryTree.signedValue (value c).1 (value c).2
        else clausesHold (parts.map value)
      | cs => truth (String.ofList cs)

/-- Whether a text of clauses side by side holds. -/
def holds (truth : String → Bool) (text : List Char) : Bool :=
  clausesHold ((clauses text).map fun c => (sign? c, bodyHolds truth c.length (unsigned c)))

example : clauses "-x:[* TO *] +(y:(\"a) b\")^1)".toList =
    ["-x:[* TO *]".toList, "+(y:(\"a) b\")^1)".toList] := by decide

example : holds (· == "x:\"b AND\"") "-x:\"a\" +(*:* AND (x:\"b AND\" x:\"c\"))".toList = true := by
  decide +kernel

end SearchCompiler.Text

/-! ### Clauses -/

namespace SearchCompiler.Clause

mutual

/-- Whether a clause holds apart from its sign, given which of the queries on fields match. -/
def bodyHolds (truth : String → Bool) : Clause → Bool
  | .atom .all => true
  | .atom a => truth (String.ofList a.chars)
  | .signed _ c => QueryTree.signedValue c.sign? (c.bodyHolds truth)
  | .onField name c suffix => truth (Clause.onField name c suffix).render
  | .list cs => clausesHold (signedBodies truth cs)
  | .row cs => clausesHold (signedBodies truth cs)
  | .both a b =>
    QueryTree.signedValue a.sign? (a.bodyHolds truth) &&
      QueryTree.signedValue b.sign? (b.bodyHolds truth)
  | .dismax targets cs => truth (Clause.dismax targets cs).render

def signedBodies (truth : String → Bool) : List Clause → List (Option Sign × Bool)
  | [] => []
  | c :: rest => (c.sign?, c.bodyHolds truth) :: signedBodies truth rest

end

def holds (truth : String → Bool) (c : Clause) : Bool :=
  QueryTree.signedValue c.sign? (c.bodyHolds truth)

variable (truth : String → Bool)

theorem signedBodies_eq_map (cs : List Clause) :
    signedBodies truth cs = cs.map fun c => (c.sign?, c.bodyHolds truth) := by
  induction cs with
  | nil => rfl
  | cons c rest ih => rw [signedBodies, ih, List.map_cons]

theorem holds_unsigned {c : Clause} (free : c.sign? = none) : c.holds truth = c.bodyHolds truth := by
  rw [holds, free]
  rfl

theorem holds_not (c : Clause) : c.not.holds truth = !c.holds truth := rfl

theorem holds_list (cs : List Clause) :
    (Clause.list cs).holds truth = clausesHold (cs.map fun c => (c.sign?, c.bodyHolds truth)) := by
  rw [holds_unsigned truth rfl, bodyHolds, signedBodies_eq_map]

theorem holds_row (cs : List Clause) :
    (Clause.row cs).holds truth = clausesHold (cs.map fun c => (c.sign?, c.bodyHolds truth)) := by
  rw [holds_unsigned truth rfl, bodyHolds, signedBodies_eq_map]

theorem holds_both (a b : Clause) :
    (Clause.both a b).holds truth = (a.holds truth && b.holds truth) := rfl

/-- Clauses without signs are alternatives. -/
theorem holds_anyOf {cs : List Clause} (nonempty : cs ≠ []) (free : ∀ c ∈ cs, c.sign? = none) :
    (anyOf cs).holds truth = cs.any (holds truth) := by
  unfold anyOf
  split
  · simp
  · have bodies : cs.any (bodyHolds truth) = cs.any (holds truth) := by
      rw [Bool.eq_iff_iff, List.any_eq_true, List.any_eq_true]
      exact exists_congr fun c => and_congr_right fun among => by
        rw [holds_unsigned truth (free c among)]
    rw [holds_list, clausesHold_unsigned (by simpa using free) (by simpa using nonempty),
      List.any_map]
    exact bodies

/-- All but what a base lets through is left out: a base that every clause with a minus restricts.
-/
theorem holds_list_except {base : Clause} (based : base.sign? ≠ some .mustNot) (cs : List Clause) :
    (Clause.list (base :: cs.map Clause.not)).holds truth =
      (base.holds truth && cs.all fun c => !c.holds truth) := by
  have bodies : (cs.map Clause.not).map (fun c => (c.sign?, c.bodyHolds truth)) =
      cs.map fun c => (some Sign.mustNot, c.holds truth) := by
    rw [List.map_map]
    rfl
  rw [holds_list, List.map_cons, bodies]
  cases sign : base.sign? with
  | none =>
    rw [holds_unsigned truth sign]
    have plus : (none != some Sign.must) = true := rfl
    have minus : (none != some Sign.mustNot) = true := rfl
    have other : (some Sign.mustNot != some Sign.must) = true := rfl
    have free : (Sign.mustNot == Sign.must) = false := rfl
    have never : (cs.any fun _ => false) = false := by rw [List.any_eq_false]; simp
    have always : (cs.all fun _ => true) = true := by rw [List.all_eq_true]; simp
    simp [clausesHold, Function.comp_def, plus, minus, other, free, never, always, Bool.and_comm]
  | some s =>
    cases s with
    | mustNot => exact absurd sign based
    | must =>
      rw [clausesHold_signed (by simp), List.all_cons, List.all_map, holds, sign]
      rfl

theorem holds_everything : everything.holds truth = true := rfl

/-! ### Clauses as texts -/

open Text

/-- A query on a field, told from everything else by its text. -/
structure IsQuery (c : Clause) : Prop where
  free : c.sign? = none
  body : IsBody c.chars
  opens : c.chars.head? ≠ some '('
  all : c.chars ≠ ['*', ':', '*']
  word : c.chars ≠ andWord
  value : ∀ truth, c.bodyHolds truth = truth c.render

theorem ne_nil_of_isSingleClause {cs : List Char} (single : IsSingleClause cs) : cs ≠ [] := by
  cases single with
  | unsigned body => exact body.nonempty
  | signed sign body => exact List.cons_ne_nil _ _

/-- Single clauses side by side are cut where they were joined. -/
theorem takeClauses_charsAll {cs : List Clause} (single : ∀ c ∈ cs, IsSingleClause c.chars)
    (nonempty : cs ≠ []) {n : Nat} (enough : cs.length ≤ n) :
    takeClauses n (charsAll cs) = cs.map chars := by
  induction cs generalizing n with
  | nil => exact absurd rfl nonempty
  | cons c cs ih =>
    obtain ⟨first, others⟩ := List.forall_mem_cons.mp single
    obtain ⟨m, rfl⟩ : ∃ m, n = m + 1 := ⟨n - 1, by simp at enough; omega⟩
    cases cs with
    | nil =>
      have last := first.readAsOne [] (by simp [EndsClause])
      rw [List.append_nil] at last
      rw [takeClauses, charsAll_single, last]
      rfl
    | cons d cs =>
      have front := first.readAsOne (' ' :: charsAll (d :: cs)) (by simp [EndsClause]; decide)
      rw [takeClauses, charsAll_cons_cons, front]
      dsimp only
      rw [ih others (List.cons_ne_nil d cs) (by simpa using enough)]
      rfl

theorem length_le_charsAll {cs : List Clause} (single : ∀ c ∈ cs, IsSingleClause c.chars) :
    cs.length ≤ (charsAll cs).length := by
  induction cs with
  | nil => simp
  | cons c cs ih =>
    obtain ⟨first, others⟩ := List.forall_mem_cons.mp single
    have behind := ih others
    cases cs with
    | nil =>
      rw [charsAll_single]
      exact List.length_pos_iff.mpr (ne_nil_of_isSingleClause first)
    | cons d cs =>
      simp only [charsAll_cons_cons, List.length_cons, List.length_append] at behind ⊢
      omega

theorem clauses_charsAll {cs : List Clause} (single : ∀ c ∈ cs, IsSingleClause c.chars) :
    clauses (charsAll cs) = cs.map chars := by
  cases cs with
  | nil => rfl
  | cons c cs =>
    exact takeClauses_charsAll single (List.cons_ne_nil c cs) (length_le_charsAll single)

section

variable {c : Clause}

theorem sign?_of_unsigned {cs : List Char} (free : startsWithSign cs = false) :
    Text.sign? cs = none ∧ Text.unsigned cs = cs := by
  unfold startsWithSign at free
  unfold Text.sign? Text.unsigned
  split at free <;> simp_all

theorem IsMadeOf.readsAsOne (made : c.IsMadeOf IsQuery) :
    IsSingleClause c.chars ∧ (c.sign? = none → IsBody c.chars) :=
  made.isSingleClause fun _ own => own.body

/-- The sign of a clause is the first character of its text, and its text without a sign is what
stands behind. -/
theorem IsMadeOf.sign?_chars (made : c.IsMadeOf IsQuery) :
    Text.sign? c.chars = c.sign? ∧ Text.unsigned c.chars = c.unsigned.chars := by
  cases sign : c.sign? with
  | none =>
    rw [unsigned_eq_self sign]
    exact sign?_of_unsigned (made.readsAsOne.2 sign).unsigned
  | some s =>
    cases c with
    | signed s' c =>
      cases sign
      cases s <;> exact ⟨rfl, rfl⟩
    | _ => cases sign

/-- No clause is taken for the word between two clauses. -/
theorem IsMadeOf.chars_ne_andWord (made : c.IsMadeOf IsQuery) : c.chars ≠ andWord := by
  cases made with
  | all => decide
  | part own => exact own.word
  | signed sign =>
    rw [chars_signed]
    cases sign <;> exact nofun
  | list =>
    rw [chars_list]
    exact nofun
  | both => exact nofun

theorem length_unsigned_le (c : Clause) : c.unsigned.chars.length ≤ c.chars.length := by
  cases c with
  | signed sign c => exact Nat.le_succ _
  | _ => exact Nat.le_refl _

theorem length_le_of_mem {cs : List Clause} (among : c ∈ cs) :
    c.chars.length ≤ (charsAll cs).length := by
  induction cs with
  | nil => cases among
  | cons d cs ih =>
    cases cs with
    | nil => rw [List.mem_singleton.mp among, charsAll_single]
    | cons e cs =>
      rw [charsAll_cons_cons, List.length_append, List.length_cons]
      rcases List.mem_cons.mp among with rfl | later
      · omega
      · have behind := ih later
        omega

/-- A clause whose text has the value of the clause, apart from the sign, to some depth of
parentheses. -/
def IsValued (truth : String → Bool) (depth : Nat) (c : Clause) : Prop :=
  Text.bodyHolds truth depth c.unsigned.chars = c.bodyHolds truth

variable {truth : String → Bool} {depth : Nat}

theorem IsValued.member (valued : c.IsValued truth depth) (made : c.IsMadeOf IsQuery) :
    (Text.sign? c.chars, Text.bodyHolds truth depth (Text.unsigned c.chars)) =
      (c.sign?, c.bodyHolds truth) := by
  obtain ⟨sign, rest⟩ := made.sign?_chars
  rw [sign, rest, valued]

/-- What stands in parentheses is valued by its clauses. -/
theorem bodyHolds_parenthesized (inside : List Char) :
    Text.bodyHolds truth (depth + 1) ('(' :: (inside ++ [')'])) =
      let parts := clauses inside
      let sides := parts.filter (· != andWord)
      let value := fun c => (Text.sign? c, Text.bodyHolds truth depth (Text.unsigned c))
      if sides.length < parts.length then
        sides.all fun c => QueryTree.signedValue (value c).1 (value c).2
      else clausesHold (parts.map value) := by
  rw [Text.bodyHolds, if_neg (by simp)]
  dsimp only
  rw [List.dropLast_concat]

/-- A list of valued clauses is valued one level deeper. -/
theorem isValued_list {cs : List Clause} (made : ∀ c ∈ cs, c.IsMadeOf IsQuery)
    (valued : ∀ c ∈ cs, c.IsValued truth depth) : (Clause.list cs).IsValued truth (depth + 1) := by
  have member : ∀ c ∈ cs, (Text.sign? c.chars, Text.bodyHolds truth depth (Text.unsigned c.chars)) =
      (c.sign?, c.bodyHolds truth) :=
    fun c among => (valued c among).member (made c among)
  have kept : (cs.map chars).filter (· != andWord) = cs.map chars := by
    rw [List.filter_eq_self, List.forall_mem_map]
    exact fun c among => bne_iff_ne.mpr (made c among).chars_ne_andWord
  change Text.bodyHolds truth (depth + 1) ('(' :: (charsAll cs ++ [')'])) = _
  rw [bodyHolds_parenthesized, clauses_charsAll fun c among => (made c among).readsAsOne.1]
  dsimp only
  rw [kept, if_neg (Nat.lt_irrefl _), List.map_map, bodyHolds, signedBodies_eq_map]
  exact congrArg clausesHold (List.map_congr_left member)

/-- Two clauses and the word between them, as clauses side by side. -/
def sides (a b : Clause) : List Clause := [a, .raw "AND", b]

theorem chars_both (a b : Clause) :
    (Clause.both a b).chars = '(' :: (charsAll (sides a b) ++ [')']) := by
  change '(' :: (a.chars ++ " AND ".toList ++ b.chars ++ [')']) =
    '(' :: (a.chars ++ ' ' :: ("AND".toList ++ ' ' :: b.chars) ++ [')'])
  simp

/-- Between two sides the word `AND` is neither of them, and both have to hold. -/
theorem isValued_both {a b : Clause} (left : a.IsMadeOf IsQuery) (right : b.IsMadeOf IsQuery)
    (ownLeft : a.IsValued truth depth) (ownRight : b.IsValued truth depth) :
    (Clause.both a b).IsValued truth (depth + 1) := by
  have word : (Clause.raw "AND").chars = andWord := by decide
  have single : ∀ c ∈ sides a b, IsSingleClause c.chars := by
    refine List.forall_mem_cons.mpr ⟨left.readsAsOne.1, List.forall_mem_cons.mpr
      ⟨?_, List.forall_mem_singleton.mpr right.readsAsOne.1⟩⟩
    exact .unsigned ⟨by decide, rfl, wellNested_ordinary (by decide)⟩
  have kept : ((sides a b).map chars).filter (· != andWord) = [a.chars, b.chars] := by
    simp [sides, word, left.chars_ne_andWord, right.chars_ne_andWord]
  have fewer : [a.chars, b.chars].length < ((sides a b).map chars).length := by simp [sides]
  have same : (Clause.both a b).unsigned = Clause.both a b := rfl
  rw [IsValued, same, chars_both, bodyHolds_parenthesized, clauses_charsAll single]
  dsimp only
  rw [kept, if_pos fewer, List.all_cons, List.all_cons, List.all_nil, Bool.and_true]
  obtain ⟨sign, body⟩ := Prod.mk.inj (ownLeft.member left)
  obtain ⟨sign', body'⟩ := Prod.mk.inj (ownRight.member right)
  rw [sign, body, sign', body']
  rfl

/-- The text of a clause made of queries says what the clause says, read to a depth that is at least
its length. -/
theorem IsMadeOf.isValued (made : c.IsMadeOf IsQuery) (enough : c.unsigned.chars.length ≤ depth) :
    c.IsValued truth depth := by
  induction made generalizing depth with
  | all =>
    obtain ⟨m, rfl⟩ := Nat.exists_eq_add_of_le' (Nat.le_trans (by decide : 1 ≤ 3) enough)
    rfl
  | @part c own =>
    have some_char : 1 ≤ c.chars.length := List.length_pos_iff.mpr own.body.nonempty
    rw [unsigned_eq_self own.free] at enough
    obtain ⟨m, rfl⟩ := Nat.exists_eq_add_of_le' (some_char.trans enough)
    rw [IsValued, unsigned_eq_self own.free, Text.bodyHolds, if_neg own.all, own.value]
    · rfl
    · exact fun inside same => own.opens (congrArg List.head? same)
  | @signed sign c free _ ih =>
    have inside : Text.bodyHolds truth depth c.unsigned.chars = c.bodyHolds truth := by
      refine ih ?_
      rw [unsigned_eq_self free]
      exact enough
    rw [unsigned_eq_self free] at inside
    change Text.bodyHolds truth depth c.chars = QueryTree.signedValue c.sign? (c.bodyHolds truth)
    rw [inside, free]
    rfl
  | @list cs each ih =>
    change ('(' :: (charsAll cs ++ [')'])).length ≤ depth at enough
    rw [List.length_cons, List.length_append, List.length_singleton] at enough
    obtain ⟨m, rfl⟩ := Nat.exists_eq_add_of_le' (Nat.le_trans (Nat.le_add_left 1 _) enough)
    refine isValued_list each fun c among => ih c among ?_
    have short := (length_unsigned_le c).trans (length_le_of_mem among)
    omega
  | @both a b left right ihLeft ihRight =>
    change (Clause.both a b).chars.length ≤ depth at enough
    rw [chars_both, List.length_cons, List.length_append, List.length_singleton] at enough
    obtain ⟨m, rfl⟩ := Nat.exists_eq_add_of_le' (Nat.le_trans (Nat.le_add_left 1 _) enough)
    have short : ∀ c ∈ sides a b, c.unsigned.chars.length ≤ m := by
      intro c among
      have inside := (length_unsigned_le c).trans (length_le_of_mem among)
      omega
    exact isValued_both left right (ihLeft (short a (by simp [sides])))
      (ihRight (short b (by simp [sides])))

end

/-- Clauses made of queries, side by side in a text. -/
theorem holds_charsAll (truth : String → Bool) {cs : List Clause}
    (made : ∀ c ∈ cs, c.IsMadeOf IsQuery) :
    Text.holds truth (charsAll cs) =
      clausesHold (cs.map fun c => (c.sign?, c.bodyHolds truth)) := by
  rw [Text.holds, clauses_charsAll fun c among => (made c among).readsAsOne.1, List.map_map]
  refine congrArg clausesHold (List.map_congr_left fun c among => ?_)
  exact ((made c among).isValued (length_unsigned_le c)).member (made c among)

/-- A clause made of queries, as a whole text. -/
theorem holds_chars (truth : String → Bool) {c : Clause} (made : c.IsMadeOf IsQuery) :
    Text.holds truth c.chars = c.holds truth := by
  have alone := holds_charsAll truth (List.forall_mem_singleton.mpr made)
  rw [charsAll_single, List.map_singleton] at alone
  rw [alone, holds]
  cases c.sign? with
  | none => simp [clausesHold, QueryTree.signedValue]
  | some s => cases s <;> simp [clausesHold, QueryTree.signedValue]

end SearchCompiler.Clause
