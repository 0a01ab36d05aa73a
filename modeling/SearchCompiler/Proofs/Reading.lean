import Mathlib.Data.List.Forall2
import SearchCompiler.Conjunction
import SearchCompiler.Proofs.Clause

/-!
# The reading of a query

A backend reads a query as a tree: leaf queries, and lists of clauses in parentheses, each with the
sign in front of it. A list of clauses holds iff every clause with a plus holds, none with a minus
holds, and, when it has clauses without a sign but none with a plus, one of those holds. A list of
nothing but clauses with a minus therefore holds when none of them does.

The reading is stated apart from every text that is written. What the compilers are shown to do is
stated against it:

* under AND every clause carries a sign, and the list is a conjunction (`clausesHold_signed`);
* under OR no clause does, and the list is a disjunction (`clausesHold_unsigned`).
-/

namespace SearchCompiler

/-- The value of members under a conjunction. Without members there is none. -/
def Conjunction.value? (conjunction : Conjunction) : List Bool → Option Bool
  | [] => none
  | first :: rest =>
    some (match conjunction with
      | .and => (first :: rest).all id
      | .or => (first :: rest).any id)

/-- The value of members that there are. -/
theorem Conjunction.value?_map {α : Type} (conjunction : Conjunction) (f : α → Bool)
    {members : List α} (nonempty : members ≠ []) :
    conjunction.value? (members.map f) =
      some (match conjunction with
        | .and => members.all f
        | .or => members.any f) := by
  obtain ⟨first, rest, rfl⟩ := List.exists_cons_of_ne_nil nonempty
  cases conjunction <;> simp [value?]

/-- A query as it is read: a leaf, or clauses in parentheses, behind an optional sign. -/
inductive QueryTree (α : Type) where
  | leaf (sign : Option Sign) (query : α)
  | list (sign : Option Sign) (clauses : List (QueryTree α))

/-- Whether clauses side by side hold, given for each its sign and whether it holds without it. -/
def clausesHold (clauses : List (Option Sign × Bool)) : Bool :=
  clauses.all (fun c => c.1 != some .must || c.2) &&
    clauses.all (fun c => c.1 != some .mustNot || !c.2) &&
    (clauses.any (fun c => c.1 == some .must) || clauses.all (fun c => c.1.isSome) ||
      clauses.any fun c => c.1.isNone && c.2)

namespace QueryTree

variable {α : Type}

def sign : QueryTree α → Option Sign
  | .leaf sign _ => sign
  | .list sign _ => sign

def withSign (sign : Option Sign) : QueryTree α → QueryTree α
  | .leaf _ query => .leaf sign query
  | .list _ clauses => .list sign clauses

def signChars (sign : Option Sign) : List Char :=
  (sign.map Sign.char).toList

mutual

/-- The written form of a query, given that of its leaves. -/
def chars (write : α → List Char) : QueryTree α → List Char
  | .leaf sign query => signChars sign ++ write query
  | .list sign clauses => signChars sign ++ '(' :: (charsAll write clauses ++ [')'])

def charsAll (write : α → List Char) : List (QueryTree α) → List Char
  | [] => []
  | [t] => t.chars write
  | t :: u :: rest => t.chars write ++ ' ' :: charsAll write (u :: rest)

end

mutual

/-- Whether a query holds apart from its sign, given the truth of its leaves. -/
def bodyHolds (truth : α → Bool) : QueryTree α → Bool
  | .leaf _ query => truth query
  | .list _ clauses => clausesHold (signedBodies truth clauses)

def signedBodies (truth : α → Bool) : List (QueryTree α) → List (Option Sign × Bool)
  | [] => []
  | t :: rest => (t.sign, t.bodyHolds truth) :: signedBodies truth rest

end

mutual

/-- The leaf queries, without their signs. -/
def leaves : QueryTree α → List α
  | .leaf _ query => [query]
  | .list _ clauses => leavesAll clauses

def leavesAll : List (QueryTree α) → List α
  | [] => []
  | t :: rest => t.leaves ++ leavesAll rest

end

/-- The value of a body behind a sign: required, unless the sign is a minus. -/
def signedValue (sign : Option Sign) (body : Bool) : Bool :=
  if sign = some .mustNot then !body else body

/-- Whether a query holds, its outermost sign included. -/
def holds (truth : α → Bool) (t : QueryTree α) : Bool :=
  signedValue t.sign (t.bodyHolds truth)

/-- A query as a clause under a conjunction: required under AND unless it has a sign of its own, and
under OR without a sign, in parentheses if it has one. -/
def member (conjunction : Conjunction) (t : QueryTree α) : QueryTree α :=
  match conjunction with
  | .and => if t.sign.isSome then t else t.withSign (some .must)
  | .or => if t.sign.isSome then .list none [t] else t

@[simp] theorem sign_leaf (sign : Option Sign) (query : α) :
    (QueryTree.leaf sign query).sign = sign := rfl

@[simp] theorem sign_list (sign : Option Sign) (clauses : List (QueryTree α)) :
    (QueryTree.list sign clauses).sign = sign := rfl

@[simp] theorem sign_withSign (sign : Option Sign) (t : QueryTree α) :
    (t.withSign sign).sign = sign := by
  cases t <;> rfl

@[simp] theorem bodyHolds_withSign (truth : α → Bool) (sign : Option Sign) (t : QueryTree α) :
    (t.withSign sign).bodyHolds truth = t.bodyHolds truth := by
  cases t <;> rfl

theorem signedBodies_eq_map (truth : α → Bool) (ts : List (QueryTree α)) :
    signedBodies truth ts = ts.map fun t => (t.sign, t.bodyHolds truth) := by
  induction ts with
  | nil => rfl
  | cons t rest ih => rw [signedBodies, ih, List.map_cons]

/-- A sign is written in front of a query that has none. -/
theorem chars_withSign (write : α → List Char) {t : QueryTree α} (free : t.sign = none)
    (sign : Option Sign) : (t.withSign sign).chars write = signChars sign ++ t.chars write := by
  cases t <;> cases free <;> rfl

/-- Clauses written like trees are written like them side by side. -/
theorem charsAll_eq {write : α → List Char} {cs : List Clause} {ts : List (QueryTree α)}
    (related : List.Forall₂ (fun c t => c.chars = t.chars write) cs ts) :
    Clause.charsAll cs = charsAll write ts := by
  induction related with
  | nil => rfl
  | cons head rest ih =>
    cases rest with
    | nil => exact head
    | cons next rest =>
      rw [Clause.charsAll_cons_cons, head, ih]
      rfl

theorem leavesAll_eq_flatMap (ts : List (QueryTree α)) : leavesAll ts = ts.flatMap leaves := by
  induction ts with
  | nil => rfl
  | cons t rest ih => rw [leavesAll, ih, List.flatMap_cons]

theorem leavesAll_single (t : QueryTree α) : leavesAll [t] = t.leaves := by
  rw [leavesAll, leavesAll, List.append_nil]

@[simp] theorem leaves_withSign (sign : Option Sign) (t : QueryTree α) :
    (t.withSign sign).leaves = t.leaves := by
  cases t <;> rfl

@[simp] theorem leaves_member (conjunction : Conjunction) (t : QueryTree α) :
    (t.member conjunction).leaves = t.leaves := by
  unfold member
  split <;> split <;> simp [leaves, leavesAll]

end QueryTree

theorem any_and_eq {α : Type} {p q : α → Bool} {xs : List α} (every : ∀ x ∈ xs, p x = true) :
    (xs.any fun x => p x && q x) = xs.any q := by
  rw [Bool.eq_iff_iff, List.any_eq_true, List.any_eq_true]
  constructor
  · rintro ⟨x, member, both⟩
    exact ⟨x, member, (Bool.and_eq_true_iff.mp both).2⟩
  · rintro ⟨x, member, value⟩
    exact ⟨x, member, Bool.and_eq_true_iff.mpr ⟨every x member, value⟩⟩

open QueryTree in
/-- Clauses that all carry a sign hold iff each of them does. -/
theorem clausesHold_signed {clauses : List (Option Sign × Bool)}
    (signed : ∀ c ∈ clauses, c.1 ≠ none) :
    clausesHold clauses = clauses.all fun c => signedValue c.1 c.2 := by
  have every : clauses.all (fun c => c.1.isSome) = true := by
    rw [List.all_eq_true]
    intro c member
    exact Option.isSome_iff_ne_none.mpr (signed c member)
  have each : ∀ c ∈ clauses, signedValue c.1 c.2 =
      ((c.1 != some .must || c.2) && (c.1 != some .mustNot || !c.2)) := by
    intro c member
    rcases c with ⟨_ | _ | _, body⟩
    · exact absurd rfl (signed _ member)
    · simp [signedValue]
    · simp [signedValue]
  unfold clausesHold
  rw [every, Bool.or_true, Bool.true_or, Bool.and_true, Bool.eq_iff_iff]
  simp only [Bool.and_eq_true, List.all_eq_true]
  constructor
  · intro both c member
    rw [each c member, both.1 c member, both.2 c member]
    rfl
  · intro all
    constructor
    · intro c member
      exact (Bool.and_eq_true_iff.mp ((each c member).symm.trans (all c member))).1
    · intro c member
      exact (Bool.and_eq_true_iff.mp ((each c member).symm.trans (all c member))).2

/-- Clauses without signs hold iff one of them does. -/
theorem clausesHold_unsigned {clauses : List (Option Sign × Bool)}
    (unsigned : ∀ c ∈ clauses, c.1 = none) (nonempty : clauses ≠ []) :
    clausesHold clauses = clauses.any fun c => c.2 := by
  obtain ⟨first, rest, rfl⟩ := List.exists_cons_of_ne_nil nonempty
  have head : first.1 = none := unsigned first List.mem_cons_self
  have free : (first :: rest).any (fun c => c.1 == some .must) = false := by
    rw [List.any_eq_false]
    intro c member
    simp [unsigned c member]
  have held : (first :: rest).any (fun c => c.1.isNone && c.2) =
      (first :: rest).any fun c => c.2 :=
    any_and_eq fun c member => by rw [unsigned c member, Option.isNone_none]
  have plus : (first :: rest).all (fun c => c.1 != some .must || c.2) = true := by
    rw [List.all_eq_true]
    intro c member
    simp [unsigned c member]
  have minus : (first :: rest).all (fun c => c.1 != some .mustNot || !c.2) = true := by
    rw [List.all_eq_true]
    intro c member
    simp [unsigned c member]
  unfold clausesHold
  rw [plus, minus, free, held]
  simp [head]

namespace QueryTree

variable {α : Type}

theorem sign_member_and (t : QueryTree α) : (t.member .and).sign ≠ none := by
  cases signed : t.sign <;> simp [member, signed]

theorem sign_member_or (t : QueryTree α) : (t.member .or).sign = none := by
  cases signed : t.sign <;> simp [member, signed]

/-- A query means the same as a member under any conjunction. -/
theorem holds_member (truth : α → Bool) (conjunction : Conjunction) (t : QueryTree α) :
    (t.member conjunction).holds truth = t.holds truth := by
  cases conjunction with
  | and => cases signed : t.sign <;> simp [member, signed, holds, signedValue]
  | or =>
    cases signed : t.sign with
    | none => simp [member, signed]
    | some s =>
      have alone : clausesHold [(some s, t.bodyHolds truth)] =
          signedValue (some s) (t.bodyHolds truth) := by
        rw [clausesHold_signed (by simp)]
        simp
      simp [member, signed, holds, bodyHolds, signedBodies, alone, signedValue]

/-- Several members side by side hold as their conjunction says. -/
theorem clausesHold_members (truth : α → Bool) (conjunction : Conjunction) {ts : List (QueryTree α)}
    (nonempty : ts ≠ []) :
    some (clausesHold (signedBodies truth (ts.map (member conjunction)))) =
      conjunction.value? (ts.map (holds truth)) := by
  rw [conjunction.value?_map _ nonempty, signedBodies_eq_map, List.map_map]
  cases conjunction with
  | and =>
    have signed : ∀ c ∈ ts.map ((fun t => (t.sign, t.bodyHolds truth)) ∘ member .and),
        c.1 ≠ none := by
      intro c among
      obtain ⟨t, -, rfl⟩ := List.mem_map.mp among
      exact t.sign_member_and
    rw [clausesHold_signed signed, List.all_map]
    exact congrArg some (congrArg ts.all (funext fun t => holds_member truth .and t))
  | or =>
    have unsigned : ∀ c ∈ ts.map ((fun t => (t.sign, t.bodyHolds truth)) ∘ member .or),
        c.1 = none := by
      intro c among
      obtain ⟨t, -, rfl⟩ := List.mem_map.mp among
      exact t.sign_member_or
    have body : ∀ t : QueryTree α, (t.member .or).bodyHolds truth = t.holds truth := by
      intro t
      rw [← holds_member truth .or t, holds, sign_member_or]
      rfl
    rw [clausesHold_unsigned unsigned (by simpa using nonempty), List.any_map]
    exact congrArg some (congrArg ts.any (funext body))

end QueryTree

/-- A whole query: one clause, or clauses side by side without parentheses. -/
inductive WholeQuery (α : Type) where
  | clause (t : QueryTree α)
  | row (clauses : List (QueryTree α))

namespace WholeQuery

variable {α : Type}

def chars (write : α → List Char) : WholeQuery α → List Char
  | .clause t => t.chars write
  | .row clauses => QueryTree.charsAll write clauses

/-- Whether clauses stand side by side without parentheses. -/
def isRow : WholeQuery α → Bool
  | .clause _ => false
  | .row _ => true

def leaves : WholeQuery α → List α
  | .clause t => t.leaves
  | .row clauses => QueryTree.leavesAll clauses

def holds (truth : α → Bool) : WholeQuery α → Bool
  | .clause t => t.holds truth
  | .row clauses => clausesHold (QueryTree.signedBodies truth clauses)

end WholeQuery

end SearchCompiler
