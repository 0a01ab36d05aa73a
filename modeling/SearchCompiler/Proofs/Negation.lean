import SearchCompiler.Clause

/-!
# Lists that only prohibit

A list of nothing but clauses with a minus finds no documents where it is nested, so that such a
list needs a base to subtract from. This module says of a clause whether it has such a list
anywhere. Texts that are a query already are not looked into.
-/

namespace SearchCompiler.Clause

/-- Whether a clause stands behind a minus. -/
def isProhibited : Clause → Bool
  | .signed .mustNot _ => true
  | _ => false

mutual

/-- Whether a list in parentheses has no clause but those with a minus. -/
def hasNegativeList : Clause → Bool
  | .atom _ => false
  | .signed _ c => c.hasNegativeList
  | .onField _ c _ => c.hasNegativeList
  | .list cs => cs.all isProhibited || haveNegativeList cs
  | .row cs => haveNegativeList cs
  | .both a b => a.hasNegativeList || b.hasNegativeList
  | .dismax _ cs => haveNegativeList cs

def haveNegativeList : List Clause → Bool
  | [] => false
  | c :: rest => c.hasNegativeList || haveNegativeList rest

end

theorem haveNegativeList_eq (cs : List Clause) : haveNegativeList cs = cs.any hasNegativeList := by
  induction cs with
  | nil => rfl
  | cons c rest ih => rw [haveNegativeList, ih, List.any_cons]

theorem hasNegativeList_list (cs : List Clause) :
    (Clause.list cs).hasNegativeList = (cs.all isProhibited || cs.any hasNegativeList) := by
  rw [hasNegativeList, haveNegativeList_eq]

theorem hasNegativeList_row (cs : List Clause) :
    (Clause.row cs).hasNegativeList = cs.any hasNegativeList := by
  rw [hasNegativeList, haveNegativeList_eq]

/-- Clauses next to one without a minus make up a list that is fine if they are. -/
theorem hasNegativeList_list_cons {c : Clause} (free : c.isProhibited = false) (cs : List Clause) :
    (Clause.list (c :: cs)).hasNegativeList = (c :: cs).any hasNegativeList := by
  rw [hasNegativeList_list, List.all_cons, free, Bool.false_and, Bool.false_or]

/-- A clause without a minus and without a list that only prohibits. -/
structure IsPlain (c : Clause) : Prop where
  free : c.isProhibited = false
  fine : c.hasNegativeList = false

theorem isPlain_atom (a : Atom) : (Clause.atom a).IsPlain := ⟨rfl, rfl⟩

theorem IsPlain.must {c : Clause} (plain : c.IsPlain) : c.must.IsPlain :=
  ⟨rfl, plain.fine⟩

theorem IsPlain.onField {c : Clause} (plain : c.IsPlain) (name suffix : String) :
    (Clause.onField name c suffix).IsPlain :=
  ⟨rfl, plain.fine⟩

theorem any_hasNegativeList {cs : List Clause} (plain : ∀ c ∈ cs, c.IsPlain) :
    cs.any hasNegativeList = false := by
  rw [List.any_eq_false]
  intro c among
  rw [(plain c among).fine]
  exact Bool.false_ne_true

theorem all_isProhibited {cs : List Clause} (plain : ∀ c ∈ cs, c.IsPlain) :
    cs.all isProhibited = cs.isEmpty := by
  cases cs with
  | nil => rfl
  | cons c rest => rw [List.all_cons, (plain c List.mem_cons_self).free]; rfl

theorem isPlain_list {cs : List Clause} (nonempty : cs ≠ []) (plain : ∀ c ∈ cs, c.IsPlain) :
    (Clause.list cs).IsPlain := by
  obtain ⟨c, rest, rfl⟩ := List.exists_cons_of_ne_nil nonempty
  refine ⟨rfl, ?_⟩
  rw [hasNegativeList_list_cons (plain c List.mem_cons_self).free, any_hasNegativeList plain]

theorem isPlain_anyOf {cs : List Clause} (nonempty : cs ≠ []) (plain : ∀ c ∈ cs, c.IsPlain) :
    (anyOf cs).IsPlain := by
  unfold anyOf
  split
  · exact plain _ List.mem_cons_self
  · exact isPlain_list nonempty plain

/-- A clause behind a minus shows it. -/
theorem isSigned_of_isProhibited {c : Clause} (prohibited : c.isProhibited = true) :
    c.isSigned = true := by
  unfold isProhibited at prohibited
  split at prohibited
  · rfl
  · cases prohibited

end SearchCompiler.Clause
