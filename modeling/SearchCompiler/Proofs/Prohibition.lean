import SearchCompiler.Proofs.Negation
import SearchCompiler.Proofs.Nesting

/-!
# Lists that only prohibit, in the text

A reader goes over the characters of a query once and looks for a list in parentheses in which every
clause begins with a minus (`hasNegativeList`). It knows nothing of how clauses are written. It
keeps the brackets that stand open, and of each of them whether all clauses behind it have begun
with a minus so far. Quotes and backslashes hide characters from it.

In the text of a clause it finds such a list iff the clause has one (`hasNegativeList_chars`): a
clause with a minus is one that begins with a minus, and no literal is taken for a part of the
query. Only texts that are a query already could deceive it, and such clauses are left out
(`IsLegible`).
-/

namespace SearchCompiler.Text

/-- A bracket that stands open: whether it is a parenthesis, whether all clauses behind it have
begun with a minus so far, and whether the next character begins a clause. -/
structure OpenList where
  round : Bool
  prohibits : Bool
  atStart : Bool

namespace OpenList

/-- A bracket with nothing behind it yet. -/
def empty (round : Bool) : OpenList := ⟨round, true, true⟩

def took (l : OpenList) (minus : Bool) : OpenList :=
  if l.atStart then ⟨l.round, l.prohibits && minus, false⟩ else l

def next (l : OpenList) : OpenList := { l with atStart := true }

def isNegative (l : OpenList) : Bool := l.round && l.prohibits

/-- The first character of a clause decides. -/
@[simp] theorem took_took (l : OpenList) (minus other : Bool) :
    (l.took minus).took other = l.took minus := by
  by_cases start : l.atStart <;> simp [took, start]

@[simp] theorem atStart_took (l : OpenList) (minus : Bool) : (l.took minus).atStart = false := by
  by_cases start : l.atStart <;> simp [took, start]

@[simp] theorem round_took (l : OpenList) (minus : Bool) : (l.took minus).round = l.round := by
  unfold took
  split <;> rfl

end OpenList

/-- Whether a list of nothing but clauses with a minus is closed in the rest of a text: inside
quotes or not, behind a backslash or not, in the innermost bracket and those around it. -/
def prohibitsFrom : (quoted escaped : Bool) → OpenList → List OpenList → List Char → Bool
  | _, _, _, _, [] => false
  | quoted, true, l, around, _ :: rest => prohibitsFrom quoted false l around rest
  | true, false, l, around, c :: rest => prohibitsFrom (c != '"') (c == '\\') l around rest
  | false, false, l, around, c :: rest =>
    if isBlank c then prohibitsFrom false false l.next around rest
    else if (closing? c).isSome then
      prohibitsFrom false false (.empty (c == '(')) (l.took false :: around) rest
    else if isClosing c then
      match around with
      | [] => false
      | outer :: around => l.isNegative || prohibitsFrom false false outer around rest
    else prohibitsFrom (c == '"') (c == '\\') (l.took (c == '-')) around rest

/-- Whether a text has a list in parentheses with no clause but those that begin with a minus. -/
def hasNegativeList (text : List Char) : Bool :=
  prohibitsFrom false false (.empty false) [] text

example : hasNegativeList "+a (b (-\"c)\" -d:[* TO *]))".toList = true := by decide

example : hasNegativeList "-a \\(-b\\) \"(-c)\" (d AND -e)".toList = false := by decide

section Reader

variable {l : OpenList} {around : List OpenList} {cs rest : List Char}

theorem prohibitsFrom_blank {c : Char} (blank : isBlank c = true) (rest : List Char) :
    prohibitsFrom false false l around (c :: rest) =
      prohibitsFrom false false l.next around rest := by
  simp [prohibitsFrom, blank]

theorem prohibitsFrom_ordinary {c : Char} (own : isOrdinary c = true) (shown : isBlank c = false)
    (rest : List Char) :
    prohibitsFrom false false l around (c :: rest) =
      prohibitsFrom false false (l.took (c == '-')) around rest := by
  simp only [isOrdinary, Bool.and_eq_true, Bool.not_eq_true', bne_iff_ne, ne_eq,
    Option.isNone_iff_eq_none] at own
  obtain ⟨⟨⟨opensNothing, closesNothing⟩, notQuote⟩, notEscape⟩ := own
  simp [prohibitsFrom, shown, opensNothing, closesNothing, beq_false_of_ne notQuote,
    beq_false_of_ne notEscape]

/-- A piece of a clause: ordinary characters without blanks. -/
def IsTag (cs : List Char) : Prop :=
  cs.all (fun c => isOrdinary c && !isBlank c) = true

instance (cs : List Char) : Decidable (IsTag cs) :=
  inferInstanceAs (Decidable (_ = _))

/-- A tag within a clause shows nothing. -/
theorem prohibitsFrom_tag (tag : IsTag cs) (inside : l.atStart = false) (rest : List Char) :
    prohibitsFrom false false l around (cs ++ rest) = prohibitsFrom false false l around rest := by
  have took : ∀ minus, l.took minus = l := fun minus => by simp [OpenList.took, inside]
  induction cs with
  | nil => rfl
  | cons c cs ih =>
    rw [IsTag, List.all_cons, Bool.and_eq_true, Bool.and_eq_true, Bool.not_eq_true'] at tag
    rw [List.cons_append, prohibitsFrom_ordinary tag.1.1 tag.1.2, took, ih tag.2]

/-- A tag at the front of a clause shows its first character. -/
theorem prohibitsFrom_label {c : Char} (tag : IsTag (c :: cs)) (free : c ≠ '-')
    (rest : List Char) :
    prohibitsFrom false false l around (c :: cs ++ rest) =
      prohibitsFrom false false (l.took false) around rest := by
  rw [IsTag, List.all_cons, Bool.and_eq_true, Bool.and_eq_true, Bool.not_eq_true'] at tag
  rw [List.cons_append, prohibitsFrom_ordinary tag.1.1 tag.1.2, beq_false_of_ne free,
    prohibitsFrom_tag tag.2 (l.atStart_took false)]

/-- Quotes hide what stands between them. -/
theorem prohibitsFrom_quoted {run : List Char} (quotable : IsQuotable run) (rest : List Char) :
    prohibitsFrom true false l around (run ++ '"' :: rest) =
      prohibitsFrom false false l around rest := by
  induction quotable with
  | nil => simp [prohibitsFrom]
  | escaped c _ ih => simpa [prohibitsFrom] using ih
  | plain notEscape notQuote _ ih =>
    simpa [prohibitsFrom, beq_false_of_ne notEscape, bne, beq_false_of_ne notQuote] using ih

/-- A phrase is one clause without a minus, whatever is written in it. -/
theorem prohibitsFrom_phrase (text rest : List Char) :
    prohibitsFrom false false l around (phrase text ++ rest) =
      prohibitsFrom false false (l.took false) around rest := by
  have opening : prohibitsFrom false false l around ('"' :: (phraseBody text ++ '"' :: rest)) =
      prohibitsFrom true false (l.took false) around (phraseBody text ++ '"' :: rest) := rfl
  rw [phrase, List.cons_append, List.append_assoc, List.singleton_append, opening,
    prohibitsFrom_quoted (isQuotable_phraseBody text)]

/-- What a bare term leaves without a backslash is ordinary. -/
theorem isOrdinary_of_bare {c : Char} (bare : needsEscape c = false) :
    isOrdinary c = true ∧ isBlank c = false ∧ (c == '-') = false := by
  rw [needsEscape, Bool.or_eq_false_iff] at bare
  obtain ⟨plain, shown⟩ := bare
  have other : ∀ d ∈ syntaxChars, c ≠ d := by
    rintro d among rfl
    exact Bool.false_ne_true (plain.symm.trans (List.contains_iff_mem.mpr among))
  have brackets : ['(', ')', '[', ']', '\x7b', '\x7d', '"', '\\'] ⊆ syntaxChars := by decide
  refine ⟨isOrdinary_of_ne fun d among => other d (brackets among), shown, ?_⟩
  exact beq_false_of_ne (other '-' (by decide))

/-- A bare term is one clause without a minus: what could be syntax in it has a backslash in front.
-/
theorem prohibitsFrom_bareTerm {text : List Char} (nonempty : text ≠ []) (rest : List Char) :
    prohibitsFrom false false l around (bareTerm text ++ rest) =
      prohibitsFrom false false (l.took false) around rest := by
  have first : ∀ (c : Char) (text : List Char) (l : OpenList),
      prohibitsFrom false false l around (bareTerm (c :: text) ++ rest) =
        prohibitsFrom false false (l.took false) around (bareTerm text ++ rest) := by
    intro c text l
    rw [bareTerm]
    split
    · rfl
    · next bare =>
      obtain ⟨own, shown, free⟩ := isOrdinary_of_bare (Bool.eq_false_iff.mpr bare)
      rw [List.cons_append, prohibitsFrom_ordinary own shown, free]
  obtain ⟨c, text, rfl⟩ := List.exists_cons_of_ne_nil nonempty
  rw [first]
  induction text with
  | nil => rfl
  | cons d text ih => rw [first, OpenList.took_took, ih (List.cons_ne_nil _ _)]

/-- A text that leaves the brackets around it as they are. -/
def Passes (cs : List Char) : Prop :=
  ∀ (l : OpenList) (around : List OpenList) (rest : List Char), ∃ after : OpenList,
    after.round = l.round ∧
      prohibitsFrom false false l around (cs ++ rest) = prohibitsFrom false false after around rest

theorem Passes.append {ds : List Char} (first : Passes cs) (second : Passes ds) :
    Passes (cs ++ ds) := by
  intro l around rest
  obtain ⟨after, round, same⟩ := first l around (ds ++ rest)
  obtain ⟨last, round', same'⟩ := second after around rest
  exact ⟨last, round'.trans round, by rw [List.append_assoc, same, same']⟩

/-- Ordinary characters open and close nothing. -/
theorem passes_ordinary (each : cs.all isOrdinary = true) : Passes cs := by
  induction cs with
  | nil => exact fun l _ _ => ⟨l, rfl, rfl⟩
  | cons c cs ih =>
    rw [List.all_cons, Bool.and_eq_true] at each
    intro l around rest
    by_cases blank : isBlank c
    · obtain ⟨after, round, same⟩ := ih each.2 l.next around rest
      refine ⟨after, round, ?_⟩
      rw [List.cons_append, prohibitsFrom_blank blank, same]
    · obtain ⟨after, round, same⟩ := ih each.2 (l.took (c == '-')) around rest
      refine ⟨after, round.trans (l.round_took _), ?_⟩
      rw [List.cons_append, prohibitsFrom_ordinary each.1 (Bool.eq_false_iff.mpr blank), same]

theorem passes_phrase (text : List Char) : Passes (phrase text) := fun l _ rest =>
  ⟨l.took false, l.round_took false, prohibitsFrom_phrase text rest⟩

/-- What stands in brackets other than parentheses is no list. -/
theorem prohibitsFrom_bracketed {opening closing : Char} (pair : closing? opening = some closing)
    (other : opening ≠ '(') (inside : Passes cs) (rest : List Char) :
    prohibitsFrom false false l around (opening :: (cs ++ closing :: rest)) =
      prohibitsFrom false false (l.took false) around rest := by
  obtain ⟨after, round, same⟩ := inside (.empty false) (l.took false :: around) (closing :: rest)
  have negative : after.isNegative = false := by rw [OpenList.isNegative, round]; rfl
  have opens : prohibitsFrom false false l around (opening :: (cs ++ closing :: rest)) =
      prohibitsFrom false false (.empty false) (l.took false :: around) (cs ++ closing :: rest) := by
    obtain ⟨rfl, -⟩ | ⟨rfl, -⟩ | ⟨rfl, -⟩ := brackets_of_closing? pair
    · exact absurd rfl other
    · rfl
    · rfl
  have closes : prohibitsFrom false false after (l.took false :: around) (closing :: rest) =
      (after.isNegative || prohibitsFrom false false (l.took false) around rest) := by
    obtain ⟨-, rfl⟩ | ⟨-, rfl⟩ | ⟨-, rfl⟩ := brackets_of_closing? pair <;> rfl
  rw [opens, same, closes, negative, Bool.false_or]

end Reader

end SearchCompiler.Text

namespace SearchCompiler.Clause

open Text

/-- Clauses with nothing in them that is a query already. Names are words, and no term is empty. -/
inductive IsLegible : Clause → Prop where
  | all : IsLegible everything
  | term (text : String) : text ≠ "" → IsLegible (.atom (.term text))
  | phrase (text : String) : IsLegible (.atom (.phrase text))
  | range (lower upper : Option String) (withBounds : Bool) :
      IsLegible (.atom (.range lower upper withBounds withBounds))
  | nested (query : String) : IsUnquoted query.toList → IsLegible (.atom (.nested query))
  | signed (sign : Sign) {c : Clause} : IsLegible c → IsLegible (.signed sign c)
  | onField {name suffix : String} {c : Clause} : Name.IsWord name → IsLegible c →
      IsTag suffix.toList → IsLegible (.onField name c suffix)
  | list {cs : List Clause} : (∀ c ∈ cs, IsLegible c) → IsLegible (.list cs)
  | both {a b : Clause} : IsLegible a → IsLegible b → IsLegible (.both a b)

theorem IsMadeOf.isLegible {part : Clause → Prop} (legible : ∀ c, part c → c.IsLegible)
    {c : Clause} (made : c.IsMadeOf part) : c.IsLegible := by
  induction made with
  | all => exact .all
  | part own => exact legible _ own
  | signed sign _ _ ih => exact .signed sign ih
  | list _ ih => exact .list ih
  | both _ _ left right => exact .both left right

/-- The name of a field shows no minus. -/
theorem prohibitsFrom_name {name : String} (word : Name.IsWord name) {l : OpenList}
    {around : List OpenList} (rest : List Char) :
    prohibitsFrom false false l around (name.toList ++ ':' :: rest) =
      prohibitsFrom false false (l.took false) around rest := by
  have tag : IsTag (name.toList ++ [':']) := by
    refine List.all_eq_true.mpr fun c among => ?_
    rcases List.mem_append.mp among with inner | last
    · have letter : Name.isWordChar c = true := List.all_eq_true.mp word c inner
      rw [isOrdinary_word letter, isBlank_word letter, Bool.not_false, Bool.and_true]
    · rw [List.mem_singleton.mp last]
      decide
  have whole : name.toList ++ ':' :: rest = name.toList ++ [':'] ++ rest := by simp
  rw [whole]
  rw [Name.IsWord] at word
  cases letters : name.toList with
  | nil => exact prohibitsFrom_label (by decide) (by decide) rest
  | cons c cs =>
    rw [letters] at tag word
    refine prohibitsFrom_label tag ?_ rest
    rintro rfl
    exact absurd (List.all_eq_true.mp word '-' List.mem_cons_self) (by decide)

/-- The reader sees of a clause whether it stands behind a minus and whether it has a list that only
prohibits. -/
def IsSeen (c : Clause) : Prop :=
  ∀ (l : OpenList) (around : List OpenList) (rest : List Char),
    prohibitsFrom false false l around (c.chars ++ rest) =
      (c.hasNegativeList || prohibitsFrom false false (l.took c.isProhibited) around rest)

/-- Of clauses side by side the reader keeps whether all of them stand behind a minus. -/
theorem prohibitsFrom_charsAll {cs : List Clause} (seen : ∀ c ∈ cs, IsSeen c) (round before : Bool)
    (around : List OpenList) (rest : List Char) :
    prohibitsFrom false false ⟨round, before, true⟩ around (charsAll cs ++ rest) =
      (cs.any hasNegativeList ||
        prohibitsFrom false false ⟨round, before && cs.all isProhibited, cs.isEmpty⟩ around rest) := by
  induction cs generalizing before with
  | nil => simp [charsAll]
  | cons c cs ih =>
    obtain ⟨first, others⟩ := List.forall_mem_cons.mp seen
    cases cs with
    | nil => simpa [charsAll, OpenList.took] using first ⟨round, before, true⟩ around rest
    | cons d cs =>
      have blank : ∀ l : OpenList, prohibitsFrom false false l around
          (' ' :: (charsAll (d :: cs) ++ rest)) =
            prohibitsFrom false false l.next around (charsAll (d :: cs) ++ rest) := fun _ => rfl
      have behind : (OpenList.took ⟨round, before, true⟩ c.isProhibited).next =
          ⟨round, before && c.isProhibited, true⟩ := rfl
      rw [charsAll_cons_cons, List.append_assoc, List.cons_append, first, blank, behind, ih others]
      simp [Bool.or_assoc, Bool.and_assoc]

theorem isSeen_list {cs : List Clause} (seen : ∀ c ∈ cs, IsSeen c) : IsSeen (.list cs) := by
  intro l around rest
  have opens : prohibitsFrom false false l around ((Clause.list cs).chars ++ rest) =
      prohibitsFrom false false (.empty true) (l.took false :: around)
        (charsAll cs ++ ')' :: rest) := by
    rw [chars_list, List.cons_append, List.append_assoc, List.singleton_append]
    rfl
  have closes : ∀ m : OpenList, prohibitsFrom false false m (l.took false :: around)
      (')' :: rest) = (m.isNegative || prohibitsFrom false false (l.took false) around rest) :=
    fun _ => rfl
  rw [opens, OpenList.empty, prohibitsFrom_charsAll seen, closes, hasNegativeList_list]
  simp [OpenList.isNegative, isProhibited, Bool.or_assoc, Bool.or_left_comm]

/-- The word `AND` is a clause without a minus of its own. -/
theorem isSeen_both {a b : Clause} (left : IsSeen a) (right : IsSeen b) : IsSeen (.both a b) := by
  intro l around rest
  let outer := l.took false :: around
  have opens : prohibitsFrom false false l around ((Clause.both a b).chars ++ rest) =
      prohibitsFrom false false (.empty true) outer
        (a.chars ++ (" AND ".toList ++ (b.chars ++ ')' :: rest))) := by
    rw [show (Clause.both a b).chars = '(' :: (a.chars ++ " AND ".toList ++ b.chars ++ [')']) from
      rfl]
    simp only [List.cons_append, List.append_assoc]
    rfl
  -- The word between the two is a clause without a minus.
  have middle : ∀ (m : OpenList) (tail : List Char), prohibitsFrom false false m outer
      (" AND ".toList ++ tail) =
        prohibitsFrom false false ⟨m.round, false, true⟩ outer tail := by
    intro m tail
    have word : prohibitsFrom false false m outer (" AND ".toList ++ tail) =
        prohibitsFrom false false (m.next.took false).next outer tail := by rfl
    have kept : (m.next.took false).next = ⟨m.round, false, true⟩ := by
      simp [OpenList.next, OpenList.took]
    rw [word, kept]
  have closes : ∀ m : OpenList, prohibitsFrom false false m outer (')' :: rest) =
      (m.isNegative || prohibitsFrom false false (l.took false) around rest) := fun _ => rfl
  rw [opens, left, middle, right, closes]
  simp [OpenList.isNegative, OpenList.took, isProhibited, hasNegativeList, Bool.or_assoc]

/-- The reader sees of a legible clause what is to be seen. -/
theorem IsLegible.isSeen {c : Clause} (legible : IsLegible c) : IsSeen c := by
  induction legible with
  | all => exact fun l around rest => prohibitsFrom_label (by decide) (by decide) rest
  | term text nonempty =>
    intro l around rest
    refine prohibitsFrom_bareTerm (fun empty => nonempty ?_) rest
    rw [← String.toList_inj, empty]
    rfl
  | phrase text => exact fun l around rest => prohibitsFrom_phrase text.toList rest
  | range lower upper withBounds =>
    intro l around rest
    have bound : ∀ text : Option String,
        Passes ((text.map fun s => Text.phrase s.toList).getD ['*']) := by
      intro text
      cases text with
      | none => exact passes_ordinary (by decide)
      | some s => exact passes_phrase s.toList
    have middle : Passes " TO ".toList := passes_ordinary (by decide)
    have bounds := ((bound lower).append middle).append (bound upper)
    change prohibitsFrom false false l around (_ :: (_ ++ [_]) ++ rest) = _
    rw [List.cons_append, List.append_assoc, List.singleton_append]
    cases withBounds with
    | true => exact prohibitsFrom_bracketed rfl (by decide) bounds rest
    | false => exact prohibitsFrom_bracketed rfl (by decide) bounds rest
  | nested query plain =>
    intro l around rest
    have opening : "_query_:\"".toList = '_' :: "query_:".toList ++ ['"'] := by decide
    have quote : ∀ (m : OpenList) (tail : List Char), prohibitsFrom false false m around
        ('"' :: tail) = prohibitsFrom true false (m.took false) around tail := fun _ _ => rfl
    change prohibitsFrom false false l around
      (("_query_:\"".toList ++ query.toList ++ ['"']) ++ rest) = _
    rw [opening, List.append_assoc, List.append_assoc, List.append_assoc,
      prohibitsFrom_label (by decide) (by decide), List.singleton_append, quote,
      OpenList.took_took, List.singleton_append,
      prohibitsFrom_quoted (isQuotable_unquoted plain)]
    rfl
  | signed sign _ ih =>
    intro l around rest
    have minus : ∀ tail, prohibitsFrom false false l around (sign.char :: tail) =
        prohibitsFrom false false (l.took (sign.char == '-')) around tail := by
      intro tail
      cases sign <;> rfl
    rw [chars_signed, List.cons_append, minus, ih, OpenList.took_took]
    cases sign <;> rfl
  | @onField name suffix c word _ tag ih =>
    intro l around rest
    rw [chars_onField, List.append_assoc, List.cons_append, List.append_assoc,
      prohibitsFrom_name word, ih, OpenList.took_took,
      prohibitsFrom_tag tag (OpenList.atStart_took l false)]
    rfl
  | list _ ih => exact isSeen_list ih
  | both _ _ left right => exact isSeen_both left right

/-- In the text of a legible clause there is a list that only prohibits iff there is one in the
clause. -/
theorem hasNegativeList_chars {c : Clause} (legible : IsLegible c) :
    Text.hasNegativeList c.chars = c.hasNegativeList := by
  have seen := legible.isSeen (.empty false) [] []
  rw [List.append_nil] at seen
  rw [Text.hasNegativeList, seen]
  exact Bool.or_false _

/-- The same for clauses side by side. -/
theorem hasNegativeList_charsAll {cs : List Clause} (legible : ∀ c ∈ cs, IsLegible c) :
    Text.hasNegativeList (charsAll cs) = cs.any hasNegativeList := by
  have seen := prohibitsFrom_charsAll (fun c among => (legible c among).isSeen) false true [] []
  rw [List.append_nil] at seen
  rw [Text.hasNegativeList, OpenList.empty, seen]
  exact Bool.or_false _

end SearchCompiler.Clause
