import SearchCompiler.Keys.Flatten
import SearchCompiler.Proofs.Outline

/-!
# The structure of the query of keys

Terms cannot change the structure of the query that they end up in. Keys of one shape fail
together, and where they compile, their queries are scanned into one outline (`compile_structure`).
The gaps of the outline hold the terms that are not blank, trimmed: which of them, how often and in
which order is told from the keys and the fields alone (`Flattening.writtenTerms`), and every such
term is among them (`mem_writtenTerms`).
-/

namespace SearchCompiler.Keys

open Text

/-- A suffix of a target field: a mark of its own, and a text without quotes. -/
def IsSuffix (suffix : String) : Prop :=
  ∃ mark rest, suffix.toList = mark :: rest ∧ Target.isMark mark = true ∧ IsUnquoted rest

/-- A target field whose name is a word and whose suffix is one. -/
structure IsField (target : Target) : Prop where
  name : Name.IsWord target.name
  suffix : IsSuffix target.suffix

theorem isUnquoted_word {name : String} (word : Name.IsWord name) : IsUnquoted name.toList := by
  intro c among
  have letter : Name.isWordChar c = true := List.all_eq_true.mp word c among
  constructor
  · rintro rfl
    exact absurd letter (by decide)
  · rintro rfl
    exact absurd letter (by decide)

theorem isMark_suffix {c : Char} (mark : Target.isMark c = true) : isMark c = true := by
  unfold Target.isMark at mark
  rw [Bool.or_eq_true, beq_iff_eq, beq_iff_eq] at mark
  rcases mark with rfl | rfl <;> decide

theorem IsSuffix.isUnquoted {suffix : String} (form : IsSuffix suffix) :
    IsUnquoted suffix.toList := by
  obtain ⟨mark, rest, letters, marked, plain⟩ := form
  rw [letters]
  intro c among
  rcases List.mem_cons.mp among with rfl | inner
  · exact isMark_ne (isMark_suffix marked)
  · exact plain c inner

theorem isUnquoted_joinWith {mark : List Char} (plain : IsUnquoted mark) {pieces : List (List Char)}
    (each : ∀ piece ∈ pieces, IsUnquoted piece) : IsUnquoted (joinWith mark pieces) := by
  match pieces with
  | [] => exact List.forall_mem_nil _
  | [piece] => exact each piece List.mem_cons_self
  | piece :: next :: rest =>
    simp only [joinWith]
    refine isUnquoted_append (isUnquoted_append (each piece List.mem_cons_self) plain) ?_
    exact isUnquoted_joinWith plain fun p among => each p (List.mem_cons_of_mem _ among)

theorem isUnquoted_targetsText {targets : List Target} (fields : ∀ t ∈ targets, IsField t) :
    IsUnquoted (targetsText targets).toList := by
  rw [targetsText, joinTexts, String.toList_ofList]
  refine isUnquoted_joinWith (by decide) ?_
  rw [List.map_map, List.forall_mem_map]
  intro t among
  rw [Function.comp_apply, String.toList_append]
  exact isUnquoted_append (isUnquoted_word (fields t among).name) (fields t among).suffix.isUnquoted

mutual

/-- Keys of one shape without escaped groups, with blank terms in the same places. -/
def Alike : Expression → Expression → Prop
  | .term s, .term t => isBlankText s = isBlankText t
  | .group c negated escaped xs, .group c' negated' escaped' ys =>
    c = c' ∧ negated = negated' ∧ escaped = false ∧ escaped' = false ∧ AllAlike xs ys
  | _, _ => False

def AllAlike : List Expression → List Expression → Prop
  | [], [] => True
  | x :: xs, y :: ys => Alike x y ∧ AllAlike xs ys
  | _, _ => False

end

/-! ### The terms of a query -/

mutual

def Expression.allTerms : Expression → List String
  | .term text => [text]
  | .group _ _ _ children => allTermsOf children

def Expression.allTermsOf : List Expression → List String
  | [] => []
  | e :: rest => e.allTerms ++ allTermsOf rest

end

open Expression

/-- The terms among the children of a group that are not blank, trimmed. -/
def ownTerms : List Expression → List String
  | [] => []
  | .term text :: rest =>
    if isBlankText text then ownTerms rest else trimText text :: ownTerms rest
  | .group _ _ _ _ :: rest => ownTerms rest

namespace Flattening

/-- Terms as often as they are written under fields: all of them under every field; and in front of
that, where each of several terms may be found in another field, each for all fields. -/
def copies (f : Flattening) (texts : List String) : List String :=
  (if f.mode = .terms ∧ 1 < f.targets.length ∧ 1 < texts.length then
    texts.flatMap fun text => f.targets.flatMap fun _ => [text]
  else []) ++ f.targets.flatMap fun _ => texts

/-- The terms of a group as often as they are written: once without fields, and once where a single
query searches all fields. -/
def repeated (f : Flattening) (texts : List String) : List String :=
  if f.targets.isEmpty ∨ f.mode = .edismax then texts else f.copies texts

mutual

/-- The terms that the query of a group holds, in the order in which they are written: those of the
nested groups first. -/
def writtenTerms (f : Flattening) : Expression → List String
  | .term _ => []
  | .group _ _ _ children => f.writtenNested children ++ f.repeated (ownTerms children)

/-- The terms that the queries of the groups among several keys hold. -/
def writtenNested (f : Flattening) : List Expression → List String
  | [] => []
  | e :: rest => f.writtenTerms e ++ f.writtenNested rest

end

end Flattening

theorem mem_ownTerms {text : String} {es : List Expression} :
    text ∈ ownTerms es ↔
      ∃ own, .term own ∈ es ∧ isBlankText own = false ∧ text = trimText own := by
  induction es with
  | nil => simp [ownTerms]
  | cons e es ih =>
    cases e with
    | group => simp [ownTerms, ih]
    | term own =>
      rw [ownTerms]
      split
      · next blank => simp [ih, or_and_right, exists_or, blank]
      · next shown => simp [ih, or_and_right, exists_or, shown]

/-- Repeating the terms of a group loses none and adds none. -/
theorem Flattening.mem_repeated {f : Flattening} {text : String} {texts : List String} :
    text ∈ f.repeated texts ↔ text ∈ texts := by
  unfold repeated copies
  split
  · rfl
  · next several =>
    obtain ⟨given, -⟩ := not_or.mp several
    obtain ⟨t, targets, fields⟩ : ∃ t targets, f.targets = t :: targets := by
      cases fields : f.targets with
      | nil => simp [fields] at given
      | cons t targets => exact ⟨t, targets, rfl⟩
    rw [List.mem_append, fields]
    constructor
    · intro written
      rcases written with own | under
      · split at own
        · simp only [List.mem_flatMap, List.mem_singleton] at own
          obtain ⟨other, among, -, -, rfl⟩ := own
          exact among
        · cases own
      · simp only [List.mem_flatMap] at under
        obtain ⟨-, -, among⟩ := under
        exact among
    · intro among
      exact .inr (by simp [among])

/-- What several keys hold are their terms that are not blank, each at least once. -/
theorem mem_children (f : Flattening) (text : String) (es : List Expression) :
    text ∈ f.writtenNested es ∨ text ∈ ownTerms es ↔
      ∃ own ∈ allTermsOf es, isBlankText own = false ∧ text = trimText own := by
  match es with
  | [] => simp [Flattening.writtenNested, ownTerms, allTermsOf]
  | .term own :: rest =>
    have others := mem_children f text rest
    have first : Expression.term own ∈ Expression.term own :: rest := List.mem_cons_self
    simp only [Flattening.writtenNested, Flattening.writtenTerms, List.nil_append, allTermsOf,
      allTerms, List.singleton_append, List.mem_cons, exists_eq_or_imp, ← others, mem_ownTerms]
    grind
  | .group c negated escaped inner :: rest =>
    have others := mem_children f text rest
    have inside := mem_children f text inner
    simp only [Flattening.writtenNested, Flattening.writtenTerms, List.mem_append, allTermsOf,
      allTerms, Flattening.mem_repeated, ownTerms, or_and_right, exists_or, ← others, ← inside]
    grind

theorem mem_writtenTerms {f : Flattening} {text : String} {conjunction : Conjunction}
    {negated escaped : Bool} {children : List Expression} :
    text ∈ f.writtenTerms (.group conjunction negated escaped children) ↔
      ∃ own ∈ (Expression.group conjunction negated escaped children).allTerms,
        isBlankText own = false ∧ text = trimText own := by
  rw [Flattening.writtenTerms, List.mem_append, Flattening.mem_repeated, mem_children, allTerms]

/-- Keys of one shape have as many terms. -/
theorem AllAlike.length_ownTerms {es ds : List Expression} (alike : AllAlike es ds) :
    (ownTerms es).length = (ownTerms ds).length := by
  induction es generalizing ds with
  | nil =>
    cases ds with
    | nil => rfl
    | cons => exact alike.elim
  | cons e es ih =>
    cases ds with
    | nil => exact alike.elim
    | cons d ds =>
      rw [AllAlike] at alike
      obtain ⟨own, others⟩ := alike
      have rest := ih others
      cases e with
      | term s =>
        cases d with
        | group => exact own.elim
        | term t =>
          rw [Alike] at own
          simp only [ownTerms, own]
          split <;> simp [rest]
      | group =>
        cases d with
        | term => exact own.elim
        | group => exact rest

/-! ### Their literals -/

/-- The literal that stands for a term. -/
def termPiece (mode : Mode) (text : String) : Piece :=
  match mode with
  | .phrase => .quoted text
  | _ => .bare text

def termClause (mode : Mode) (text : String) : Clause :=
  .atom (match mode with
    | .phrase => .phrase text
    | _ => .term text)

theorem literal_eq {mode : Mode} (escaping : mode ≠ .direct) (text : String) :
    Flattening.literal mode false text =
      if isBlankText text then none else some (termClause mode (trimText text)) := by
  unfold Flattening.literal termClause
  cases mode with
  | direct => exact absurd rfl escaping
  | terms | phrase | edismax => rfl

/-- Terms are escaped into literals that hold them. -/
theorem scansTo_termClause (mode : Mode) {text : String} (shown : text ≠ "") :
    ScansTo (termClause mode text).chars [termPiece mode text] := by
  have letters : text.toList ≠ [] := by simpa using shown
  unfold termClause termPiece
  cases mode with
  | phrase =>
    have scans := scansTo_phrase text.toList
    rwa [String.ofList_toList] at scans
  | terms | edismax | direct =>
    have scans := scansTo_bareTerm letters
    rwa [String.ofList_toList] at scans

theorem ne_empty_of_mem_ownTerms {text : String} {es : List Expression}
    (among : text ∈ ownTerms es) : text ≠ "" := by
  obtain ⟨own, -, shown, rfl⟩ := mem_ownTerms.mp among
  intro empty
  have trimmed := trim_ne_nil shown
  simp [trimText] at empty
  exact trimmed empty

/-! ### Queries side by side -/

/-- Two computations that fail alike or give related values. -/
inductive Agree {ε α : Type} (related : α → α → Prop) : Except ε α → Except ε α → Prop where
  | error (e : ε) : Agree related (.error e) (.error e)
  | ok {a b : α} : related a b → Agree related (.ok a) (.ok b)

section

variable {ε α β : Type} {related : α → α → Prop} {wanted : β → β → Prop} {x y : Except ε α}

theorem Agree.bind {f g : α → Except ε β} (first : Agree related x y)
    (next : ∀ a b, related a b → Agree wanted (f a) (g b)) : Agree wanted (x >>= f) (y >>= g) := by
  cases first with
  | error e => exact .error e
  | ok both => exact next _ _ both

theorem Agree.map {f : α → β} (first : Agree related x y)
    (next : ∀ a b, x = .ok a → y = .ok b → related a b → wanted (f a) (f b)) :
    Agree wanted (x.map f) (y.map f) := by
  cases first with
  | error e => exact .error e
  | ok both => exact .ok (next _ _ rfl rfl both)

theorem Agree.self (each : ∀ a, x = .ok a → related a a) : Agree related x x := by
  cases x with
  | error e => exact .error e
  | ok a => exact .ok (each a rfl)

end

namespace Flattening

open Clause (AllSimilar)

/-- The clauses of terms on fields: all terms on every field; and in front of that, where each of
several terms may be found in another field, one clause for each term. -/
def alternatives (f : Flattening) (conjunction : Conjunction) (terms : List Clause) : List Clause :=
  (if f.mode = .terms ∧ 1 < f.targets.length ∧ 1 < terms.length then
    [.list (terms.map fun t => under conjunction (.list (f.targets.map (onTarget t))))]
  else []) ++ f.targets.map (onTarget (.list (terms.map (under conjunction))))

/-- The clauses of terms, where there are any. -/
theorem termClauses_eq {f : Flattening} {conjunction : Conjunction} {beside : Bool}
    {terms : List Clause} (given : terms ≠ []) :
    f.termClauses conjunction beside terms =
      if f.targets.isEmpty then terms.map (under conjunction)
      else if f.mode = .edismax then [.dismax f.targets (terms.map (under conjunction))]
      else if beside then [under conjunction (.list (f.alternatives conjunction terms))]
      else f.alternatives conjunction terms := by
  unfold termClauses
  rw [if_neg (by simpa using given)]
  rfl

theorem repeated_nil (f : Flattening) : f.repeated [] = [] := by
  simp [repeated, copies]

theorem similar_under (conjunction : Conjunction) {ls ms : List Piece} {c d : Clause}
    (similar : Similar ls ms c.chars d.chars) :
    Similar ls ms (under conjunction c).chars (under conjunction d).chars := by
  cases conjunction with
  | and => exact Clause.similar_signed .must similar
  | or => exact similar

theorem similar_nestedMember (conjunction : Conjunction) (negated : Bool) {ls ms : List Piece}
    {c d : Clause} (similar : Similar ls ms c.chars d.chars) :
    Similar ls ms (nestedMember conjunction negated c).chars
      (nestedMember conjunction negated d).chars := by
  cases negated with
  | true => exact Clause.similar_signed .mustNot similar
  | false => exact similar_under conjunction similar

theorem similar_onTarget {t : Target} (field : IsField t) {ls ms : List Piece} {c d : Clause}
    (similar : Similar ls ms c.chars d.chars) :
    Similar ls ms (onTarget c t).chars (onTarget d t).chars := by
  obtain ⟨mark, rest, letters, marked, plain⟩ := field.suffix
  exact Clause.similar_onField (isUnquoted_word field.name) letters (isMark_suffix marked) plain
    similar

section

variable {f : Flattening} (fields : ∀ t ∈ f.targets, IsField t) {ts us : List String}

/-- Two clauses under every field. -/
theorem similar_targets {targets : List Target} (fields : ∀ t ∈ targets, IsField t) {mode : Mode}
    {c d : Clause}
    (similar : Similar (ts.map (termPiece mode)) (us.map (termPiece mode)) c.chars d.chars) :
    AllSimilar ((targets.flatMap fun _ => ts).map (termPiece mode))
      ((targets.flatMap fun _ => us).map (termPiece mode)) (targets.map (onTarget c))
      (targets.map (onTarget d)) := by
  induction targets with
  | nil => exact .nil
  | cons t targets ih =>
    obtain ⟨own, others⟩ := List.forall_mem_cons.mp fields
    simp only [List.flatMap_cons, List.map_append, List.map_cons]
    exact .cons (similar_onTarget own similar) (ih others)

variable (length : ts.length = us.length)

include length

/-- As many clauses as terms, of which each holds its own term as often as the others theirs. -/
theorem similar_each {mode : Mode} (g : Clause → Clause) (copies : String → List String)
    (each : ∀ t ∈ ts, ∀ u ∈ us, Similar ((copies t).map (termPiece mode))
      ((copies u).map (termPiece mode)) (g (termClause mode t)).chars
      (g (termClause mode u)).chars) :
    AllSimilar ((ts.flatMap copies).map (termPiece mode)) ((us.flatMap copies).map (termPiece mode))
      ((ts.map (termClause mode)).map g) ((us.map (termClause mode)).map g) := by
  induction ts generalizing us with
  | nil =>
    cases us with
    | nil => exact .nil
    | cons => simp at length
  | cons t ts ih =>
    cases us with
    | nil => simp at length
    | cons u us =>
      simp only [List.flatMap_cons, List.map_append, List.map_cons]
      refine .cons (each t List.mem_cons_self u List.mem_cons_self) (ih (by simpa using length) ?_)
      intro t' among u' among'
      exact each t' (List.mem_cons_of_mem t among) u' (List.mem_cons_of_mem u among')

variable (shown : ∀ t ∈ ts, t ≠ "") (shown' : ∀ u ∈ us, u ≠ "")

include shown shown'

theorem similar_terms (mode : Mode) (conjunction : Conjunction) :
    AllSimilar (ts.map (termPiece mode)) (us.map (termPiece mode))
      ((ts.map (termClause mode)).map (under conjunction))
      ((us.map (termClause mode)).map (under conjunction)) := by
  have members := similar_each length (under conjunction) (fun t => [t]) fun t among u among' =>
    similar_under conjunction (similar_literal (scansTo_termClause mode (shown t among))
      (scansTo_termClause mode (shown' u among')))
  rwa [List.flatMap_singleton', List.flatMap_singleton'] at members

include fields

/-- Terms on several fields are similar to other terms on these fields. -/
theorem similar_alternatives (conjunction : Conjunction) :
    AllSimilar ((f.copies ts).map (termPiece f.mode)) ((f.copies us).map (termPiece f.mode))
      (f.alternatives conjunction (ts.map (termClause f.mode)))
      (f.alternatives conjunction (us.map (termClause f.mode))) := by
  have members := similar_terms length shown shown' f.mode conjunction
  have perField := similar_targets fields members.list
  have perTerm := similar_each length
    (fun c => under conjunction (.list (f.targets.map (onTarget c))))
    (fun t => f.targets.flatMap fun _ => [t]) fun t among u among' => by
      have own : Similar ([t].map (termPiece f.mode)) ([u].map (termPiece f.mode)) _ _ :=
        similar_literal (scansTo_termClause f.mode (shown t among))
          (scansTo_termClause f.mode (shown' u among'))
      exact similar_under conjunction (similar_targets fields own).list
  unfold copies alternatives
  rw [List.map_append, List.map_append, List.length_map, List.length_map, length]
  refine AllSimilar.append ?_ perField
  split
  · exact .single perTerm.list
  · exact .nil

/-- The clauses of as many terms are similar, whatever the terms are. -/
theorem similar_termClauses (conjunction : Conjunction) (beside : Bool) :
    AllSimilar ((f.repeated ts).map (termPiece f.mode)) ((f.repeated us).map (termPiece f.mode))
      (f.termClauses conjunction beside (ts.map (termClause f.mode)))
      (f.termClauses conjunction beside (us.map (termClause f.mode))) := by
  by_cases none : ts = []
  · have none' : us = [] := by simpa [none] using length.symm
    subst none none'
    rw [repeated_nil]
    exact .nil
  have given : ts.map (termClause f.mode) ≠ [] := by simpa using none
  have given' : us.map (termClause f.mode) ≠ [] := by
    rintro empty
    exact none (by simpa [List.map_eq_nil_iff.mp empty] using length)
  have members := similar_terms length shown shown' f.mode conjunction
  rw [termClauses_eq given, termClauses_eq given']
  unfold repeated
  by_cases bare : f.targets.isEmpty = true
  · rw [if_pos bare, if_pos bare, if_pos (.inl bare), if_pos (.inl bare)]
    exact members
  by_cases inline : f.mode = .edismax
  · rw [if_neg bare, if_neg bare, if_pos inline, if_pos inline, if_pos (.inr inline),
      if_pos (.inr inline)]
    exact .single (Clause.similar_dismax (isUnquoted_targetsText fields) members)
  · have several : ¬ (f.targets.isEmpty = true ∨ f.mode = .edismax) := not_or.mpr ⟨bare, inline⟩
    have alternatives := similar_alternatives fields length shown shown' conjunction
    rw [if_neg bare, if_neg bare, if_neg inline, if_neg inline, if_neg several, if_neg several]
    split
    · exact .single (similar_under conjunction alternatives.list)
    · exact alternatives

/-- The bodies of groups of one shape, if they have any. -/
theorem similar_bodyOf {lg mg : List Piece} {gs hs : List Clause} (groups : AllSimilar lg mg gs hs)
    (conjunction : Conjunction) :
    AllSimilar (lg ++ (f.repeated ts).map (termPiece f.mode))
      (mg ++ (f.repeated us).map (termPiece f.mode))
      (f.bodyOf conjunction gs (ts.map (termClause f.mode))).toList
      (f.bodyOf conjunction hs (us.map (termClause f.mode))).toList := by
  have parts := groups.append
    (similar_termClauses fields length shown shown' conjunction (!hs.isEmpty))
  unfold bodyOf
  dsimp only
  rw [groups.isEmpty_eq, parts.isEmpty_eq]
  split
  · next none =>
    have nothing := List.isEmpty_iff.mp none
    have nothing' := List.isEmpty_iff.mp (parts.isEmpty_eq.trans none)
    rw [nothing, nothing'] at parts
    exact parts
  · exact .single parts.list

end

section

variable {f : Flattening}

/-- Members of groups of one shape: their terms, and nested groups that became similar clauses. -/
structure MembersSimilar (f : Flattening) (es ds : List Expression)
    (a b : List Clause × List Clause) : Prop where
  groups : AllSimilar ((f.writtenNested es).map (termPiece f.mode))
    ((f.writtenNested ds).map (termPiece f.mode)) a.1 b.1
  terms : a.2 = (ownTerms es).map (termClause f.mode)
  terms' : b.2 = (ownTerms ds).map (termClause f.mode)

/-- The bodies of groups whose members are similar. -/
theorem groupBody_similar (fields : ∀ t ∈ f.targets, IsField t) {c : Conjunction}
    (negated : Bool) {es ds : List Expression}
    (length : (ownTerms es).length = (ownTerms ds).length)
    (members : Agree (MembersSimilar f es ds) (f.members c false es) (f.members c false ds)) :
    Agree (fun a b => AllSimilar
        ((f.writtenTerms (.group c negated false es)).map (termPiece f.mode))
        ((f.writtenTerms (.group c negated false ds)).map (termPiece f.mode)) a.toList b.toList)
      (f.groupBody (.group c negated false es)) (f.groupBody (.group c negated false ds)) := by
  rw [groupBody, groupBody]
  generalize f.members c false es = left at members
  generalize f.members c false ds = right at members
  cases members with
  | error e => exact .error e
  | @ok a b similar =>
    refine .ok ?_
    have body := similar_bodyOf fields length (fun _ among => ne_empty_of_mem_ownTerms among)
      (fun _ among => ne_empty_of_mem_ownTerms among) similar.groups c
    rw [writtenTerms, writtenTerms, List.map_append, List.map_append, similar.terms,
      similar.terms']
    exact body

theorem members_similar (fields : ∀ t ∈ f.targets, IsField t) (escaping : f.mode ≠ .direct)
    (conjunction : Conjunction) (es ds : List Expression) (alike : AllAlike es ds) :
    Agree (MembersSimilar f es ds) (f.members conjunction false es)
      (f.members conjunction false ds) := by
  cases es with
  | nil =>
    cases ds with
    | nil => exact .ok ⟨.nil, rfl, rfl⟩
    | cons d ds => exact alike.elim
  | cons e es =>
    cases ds with
    | nil => exact alike.elim
    | cons d ds =>
      rw [AllAlike] at alike
      obtain ⟨own, others⟩ := alike
      have rest := members_similar fields escaping conjunction es ds others
      cases e with
      | term s =>
        cases d with
        | group => exact own.elim
        | term t =>
          rw [members, members, literal_eq escaping, literal_eq escaping]
          generalize f.members conjunction false es = left at rest
          generalize f.members conjunction false ds = right at rest
          cases rest with
          | error e => exact .error e
          | ok similar =>
            refine .ok ⟨similar.groups, ?_, ?_⟩
            · rw [ownTerms]
              split <;> simp [similar.terms]
            · rw [ownTerms]
              split <;> simp [similar.terms']
      | group c negated escaped children =>
        cases d with
        | term => exact own.elim
        | group c' negated' escaped' children' =>
          rw [Alike] at own
          obtain ⟨rfl, rfl, rfl, rfl, inside⟩ := own
          have bodies := groupBody_similar fields negated inside.length_ownTerms
            (members_similar fields escaping c children children' inside)
          rw [members, members]
          split
          · exact .error _
          · generalize f.groupBody (.group c negated false children) = within at bodies
            generalize f.groupBody (.group c negated false children') = within' at bodies
            cases bodies with
            | error e => exact .error e
            | ok body =>
              generalize f.members conjunction false es = left at rest
              generalize f.members conjunction false ds = right at rest
              cases rest with
              | error e => exact .error e
              | ok behind =>
                have first := body.map fun _ _ _ _ => similar_nestedMember conjunction negated
                have whole := first.append behind.groups
                refine .ok ⟨?_, behind.terms, behind.terms'⟩
                simpa [writtenNested, Option.toList_map] using whole

end

/-- Keys of one shape fail alike or become similar queries. -/
theorem clause_similar {f : Flattening} (fields : ∀ t ∈ f.targets, IsField t)
    (escaping : f.mode ≠ .direct) {keys other : Expression} (alike : Alike keys other) :
    Agree (fun c d => AllSimilar ((f.writtenTerms keys).map (termPiece f.mode))
        ((f.writtenTerms other).map (termPiece f.mode)) c.toList d.toList)
      (f.clause keys) (f.clause other) := by
  cases keys with
  | term s =>
    cases other with
    | group => exact alike.elim
    | term t =>
      rw [clause, clause, if_neg escaping, if_neg escaping]
      exact .error _
  | group c negated escaped children =>
    cases other with
    | term => exact alike.elim
    | group c' negated' escaped' children' =>
      rw [Alike] at alike
      obtain ⟨rfl, rfl, rfl, rfl, inside⟩ := alike
      have bodies := groupBody_similar fields negated inside.length_ownTerms
        (members_similar fields escaping c children children' inside)
      rw [clause, clause]
      generalize f.groupBody (.group c negated false children) = within at bodies
      generalize f.groupBody (.group c negated false children') = within' at bodies
      cases bodies with
      | error e => exact .error e
      | ok body =>
        refine .ok ?_
        have signed := body.map fun _ _ _ _ =>
          Clause.similar_signed (if negated then .mustNot else .must)
        simpa [Option.toList_map] using signed

end Flattening

/-- The literals that the query of keys over fields holds for terms, in order. -/
def termPieces (keys : Expression) (targets : List Target) (mode : Mode) : List Piece :=
  ((Flattening.mk targets mode).writtenTerms keys).map (termPiece mode)

/-- Keys of one shape whose terms are blank together fail alike, or become queries of one outline,
with a gap for each term that is written. What the queries are scanned into is the outline with the
literals of these terms in its gaps; every literal is a term that is not blank, trimmed. -/
theorem compile_structure (targets : List Target) (fields : ∀ t ∈ targets, IsField t) (mode : Mode)
    (escaping : mode ≠ .direct) (keys other : Expression) (alike : Alike keys other) :
    Agree (fun text text' => ∃ outline,
        fillGaps outline (termPieces keys targets mode) = some (scan text.toList) ∧
        fillGaps outline (termPieces other targets mode) = some (scan text'.toList))
      (compile keys targets mode) (compile other targets mode) := by
  have named : ∀ t ∈ (Flattening.mk targets mode).targets, IsField t := fields
  have similar := Flattening.clause_similar named escaping alike
  rw [compile, compile, Flattening.compile, Flattening.compile]
  generalize (Flattening.mk targets mode).clause keys = left at similar
  generalize (Flattening.mk targets mode).clause other = right at similar
  cases similar with
  | error e => exact .error _
  | @ok c d queries =>
    refine .ok ?_
    have text : ∀ c : Option Clause, ((c.map Clause.render).getD "").toList =
        Clause.charsAll c.toList := by
      intro c
      cases c with
      | none => rfl
      | some c => exact Clause.toList_render c
    rw [text, text]
    exact queries.charsAll.scan

def boostedFields : List Target := [⟨"ts_title", "^2.5"⟩, ⟨"ts_body", "~1"⟩]

/-- Two terms and one that is excluded. -/
def ordinaryKeys : Expression :=
  .group .and false false [.term "rust", .term " ", .term "go", (Expression.term "java").negate]

/-- The same with terms that look like syntax. -/
def hostileKeys : Expression :=
  .group .and false false [.term " x)^9 ", .term "", .term "\\", (Expression.term "\" OR").negate]

/-- Ordinary terms and terms that look like syntax, with the literals of both. -/
theorem compile_structure_hostile :
    (∀ t ∈ boostedFields, IsField t) ∧ Alike ordinaryKeys hostileKeys ∧
      (∃ text text' outline, compile ordinaryKeys boostedFields .terms = .ok text ∧
        compile hostileKeys boostedFields .terms = .ok text' ∧
        text = "+(-(ts_title:(+java)^2.5 ts_body:(+java)~1) " ++
          "+((+(ts_title:rust^2.5 ts_body:rust~1) +(ts_title:go^2.5 ts_body:go~1)) " ++
          "ts_title:(+rust +go)^2.5 ts_body:(+rust +go)~1))" ∧
        text' = "+(-(ts_title:(+\\\"\\ OR)^2.5 ts_body:(+\\\"\\ OR)~1) " ++
          "+((+(ts_title:x\\)\\^9^2.5 ts_body:x\\)\\^9~1) +(ts_title:\\\\^2.5 ts_body:\\\\~1)) " ++
          "ts_title:(+x\\)\\^9 +\\\\)^2.5 ts_body:(+x\\)\\^9 +\\\\)~1))" ∧
        fillGaps outline (["java", "java", "rust", "rust", "go", "go", "rust", "go", "rust",
          "go"].map .bare) = some (scan text.toList) ∧
        fillGaps outline (["\" OR", "\" OR", "x)^9", "x)^9", "\\", "\\", "x)^9", "\\", "x)^9",
          "\\"].map .bare) = some (scan text'.toList)) ∧
      ∃ text text' outline, compile ordinaryKeys boostedFields .phrase = .ok text ∧
        compile hostileKeys boostedFields .phrase = .ok text' ∧
        text = "+(-(ts_title:(+\"java\")^2.5 ts_body:(+\"java\")~1) " ++
          "+(ts_title:(+\"rust\" +\"go\")^2.5 ts_body:(+\"rust\" +\"go\")~1))" ∧
        text' = "+(-(ts_title:(+\"\\\" OR\")^2.5 ts_body:(+\"\\\" OR\")~1) " ++
          "+(ts_title:(+\"x)^9\" +\"\\\\\")^2.5 ts_body:(+\"x)^9\" +\"\\\\\")~1))" ∧
        fillGaps outline (["java", "java", "rust", "go", "rust", "go"].map .quoted) =
          some (scan text.toList) ∧
        fillGaps outline (["\" OR", "\" OR", "x)^9", "\\", "x)^9", "\\"].map .quoted) =
          some (scan text'.toList) := by
  have fields : ∀ t ∈ boostedFields, IsField t := by
    rw [boostedFields, List.forall_mem_cons, List.forall_mem_singleton]
    exact ⟨⟨by decide, '^', ['2', '.', '5'], by decide, by decide, by decide⟩,
      ⟨by decide, '~', ['1'], by decide, by decide, by decide⟩⟩
  have alike : Alike ordinaryKeys hostileKeys :=
    ⟨rfl, rfl, rfl, rfl, rfl, rfl, rfl, ⟨rfl, rfl, rfl, rfl, rfl, trivial⟩, trivial⟩
  refine ⟨fields, alike, ?_, ?_⟩
  · have agree :=
      compile_structure boostedFields fields .terms (by decide) ordinaryKeys hostileKeys alike
    have compiles : (compile ordinaryKeys boostedFields .terms).isOk = true := by decide +kernel
    generalize left : compile ordinaryKeys boostedFields .terms = made at agree compiles ⊢
    generalize right : compile hostileKeys boostedFields .terms = made' at agree ⊢
    cases agree with
    | error e => cases compiles
    | ok both =>
      obtain ⟨outline, filled, filled'⟩ := both
      refine ⟨_, _, outline, rfl, rfl, Except.ok.inj (left.symm.trans ?_),
        Except.ok.inj (right.symm.trans ?_), (congrArg (fillGaps outline) ?_).trans filled,
        (congrArg (fillGaps outline) ?_).trans filled'⟩
      all_goals decide +kernel
  · have agree :=
      compile_structure boostedFields fields .phrase (by decide) ordinaryKeys hostileKeys alike
    have compiles : (compile ordinaryKeys boostedFields .phrase).isOk = true := by decide +kernel
    generalize left : compile ordinaryKeys boostedFields .phrase = made at agree compiles ⊢
    generalize right : compile hostileKeys boostedFields .phrase = made' at agree ⊢
    cases agree with
    | error e => cases compiles
    | ok both =>
      obtain ⟨outline, filled, filled'⟩ := both
      refine ⟨_, _, outline, rfl, rfl, Except.ok.inj (left.symm.trans ?_),
        Except.ok.inj (right.symm.trans ?_), (congrArg (fillGaps outline) ?_).trans filled,
        (congrArg (fillGaps outline) ?_).trans filled'⟩
      all_goals decide +kernel

end SearchCompiler.Keys
