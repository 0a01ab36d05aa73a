import Mathlib.Data.List.Basic
import SearchCompiler.Proofs.Clause
import SearchCompiler.Proofs.Keys.Grammar
import SearchCompiler.Proofs.Scan
import SearchCompiler.Request.Assemble

/-!
# Bare literals

Terms of keys and the values of the filter on the index and the site are written as bare terms. The
backend reads a bare term up to the next mark; it takes three words for operators, and nothing at
all is no term (`IsLiteral`). The reader of this module does not know how texts are escaped.

What is written for a text always reads as that text. It is a literal iff the text is not empty and
none of the operator words, which are escaped nowhere (`isLiteral_escapeTerm_iff`). Which texts are
written as bare terms is said by `bareTexts`: of keys they are the trimmed terms that are not blank,
and of a backend the index id and the site hash (`bare_literals_read`). A hash that is derived from
the site name is always a literal.
-/

namespace SearchCompiler.Text

/-- Reads a bare term, or what is left of it behind a backslash: the character behind a backslash is
taken as it is, and no other character may be a mark or a quote. -/
def readBareFrom? : Bool → List Char → Option (List Char)
  | false, [] => some []
  | true, [] => none
  | true, c :: rest => (readBareFrom? false rest).map (c :: ·)
  | false, c :: rest =>
    if c = '\\' then readBareFrom? true rest
    else if isMark c || c == '"' then none
    else (readBareFrom? false rest).map (c :: ·)

def readBare? (cs : List Char) : Option (List Char) := readBareFrom? false cs

/-- The words that the backend takes for operators. -/
def operatorWords : List String := ["AND", "OR", "NOT"]

/-- A written form that the backend reads as one literal, which holds a text. -/
structure IsLiteral (written text : String) : Prop where
  nonempty : written ≠ ""
  read : readBare? written.toList = some text.toList
  plain : written ∉ operatorWords

theorem readBare?_escaped (c : Char) (rest : List Char) :
    readBare? ('\\' :: c :: rest) = (readBare? rest).map (c :: ·) := by
  simp [readBare?, readBareFrom?]

/-- What a bare term does not escape is read as it is. -/
theorem readBare?_plain {c : Char} (plain : needsEscape c = false) (rest : List Char) :
    readBare? (c :: rest) = (readBare? rest).map (c :: ·) := by
  obtain ⟨notEscape, notQuote, notMark⟩ := needsEscape_false plain
  simp [readBare?, readBareFrom?, notEscape, notQuote, notMark]

/-- A bare term reads as the text that it was written for. -/
theorem readBare?_bareTerm (text : List Char) : readBare? (bareTerm text) = some text := by
  induction text with
  | nil => rfl
  | cons c text ih =>
    rw [bareTerm]
    by_cases escaped : needsEscape c = true
    · rw [if_pos escaped, readBare?_escaped, ih, Option.map_some]
    · rw [if_neg escaped, readBare?_plain (Bool.eq_false_iff.mpr escaped), ih, Option.map_some]

theorem readBare?_escapeTerm (text : String) :
    readBare? (escapeTerm text).toList = some text.toList := by
  rw [escapeTerm, String.toList_ofList, readBare?_bareTerm]

/-- Two texts that are written alike are equal. -/
theorem escapeTerm_inj {text other : String} (same : escapeTerm text = escapeTerm other) :
    text = other := by
  have read := readBare?_escapeTerm text
  rw [same, readBare?_escapeTerm, Option.some_inj] at read
  exact (String.toList_injective read).symm

/-- What a written form is that is the same for its text is written for no other text. -/
theorem escapeTerm_eq_iff {text word : String} (kept : escapeTerm word = word) :
    escapeTerm text = word ↔ text = word := by
  constructor
  · intro same
    exact escapeTerm_inj (same.trans kept.symm)
  · rintro rfl
    exact kept

/-- The operator words are escaped nowhere, and no other text is written like one. -/
theorem escapeTerm_operator_iff (text : String) :
    escapeTerm text ∈ operatorWords ↔ text ∈ operatorWords := by
  have and_kept : escapeTerm "AND" = "AND" := by decide
  have or_kept : escapeTerm "OR" = "OR" := by decide
  have not_kept : escapeTerm "NOT" = "NOT" := by decide
  simp [operatorWords, escapeTerm_eq_iff and_kept, escapeTerm_eq_iff or_kept,
    escapeTerm_eq_iff not_kept]

/-- A bare term is a literal unless its text is empty or an operator word. -/
theorem isLiteral_escapeTerm_iff (text : String) :
    IsLiteral (escapeTerm text) text ↔ text ≠ "" ∧ text ∉ operatorWords := by
  have empty : escapeTerm text = "" ↔ text = "" := escapeTerm_eq_iff rfl
  constructor
  · rintro ⟨nonempty, -, plain⟩
    rw [escapeTerm_operator_iff] at plain
    exact ⟨fun nothing => nonempty (empty.mpr nothing), plain⟩
  · rintro ⟨nonempty, plain⟩
    refine ⟨fun nothing => nonempty (empty.mp nothing), readBare?_escapeTerm text, ?_⟩
    rwa [escapeTerm_operator_iff]

end SearchCompiler.Text

namespace SearchCompiler

open Text

def Atom.bareTexts : Atom → List String
  | .term text => [text]
  | _ => []

namespace Clause

mutual

/-- The texts that a clause writes as bare terms. -/
def bareTexts : Clause → List String
  | .atom a => a.bareTexts
  | .signed _ c => c.bareTexts
  | .onField _ c _ => c.bareTexts
  | .list cs => bareTextsAll cs
  | .row cs => bareTextsAll cs
  | .both a b => a.bareTexts ++ b.bareTexts
  | .dismax _ cs => bareTextsAll cs

def bareTextsAll : List Clause → List String
  | [] => []
  | c :: rest => c.bareTexts ++ bareTextsAll rest

end

theorem mem_bareTextsAll {cs : List Clause} {text : String} :
    text ∈ bareTextsAll cs ↔ ∃ c ∈ cs, text ∈ c.bareTexts := by
  induction cs with
  | nil => simp [bareTextsAll]
  | cons c rest ih => rw [bareTextsAll, List.mem_append, ih, List.exists_mem_cons_iff]

theorem bareTextsAll_append (cs ds : List Clause) :
    bareTextsAll (cs ++ ds) = bareTextsAll cs ++ bareTextsAll ds := by
  induction cs with
  | nil => rfl
  | cons c rest ih => rw [List.cons_append, bareTextsAll, ih, bareTextsAll, List.append_assoc]

theorem mem_bareTextsAll_map {α : Type} {f : α → Clause} {xs : List α} {text : String} :
    text ∈ bareTextsAll (xs.map f) ↔ ∃ x ∈ xs, text ∈ (f x).bareTexts := by
  simp [mem_bareTextsAll]

theorem charsAll_within {cs : List Clause} {c : Clause} (member : c ∈ cs) :
    c.chars <:+: charsAll cs := by
  induction cs with
  | nil => cases member
  | cons first rest ih =>
    cases rest with
    | nil =>
      rw [List.mem_singleton.mp member]
      exact List.infix_refl _
    | cons next rest =>
      rw [charsAll_cons_cons]
      rcases List.mem_cons.mp member with rfl | later
      · exact List.infix_append' [] _ _
      · exact (ih later).trans ⟨first.chars ++ [' '], [], by simp⟩

mutual

/-- Every bare term of a clause stands in its written form. -/
theorem bareTerm_within (c : Clause) {text : String} (among : text ∈ c.bareTexts) :
    bareTerm text.toList <:+: c.chars := by
  cases c with
  | atom a =>
    cases a with
    | term own =>
      cases List.mem_singleton.mp among
      exact List.infix_refl _
    | all | phrase | range | nested | raw => cases among
  | signed sign c => exact (bareTerm_within c among).trans (List.suffix_cons _ _).isInfix
  | onField name c suffix =>
    apply (bareTerm_within c among).trans
    rw [chars_onField]
    exact ⟨name.toList ++ [':'], suffix.toList, by simp⟩
  | list cs =>
    apply (bareTerm_within_all cs among).trans
    rw [chars_list]
    exact ⟨['('], [')'], by simp⟩
  | row cs => exact bareTerm_within_all cs among
  | both a b =>
    have both : (Clause.both a b).chars = '(' :: (a.chars ++ " AND ".toList ++ b.chars ++ [')']) :=
      rfl
    rw [both]
    rcases List.mem_append.mp among with left | right
    · exact (bareTerm_within a left).trans ⟨['('], " AND ".toList ++ b.chars ++ [')'], by simp⟩
    · exact (bareTerm_within b right).trans ⟨'(' :: (a.chars ++ " AND ".toList), [')'], by simp⟩
  | dismax targets cs =>
    apply (bareTerm_within_all cs among).trans
    rw [chars_dismax]
    exact (List.suffix_append _ _).isInfix

theorem bareTerm_within_all (cs : List Clause) {text : String} (among : text ∈ bareTextsAll cs) :
    bareTerm text.toList <:+: charsAll cs := by
  cases cs with
  | nil => cases among
  | cons c rest =>
    rw [bareTextsAll] at among
    rcases List.mem_append.mp among with own | later
    · exact (bareTerm_within c own).trans (charsAll_within List.mem_cons_self)
    · apply (bareTerm_within_all rest later).trans
      cases rest with
      | nil => exact List.nil_infix
      | cons next rest =>
        rw [charsAll_cons_cons]
        exact ⟨c.chars ++ [' '], [], by simp⟩

end

end Clause

end SearchCompiler

namespace SearchCompiler.Keys

open Text Clause

mutual

/-- The terms of keys that are not escaped already. -/
def Expression.plainTerms : Expression → List String
  | .term text => [text]
  | .group _ _ escaped children => plainTermsOf escaped children

def Expression.plainTermsOf (escaped : Bool) : List Expression → List String
  | [] => []
  | .term text :: rest => (if escaped then [] else [text]) ++ plainTermsOf escaped rest
  | .group c negated e children :: rest =>
    (Expression.group c negated e children).plainTerms ++ plainTermsOf escaped rest

end

open Expression

/-- A text that is what trimming leaves of some term. -/
def IsShown (terms : List String) (text : String) : Prop :=
  ∃ term ∈ terms, isBlankText term = false ∧ trimText term = text

theorem isShown_append {terms others : List String} {text : String} :
    IsShown (terms ++ others) text ↔ IsShown terms text ∨ IsShown others text := by
  simp [IsShown, or_and_right, exists_or]

/-- Trimming leaves something of a term that is not blank. -/
theorem IsShown.ne_empty {terms : List String} {text : String} (shows : IsShown terms text) :
    text ≠ "" := by
  obtain ⟨term, -, shown, rfl⟩ := shows
  intro empty
  have nothing := congrArg String.toList empty
  rw [trimText, String.toList_ofList] at nothing
  exact trim_ne_nil shown nothing

namespace Flattening

variable {f : Flattening} {text : String}

theorem bareTexts_under (conjunction : Conjunction) (c : Clause) :
    (under conjunction c).bareTexts = c.bareTexts := by
  cases conjunction <;> rfl

theorem bareTexts_nestedMember (conjunction : Conjunction) (negated : Bool) (c : Clause) :
    (nestedMember conjunction negated c).bareTexts = c.bareTexts := by
  cases negated with
  | true => rfl
  | false => exact bareTexts_under conjunction c

theorem mem_under {conjunction : Conjunction} {cs : List Clause} :
    text ∈ bareTextsAll (cs.map (under conjunction)) ↔ text ∈ bareTextsAll cs := by
  simp [mem_bareTextsAll, bareTexts_under]

/-- A clause has the same terms on every target. -/
theorem mem_onTargets {targets : List Target} (targeted : targets ≠ []) {c : Clause} :
    text ∈ bareTextsAll (targets.map (onTarget c)) ↔ text ∈ c.bareTexts := by
  obtain ⟨t, among⟩ := List.exists_mem_of_ne_nil targets targeted
  rw [mem_bareTextsAll_map]
  exact ⟨fun ⟨_, _, own⟩ => own, fun own => ⟨t, among, own⟩⟩

/-- Spreading terms over fields neither adds nor loses one. -/
theorem mem_termClauses {conjunction : Conjunction} {beside : Bool} {terms : List Clause} :
    text ∈ bareTextsAll (f.termClauses conjunction beside terms) ↔ text ∈ bareTextsAll terms := by
  unfold termClauses
  dsimp only
  split
  · next empty => rw [List.isEmpty_iff.mp empty]
  split
  · exact mem_under
  · next targeted =>
    rw [List.isEmpty_iff] at targeted
    have perField : text ∈ bareTextsAll
        (f.targets.map (onTarget (.list (terms.map (under conjunction))))) ↔
          text ∈ bareTextsAll terms := by
      rw [mem_onTargets targeted, bareTexts, mem_under]
    have perTerm : text ∈ bareTextsAll (terms.map fun t =>
        under conjunction (.list (f.targets.map (onTarget t)))) ↔ text ∈ bareTextsAll terms := by
      rw [mem_bareTextsAll_map, mem_bareTextsAll]
      simp only [bareTexts_under, bareTexts, mem_onTargets targeted]
    split
    · simp [bareTextsAll, bareTexts, mem_under]
    · have alternatives : text ∈ bareTextsAll
          ((if f.mode = .terms ∧ 1 < f.targets.length ∧ 1 < terms.length then
            [Clause.list
              (terms.map fun t => under conjunction (.list (f.targets.map (onTarget t))))]
          else []) ++ f.targets.map (onTarget (.list (terms.map (under conjunction))))) ↔
            text ∈ bareTextsAll terms := by
        rw [bareTextsAll_append, List.mem_append, perField]
        split
        · simp [bareTextsAll, bareTexts, perTerm]
        · simp [bareTextsAll]
      split
      · rw [bareTextsAll, bareTextsAll, List.append_nil, bareTexts_under, bareTexts, alternatives]
      · exact alternatives

/-- The body of a group has the terms of its nested groups and its own. -/
theorem mem_bodyOf {conjunction : Conjunction} {groups terms : List Clause} :
    (∃ c ∈ f.bodyOf conjunction groups terms, text ∈ c.bareTexts) ↔
      text ∈ bareTextsAll groups ∨ text ∈ bareTextsAll terms := by
  have parts : text ∈ bareTextsAll (groups ++ f.termClauses conjunction (!groups.isEmpty) terms) ↔
      text ∈ bareTextsAll groups ∨ text ∈ bareTextsAll terms := by
    rw [bareTextsAll_append, List.mem_append, mem_termClauses]
  unfold bodyOf
  dsimp only
  rw [← parts]
  split
  · next empty =>
    rw [List.isEmpty_iff.mp empty]
    simp [bareTextsAll]
  · simp [bareTexts]

/-- Terms that are not escaped already become bare terms, unless they are blank. -/
theorem mem_literal (typed : f.mode = .terms ∨ f.mode = .edismax) (escaped : Bool) (term : String) :
    text ∈ bareTextsAll (literal f.mode escaped term).toList ↔
      IsShown (if escaped then [] else [term]) text := by
  have bare : text ∈ bareTextsAll [.atom (.term (trimText term))] ↔ trimText term = text :=
    List.mem_singleton.trans eq_comm
  unfold literal
  cases shown : isBlankText term with
  | true => cases escaped <;> simp [bareTextsAll, IsShown, shown]
  | false =>
    cases escaped with
    | true => simp [bareTextsAll, bareTexts, Atom.bareTexts, IsShown]
    | false =>
      rcases typed with mode | mode
      · simpa [mode, IsShown, shown] using bare
      · simpa [mode, IsShown, shown] using bare

/-- The clauses of the members of a group have the terms below it. -/
theorem mem_members (typed : f.mode = .terms ∨ f.mode = .edismax) (conjunction : Conjunction)
    (escaped : Bool) (es : List Expression) {groups terms : List Clause}
    (success : f.members conjunction escaped es = .ok (groups, terms)) :
    (text ∈ bareTextsAll groups ∨ text ∈ bareTextsAll terms) ↔
      IsShown (plainTermsOf escaped es) text := by
  cases es with
  | nil =>
    cases success
    simp [bareTextsAll, plainTermsOf, IsShown]
  | cons e rest =>
    cases e with
    | term own =>
      rw [members] at success
      split at success
      · cases success
      · next groups terms read =>
        cases success
        rw [plainTermsOf, isShown_append, ← mem_members typed conjunction escaped rest read,
          bareTextsAll_append, List.mem_append, mem_literal typed, or_left_comm]
    | group c negated escaped' children =>
      rw [members] at success
      split at success
      · cases success
      rw [groupBody] at success
      split at success
      · cases success
      next body made =>
      split at made
      · cases made
      next groups' terms' inside =>
      cases made
      split at success
      · cases success
      next groups terms read =>
      cases success
      have nested : text ∈ bareTextsAll
          ((f.bodyOf c groups' terms').map (nestedMember conjunction negated)).toList ↔
            IsShown (plainTermsOf escaped' children) text := by
        rw [← mem_members typed c escaped' children inside, ← mem_bodyOf]
        cases f.bodyOf c groups' terms' with
        | none => simp [bareTextsAll]
        | some body => simp [bareTextsAll, bareTexts_nestedMember]
      rw [plainTermsOf, plainTerms, isShown_append,
        ← mem_members typed conjunction escaped rest read, bareTextsAll_append, List.mem_append,
        nested, or_assoc]

/-- The query of keys has the terms of the keys. -/
theorem mem_query (typed : f.mode = .terms ∨ f.mode = .edismax) {keys : Expression} {query : Clause}
    (success : f.compile keys = .ok (some query)) :
    text ∈ query.bareTexts ↔ IsShown keys.plainTerms text := by
  unfold compile at success
  cases keys with
  | term own =>
    have indirect : f.mode ≠ .direct := by
      rcases typed with mode | mode <;> simp [mode]
    rw [clause, if_neg indirect] at success
    cases success
  | group conjunction negated escaped children =>
    rw [clause, groupBody] at success
    cases inside : f.members conjunction escaped children with
    | error fault =>
      rw [inside] at success
      cases success
    | ok clauses =>
      obtain ⟨groups, terms⟩ := clauses
      rw [inside] at success
      obtain ⟨body, made, rfl⟩ := Option.map_eq_some_iff.mp (Except.ok.inj success)
      rw [plainTerms, ← mem_members typed conjunction escaped children inside, ← mem_bodyOf, made]
      simp [bareTexts]

end Flattening

end SearchCompiler.Keys

namespace SearchCompiler.Index

/-- The digits of a number to the base 36 are small letters and digits. -/
theorem lastDigits_small (count n : Nat) :
    (lastDigits count n).length = count ∧ ∀ c ∈ lastDigits count n, c.isUpper = false := by
  have digit : ∀ d < 36, (if d < 10 then Char.ofNat ('0'.toNat + d)
      else Char.ofNat ('a'.toNat + (d - 10))).isUpper = false := by decide
  induction count generalizing n with
  | zero => exact ⟨rfl, nofun⟩
  | succ count ih =>
    obtain ⟨length, small⟩ := ih (n / 36)
    rw [lastDigits]
    refine ⟨by simp [length], fun c among => ?_⟩
    rcases List.mem_append.mp among with front | last
    · exact small c front
    · rw [List.mem_singleton.mp last]
      exact digit _ (Nat.mod_lt _ (by decide))

/-- A derived hash is a literal. -/
theorem isLiteral_siteHash (name : String) :
    Text.IsLiteral (Text.escapeTerm (siteHash name)) (siteHash name) := by
  obtain ⟨length, small⟩ := lastDigits_small 6 (digest name.toUTF8.toList).toNat
  have large : ∀ word ∈ Text.operatorWords, ∃ c ∈ word.toList, c.isUpper = true := by
    simp only [Text.operatorWords, List.forall_mem_cons]
    exact ⟨⟨'A', by decide, rfl⟩, ⟨'O', by decide, rfl⟩, ⟨'N', by decide, rfl⟩, nofun⟩
  rw [Text.isLiteral_escapeTerm_iff]
  constructor
  · intro empty
    rw [siteHash, String.ofList_eq_empty_iff] at empty
    rw [empty] at length
    cases length
  · intro operator
    obtain ⟨c, among, upper⟩ := large _ operator
    rw [siteHash, String.toList_ofList] at among
    rw [small c among] at upper
    cases upper

end SearchCompiler.Index

namespace SearchCompiler.Request

open Text

theorem render_scopeFilter (a : Assembly) :
    a.scopeFilter.render = "+index_id:" ++ escapeTerm a.schema.scope.indexId ++ " +hash:" ++
      escapeTerm a.schema.scope.siteHash := by
  have parts : a.scopeFilter.chars =
      '+' :: ("index_id".toList ++ ':' :: (bareTerm a.schema.scope.indexId.toList ++ [])) ++
        ' ' :: '+' :: ("hash".toList ++ ':' :: (bareTerm a.schema.scope.siteHash.toList ++ [])) :=
    rfl
  apply String.toList_injective
  rw [Clause.toList_render, parts]
  simp [escapeTerm]

/-- The bare terms in the query of keys are those of the terms that are neither blank nor escaped
already, trimmed; each of them reads as its term, and is a literal unless that is an operator word.
The filter on the index and the site has two bare terms. They read as the index id and the hash of
the backend; the one is a literal unless the id is empty or an operator word, and so is the other
unless such a hash is given. -/
theorem bare_literals_read (a : Assembly) (b : Index.BackendSettings)
    (scope : a.schema.scope = b.scope) :
    (∀ (keys : Keys.Expression) (targets : List Target) (mode : Keys.Mode) (query : Clause),
      mode = .terms ∨ mode = .edismax →
      (Keys.Flattening.mk targets mode).compile keys = .ok (some query) →
        (∀ text, text ∈ query.bareTexts ↔ Keys.IsShown keys.plainTerms text) ∧
        ∀ text ∈ query.bareTexts,
          (escapeTerm text).toList <:+: query.chars ∧
          readBare? (escapeTerm text).toList = some text.toList ∧
          (IsLiteral (escapeTerm text) text ↔ text ∉ operatorWords)) ∧
    a.scopeFilter.render = "+index_id:" ++ escapeTerm b.indexId ++ " +hash:" ++
      escapeTerm b.scope.siteHash ∧
    readBare? (escapeTerm b.indexId).toList = some b.indexId.toList ∧
    readBare? (escapeTerm b.scope.siteHash).toList = some b.scope.siteHash.toList ∧
    (IsLiteral (escapeTerm b.indexId) b.indexId ↔
      b.indexId ≠ "" ∧ b.indexId ∉ operatorWords) ∧
    (IsLiteral (escapeTerm b.scope.siteHash) b.scope.siteHash ↔
      ∀ given, b.siteHash = some given → given ≠ "" ∧ given ∉ operatorWords) := by
  refine ⟨fun keys targets mode query typed success => ?_, ?_, readBare?_escapeTerm _,
    readBare?_escapeTerm _, isLiteral_escapeTerm_iff _, ?_⟩
  · have terms : ∀ text, text ∈ query.bareTexts ↔ Keys.IsShown keys.plainTerms text :=
      fun text => Keys.Flattening.mem_query (f := ⟨targets, mode⟩) typed success
    refine ⟨terms, fun text among => ⟨?_, readBare?_escapeTerm text, ?_⟩⟩
    · rw [escapeTerm, String.toList_ofList]
      exact Clause.bareTerm_within query among
    · rw [isLiteral_escapeTerm_iff]
      exact and_iff_right ((terms text).mp among).ne_empty
  · rw [render_scopeFilter, scope]
    rfl
  · cases given : b.siteHash with
    | none =>
      have derived : b.scope.siteHash = Index.siteHash b.siteName := by
        simp [Index.BackendSettings.scope, given]
      rw [derived]
      exact iff_of_true (Index.isLiteral_siteHash _) nofun
    | some hash =>
      have same : b.scope.siteHash = hash := by
        simp [Index.BackendSettings.scope, given]
      rw [same, isLiteral_escapeTerm_iff]
      simp

/-- A backend whose items carry a given site hash. -/
def hashed (indexId siteHash : String) : Index.BackendSettings :=
  { Index.BackendSettings.standard with indexId, siteHash := some siteHash }

def assemblyOn (b : Index.BackendSettings) : Assembly :=
  ⟨⟨Index.Catalog.ofSchema (Index.Schema.ofBackend b), .skip⟩, Index.SearchSettings.standard⟩

/-- A term with pluses, and the id of an index with a colon. -/
theorem bare_literals_read_cpp :
    (Keys.Mode.terms = .terms ∨ Keys.Mode.terms = .edismax) ∧
      Keys.compile (.group .or false false [.term " c++ ", .term " "]) [] .terms =
        .ok "+(c\\+\\+)" ∧
      IsLiteral "c\\+\\+" "c++" ∧
      (assemblyOn (hashed "a:b" "x")).schema.scope = (hashed "a:b" "x").scope ∧
      (assemblyOn (hashed "a:b" "x")).scopeFilter.render = "+index_id:a\\:b +hash:x" ∧
      IsLiteral "a\\:b" "a:b" ∧ IsLiteral "x" "x" := by
  have made : (Keys.Flattening.mk [] .terms).compile
      (.group .or false false [.term " c++ ", .term " "]) =
        .ok (some (Clause.list [.atom (.term "c++")]).must) := by
    rfl
  obtain ⟨ofKeys, written, -, -, idLiteral, hashLiteral⟩ :=
    bare_literals_read (assemblyOn (hashed "a:b" "x")) (hashed "a:b" "x") rfl
  obtain ⟨-, literals⟩ := ofKeys _ _ _ _ (.inl rfl) made
  obtain ⟨-, -, literal⟩ := literals "c++" (by decide)
  refine ⟨.inl rfl, by decide +kernel, literal.mpr (by decide), rfl, written, ?_, ?_⟩
  · exact idLiteral.mpr (by decide)
  · apply hashLiteral.mpr
    rintro given ⟨⟩
    decide

/-- A quoted operator word becomes an operator word of the query, and the filter on an index without
an id has a part without a term. -/
theorem quoted_operator_not_literal :
    Keys.parse "\"OR\"" .terms .and = .ok (some (.group .and false false [.term "OR"])) ∧
      Keys.compile (.group .and false false [.term "OR"]) [] .terms = .ok "+(+OR)" ∧
      Keys.IsShown (Keys.Expression.group .and false false [.term "OR"]).plainTerms "OR" ∧
      ¬ IsLiteral (escapeTerm "OR") "OR" ∧
      (assemblyOn (hashed "" "abc")).scopeFilter.render = "+index_id: +hash:abc" ∧
      ¬ IsLiteral (escapeTerm "") "" := by
  have cut : Keys.lex "\"OR\"" = .ok [⟨.phrase "OR", 0⟩] := by
    have blanks : isBlank '"' = false ∧ isBlank 'O' = false ∧ isBlank 'R' = false := by decide
    simp [Keys.lex, Keys.lexFrom_cons, Keys.lexFrom_nil, Keys.bytes, blanks]
  have read : Keys.parse "\"OR\"" .terms .and =
      .ok (some (.group .and false false [.term "OR"])) :=
    (Keys.parse_iff _ _ _).mpr
      ⟨by decide, _, cut, .single (.single (.phrase "OR")), rfl, rfl⟩
  refine ⟨read, by decide +kernel, ⟨"OR", by decide, by decide, by decide⟩, ?_, ?_, ?_⟩
  · simp [isLiteral_escapeTerm_iff, operatorWords]
  · rfl
  · simp [isLiteral_escapeTerm_iff]

end SearchCompiler.Request
