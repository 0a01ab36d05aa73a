import SearchCompiler.Proofs.Compile.Leaf
import SearchCompiler.Proofs.Reading

/-!
# The meaning of compiled conditions

A group of conditions is a formula over its leaf queries: AND and OR over the members that add a
filter, where a leaf query behind a minus counts as a negation (`itemValue`). The filters that a
group is compiled into hold together iff that formula does, and with it the filter on the languages
where one is added (`conditions_meaning`).

The proof follows a fragment through `Fragment.reduce` as a query tree. What is written decides
about signs by its first character, so the invariant (`Reads`) keeps two facts together: the text is
the written form of the tree, and no leaf of the tree begins with a sign by itself.
-/

namespace SearchCompiler.Compile

open Filter QueryTree

def leafTree (c : Clause) : QueryTree String :=
  .leaf c.sign? c.unsigned.render

theorem chars_leafTree (c : Clause) : (leafTree c).chars String.toList = c.chars := by
  have parts : c.chars = signChars c.sign? ++ c.unsigned.chars := by
    cases c <;> rfl
  rw [parts, leafTree, chars, Clause.toList_render]

/-- A leaf query that shows no sign of its own. -/
def Unsigned (query : String) : Prop :=
  startsWithSign query.toList = false

/-- The text of a fragment is the written form of a query tree over unsigned leaf queries. -/
structure Reads (f : Fragment) (t : QueryTree String) : Prop where
  text : f.clause.chars = t.chars String.toList
  unsigned : ∀ query ∈ t.leaves, Unsigned query

/-- Behind its sign, if there is one, a choice shows no other. -/
theorem startsWithSign_anyOf {cs : List Clause}
    (each : ∀ c ∈ cs, startsWithSign c.unsigned.chars = false) :
    startsWithSign (Clause.anyOf cs).unsigned.chars = false := by
  cases cs with
  | nil => rfl
  | cons c rest =>
    cases rest with
    | nil => exact each c List.mem_cons_self
    | cons d rest => rfl

/-- The first character of a compiled condition is a sign only where the condition was given one. -/
theorem LeafForm.unsigned {named : String → Prop} {c : Clause}
    (words : ∀ name, named name → Name.IsWord name) (form : LeafForm named c) :
    startsWithSign c.unsigned.chars = false := by
  have onField : ∀ name, named name → ∀ (c : Clause) (suffix : String),
      startsWithSign (Clause.onField name c suffix).chars = false := fun name known =>
    startsWithSign_onField (words name known)
  cases form with
  | absent name known => exact onField name known _ _
  | present name known => exact onField name known _ _
  | equals name text known => exact onField name known _ _
  | differs name text known => rfl
  | range name lower upper withBounds known => exact onField name known _ _
  | outside name low high known => rfl
  | oneOf name texts orAbsent known some =>
    refine startsWithSign_anyOf fun c member => ?_
    rcases List.mem_append.mp member with equal | absent
    · obtain ⟨text, -, rfl⟩ := List.mem_map.mp equal
      exact onField name known _ _
    · split at absent
      · cases List.mem_singleton.mp absent
        rfl
      · cases absent
  | noneOf name texts andPresent known =>
    unfold notInClause
    split
    · exact onField name known _ _
    · rfl
  | circle name circle known => rfl
  | allAbsent names known => rfl
  | anyPresent names known some =>
    refine startsWithSign_anyOf fun c member => ?_
    obtain ⟨name, among, rfl⟩ := List.mem_map.mp member
    exact onField name (known name among) _ _
  | phrases sign names texts known some shown => rfl

theorem reads_leafTree {named : String → Prop} {f : Fragment}
    (words : ∀ name, named name → Name.IsWord name) (form : LeafForm named f.clause) :
    Reads f (leafTree f.clause) := by
  refine ⟨(chars_leafTree f.clause).symm, fun query member => ?_⟩
  rw [leafTree, leaves, List.mem_singleton] at member
  rw [member, Unsigned, Clause.toList_render]
  exact form.unsigned words

namespace Reads

variable {f : Fragment} {t : QueryTree String}

/-- The first character of a fragment tells whether its tree has a sign. -/
theorem isSigned (reads : Reads f t) : f.clause.isSigned = t.sign.isSome := by
  rw [Clause.isSigned_eq, reads.text]
  cases t with
  | leaf sign query =>
    cases sign with
    | some s => exact startsWithSign_sign s _
    | none => exact reads.unsigned query (by simp [leaves])
  | list sign clauses =>
    cases sign with
    | some s => exact startsWithSign_sign s _
    | none => rfl

theorem withTags (reads : Reads f t) (tags : Text.TextSet) : Reads (f.withTags tags) t :=
  ⟨reads.text, reads.unsigned⟩

/-- A fragment is put under a conjunction like the tree that it is read as. -/
theorem chars_memberClause (reads : Reads f t) (conjunction : Conjunction) :
    (f.memberClause conjunction).chars = (t.member conjunction).chars String.toList := by
  unfold Fragment.memberClause member
  rw [reads.isSigned]
  cases conjunction <;> cases signed : t.sign <;> dsimp only [Option.isSome]
  · rw [if_neg Bool.false_ne_true, chars_withSign _ signed, Clause.must, Clause.chars_signed,
      reads.text]
    rfl
  · exact reads.text
  · exact reads.text
  · rw [if_pos rfl, Clause.chars_list, Clause.charsAll_single, reads.text]
    rfl

end Reads

theorem charsAll_members {conjunction : Conjunction} {fs : List Fragment}
    {ts : List (QueryTree String)} (reads : List.Forall₂ Reads fs ts) :
    Clause.charsAll (fs.map (Fragment.memberClause conjunction)) =
      charsAll String.toList (ts.map (member conjunction)) := by
  apply charsAll_eq
  rw [List.forall₂_map_left_iff, List.forall₂_map_right_iff]
  exact reads.imp fun f t read => read.chars_memberClause conjunction

/-- Trees folded under a conjunction, like fragments. -/
def foldTrees (conjunction : Conjunction) : List (QueryTree String) → Option (QueryTree String)
  | [] => none
  | [single] => some single
  | several => some (.list none (several.map (member conjunction)))

/-- Trees folded under a conjunction at the top, without parentheses. -/
def foldWhole (conjunction : Conjunction) : List (QueryTree String) → Option (WholeQuery String)
  | [] => none
  | [single] => some (.clause single)
  | several => some (.row (several.map (member conjunction)))

/-- Only two or more trees are folded into a row. -/
theorem isRow_foldWhole (conjunction : Conjunction) (ts : List (QueryTree String)) :
    (∃ q ∈ foldWhole conjunction ts, q.isRow = true) ↔ 2 ≤ ts.length := by
  cases ts with
  | nil => simp [foldWhole]
  | cons t rest =>
    cases rest with
    | nil => simp [foldWhole, WholeQuery.isRow]
    | cons u rest => simp [foldWhole, WholeQuery.isRow]

/-- Folding trees combines their values, with the ambient conjunction. -/
theorem holds_foldTrees (truth : String → Bool) (conjunction : Conjunction)
    (ts : List (QueryTree String)) :
    (foldTrees conjunction ts).map (holds truth) = conjunction.value? (ts.map (holds truth)) := by
  unfold foldTrees
  split
  · rfl
  · next single => cases conjunction <;> simp [Conjunction.value?]
  · next several some _ =>
    rw [← clausesHold_members truth conjunction some]
    rfl

/-- Without parentheses the folded trees have the same value. -/
theorem holds_foldWhole (truth : String → Bool) (conjunction : Conjunction)
    (ts : List (QueryTree String)) :
    (foldWhole conjunction ts).map (WholeQuery.holds truth) =
      conjunction.value? (ts.map (holds truth)) := by
  unfold foldWhole
  split
  · rfl
  · next single => cases conjunction <;> simp [Conjunction.value?, WholeQuery.holds]
  · next several some _ =>
    rw [← clausesHold_members truth conjunction some]
    rfl

/-- Signs and parentheses add no leaves. -/
theorem leaves_members {conjunction : Conjunction} {fs : List Fragment}
    {ts : List (QueryTree String)} (reads : List.Forall₂ Reads fs ts) :
    ∀ query ∈ leavesAll (ts.map (member conjunction)), Unsigned query := by
  induction reads with
  | nil => simp [leavesAll]
  | @cons f t fs ts head rest ih =>
    intro query among
    rw [List.map_cons, leavesAll, leaves_member, List.mem_append] at among
    rcases among with first | other
    · exact head.unsigned query first
    · exact ih query other

/-- Fragments that are read as trees fold into one that is read as the folded tree. -/
theorem reduce_reads (conjunction : Conjunction) (tags : Text.TextSet) {fs : List Fragment}
    {ts : List (QueryTree String)} (reads : List.Forall₂ Reads fs ts) :
    Option.Rel Reads (Fragment.reduce fs conjunction tags false) (foldTrees conjunction ts) := by
  cases reads with
  | nil => exact .none
  | @cons f t fs ts head rest =>
    cases rest with
    | nil => exact .some (head.withTags tags)
    | @cons g u fs ts next rest =>
      have all := List.Forall₂.cons head (.cons next rest)
      refine .some ⟨?_, leaves_members all⟩
      exact congrArg ('(' :: · ++ [')']) (charsAll_members all)

/-- The query of a fragment is the written form of a tree over unsigned leaf queries; parentheses
are left out only around the alternatives of an OR group at the top. -/
structure ReadsWhole (outermost : Conjunction) (f : Fragment) (q : WholeQuery String) : Prop where
  text : f.query.toList = q.chars String.toList
  unsigned : ∀ query ∈ q.leaves, Unsigned query
  row_or : q.isRow = true → outermost = .or

theorem Reads.whole {f : Fragment} {t : QueryTree String} (reads : Reads f t)
    (outermost : Conjunction) : ReadsWhole outermost f (.clause t) :=
  ⟨(Clause.toList_render _).trans reads.text, reads.unsigned,
    fun row => absurd row Bool.false_ne_true⟩

/-- Alternatives at the top are read without parentheses, and with the same value. -/
theorem reduce_readsWhole (tags : Text.TextSet) {fs : List Fragment} {ts : List (QueryTree String)}
    (reads : List.Forall₂ Reads fs ts) :
    Option.Rel (ReadsWhole .or) (Fragment.reduce fs .or tags true) (foldWhole .or ts) := by
  cases reads with
  | nil => exact .none
  | @cons f t fs ts head rest =>
    cases rest with
    | nil => exact .some ((head.withTags tags).whole .or)
    | @cons g u fs ts next rest =>
      have all := List.Forall₂.cons head (.cons next rest)
      exact .some ⟨(Clause.toList_render _).trans (charsAll_members all), leaves_members all,
        fun _ => rfl⟩

theorem forall₂_toList {α β : Type} {related : α → β → Prop} {a : Option α} {b : Option β}
    (rel : Option.Rel related a b) : List.Forall₂ related a.toList b.toList := by
  cases rel with
  | none => exact .nil
  | some head => exact .cons head .nil

/-- The filters of the group at the top hold together as its conjunction says. A row is among them
iff they are alternatives, and two or more. -/
theorem filters_read (conjunction : Conjunction) (tags : Text.TextSet) {fs : List Fragment}
    {ts : List (QueryTree String)} (reads : List.Forall₂ Reads fs ts) :
    ∃ qs, List.Forall₂ (ReadsWhole conjunction)
        (match conjunction with
          | .and => fs.map (Fragment.withTags · tags)
          | .or => (Fragment.reduce fs .or tags true).toList) qs ∧
      ((∃ q ∈ qs, q.isRow = true) ↔ conjunction = .or ∧ 2 ≤ fs.length) ∧
      ∀ truth, (∀ q ∈ qs, WholeQuery.holds truth q = true) ↔
        (conjunction.value? (ts.map (holds truth))).getD true = true := by
  cases conjunction with
  | and =>
    refine ⟨ts.map .clause, ?_, ?_, fun truth => ?_⟩
    · dsimp only
      rw [List.forall₂_map_left_iff, List.forall₂_map_right_iff]
      exact reads.imp fun f t read => (read.withTags tags).whole .and
    · simp [WholeQuery.isRow]
    · cases ts with
      | nil => simp [Conjunction.value?]
      | cons t rest => simp [Conjunction.value?, WholeQuery.holds]
  | or =>
    refine ⟨(foldWhole .or ts).toList, ?_, ?_, fun truth => ?_⟩
    · exact forall₂_toList (reduce_readsWhole tags reads)
    · rw [reads.length_eq, ← isRow_foldWhole .or ts]
      simp
    · rw [← holds_foldWhole truth .or ts]
      cases foldWhole .or ts <;> simp

namespace Context

mutual

/-- The value of a member of a group, given the truth of the leaf queries without their signs; a
member that adds no filter has none. -/
def itemValue (ctx : Context) (truth : String → Bool) (languages : List LanguageId) :
    Item → Option Bool
  | .condition c =>
    match (ctx.condition languages c).outcome with
    | .ok (some f) => some ((leafTree f.clause).holds truth)
    | _ => none
  | .group conjunction members _ =>
    conjunction.value? (ctx.itemValues truth (languagesWithin languages members) members)

def itemValues (ctx : Context) (truth : String → Bool) (languages : List LanguageId) :
    List Item → List Bool
  | [] => []
  | member :: rest =>
    (ctx.itemValue truth languages member).toList ++ ctx.itemValues truth languages rest

end

/-- The value of the filter on the languages, where one is added: unless the backend is foreign, no
language is asked for, or the group restricts the language itself. -/
def ambientValue (ctx : Context) (truth : String → Bool) (languages : List LanguageId)
    (group : Group) : Option Bool :=
  match languageOverride group.members with
  | .ok none =>
    if ctx.schema.foreign || languages.isEmpty then none
    else ctx.itemValue truth languages (.condition (languageCondition languages))
  | _ => none

mutual

/-- Whatever a member becomes is read as a tree that has the value of the member. -/
theorem item_reads {ctx : Context} (builtIn : ctx.spatial.IsBuiltIn)
    (words : ∀ name, ctx.IsName name → Name.IsWord name) (languages : List LanguageId) (i : Item)
    {o : Option Fragment} (success : (ctx.item languages i).outcome = .ok o) :
    ∃ t, Option.Rel Reads o t ∧ ∀ truth, t.map (holds truth) = ctx.itemValue truth languages i := by
  cases i with
  | condition c =>
    rw [item] at success
    cases o with
    | none =>
      refine ⟨none, .none, fun truth => ?_⟩
      rw [itemValue, success]
      rfl
    | some f =>
      have read := reads_leafTree words (condition_form builtIn success)
      refine ⟨some (leafTree f.clause), .some read, fun truth => ?_⟩
      rw [itemValue, success]
      rfl
  | group conjunction members tags =>
    obtain ⟨fs, compiled, rfl⟩ := group_outcome success
    obtain ⟨ts, reads, values⟩ :=
      items_reads builtIn words (languagesWithin languages members) members compiled
    refine ⟨foldTrees conjunction ts, reduce_reads conjunction tags reads, fun truth => ?_⟩
    rw [holds_foldTrees, values truth, itemValue]

theorem items_reads {ctx : Context} (builtIn : ctx.spatial.IsBuiltIn)
    (words : ∀ name, ctx.IsName name → Name.IsWord name) (languages : List LanguageId)
    (is : List Item) {fs : List Fragment}
    (success : (ctx.items languages is).outcome = .ok fs) :
    ∃ ts, List.Forall₂ Reads fs ts ∧
      ∀ truth, ts.map (holds truth) = ctx.itemValues truth languages is := by
  cases is with
  | nil =>
    cases success
    exact ⟨[], .nil, fun truth => rfl⟩
  | cons i rest =>
    obtain ⟨o, others, compiled, rest_compiled, rfl⟩ := items_cons_eq_ok success
    obtain ⟨t, read, value⟩ := item_reads builtIn words languages i compiled
    obtain ⟨ts, reads, values⟩ := items_reads builtIn words languages rest rest_compiled
    refine ⟨t.toList ++ ts, ?_, fun truth => ?_⟩
    · cases read with
      | none => exact reads
      | some head => exact .cons head reads
    · rw [List.map_append, values truth, itemValues, ← value truth]
      cases t <;> rfl

end

/-- Compiling preserves the boolean meaning of a group of conditions, where a builder of the
compiler's own writes the queries of locations. A row without parentheses comes from an OR group
of which two or more members add a filter, and from nothing else. -/
theorem conditions_meaning (ctx : Context) (languages : List LanguageId) (group : Group)
    (fragments : List Fragment) (builtIn : ctx.spatial.IsBuiltIn)
    (words : ∀ name, ctx.IsName name → Name.IsWord name)
    (success : (ctx.conditions languages group).outcome = .ok fragments) :
    ∃ (queries : List (WholeQuery String)) (members : List Fragment),
      List.Forall₂ (ReadsWhole group.conjunction) fragments queries ∧
      (ctx.items (languagesWithin languages group.members) group.members).outcome = .ok members ∧
      ((∃ q ∈ queries, q.isRow = true) ↔ group.conjunction = .or ∧ 2 ≤ members.length) ∧
      ∀ truth, (∀ q ∈ queries, WholeQuery.holds truth q = true) ↔
        (ctx.itemValue truth languages group.toItem).getD true = true ∧
        (ctx.ambientValue truth languages group).getD true = true := by
  rw [conditions, Traced.outcome_bind] at success
  obtain ⟨override, scope, success⟩ := bind_eq_ok success
  rw [Traced.outcome_bind] at success
  obtain ⟨fs, compiled, success⟩ := bind_eq_ok success
  obtain ⟨ts, reads, values⟩ :=
    items_reads builtIn words (override.getD languages) group.members compiled
  obtain ⟨qs, filters, rows, meaning⟩ := filters_read group.conjunction group.tags reads
  rw [Traced.outcome_ofExcept] at scope
  have within : languagesWithin languages group.members = override.getD languages :=
    languagesWithin_eq scope languages
  have value : ∀ truth, ctx.itemValue truth languages group.toItem =
      group.conjunction.value? (ts.map (holds truth)) := by
    intro truth
    rw [Group.toItem, itemValue, within, values truth]
  have ambient : ∀ truth, ctx.ambientValue truth languages group =
      if override.isNone && !ctx.schema.foreign && !languages.isEmpty then
        ctx.itemValue truth languages (.condition (languageCondition languages))
      else none := by
    intro truth
    rw [ambientValue, scope]
    cases override <;> cases ctx.schema.foreign <;> cases languages.isEmpty <;> rfl
  rw [within]
  dsimp only at success
  split at success
  · next asked =>
    rw [Traced.outcome_bind] at success
    obtain ⟨o, language, success⟩ := bind_eq_ok success
    cases success
    obtain ⟨t, read, added⟩ :=
      item_reads builtIn words languages (.condition (languageCondition languages)) language
    refine ⟨qs ++ (t.map .clause).toList, fs, ?_, compiled, ?_, fun truth => ?_⟩
    · refine List.rel_append filters (forall₂_toList ?_)
      cases read with
      | none => exact .none
      | some head => exact .some (head.whole group.conjunction)
    · rw [← rows]
      cases t <;> simp [or_and_right, exists_or, WholeQuery.isRow]
    · rw [value truth, ambient truth, if_pos asked, ← added truth, ← meaning truth]
      cases t <;> simp [or_imp, forall_and, WholeQuery.holds]
  · next other =>
    cases success
    refine ⟨qs, fs, filters, compiled, rows, fun truth => ?_⟩
    rw [value truth, ambient truth, if_neg other, ← meaning truth]
    simp

/-- An index with a text and a string of given names. -/
def catalogue : Context where
  catalog := .ofSchema {
    fields := (Index.FieldSet.empty.insert
      ⟨"title", .string, .single, none, none, some "ss_title"⟩).insert
      ⟨"body", .text, .single, none, none, some "ts_body"⟩
    languages := []
    scope := ⟨"default", "000000"⟩
    foreign := false
    special := .standard }
  spatial := .skip

/-- All names in the catalogue are words. -/
theorem catalogue_words (name : String) (known : catalogue.IsName name) : Name.IsWord name := by
  obtain ⟨id, field, language, found, rfl⟩ := known
  have fixed : ∃ name, (Name.Special.standard.nameOf? field.id).or field.pinned = some name ∧
      Name.IsWord name := by
    change (Index.reservedField? id).or (catalogue.schema.fields.find? id) = some field at found
    rw [Option.or_eq_some_iff] at found
    rcases found with reserved | ⟨-, own⟩
    · unfold Index.reservedField? at reserved
      split at reserved
      · next among =>
        cases reserved
        rw [List.contains_iff_mem] at among
        simp only [Name.reservedIds, List.mem_cons, List.not_mem_nil, or_false] at among
        rcases among with rfl | rfl | rfl | rfl
        · exact ⟨_, rfl, by decide⟩
        · exact ⟨_, rfl, by decide⟩
        · exact ⟨_, rfl, by decide⟩
        · exact ⟨_, rfl, by decide⟩
      · cases reserved
    · have among : field ∈ catalogue.schema.fields.items := List.mem_of_find?_eq_some own
      change field ∈ [_, _] at among
      simp only [List.mem_cons, List.not_mem_nil, or_false] at among
      rcases among with rfl | rfl
      · exact ⟨"ts_body", rfl, by decide⟩
      · exact ⟨"ss_title", rfl, by decide⟩
  obtain ⟨name, fixed, word⟩ := fixed
  change Name.IsWord (Name.Special.standard.fieldName field language)
  rwa [fieldName_of_fixed fixed]

def english : LanguageId := ⟨"en", by decide, by decide⟩

/-- No title; or not about rust, and with a title `A` or `B`. -/
def alternatives : Group :=
  ⟨.or, [.condition (.absent "title"),
    .group .and [.condition (.differs "body" (.string "rust")),
      .group .or [.condition (.equal "title" (.string "A")), .condition (.absent "title")] .empty]
      .empty], .empty⟩

/-- A tree with a negation and alternatives inside, as it is sent and as it is read. -/
theorem conditions_meaning_alternatives :
    catalogue.spatial.IsBuiltIn ∧ (∀ name, catalogue.IsName name → Name.IsWord name) ∧
    ∃ fragments, (catalogue.conditions [english] alternatives).outcome = .ok fragments ∧
      fragments.map Fragment.query =
        ["(-ss_title:[* TO *]) (-(ts_body:(\"rust\")^1) +(ss_title:\"A\" (-ss_title:[* TO *])))",
          "ss_search_api_language:\"en\""] ∧
      ∃ (queries : List (WholeQuery String)) (members : List Fragment),
        List.Forall₂ (ReadsWhole .or) fragments queries ∧
        (catalogue.items [english] alternatives.members).outcome = .ok members ∧
        ((∃ q ∈ queries, q.isRow = true) ↔ Conjunction.or = .or ∧ 2 ≤ members.length) ∧
        ∀ truth, (∀ q ∈ queries, WholeQuery.holds truth q = true) ↔
          (catalogue.itemValue truth [english] alternatives.toItem).getD true = true ∧
          (catalogue.ambientValue truth [english] alternatives).getD true = true := by
  refine ⟨trivial, catalogue_words, ?_⟩
  have ran : (catalogue.conditions [english] alternatives).outcome.map (List.map Fragment.query) =
      .ok ["(-ss_title:[* TO *]) (-(ts_body:(\"rust\")^1) +(ss_title:\"A\" (-ss_title:[* TO *])))",
        "ss_search_api_language:\"en\""] := by
    rfl
  obtain ⟨fragments, compiled, texts⟩ := map_eq_ok ran
  exact ⟨fragments, compiled, texts,
    conditions_meaning catalogue [english] alternatives fragments trivial catalogue_words compiled⟩

end Context

end SearchCompiler.Compile
