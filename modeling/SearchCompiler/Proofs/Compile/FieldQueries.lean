import SearchCompiler.Proofs.Compile.Tags
import SearchCompiler.Proofs.Decimal
import SearchCompiler.Proofs.Nesting

/-!
# What filters are made of

The forms of a compiled condition differ in how they combine queries, and in nothing else: each is
made of queries on single fields, with signs, parentheses and the word `AND` (`LeafForm.isMadeOf`).
Folding adds no other part, so the filters of a whole tree are made of the same queries
(`conditions_madeOf`). What holds of these four kinds of queries, and is kept by signs, lists and
`AND`, holds of every filter.

It is left out what a builder from outside writes.
-/

namespace SearchCompiler.Compile

open Filter Text

/-- A query on one field that has a name of a kind. -/
inductive IsFieldQuery (named : String → Prop) : Clause → Prop where
  | range (name : String) (lower upper : Option String) (withBounds : Bool) : named name →
      IsFieldQuery named (rangeClause name lower upper withBounds)
  | equals (name text : String) : named name → IsFieldQuery named (.equals name text)
  | phrases (name : String) (texts : List String) : named name →
      IsFieldQuery named
        (.onField name (.list (texts.map fun text => .atom (.phrase text))) Target.plainSuffix)
  | circle (name : String) (circle : Filter.Circle) : named name →
      IsFieldQuery named (.atom (.nested (circle.query name)))

/-- Every form of a condition is made of queries on its fields. -/
theorem LeafForm.isMadeOf {named : String → Prop} {c : Clause} (form : LeafForm named c) :
    c.IsMadeOf (IsFieldQuery named) := by
  have range : ∀ {name : String} (lower upper : Option String) (withBounds : Bool), named name →
      (rangeClause name lower upper withBounds).IsMadeOf (IsFieldQuery named) :=
    fun lower upper withBounds known => .part (.range _ lower upper withBounds known)
  have present : ∀ {name : String}, named name →
      (Clause.present name).IsMadeOf (IsFieldQuery named) := range none none true
  have equals : ∀ {name : String} (text : String), named name →
      (Clause.equals name text).IsMadeOf (IsFieldQuery named) :=
    fun text known => .part (.equals _ text known)
  have not : ∀ {c : Clause}, c.sign? = none → c.IsMadeOf (IsFieldQuery named) →
      c.not.IsMadeOf (IsFieldQuery named) := .signed .mustNot
  cases form with
  | absent name known => exact not rfl (present known)
  | present name known => exact present known
  | equals name text known => exact equals text known
  | differs name text known => exact .both .all (not rfl (equals text known))
  | range name lower upper withBounds known => exact range lower upper withBounds known
  | outside name low high known =>
    refine .list (List.forall_mem_cons.mpr ⟨.all, List.forall_mem_singleton.mpr ?_⟩)
    exact not rfl (range (some low) (some high) true known)
  | oneOf name texts orAbsent known shown =>
    refine .anyOf (List.forall_mem_append.mpr
      ⟨List.forall_mem_map.mpr fun text _ => equals text known, ?_⟩)
    cases orAbsent with
    | false => exact List.forall_mem_nil _
    | true =>
      refine List.forall_mem_singleton.mpr (.list (List.forall_mem_cons.mpr ⟨.all, ?_⟩))
      exact List.forall_mem_singleton.mpr (not rfl (present known))
  | noneOf name texts andPresent known =>
    unfold notInClause
    split
    · exact present known
    · refine .list (List.forall_mem_cons.mpr
        ⟨?_, List.forall_mem_map.mpr fun text _ => not rfl (equals text known)⟩)
      cases andPresent with
      | false => exact .all
      | true => exact .signed .must rfl (present known)
  | circle name circle known => exact .part (.circle name circle known)
  | allAbsent names known =>
    refine .list (List.forall_mem_cons.mpr ⟨.all, List.forall_mem_map.mpr fun name among => ?_⟩)
    exact not rfl (present (known name among))
  | anyPresent names known nonempty =>
    exact .anyOf (List.forall_mem_map.mpr fun name among => present (known name among))
  | phrases sign names texts known nonempty shown =>
    refine .signed sign rfl (.list (List.forall_mem_map.mpr fun name among => ?_))
    exact .part (.phrases name texts (known name among))

/-- A query on a field is one clause without a sign, if the name is a word. -/
theorem IsFieldQuery.isBody {named : String → Prop}
    (words : ∀ name, named name → Name.IsWord name) {c : Clause} (own : IsFieldQuery named c) :
    IsBody c.chars := by
  cases own with
  | range name lower upper withBounds known =>
    exact Clause.isBody_onField (words name known)
      (Clause.wellNested_range lower upper withBounds) .nil
  | equals name text known =>
    exact Clause.isBody_onField (words name known) (wellNested_phrase text.toList) .nil
  | phrases name texts known =>
    have phrases : IsBody (Clause.list (texts.map fun text => .atom (.phrase text))).chars :=
      Clause.isBody_list (List.forall_mem_map.mpr fun text _ =>
        .unsigned (isBody_phrase text.toList))
    have suffix : WellNested false Target.plainSuffix.toList := wellNested_ordinary (by decide)
    exact Clause.isBody_onField (words name known) phrases.nested suffix
  | circle name circle known =>
    have plain : IsUnquoted name.toList := Keys.isUnquoted_word (words name known)
    exact Clause.isBody_nested (isUnquoted_circle plain circle)

section

variable {part : Clause → Prop} {fs : List Fragment}

/-- A fragment as a member under a conjunction. -/
theorem memberClause_isMadeOf (conjunction : Conjunction) {f : Fragment}
    (made : f.clause.IsMadeOf part) : (f.memberClause conjunction).IsMadeOf part := by
  unfold Fragment.memberClause
  split
  · exact made
  · next free => exact .signed .must (Clause.sign?_eq_none free) made
  · exact .list (List.forall_mem_singleton.mpr made)
  · exact made

theorem reduce_isMadeOf (each : ∀ f ∈ fs, f.clause.IsMadeOf part) (conjunction : Conjunction)
    (tags : TextSet) :
    ∀ f ∈ Fragment.reduce fs conjunction tags false, f.clause.IsMadeOf part := by
  intro f folded
  match fs with
  | [] => cases folded
  | [single] =>
    cases folded
    exact each single List.mem_cons_self
  | first :: second :: rest =>
    cases folded
    refine .list (List.forall_mem_map.mpr fun g among => ?_)
    exact memberClause_isMadeOf conjunction (each g among)

/-- A filter as it is sent: one clause made of parts, or several side by side. -/
def IsSentOf (part : Clause → Prop) (c : Clause) : Prop :=
  c.IsMadeOf part ∨ ∃ cs, c = .row cs ∧ ∀ d ∈ cs, d.IsMadeOf part

theorem reduce_isSentOf (each : ∀ f ∈ fs, f.clause.IsMadeOf part) (conjunction : Conjunction)
    (tags : TextSet) : ∀ f ∈ Fragment.reduce fs conjunction tags true, IsSentOf part f.clause := by
  intro f folded
  match fs with
  | [] => cases folded
  | [single] =>
    cases folded
    exact .inl (each single List.mem_cons_self)
  | first :: second :: rest =>
    cases folded
    refine .inr ⟨_, rfl, List.forall_mem_map.mpr fun g among => ?_⟩
    exact memberClause_isMadeOf conjunction (each g among)

end

namespace Context

variable {ctx : Context} {languages : List LanguageId}

/-- The fragments that members become, whatever the depth at which their conditions stand. -/
theorem items_madeOf (builtIn : ctx.spatial.IsBuiltIn) (is : List Item) {fs : List Fragment}
    (success : (ctx.items languages is).outcome = .ok fs) :
    ∀ f ∈ fs, f.clause.IsMadeOf (IsFieldQuery ctx.IsName) :=
  items_keep builtIn (fun _ form => form.isMadeOf)
    (fun _ conjunction tags each => reduce_isMadeOf each conjunction tags) is success

/-- The filters of a tree of conditions. -/
theorem conditions_madeOf (builtIn : ctx.spatial.IsBuiltIn) {group : Group}
    {fragments : List Fragment}
    (success : (ctx.conditions languages group).outcome = .ok fragments) :
    ∀ f ∈ fragments, IsSentOf (IsFieldQuery ctx.IsName) f.clause := by
  obtain ⟨fs, language, compiled, rfl, asked, free⟩ := conditions_parts success
  have own := items_madeOf builtIn group.members compiled
  refine List.forall_mem_append.mpr ⟨?_, fun f among => ?_⟩
  · cases group.conjunction with
    | and => exact List.forall_mem_map.mpr fun f among => .inl (own f among)
    | or =>
      exact fun f among => reduce_isSentOf own .or group.tags f (Option.mem_toList.mp among)
  · by_cases adds : ctx.AddsLanguage languages group
    · obtain ⟨g, rfl, compiled'⟩ := asked adds
      cases List.mem_singleton.mp among
      exact .inl (condition_form builtIn compiled').isMadeOf
    · rw [free adds] at among
      cases among

end Context

end SearchCompiler.Compile
