import SearchCompiler.Proofs.Compile.Restriction

/-!
# The tags of filters

A facet is counted without the filters that carry the tag of its own selection, so a filter has to
carry exactly the tags of the groups that it stems from. Which these are is said here apart from
the way in which tags are merged: the groups in a member (`Within`), at any depth, that add a filter
by themselves (`Context.Tags`).

A member of an AND group at the top becomes one filter or none, and the filters keep the order of
the members; an OR group at the top becomes one filter or none. Each of them has the tags of the
group at the top and those of the groups inside, and the filter on the languages has none
(`conditions_tags`).
-/

namespace SearchCompiler.Text.TextSet

theorem not_mem_empty (text : String) : text ∉ empty :=
  List.not_mem_nil

@[simp] theorem mem_union {text : String} {s t : TextSet} :
    text ∈ s.union t ↔ text ∈ s ∨ text ∈ t := by
  have general : ∀ (texts : List String) (s : TextSet),
      text ∈ texts.foldl (fun acc t => acc.insert t) s ↔ text ∈ s ∨ text ∈ texts := by
    intro texts
    induction texts with
    | nil => simp
    | cons first rest ih =>
      intro s
      rw [List.foldl_cons, ih, mem_insert, List.mem_cons, or_comm (a := text = first), or_assoc]
  exact general t.items s

end SearchCompiler.Text.TextSet

namespace SearchCompiler.Filter

open Compile.Context (languagesWithin)

namespace Fragment

/-- Folding loses no tag. -/
theorem mem_allTags {tag : String} {tags : Text.TextSet} {fs : List Fragment} :
    tag ∈ allTags tags fs ↔ tag ∈ tags ∨ ∃ f ∈ fs, tag ∈ f.tags := by
  unfold allTags
  induction fs generalizing tags with
  | nil => simp
  | cons f rest ih =>
    rw [List.foldl_cons, ih, Text.TextSet.mem_union, List.exists_mem_cons_iff, or_assoc]

/-- Folding gives no fragment only if there is none to fold. -/
theorem reduce_eq_none_iff {fs : List Fragment} {conjunction : Conjunction} {tags : Text.TextSet}
    {outermost : Bool} : reduce fs conjunction tags outermost = none ↔ fs = [] := by
  match fs with
  | [] => exact iff_of_true rfl rfl
  | [_] | _ :: _ :: _ => exact iff_of_false (Option.some_ne_none _) (List.cons_ne_nil _ _)

/-- A fold has the tags of the group that it is made for and those of all that is folded. -/
theorem mem_tags_of_reduce {fs : List Fragment} {conjunction : Conjunction} {tags : Text.TextSet}
    {outermost : Bool} {f : Fragment} (folded : reduce fs conjunction tags outermost = some f)
    (tag : String) : tag ∈ f.tags ↔ tag ∈ tags ∨ ∃ g ∈ fs, tag ∈ g.tags := by
  match fs with
  | [] => cases folded
  | [single] =>
    cases folded
    simp [withTags, or_comm]
  | first :: second :: rest =>
    cases folded
    exact mem_allTags

end Fragment

/-- A group stands at some depth in a member that is compiled in some languages. It is itself
compiled in the languages that the groups around it leave. -/
inductive Within : List LanguageId → Item → List LanguageId → Group → Prop where
  | self (languages : List LanguageId) (group : Group) :
      Within languages group.toItem languages group
  | inside {languages others : List LanguageId} {around group : Group} {member : Item} :
      member ∈ around.members →
      Within (languagesWithin languages around.members) member others group →
      Within languages around.toItem others group

theorem not_within_condition {languages others : List LanguageId} {c : Condition} {group : Group} :
    ¬ Within languages (.condition c) others group := by
  rintro ⟨⟩

/-- A group that stands in a group is that group, or stands in a member of it. -/
theorem within_group_iff {languages others : List LanguageId} {conjunction : Conjunction}
    {members : List Item} {tags : Text.TextSet} {group : Group} :
    Within languages (.group conjunction members tags) others group ↔
      (others = languages ∧ group = ⟨conjunction, members, tags⟩) ∨
        ∃ member ∈ members, Within (languagesWithin languages members) member others group := by
  constructor
  · intro stands
    generalize holder : Item.group conjunction members tags = item at stands
    cases stands with
    | self =>
      cases holder
      exact .inl ⟨rfl, rfl⟩
    | inside member deeper =>
      cases holder
      exact .inr ⟨_, member, deeper⟩
  · rintro (⟨rfl, rfl⟩ | ⟨member, among, deeper⟩)
    · exact .self _ ⟨conjunction, members, tags⟩
    · exact @Within.inside _ _ ⟨conjunction, members, tags⟩ _ _ among deeper

end SearchCompiler.Filter

namespace SearchCompiler.Compile.Context

open Filter

/-- A member adds a filter by itself. -/
def Adds (ctx : Context) (languages : List LanguageId) (member : Item) : Prop :=
  ∃ f, (ctx.item languages member).outcome = .ok (some f)

/-- A tag of a group in a member that adds a filter by itself. -/
def Tags (ctx : Context) (languages : List LanguageId) (member : Item) (tag : String) : Prop :=
  ∃ others group, Within languages member others group ∧ ctx.Adds others group.toItem ∧
    tag ∈ group.tags

variable {ctx : Context} {languages : List LanguageId}

theorem not_tags_condition (c : Condition) (tag : String) :
    ¬ ctx.Tags languages (.condition c) tag := by
  rintro ⟨_, _, stands, -⟩
  exact not_within_condition stands

/-- The tags in a group are its own, if it adds a filter, and those in its members. -/
theorem tags_group_iff {conjunction : Conjunction} {members : List Item} {tags : Text.TextSet}
    {tag : String} :
    ctx.Tags languages (.group conjunction members tags) tag ↔
      (ctx.Adds languages (.group conjunction members tags) ∧ tag ∈ tags) ∨
        ∃ member ∈ members, ctx.Tags (languagesWithin languages members) member tag := by
  unfold Tags
  constructor
  · rintro ⟨others, group, stands, adds, among⟩
    rcases within_group_iff.mp stands with ⟨rfl, rfl⟩ | ⟨member, inside, deeper⟩
    · exact .inl ⟨adds, among⟩
    · exact .inr ⟨member, inside, others, group, deeper, adds, among⟩
  · rintro (⟨adds, among⟩ | ⟨member, inside, others, group, deeper, adds, among⟩)
    · exact ⟨languages, ⟨conjunction, members, tags⟩, within_group_iff.mpr (.inl ⟨rfl, rfl⟩),
        adds, among⟩
    · exact ⟨others, group, within_group_iff.mpr (.inr ⟨member, inside, deeper⟩), adds, among⟩

/-- A condition adds a filter without tags. -/
theorem condition_untagged {c : Condition} {f : Fragment}
    (success : (ctx.condition languages c).outcome = .ok (some f)) : f.tags = .empty := by
  rw [condition_outcome] at success
  obtain ⟨clause, -, same⟩ := map_eq_ok success
  cases clause with
  | none => cases same
  | some clause =>
    cases same
    rfl

mutual

/-- The tags of what a member becomes are those of the groups in it that add a filter; where it adds
none, no group in it does. -/
theorem item_tags (languages : List LanguageId) (i : Item) {o : Option Fragment}
    (success : (ctx.item languages i).outcome = .ok o) (tag : String) :
    (∃ f ∈ o, tag ∈ f.tags) ↔ ctx.Tags languages i tag := by
  cases i with
  | condition c =>
    rw [item] at success
    refine iff_of_false ?_ (not_tags_condition c tag)
    rintro ⟨f, rfl, among⟩
    rw [condition_untagged success] at among
    exact Text.TextSet.not_mem_empty tag among
  | group conjunction members tags =>
    have adds : ctx.Adds languages (.group conjunction members tags) ↔ ∃ f, o = some f := by
      simp only [Adds, success, Except.ok.injEq]
    obtain ⟨fs, compiled, rfl⟩ := group_outcome success
    rw [tags_group_iff, adds, ← items_tags _ members compiled tag]
    cases folded : Fragment.reduce fs conjunction tags false with
    | none =>
      rw [Fragment.reduce_eq_none_iff.mp folded]
      simp
    | some f => simp [Fragment.mem_tags_of_reduce folded]

/-- Tags of members are carried by the filters of those that add one. -/
theorem items_tags (languages : List LanguageId) (is : List Item) {fs : List Fragment}
    (success : (ctx.items languages is).outcome = .ok fs) (tag : String) :
    (∃ f ∈ fs, tag ∈ f.tags) ↔ ∃ member ∈ is, ctx.Tags languages member tag := by
  cases is with
  | nil =>
    cases success
    simp
  | cons i rest =>
    obtain ⟨o, others, compiled, rest_compiled, rfl⟩ := items_cons_eq_ok success
    rw [List.exists_mem_cons_iff, ← item_tags languages i compiled tag,
      ← items_tags languages rest rest_compiled tag]
    simp [or_and_right, exists_or]

end

/-- A filter of a member: the clause that the member becomes, with some tags and those of the groups
in the member that add a filter. -/
structure IsFilterOf (ctx : Context) (languages : List LanguageId) (tags : Text.TextSet)
    (member : Item) (f : Fragment) : Prop where
  stems : ∃ own, (ctx.item languages member).outcome = .ok (some own) ∧ f.clause = own.clause
  tagged : ∀ tag, tag ∈ f.tags ↔ tag ∈ tags ∨ ctx.Tags languages member tag

/-- The filters of members in their order, one or none for each. -/
inductive MemberFilters (ctx : Context) (languages : List LanguageId) (tags : Text.TextSet) :
    List Item → List Fragment → Prop where
  | nil : MemberFilters ctx languages tags [] []
  | silent {member : Item} {rest : List Item} {fs : List Fragment}
      (none_added : (ctx.item languages member).outcome = .ok none) :
      MemberFilters ctx languages tags rest fs →
      MemberFilters ctx languages tags (member :: rest) fs
  | added {member : Item} {rest : List Item} {f : Fragment} {fs : List Fragment}
      (own : ctx.IsFilterOf languages tags member f) :
      MemberFilters ctx languages tags rest fs →
      MemberFilters ctx languages tags (member :: rest) (f :: fs)

/-- The members of a group become the filters of the members, whatever tags are added to all. -/
theorem items_filters (tags : Text.TextSet) {is : List Item} {fs : List Fragment}
    (success : (ctx.items languages is).outcome = .ok fs) :
    ctx.MemberFilters languages tags is (fs.map (Fragment.withTags · tags)) := by
  induction is generalizing fs with
  | nil =>
    cases success
    exact .nil
  | cons i rest ih =>
    obtain ⟨o, others, compiled, rest_compiled, rfl⟩ := items_cons_eq_ok success
    cases o with
    | none => exact .silent compiled (ih rest_compiled)
    | some own =>
      refine .added ⟨⟨own, compiled, rfl⟩, fun tag => ?_⟩ (ih rest_compiled)
      have inside := item_tags languages i compiled tag
      simp only [Option.mem_def, Option.some.injEq, exists_eq_left'] at inside
      change tag ∈ own.tags.union tags ↔ _
      rw [Text.TextSet.mem_union, inside, or_comm]

/-- A filter on the languages asked for is added behind those of a group: the backend is not
foreign, languages are asked for, and the group does not restrict them itself. -/
def AddsLanguage (ctx : Context) (languages : List LanguageId) (group : Group) : Prop :=
  languageOverride group.members = .ok none ∧ ctx.schema.foreign = false ∧ languages ≠ []

/-- The fragments of a group at the top: those of its members under its conjunction, and behind them
the filter on the languages. -/
theorem conditions_parts {group : Group} {fragments : List Fragment}
    (success : (ctx.conditions languages group).outcome = .ok fragments) :
    ∃ fs language,
      (ctx.items (languagesWithin languages group.members) group.members).outcome = .ok fs ∧
      fragments = (match group.conjunction with
        | .and => fs.map (Fragment.withTags · group.tags)
        | .or => (Fragment.reduce fs .or group.tags true).toList) ++ Option.toList language ∧
      (ctx.AddsLanguage languages group → ∃ f, language = some f ∧
        (ctx.condition languages (languageCondition languages)).outcome = .ok (some f)) ∧
      (¬ ctx.AddsLanguage languages group → language = none) := by
  rw [conditions, Traced.outcome_bind] at success
  obtain ⟨override, scope, success⟩ := bind_eq_ok success
  rw [Traced.outcome_bind] at success
  obtain ⟨fs, compiled, success⟩ := bind_eq_ok success
  rw [Traced.outcome_ofExcept] at scope
  rw [← languagesWithin_eq scope] at compiled
  have asked_iff : (override.isNone && !ctx.schema.foreign && !languages.isEmpty) = true ↔
      ctx.AddsLanguage languages group := by
    simp [AddsLanguage, scope, and_assoc]
  dsimp only at success
  split at success
  · next asked =>
    rw [Traced.outcome_bind] at success
    obtain ⟨o, compiled', success⟩ := bind_eq_ok success
    obtain ⟨f, rfl⟩ := language_condition_some rfl compiled'
    cases success
    exact ⟨fs, some f, compiled, rfl, fun _ => ⟨f, rfl, compiled'⟩,
      fun other => absurd (asked_iff.mp asked) other⟩
  · next other =>
    cases success
    exact ⟨fs, none, compiled, (List.append_nil _).symm,
      fun asked => absurd (asked_iff.mpr asked) other, fun _ => rfl⟩

/-- Filters carry exactly the tags of the groups that they stem from: the tags of the group at the
top and those of the groups inside that add a filter. The filter on the languages has no tags. -/
theorem conditions_tags (ctx : Context) (languages : List LanguageId) (group : Group)
    (fragments : List Fragment)
    (success : (ctx.conditions languages group).outcome = .ok fragments) :
    ∃ filters language, fragments = filters ++ Option.toList language ∧
      (group.conjunction = .and →
        ctx.MemberFilters (languagesWithin languages group.members) group.tags group.members
          filters) ∧
      (group.conjunction = .or →
        ∃ fs, ctx.MemberFilters (languagesWithin languages group.members) .empty group.members fs ∧
          filters = (Fragment.reduce fs .or group.tags true).toList ∧
          ∀ f ∈ filters, ∀ tag, tag ∈ f.tags ↔ tag ∈ group.tags ∨
            ∃ member ∈ group.members,
              ctx.Tags (languagesWithin languages group.members) member tag) ∧
      (ctx.AddsLanguage languages group → ∃ f, language = some f ∧
        (ctx.condition languages (languageCondition languages)).outcome = .ok (some f) ∧
        f.tags = .empty) ∧
      (¬ ctx.AddsLanguage languages group → language = none) := by
  obtain ⟨fs, language, compiled, rfl, asked, free⟩ := conditions_parts success
  refine ⟨_, language, rfl, fun conjunctive => ?_, fun alternative => ?_, fun adds => ?_, free⟩
  · rw [conjunctive]
    exact items_filters group.tags compiled
  · rw [alternative]
    refine ⟨fs, ?_, rfl, fun f among tag => ?_⟩
    · have own := items_filters .empty compiled
      rwa [List.map_id''] at own
      exact fun _ => rfl
    · rw [Fragment.mem_tags_of_reduce (Option.mem_toList.mp among),
        items_tags _ group.members compiled tag]
  · obtain ⟨f, same, compiled'⟩ := asked adds
    exact ⟨f, same, compiled', condition_untagged compiled'⟩

/-- A title `A`; or a title `B`, a blank comparison and, further inside, a title `C`; or nothing.
Every group has a tag of its own. -/
def taggedTitles : Group :=
  ⟨.and, [.condition (.equal "title" (.string "A")),
    .group .or [.condition (.equal "title" (.string "B")),
      .group .and [.condition (.equal "body" (.string " "))] (.ofList ["blank"]),
      .group .and [.condition (.equal "title" (.string "C"))] (.ofList ["deep"])]
      (.ofList ["inner"]),
    .group .or [] (.ofList ["void"])], .ofList ["top"]⟩

/-- A group whose only filter is deep inside, and groups that add none. -/
theorem conditions_tags_vanishing :
    ∃ fragments, (catalogue.conditions [english] taggedTitles).outcome = .ok fragments ∧
      fragments.map Fragment.render = ["\x7b!tag=top\x7dss_title:\"A\"",
        "\x7b!tag=deep,inner,top\x7d(ss_title:\"B\" ss_title:\"C\")",
        "ss_search_api_language:\"en\""] ∧
      ∃ filters language, fragments = filters ++ Option.toList language ∧
        catalogue.MemberFilters [english] taggedTitles.tags taggedTitles.members filters ∧
        ∃ f, language = some f ∧ f.tags = .empty := by
  have ran : (catalogue.conditions [english] taggedTitles).outcome.map (List.map Fragment.render) =
      .ok ["\x7b!tag=top\x7dss_title:\"A\"",
        "\x7b!tag=deep,inner,top\x7d(ss_title:\"B\" ss_title:\"C\")",
        "ss_search_api_language:\"en\""] := by
    rfl
  obtain ⟨fragments, compiled, texts⟩ := map_eq_ok ran
  obtain ⟨filters, language, parts, members, -, added, -⟩ :=
    conditions_tags catalogue [english] taggedTitles fragments compiled
  obtain ⟨f, same, -, untagged⟩ := added ⟨rfl, rfl, List.cons_ne_nil _ _⟩
  exact ⟨fragments, compiled, texts, filters, language, parts, members rfl, f, same, untagged⟩

end SearchCompiler.Compile.Context
