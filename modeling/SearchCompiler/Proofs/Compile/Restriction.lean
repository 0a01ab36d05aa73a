import SearchCompiler.Proofs.Compile.Meaning

/-!
# The restriction to languages

A filter on the languages asked for is added to a group of conditions, unless the group has a
condition of its own that asks for languages (`languageOverride`); that condition then takes the
place of the filter. In an AND group it does so by itself: whatever passes all the filters passes
one that restricts the language, whichever way the texts of the filters are read.

In an OR group the condition is one of several alternatives, and no filter is added either. There
the restriction is kept iff each of the other alternatives implies it (`language_restriction`).
-/

namespace SearchCompiler.Filter

theorem Group.mem_conditions {group : Group} {c : Condition} :
    c ∈ group.conditions ↔ Item.condition c ∈ group.members := by
  rw [conditions, List.mem_filterMap]
  constructor
  · rintro ⟨member, inside, same⟩
    cases member with
    | group => cases same
    | condition d => cases same; exact inside
  · intro inside
    exact ⟨.condition c, inside, rfl⟩

end SearchCompiler.Filter

namespace SearchCompiler.Compile

open Filter QueryTree

/-- A condition asks for a language, or for one of several. -/
def AsksLanguage (c : Condition) : Prop :=
  c.field = Name.languageId ∧ (c.operator = .eq ∨ c.operator = .isIn)

/-- A condition that takes the place of the languages asked for is a member of the group itself. -/
theorem asksLanguage_of_override {members : List Item} {others : List LanguageId}
    (scope : languageOverride members = .ok (some others)) :
    ∃ c, Item.condition c ∈ members ∧ AsksLanguage c := by
  unfold languageOverride at scope
  dsimp only at scope
  split at scope
  · cases scope
  · next c rest found =>
    have among : c ∈ c :: rest := List.mem_cons_self
    rw [← found, List.mem_filterMap] at among
    obtain ⟨member, inside, asks⟩ := among
    cases member with
    | group => cases asks
    | condition d =>
      dsimp only at asks
      split at asks
      · next language =>
        cases asks
        exact ⟨c, inside, language⟩
      · cases asks

namespace Context

/-- The filters that restrict the language of what a group finds: the one on the languages asked
for, and those of the group's own conditions that ask for languages. -/
inductive RestrictsLanguage (ctx : Context) (languages : List LanguageId) (group : Group) :
    Fragment → Prop where
  | asked {f : Fragment}
      (compiled : (ctx.condition languages (languageCondition languages)).outcome = .ok (some f)) :
      RestrictsLanguage ctx languages group f
  | own {c : Condition} {f : Fragment} (member : c ∈ group.conditions) (asks : AsksLanguage c)
      (compiled :
        (ctx.condition (languagesWithin languages group.members) c).outcome = .ok (some f)) :
      RestrictsLanguage ctx languages group f

/-- One of the filters that restrict the language is passed. -/
def IsRestricted (ctx : Context) (languages : List LanguageId) (group : Group)
    (passes : Fragment → Prop) : Prop :=
  ∃ f, ctx.RestrictsLanguage languages group f ∧ passes f

variable {ctx : Context} {languages : List LanguageId}

theorem schema_language (ctx : Context) :
    ctx.schema.field? Name.languageId = some (.simple Name.languageId .string) := rfl

/-- A condition on the language adds a filter. -/
theorem language_condition_some {c : Condition} (language : c.field = Name.languageId)
    {o : Option Fragment} (success : (ctx.condition languages c).outcome = .ok o) :
    ∃ f, o = some f := by
  rw [condition_outcome] at success
  obtain ⟨clause, compiled, rfl⟩ := map_eq_ok success
  obtain ⟨field, found, compiled⟩ := bind_eq_ok compiled
  have known := field_eq_ok found
  rw [language, schema_language] at known
  cases known
  obtain ⟨written, -, rfl⟩ := map_eq_ok compiled
  exact ⟨_, rfl⟩

/-- What a member of a group is compiled into is among what all of them are. -/
theorem item_of_items {is : List Item} {fs : List Fragment}
    (success : (ctx.items languages is).outcome = .ok fs) {i : Item} (member : i ∈ is) :
    ∃ o, (ctx.item languages i).outcome = .ok o ∧ ∀ f, o = some f → f ∈ fs := by
  induction is generalizing fs with
  | nil => cases member
  | cons first rest ih =>
    obtain ⟨o, others, compiled, rest_compiled, rfl⟩ := items_cons_eq_ok success
    rcases List.mem_cons.mp member with rfl | later
    · refine ⟨o, compiled, fun f same => ?_⟩
      rw [same]
      exact List.mem_cons_self
    · obtain ⟨o', compiled', among⟩ := ih rest_compiled later
      exact ⟨o', compiled', fun f same => List.mem_append_right _ (among f same)⟩

/-- A group with an override has a filter that restricts the language among those of its members. -/
theorem restriction_of_override {group : Group} {others : List LanguageId} {fs : List Fragment}
    (scope : languageOverride group.members = .ok (some others))
    (success :
      (ctx.items (languagesWithin languages group.members) group.members).outcome = .ok fs) :
    ∃ f ∈ fs, ctx.RestrictsLanguage languages group f := by
  obtain ⟨c, inside, asks⟩ := asksLanguage_of_override scope
  obtain ⟨o, compiled, among⟩ := item_of_items success inside
  rw [item] at compiled
  obtain ⟨f, rfl⟩ := language_condition_some asks.1 compiled
  exact ⟨f, among f rfl, .own (Group.mem_conditions.mpr inside) asks compiled⟩

theorem itemValues_eq_flatMap (truth : String → Bool) (is : List Item) :
    ctx.itemValues truth languages is =
      is.flatMap fun i => (ctx.itemValue truth languages i).toList := by
  induction is with
  | nil => rfl
  | cons i rest ih => rw [itemValues, ih, List.flatMap_cons]

/-- The filters of an OR group hold iff a member of it does. -/
theorem value_or_iff {truth : String → Bool} {is : List Item}
    (nonempty : ctx.itemValues truth languages is ≠ []) :
    (Conjunction.or.value? (ctx.itemValues truth languages is)).getD true = true ↔
      ∃ i ∈ is, ctx.itemValue truth languages i = some true := by
  have value := Conjunction.or.value?_map id nonempty
  rw [List.map_id] at value
  rw [value, Option.getD_some, List.any_eq_true, itemValues_eq_flatMap]
  simp [List.mem_flatMap]

/-- The filter of an OR group with an override holds iff a member of the group does. -/
theorem alternatives_hold_iff {group : Group} {others : List LanguageId} {fs : List Fragment}
    (builtIn : ctx.spatial.IsBuiltIn) (words : ∀ name, ctx.IsName name → Name.IsWord name)
    (scope : languageOverride group.members = .ok (some others))
    (success :
      (ctx.items (languagesWithin languages group.members) group.members).outcome = .ok fs) :
    ∃ queries : List (WholeQuery String),
      List.Forall₂ (ReadsWhole .or) (Fragment.reduce fs .or group.tags true).toList queries ∧
      ∀ truth, (∀ q ∈ queries, WholeQuery.holds truth q = true) ↔
        ∃ member ∈ group.members,
          ctx.itemValue truth (languagesWithin languages group.members) member = some true := by
  obtain ⟨f, among, -⟩ := restriction_of_override scope success
  obtain ⟨ts, reads, values⟩ := items_reads builtIn words _ group.members success
  obtain ⟨queries, filters, -, meaning⟩ := filters_read .or group.tags reads
  refine ⟨queries, filters, fun truth => ?_⟩
  have nonempty :
      ctx.itemValues truth (languagesWithin languages group.members) group.members ≠ [] := by
    rw [← values truth, Ne, List.map_eq_nil_iff]
    rintro rfl
    cases reads
    cases among
  rw [meaning truth, values truth, value_or_iff nonempty]

/-- Whatever passes the filters of a group also passes one that restricts the language, unless the
group is an OR group with a condition of its own that asks for languages. The filter of such a group
holds iff one of its members does, so that it restricts the language iff each of its members does;
what a builder from outside writes for a location is not read there. -/
theorem language_restriction (ctx : Context) (languages : List LanguageId) (group : Group)
    (fragments : List Fragment) (namespaced : ctx.schema.foreign = false) (asked : languages ≠ [])
    (success : (ctx.conditions languages group).outcome = .ok fragments) :
    (group.conjunction = .and ∨ languageOverride group.members = .ok none →
      ∀ passes : String → Prop, (∀ f ∈ fragments, passes f.query) →
        ctx.IsRestricted languages group fun f => passes f.query) ∧
    (group.conjunction = .or → languageOverride group.members ≠ .ok none →
      ctx.spatial.IsBuiltIn → (∀ name, ctx.IsName name → Name.IsWord name) →
      ∃ queries : List (WholeQuery String), List.Forall₂ (ReadsWhole .or) fragments queries ∧
        (∀ truth, (∀ q ∈ queries, WholeQuery.holds truth q = true) ↔
          ∃ member ∈ group.members,
            ctx.itemValue truth (languagesWithin languages group.members) member = some true) ∧
        ((∀ truth, (∀ q ∈ queries, WholeQuery.holds truth q = true) →
            ctx.IsRestricted languages group fun f => (leafTree f.clause).holds truth = true) ↔
          ∀ member ∈ group.members, ∀ truth,
            ctx.itemValue truth (languagesWithin languages group.members) member = some true →
            ctx.IsRestricted languages group fun f => (leafTree f.clause).holds truth = true)) := by
  rw [conditions, Traced.outcome_bind] at success
  obtain ⟨override, scope, success⟩ := bind_eq_ok success
  rw [Traced.outcome_bind] at success
  obtain ⟨fs, compiled, success⟩ := bind_eq_ok success
  rw [Traced.outcome_ofExcept] at scope
  rw [← languagesWithin_eq scope] at compiled
  dsimp only at success
  cases override with
  | none =>
    refine ⟨fun _ passes all => ?_, fun _ restricted => absurd scope restricted⟩
    have added : (Option.isNone (none : Option (List LanguageId)) && !ctx.schema.foreign &&
        !languages.isEmpty) = true := by
      simp [namespaced, asked]
    rw [if_pos added, Traced.outcome_bind] at success
    obtain ⟨o, language, success⟩ := bind_eq_ok success
    obtain ⟨f, rfl⟩ := language_condition_some rfl language
    cases success
    exact ⟨f, .asked language, all f (List.mem_append_right _ List.mem_cons_self)⟩
  | some others =>
    obtain ⟨f, among, restricts⟩ := restriction_of_override scope compiled
    rw [if_neg (by simp)] at success
    cases success
    constructor
    · intro conjunctive passes all
      have required : group.conjunction = .and :=
        conjunctive.resolve_right fun free => by rw [scope] at free; cases free
      rw [required] at all
      exact ⟨f, restricts, all (f.withTags group.tags) (List.mem_map_of_mem among)⟩
    · intro alternative _ builtIn words
      obtain ⟨queries, filters, holds_iff⟩ := alternatives_hold_iff builtIn words scope compiled
      rw [alternative]
      refine ⟨queries, filters, holds_iff, fun restricted member inside truth value => ?_,
        fun each truth all => ?_⟩
      · exact restricted truth ((holds_iff truth).mpr ⟨member, inside, value⟩)
      · obtain ⟨member, inside, value⟩ := (holds_iff truth).mp all
        exact each member inside truth value

/-- About German, or with a title `A`. -/
def germanOrTitled (conjunction : Conjunction) : Group :=
  ⟨conjunction, [.condition (.equal Name.languageId (.string "de")),
    .condition (.equal "title" (.string "A"))], .empty⟩

/-- The language of what is found, for either conjunction, with the texts that are sent. -/
theorem language_restriction_german :
    catalogue.schema.foreign = false ∧ [english] ≠ [] ∧
    (∃ fragments,
      (catalogue.conditions [english] (germanOrTitled .and)).outcome = .ok fragments ∧
      fragments.map Fragment.query = ["ss_search_api_language:\"de\"", "ss_title:\"A\""] ∧
      ∀ passes : String → Prop, (∀ f ∈ fragments, passes f.query) →
        catalogue.IsRestricted [english] (germanOrTitled .and) fun f => passes f.query) ∧
    ∃ fragments, (catalogue.conditions [english] (germanOrTitled .or)).outcome = .ok fragments ∧
      fragments.map Fragment.query = ["ss_search_api_language:\"de\" ss_title:\"A\""] ∧
      ∃ queries : List (WholeQuery String), List.Forall₂ (ReadsWhole .or) fragments queries ∧
        ∀ truth, (∀ q ∈ queries, WholeQuery.holds truth q = true) ↔
          ∃ member ∈ (germanOrTitled .or).members,
            catalogue.itemValue truth (languagesWithin [english] (germanOrTitled .or).members)
              member = some true := by
  have namespaced : catalogue.schema.foreign = false := rfl
  have asked : [english] ≠ [] := List.cons_ne_nil _ _
  refine ⟨namespaced, asked, ?_, ?_⟩
  · have ran : (catalogue.conditions [english] (germanOrTitled .and)).outcome.map
        (List.map Fragment.query) =
          .ok ["ss_search_api_language:\"de\"", "ss_title:\"A\""] := by
      rfl
    obtain ⟨fragments, compiled, texts⟩ := map_eq_ok ran
    exact ⟨fragments, compiled, texts, (language_restriction catalogue [english]
      (germanOrTitled .and) fragments namespaced asked compiled).1 (.inl rfl)⟩
  · have ran : (catalogue.conditions [english] (germanOrTitled .or)).outcome.map
        (List.map Fragment.query) = .ok ["ss_search_api_language:\"de\" ss_title:\"A\""] := by
      rfl
    obtain ⟨fragments, compiled, texts⟩ := map_eq_ok ran
    obtain ⟨queries, filters, holds_iff, -⟩ := (language_restriction catalogue [english]
      (germanOrTitled .or) fragments namespaced asked compiled).2 rfl (by rintro ⟨⟩) trivial
      catalogue_words
    exact ⟨fragments, compiled, texts, queries, filters, holds_iff⟩

/-- The filter of the OR group, as it is read. -/
def germanOrTitledQuery : WholeQuery String :=
  .row [.leaf none "ss_search_api_language:\"de\"", .leaf none "ss_title:\"A\""]

/-- A title `A` passes the filter of the OR group in whatever language. -/
theorem titled_unrestricted :
    catalogue.schema.foreign = false ∧
    ∃ fragments, (catalogue.conditions [english] (germanOrTitled .or)).outcome = .ok fragments ∧
      List.Forall₂ (ReadsWhole .or) fragments [germanOrTitledQuery] ∧
      germanOrTitledQuery.holds (· == "ss_title:\"A\"") = true ∧
      ¬ catalogue.IsRestricted [english] (germanOrTitled .or) fun f =>
        (leafTree f.clause).holds (· == "ss_title:\"A\"") = true := by
  refine ⟨rfl, _, rfl, .cons ⟨by decide +kernel, ?_, fun _ => rfl⟩ .nil, by decide +kernel, ?_⟩
  · intro query member
    simp only [germanOrTitledQuery, WholeQuery.leaves, leavesAll, leaves, List.cons_append,
      List.nil_append, List.mem_cons, List.not_mem_nil, or_false] at member
    rcases member with rfl | rfl <;> rw [Unsigned] <;> decide +kernel
  · rintro ⟨f, restricts, holds⟩
    cases restricts with
    | asked compiled =>
      cases compiled
      revert holds
      decide +kernel
    | @own c _ member asks compiled =>
      change c ∈ [_, _] at member
      simp only [List.mem_cons, List.not_mem_nil, or_false] at member
      rcases member with rfl | rfl
      · cases compiled
        revert holds
        decide +kernel
      · exact absurd asks.1 (by decide)

end Context

end SearchCompiler.Compile
