import SearchCompiler.Proofs.Compile.Faults

/-!
# The languages in force

A group can restrict its members to languages of its own, which take the place of those asked for.
They are in force inside that group alone: a condition on a text field is compiled over its names in
the languages of the nearest group around it that has some, or in those asked for
(`Item.languagesAt`).

Places in a tree of conditions are given by the index of a member for each group on the way. What
the members add to the filters is said place by place (`Context.addedAt`), and the filters are made
up of that. Another nested group in place of one changes nothing at the places apart from it, and
not the filter on the languages either (`nested_override_contained`).
-/

namespace SearchCompiler.Filter

open Compile

/-- The languages that a group restricts its members to. -/
def ownLanguages? (members : List Item) : Option (List LanguageId) :=
  match languageOverride members with
  | .ok own => own
  | .error _ => none

theorem languagesWithin_eq_getD (languages : List LanguageId) (members : List Item) :
    Context.languagesWithin languages members = (ownLanguages? members).getD languages := by
  unfold Context.languagesWithin ownLanguages?
  cases languageOverride members with
  | error e => rfl
  | ok own => cases own <;> rfl

namespace Item

def members : Item → List Item
  | .condition _ => []
  | .group _ members _ => members

def isGroup : Item → Bool
  | .condition _ => false
  | .group _ _ _ => true

/-- What stands at a place. -/
def at? : List Nat → Item → Option Item
  | [], i => some i
  | n :: place, i => i.members[n]?.bind (at? place)

/-- The members of the groups around a place, the nearest group first. -/
def around : List Nat → Item → List (List Item)
  | [], _ => []
  | n :: place, i => (i.members[n]?.map (around place)).getD [] ++ [i.members]

/-- The languages in force at a place: those of the nearest group around it that has some. -/
def languagesAt (languages : List LanguageId) (place : List Nat) (i : Item) : List LanguageId :=
  ((i.around place).findSome? ownLanguages?).getD languages

/-- Another item at a place. -/
def replaceAt (new : Item) : List Nat → Item → Item
  | [], _ => new
  | n :: place, .group conjunction members tags =>
    .group conjunction (members.modify n (replaceAt new place)) tags
  | _ :: _, .condition c => .condition c

theorem languagesAt_cons {languages : List LanguageId} {n : Nat} {place : List Nat} {i member : Item}
    (there : i.members[n]? = some member) :
    i.languagesAt languages (n :: place) =
      member.languagesAt (Context.languagesWithin languages i.members) place := by
  unfold languagesAt
  rw [around, there, Option.map_some, Option.getD_some, List.findSome?_append,
    languagesWithin_eq_getD]
  cases (member.around place).findSome? ownLanguages? with
  | some own => rfl
  | none => simp

theorem members_replaceAt {new : Item} {n : Nat} {place : List Nat} {i : Item} :
    (replaceAt new (n :: place) i).members = i.members.modify n (replaceAt new place) := by
  cases i with
  | condition c => simp [replaceAt, members]
  | group conjunction members tags => rfl

/-- A group in place of a group, or inside of it, leaves it a group. -/
theorem isGroup_replaceAt {new old : Item} (grouped : new.isGroup = true) {place : List Nat} {i : Item}
    (there : i.at? place = some old) (was : old.isGroup = true) :
    i.isGroup = true ∧ (replaceAt new place i).isGroup = true := by
  cases place with
  | nil =>
    cases there
    exact ⟨was, grouped⟩
  | cons n place =>
    cases i with
    | condition c => cases there
    | group conjunction members tags => exact ⟨rfl, rfl⟩

/-- A group at another place leaves what stands at the places apart from it. -/
theorem at?_replaceAt {new : Item} {place other : List Nat} (apart : ¬ place <+: other)
    (within : ¬ other <+: place) (i : Item) : (replaceAt new place i).at? other = i.at? other := by
  induction place generalizing other i with
  | nil => exact absurd List.nil_prefix apart
  | cons n place ih =>
    cases other with
    | nil => exact absurd List.nil_prefix within
    | cons m other =>
      rw [at?, at?, members_replaceAt, List.getElem?_modify]
      split
      · next same =>
        subst same
        rw [List.prefix_cons_inj] at apart within
        cases i.members[n]? with
        | none => rfl
        | some member => exact ih apart within member
      · cases i.members[m]? <;> rfl

end Item

def Group.replaceAt (group new : Group) (place : List Nat) : Group :=
  { group with members := (Item.replaceAt new.toItem place group.toItem).members }

/-- The languages that a group asks for itself do not depend on the groups among its members. -/
theorem languageOverride_modify {members : List Item} {n : Nat} {f : Item → Item}
    (grouped : ∀ i, members[n]? = some i → i.isGroup = true ∧ (f i).isGroup = true) :
    languageOverride (members.modify n f) = languageOverride members := by
  have same : ∀ g : Item → Option Condition, (∀ i, i.isGroup = true → g i = none) →
      (members.modify n f).filterMap g = members.filterMap g := by
    intro g blind
    induction members generalizing n with
    | nil => simp
    | cons i rest ih =>
      cases n with
      | zero =>
        obtain ⟨was, is⟩ := grouped i rfl
        rw [List.modify_zero_cons, List.filterMap_cons_none (blind _ is),
          List.filterMap_cons_none (blind _ was)]
      | succ n =>
        rw [List.modify_succ_cons, List.filterMap_cons, List.filterMap_cons,
          ih fun j there => grouped j there]
  unfold languageOverride
  rw [same _ fun i group => ?_]
  cases i with
  | condition c => cases group
  | group => rfl

end SearchCompiler.Filter

namespace SearchCompiler.Compile.Context

open Filter

/-- The filter that a member adds by itself. -/
def adds (ctx : Context) (languages : List LanguageId) (i : Item) : Option Fragment :=
  match (ctx.item languages i).outcome with
  | .ok o => o
  | .error _ => none

/-- The filter that is added by what stands at a place, in the languages in force there. -/
def addedAt (ctx : Context) (languages : List LanguageId) (i : Item) (place : List Nat) :
    Option Fragment :=
  (i.at? place).bind (ctx.adds (i.languagesAt languages place))

/-- The filter on the languages asked for, where one is added behind those of a group. -/
def ambientFilter (ctx : Context) (languages : List LanguageId) (group : Group) : Option Fragment :=
  match languageOverride group.members with
  | .ok none =>
    if ctx.schema.foreign || languages.isEmpty then none
    else ctx.adds languages (.condition (languageCondition languages))
  | _ => none

/-- The filters that are added by the members of the group at a place, in their order. -/
def addedWithin (ctx : Context) (languages : List LanguageId) (i : Item) (place : List Nat)
    (members : List Item) : List Fragment :=
  (List.range members.length).flatMap fun n => (ctx.addedAt languages i (place ++ [n])).toList

variable {ctx : Context}

theorem adds_eq {languages : List LanguageId} {i : Item} {o : Option Fragment}
    (compiled : (ctx.item languages i).outcome = .ok o) : ctx.adds languages i = o := by
  rw [adds, compiled]

/-- What is added at a place below a member. -/
theorem addedAt_cons (ctx : Context) (languages : List LanguageId) (i : Item) (n : Nat)
    (place : List Nat) :
    ctx.addedAt languages i (n :: place) =
      i.members[n]?.bind fun member =>
        ctx.addedAt (languagesWithin languages i.members) member place := by
  unfold addedAt
  rw [Item.at?]
  cases there : i.members[n]? with
  | none => rfl
  | some member =>
    dsimp only [Option.bind_some]
    rw [Item.languagesAt_cons there]

/-- What is compiled consists of members that compile in the languages in force at their places. -/
theorem isSound_at {languages : List LanguageId} {i member : Item} {place : List Nat}
    (sound : ctx.IsSound languages i) (there : i.at? place = some member) :
    ctx.IsSound (i.languagesAt languages place) member := by
  induction place generalizing languages i with
  | nil =>
    cases there
    exact sound
  | cons n place ih =>
    cases i with
    | condition c => cases there
    | group conjunction members tags =>
      obtain ⟨next, among, deeper⟩ := Option.bind_eq_some_iff.mp there
      rw [Item.languagesAt_cons among]
      exact ih ((isSound_group_iff.mp sound).2 next (List.mem_of_getElem? among)) deeper

/-- The filters of several members are those of each of them, in order. -/
theorem items_added {languages : List LanguageId} {is : List Item} {fs : List Fragment}
    (success : (ctx.items languages is).outcome = .ok fs) :
    fs = is.flatMap fun i => (ctx.adds languages i).toList := by
  induction is generalizing fs with
  | nil =>
    cases success
    rfl
  | cons i rest ih =>
    obtain ⟨o, others, compiled, rest_compiled, rfl⟩ := items_cons_eq_ok success
    rw [List.flatMap_cons, adds_eq compiled, ← ih rest_compiled]

/-- What is added at a place below another place. -/
theorem addedAt_append (ctx : Context) (languages : List LanguageId) (i : Item)
    (place inner : List Nat) :
    ctx.addedAt languages i (place ++ inner) =
      (i.at? place).bind fun member =>
        ctx.addedAt (i.languagesAt languages place) member inner := by
  induction place generalizing languages i with
  | nil => rfl
  | cons n place ih =>
    rw [List.cons_append, addedAt_cons, Item.at?]
    cases there : i.members[n]? with
    | none => rfl
    | some member =>
      rw [Option.bind_some, Option.bind_some, ih, Item.languagesAt_cons there]

theorem flatMap_range {α β : Type} (f : α → Option β) (as : List α) :
    ((List.range as.length).flatMap fun n => (as[n]?.bind f).toList) =
      as.flatMap fun a => (f a).toList := by
  induction as with
  | nil => rfl
  | cons a rest ih =>
    rw [List.length_cons, List.range_succ_eq_map, List.flatMap_cons, List.flatMap_cons, ← ih,
      List.flatMap_map]
    rfl

/-- The filters of the members of the group at a place are what its members become. -/
theorem addedWithin_eq {languages : List LanguageId} {i : Item} {place : List Nat}
    {conjunction : Conjunction} {members : List Item} {tags : Text.TextSet}
    (there : i.at? place = some (.group conjunction members tags)) {fs : List Fragment}
    (success : (ctx.items (languagesWithin (i.languagesAt languages place) members)
      members).outcome = .ok fs) :
    ctx.addedWithin languages i place members = fs := by
  have each : ∀ n, ctx.addedAt languages i (place ++ [n]) =
      members[n]?.bind (ctx.adds (languagesWithin (i.languagesAt languages place) members)) := by
    intro n
    rw [addedAt_append, there, Option.bind_some, addedAt_cons]
    rfl
  rw [items_added success, ← flatMap_range]
  exact List.flatMap_congr fun n _ => by rw [each n]

/-- The filter of a nested group is folded from those of its members. -/
theorem addedAt_group {languages : List LanguageId} {i : Item} {place : List Nat}
    {conjunction : Conjunction} {members : List Item} {tags : Text.TextSet}
    (sound : ctx.IsSound languages i)
    (there : i.at? place = some (.group conjunction members tags)) :
    ctx.addedAt languages i place =
      Fragment.reduce (ctx.addedWithin languages i place members) conjunction tags false := by
  obtain ⟨o, compiled⟩ := (ctx.item_compiles_iff _ _).mpr (isSound_at sound there)
  obtain ⟨fs, inside, rfl⟩ := group_outcome compiled
  rw [addedAt, there, Option.bind_some, adds_eq compiled, addedWithin_eq there inside]

/-- The filters of a group at the top are those of its members under its conjunction, and behind
them the filter on the languages. -/
theorem conditions_added {languages : List LanguageId} {group : Group} {fragments : List Fragment}
    (success : (ctx.conditions languages group).outcome = .ok fragments) :
    fragments = (match group.conjunction with
        | .and => (ctx.addedWithin languages group.toItem [] group.members).map
            (Fragment.withTags · group.tags)
        | .or => (Fragment.reduce (ctx.addedWithin languages group.toItem [] group.members) .or
            group.tags true).toList) ++ (ctx.ambientFilter languages group).toList := by
  obtain ⟨fs, language, compiled, rfl, asked, free⟩ := conditions_parts success
  have inside : ctx.addedWithin languages group.toItem [] group.members = fs :=
    addedWithin_eq rfl compiled
  have ambient : ctx.ambientFilter languages group = language := by
    unfold ambientFilter
    by_cases adds : ctx.AddsLanguage languages group
    · obtain ⟨f, rfl, compiled⟩ := asked adds
      obtain ⟨scope, own, spoken⟩ := adds
      rw [scope, own, List.isEmpty_eq_false_iff.mpr spoken]
      exact adds_eq compiled
    · rw [free adds]
      split
      · next scope =>
        split
        · rfl
        · next asks => exact absurd ⟨scope, by simpa using asks⟩ adds
      · rfl
  subst inside ambient
  cases group.conjunction <;> rfl

theorem nodup_namesIn (ctx : Context) (field : Field) (languages : List LanguageId)
    {names : List String} (distinct : names.Nodup) : (ctx.namesIn field languages names).Nodup := by
  induction languages generalizing names with
  | nil => exact distinct
  | cons language rest ih =>
    rw [namesIn]
    apply ih
    split
    · exact distinct
    · next unknown =>
      rw [List.contains_iff_mem] at unknown
      refine List.nodup_append.mpr ⟨distinct, by simp, fun old known new added => ?_⟩
      rw [List.mem_singleton.mp added]
      rintro rfl
      exact unknown known

/-- The names of a field in several languages are those in each of them. -/
theorem mem_namesIn_iff {field : Field} {languages : List LanguageId} {names : List String}
    {name : String} : name ∈ ctx.namesIn field languages names ↔
      name ∈ names ∨ ∃ language ∈ languages, ctx.catalog.nameOf field language = name := by
  refine ⟨mem_namesIn, fun among => ?_⟩
  induction languages generalizing names with
  | nil => simpa [namesIn] using among
  | cons language rest ih =>
    rw [namesIn]
    apply ih
    rw [List.exists_mem_cons_iff] at among
    rcases among with known | new | later
    · left
      split
      · exact known
      · exact List.mem_append_left _ known
    · left
      split
      · next known => exact new ▸ List.contains_iff_mem.mp known
      · exact List.mem_append_right _ (List.mem_singleton.mpr new.symm)
    · exact .inr later

/-- A comparison with texts searches the fields with the names that it is given, and no others. -/
theorem fieldNames_textClause {field : Field} {names : List String} {operator : Operator}
    {operand : Operand} {c : Clause} (nonempty : names ≠ [])
    (success : textClause field names operator operand = .ok (some c)) : c.fieldNames = names := by
  have present : ∀ name, (Clause.present name).fieldNames = [name] := fun _ => rfl
  have absent : ∀ name, (Clause.present name).not.fieldNames = [name] := fun _ => rfl
  unfold textClause at success
  split at success
  · cases success
    rcases names with _ | ⟨name, _ | ⟨other, rest⟩⟩
    · exact absurd rfl nonempty
    · rfl
    · exact Clause.allFieldNames_map absent (name :: other :: rest)
  · cases success
    rcases names with _ | ⟨name, _ | ⟨other, rest⟩⟩
    · exact absurd rfl nonempty
    · rfl
    · exact Clause.allFieldNames_map present (name :: other :: rest)
  · obtain ⟨values, -, success⟩ := bind_eq_ok success
    dsimp only at success
    rw [compile_textKeys _ _ _ nonempty] at success
    split at success
    · cases success
    · cases success
      refine Clause.allFieldNames_map (fun name => ?_) names
      have texts := Clause.allFieldNames_atoms ((shownTexts (values.map Value.text)).map .phrase)
      rw [List.map_map] at texts
      exact congrArg (List.cons name) texts

/-- What a condition on a text field adds is compiled over the names of the field in some languages,
each once, and searches the fields with these names. -/
theorem adds_text {languages : List LanguageId} {c : Condition} {field : Field}
    (sound : ctx.IsSound languages (.condition c))
    (found : ctx.schema.field? c.field = some field) (text : field.type = .text) :
    ∃ names clause, names.Nodup ∧
      (∀ name, name ∈ names ↔ ∃ language ∈ languages, ctx.catalog.nameOf field language = name) ∧
      textClause field names c.operator c.operand = .ok clause ∧
      (∀ written ∈ clause, written.fieldNames = names) ∧
      ctx.adds languages (.condition c) = clause.map .ofClause := by
  obtain ⟨o, compiled⟩ := sound.1 c rfl
  have added := adds_eq (i := .condition c) compiled
  have known : ctx.field c.field = .ok field := by
    unfold Context.field
    rw [found]
  rw [condition_outcome, known] at compiled
  obtain ⟨clause, written, rfl⟩ := map_eq_ok compiled
  change ctx.leaf languages c field = .ok clause at written
  unfold leaf at written
  rw [text] at written
  dsimp only at written
  split at written
  · cases written
  · next spoken =>
    have some_name : ctx.namesIn field languages [] ≠ [] :=
      namesIn_ne_nil ctx field (.inl (by simpa using spoken))
    refine ⟨_, clause, nodup_namesIn ctx field languages List.nodup_nil, fun name => ?_, written,
      fun own same => ?_, added⟩
    · rw [mem_namesIn_iff]
      exact or_iff_right List.not_mem_nil
    · rw [Option.mem_def.mp same] at written
      exact fieldNames_textClause some_name written

section

variable {languages : List LanguageId} {i old new : Item}

/-- A nested group in place of another leaves the languages that the groups around it ask for. -/
theorem languageOverride_replaceAt (was : old.isGroup = true) (grouped : new.isGroup = true) {n : Nat}
    {place : List Nat} (there : i.at? (n :: place) = some old) :
    languageOverride (Item.replaceAt new (n :: place) i).members = languageOverride i.members := by
  rw [Item.members_replaceAt]
  refine languageOverride_modify fun member among => ?_
  rw [Item.at?, among] at there
  exact Item.isGroup_replaceAt grouped there was

theorem languagesWithin_replaceAt (was : old.isGroup = true) (grouped : new.isGroup = true) {n : Nat}
    {place : List Nat} (there : i.at? (n :: place) = some old) :
    languagesWithin languages (Item.replaceAt new (n :: place) i).members =
      languagesWithin languages i.members := by
  rw [languagesWithin, languageOverride_replaceAt was grouped there]
  rfl

/-- A tree that compiles still does with a nested group in place of another, if the new one compiles
in the languages in force there. -/
theorem isSound_replaceAt (was : old.isGroup = true) (grouped : new.isGroup = true)
    {place : List Nat} (there : i.at? place = some old) (sound : ctx.IsSound languages i)
    (fits : ctx.IsSound (i.languagesAt languages place) new) :
    ctx.IsSound languages (Item.replaceAt new place i) := by
  induction place generalizing languages i with
  | nil => exact fits
  | cons n place ih =>
    cases i with
    | condition c => cases there
    | group conjunction members tags =>
      obtain ⟨restricted, each⟩ := isSound_group_iff.mp sound
      have override := languageOverride_replaceAt was grouped there
      have within : languagesWithin languages (members.modify n (Item.replaceAt new place)) =
          languagesWithin languages members := languagesWithin_replaceAt was grouped there
      obtain ⟨member, among, deeper⟩ := Option.bind_eq_some_iff.mp there
      rw [Item.languagesAt_cons among] at fits
      refine isSound_group_iff.mpr ⟨?_, fun other inside => ?_⟩
      · rw [← fault?_languageOverride] at restricted ⊢
        exact (congrArg fault? override).trans restricted
      · rw [within]
        obtain ⟨m, at_m⟩ := List.mem_iff_getElem?.mp inside
        rw [List.getElem?_modify] at at_m
        split at at_m
        · next same =>
          subst same
          change members[n]? = some member at among
          rw [among] at at_m
          cases at_m
          exact ih deeper (each member (List.mem_of_getElem? among)) fits
        · rw [Option.map_eq_map, Option.map_id'] at at_m
          exact each other (List.mem_of_getElem? at_m)

/-- A nested group in place of another changes nothing at the places apart from it. -/
theorem addedAt_replaceAt (was : old.isGroup = true) (grouped : new.isGroup = true)
    {place other : List Nat} (there : i.at? place = some old) (apart : ¬ place <+: other)
    (within : ¬ other <+: place) :
    ctx.addedAt languages (Item.replaceAt new place i) other = ctx.addedAt languages i other := by
  induction place generalizing languages i other with
  | nil => exact absurd List.nil_prefix apart
  | cons n place ih =>
    cases other with
    | nil => exact absurd List.nil_prefix within
    | cons m other =>
      rw [addedAt_cons, addedAt_cons, languagesWithin_replaceAt was grouped there,
        Item.members_replaceAt, List.getElem?_modify]
      obtain ⟨member, among, deeper⟩ := Option.bind_eq_some_iff.mp there
      split
      · next same =>
        subst same
        rw [List.prefix_cons_inj] at apart within
        rw [among]
        exact ih deeper apart within
      · cases i.members[m]? <;> rfl

end

/-- The filters of a group at the top are made up, place by place, of what the members add in the
languages in force at their places. -/
structure IsComposed (ctx : Context) (languages : List LanguageId) (group : Group)
    (fragments : List Fragment) : Prop where
  /-- At the top stand the filters of the members under the conjunction of the group, and behind
  them the filter on the languages asked for. -/
  whole : fragments = (match group.conjunction with
    | .and => (ctx.addedWithin languages group.toItem [] group.members).map
        (Fragment.withTags · group.tags)
    | .or => (Fragment.reduce (ctx.addedWithin languages group.toItem [] group.members) .or
        group.tags true).toList) ++ (ctx.ambientFilter languages group).toList
  /-- A nested group folds the filters of its members. -/
  nested : ∀ place (inner : Group), group.toItem.at? place = some inner.toItem →
    ctx.addedAt languages group.toItem place =
      Fragment.reduce (ctx.addedWithin languages group.toItem place inner.members)
        inner.conjunction inner.tags false
  /-- A condition on a text field is compiled over the names of the field in the languages of the
  nearest group around it that has some, or in those asked for. What it becomes searches the fields
  with these names, each once, and no others. -/
  text : ∀ place c field, group.toItem.at? place = some (.condition c) →
    ctx.schema.field? c.field = some field → field.type = .text →
    ∃ names clause, names.Nodup ∧
      (∀ name, name ∈ names ↔ ∃ language ∈ group.toItem.languagesAt languages place,
        ctx.catalog.nameOf field language = name) ∧
      textClause field names c.operator c.operand = .ok clause ∧
      (∀ written ∈ clause, written.fieldNames = names) ∧
      ctx.addedAt languages group.toItem place = clause.map .ofClause

theorem isComposed {languages : List LanguageId} {group : Group} {fragments : List Fragment}
    (success : (ctx.conditions languages group).outcome = .ok fragments) :
    ctx.IsComposed languages group fragments := by
  have sound := (ctx.conditions_compile_iff languages group).mp ⟨fragments, success⟩
  refine ⟨conditions_added success, fun place inner there => addedAt_group sound there,
    fun place c field there found text => ?_⟩
  rw [addedAt, there, Option.bind_some]
  exact adds_text (isSound_at sound there) found text

/-- Languages are in force inside the group that asks for them alone: conditions on text fields are
compiled in those of the nearest group around them, and another nested group in place of one changes
neither what is added at the places apart from it nor the filter on the languages asked for. -/
theorem nested_override_contained (ctx : Context) (languages : List LanguageId) (group : Group)
    (fragments : List Fragment)
    (success : (ctx.conditions languages group).outcome = .ok fragments) :
    ctx.IsComposed languages group fragments ∧
      ∀ place (old new : Group), place ≠ [] → group.toItem.at? place = some old.toItem →
        (∃ o, (ctx.item (group.toItem.languagesAt languages place) new.toItem).outcome = .ok o) →
        ∃ others, (ctx.conditions languages (group.replaceAt new place)).outcome = .ok others ∧
          ctx.IsComposed languages (group.replaceAt new place) others ∧
          (∀ other, ¬ place <+: other → ¬ other <+: place →
            (group.replaceAt new place).toItem.at? other = group.toItem.at? other ∧
            ctx.addedAt languages (group.replaceAt new place).toItem other =
              ctx.addedAt languages group.toItem other) ∧
          ctx.ambientFilter languages (group.replaceAt new place) =
            ctx.ambientFilter languages group := by
  have sound := (ctx.conditions_compile_iff languages group).mp ⟨fragments, success⟩
  refine ⟨isComposed success, fun place old new inner there compiled => ?_⟩
  obtain ⟨n, place, rfl⟩ := List.exists_cons_of_ne_nil inner
  have same : (group.replaceAt new (n :: place)).toItem =
      Item.replaceAt new.toItem (n :: place) group.toItem := rfl
  have fits := (ctx.item_compiles_iff _ _).mp compiled
  have replaced := isSound_replaceAt rfl rfl there sound fits
  obtain ⟨others, success'⟩ := (ctx.conditions_compile_iff languages _).mpr (same ▸ replaced)
  refine ⟨others, success', isComposed success', fun other apart within => ⟨?_, ?_⟩, ?_⟩
  · exact Item.at?_replaceAt apart within group.toItem
  · exact addedAt_replaceAt rfl rfl there apart within
  · unfold ambientFilter
    have override : languageOverride (group.replaceAt new (n :: place)).members =
        languageOverride group.members := languageOverride_replaceAt rfl rfl there
    rw [override]

/-- An index with a text that has a name of its own in every language. -/
def bodies : Context where
  catalog := .ofSchema {
    fields := Index.FieldSet.empty.insert (.simple "body" .text)
    languages := []
    scope := ⟨"default", "000000"⟩
    foreign := false
    special := .standard }
  spatial := .skip

def danish : LanguageId := ⟨"da", by decide, by decide⟩

/-- A group about a language, with a word in its body. -/
def wordIn (language word : String) : Group :=
  ⟨.and, [.condition (.equal Name.languageId (.string language)),
    .condition (.equal "body" (.string word))], .empty⟩

/-- A word in whatever language is asked for, and one in German or another in any. -/
def words : Group :=
  ⟨.and, [.condition (.equal "body" (.string "rust")),
    .group .or [(wordIn "de" "stahl").toItem, .condition (.equal "body" (.string "steel"))] .empty],
    .empty⟩

/-- A German branch under English and Danish: each word is searched in the names of its own
languages. -/
theorem nested_override_contained_german :
    ∃ fragments, (bodies.conditions [english, danish] words).outcome = .ok fragments ∧
      fragments.map Fragment.query =
        ["+(ts_X3b_en_body:(\"rust\")^1 ts_X3b_da_body:(\"rust\")^1)",
          "((+ss_search_api_language:\"de\" +(ts_X3b_de_body:(\"stahl\")^1)) " ++
            "(+(ts_X3b_en_body:(\"steel\")^1 ts_X3b_da_body:(\"steel\")^1)))",
          "(ss_search_api_language:\"en\" ss_search_api_language:\"da\")"] ∧
      bodies.IsComposed [english, danish] words fragments ∧
      words.toItem.at? [1, 0] = some (wordIn "de" "stahl").toItem ∧
      (∃ o, (bodies.item (words.toItem.languagesAt [english, danish] [1, 0])
        (wordIn "fr" "acier").toItem).outcome = .ok o) ∧
      ∃ others, (bodies.conditions [english, danish]
          (words.replaceAt (wordIn "fr" "acier") [1, 0])).outcome = .ok others ∧
        others.map Fragment.query =
          ["+(ts_X3b_en_body:(\"rust\")^1 ts_X3b_da_body:(\"rust\")^1)",
            "((+ss_search_api_language:\"fr\" +(ts_X3b_fr_body:(\"acier\")^1)) " ++
              "(+(ts_X3b_en_body:(\"steel\")^1 ts_X3b_da_body:(\"steel\")^1)))",
            "(ss_search_api_language:\"en\" ss_search_api_language:\"da\")"] ∧
        bodies.addedAt [english, danish] (words.replaceAt (wordIn "fr" "acier") [1, 0]).toItem
            [1, 1] =
          bodies.addedAt [english, danish] words.toItem [1, 1] ∧
        bodies.ambientFilter [english, danish] (words.replaceAt (wordIn "fr" "acier") [1, 0]) =
          bodies.ambientFilter [english, danish] words := by
  have ran : (bodies.conditions [english, danish] words).outcome.map (List.map Fragment.query) =
      .ok ["+(ts_X3b_en_body:(\"rust\")^1 ts_X3b_da_body:(\"rust\")^1)",
        "((+ss_search_api_language:\"de\" +(ts_X3b_de_body:(\"stahl\")^1)) " ++
          "(+(ts_X3b_en_body:(\"steel\")^1 ts_X3b_da_body:(\"steel\")^1)))",
        "(ss_search_api_language:\"en\" ss_search_api_language:\"da\")"] := by
    decide +kernel
  have ran' : (bodies.conditions [english, danish]
      (words.replaceAt (wordIn "fr" "acier") [1, 0])).outcome.map (List.map Fragment.query) =
      .ok ["+(ts_X3b_en_body:(\"rust\")^1 ts_X3b_da_body:(\"rust\")^1)",
        "((+ss_search_api_language:\"fr\" +(ts_X3b_fr_body:(\"acier\")^1)) " ++
          "(+(ts_X3b_en_body:(\"steel\")^1 ts_X3b_da_body:(\"steel\")^1)))",
        "(ss_search_api_language:\"en\" ss_search_api_language:\"da\")"] := by
    decide +kernel
  obtain ⟨fragments, compiled, texts⟩ := map_eq_ok ran
  obtain ⟨composed, contained⟩ :=
    nested_override_contained bodies [english, danish] words fragments compiled
  have there : words.toItem.at? [1, 0] = some (wordIn "de" "stahl").toItem := rfl
  have fits : ∃ o, (bodies.item (words.toItem.languagesAt [english, danish] [1, 0])
      (wordIn "fr" "acier").toItem).outcome = .ok o := ⟨_, rfl⟩
  obtain ⟨others, compiled', -, apart, ambient⟩ :=
    contained [1, 0] _ (wordIn "fr" "acier") (List.cons_ne_nil _ _) there fits
  rw [compiled'] at ran'
  exact ⟨fragments, compiled, texts, composed, there, fits, others, compiled', Except.ok.inj ran',
    (apart [1, 1] (by decide) (by decide)).2, ambient⟩

end SearchCompiler.Compile.Context
