import SearchCompiler.Proofs.Compile.Tags

/-!
# Where compiling fails

A tree of conditions has parts that can be at fault: the languages that a group restricts its
members to, and every single condition in the languages it is compiled in. In the order of the
document the languages of a group come before its members (`itemParts`).

Compiling a tree fails iff one of its parts is at fault, at whatever depth and also where what the
part adds is dropped later on; the error is that of the first such part (`conditions_faults`). The
filter on the languages, which is compiled last, is never at fault (`languageCondition_ok`).
-/

namespace SearchCompiler.Compile

open Filter

/-- The error that a step ends with. -/
def fault? {α : Type} : Except Error α → Option Error
  | .ok _ => none
  | .error e => some e

theorem fault?_eq_none_iff {α : Type} {step : Except Error α} :
    fault? step = none ↔ ∃ a, step = .ok a := by
  cases step <;> simp [fault?]

theorem fault?_eq_some_iff {α : Type} {step : Except Error α} {e : Error} :
    fault? step = some e ↔ step = .error e := by
  cases step <;> simp [fault?]

/-- Of two steps the first has the fault, if it has one. -/
theorem fault?_bind {α β : Type} (step : Except Error α) (next : α → Except Error β)
    {later : Option Error} (same : ∀ a, step = .ok a → fault? (next a) = later) :
    fault? (step >>= next) = (fault? step).or later := by
  cases step with
  | error e => rfl
  | ok a => exact same a rfl

/-- What cannot fail adds no fault. -/
theorem fault?_bind_pure {α β : Type} (step : Except Error α) (f : α → β) :
    fault? (step >>= fun a => pure (f a)) = fault? step := by
  cases step <;> rfl

/-- What is done with the result of a step adds no fault. -/
theorem fault?_map {α β : Type} (step : Except Error α) (f : α → β) :
    fault? (step.map f) = fault? step := by
  cases step <;> rfl

instance (c : Condition) : Decidable (AsksLanguage c) :=
  inferInstanceAs (Decidable (_ ∧ _))

/-- The condition by which a group restricts the language of its members: the first of its own that
asks for one language or several. -/
def restriction? (members : List Item) : Option Condition :=
  members.findSome? fun
    | .condition c => if AsksLanguage c then some c else none
    | .group _ _ _ => none

def languageFault? (operator : Operator) (value : Value) : Option Error :=
  match LanguageId.parse value.text with
  | .ok _ => none
  | .error e => some (.invalidOperand Name.languageId operator (.language e))

/-- The fault of the first value in the restriction of a group that is no language. -/
def restrictionFault? (members : List Item) : Option Error :=
  (restriction? members).bind fun c => c.operand.values.findSome? (languageFault? c.operator)

/-- A part of a tree of conditions that can be at fault. -/
inductive Part where
  /-- The languages that a group restricts its members to. -/
  | languages (members : List Item)
  /-- A condition in the languages that it is compiled in. -/
  | condition (languages : List LanguageId) (c : Condition)

namespace Context

def partFault? (ctx : Context) : Part → Option Error
  | .languages members => restrictionFault? members
  | .condition languages c => fault? (ctx.condition languages c).outcome

mutual

/-- The parts of a member of a group, in the order of the document. -/
def itemParts (languages : List LanguageId) : Item → List Part
  | .condition c => [.condition languages c]
  | .group _ members _ =>
    .languages members :: itemsParts (languagesWithin languages members) members

def itemsParts (languages : List LanguageId) : List Item → List Part
  | [] => []
  | member :: rest => itemParts languages member ++ itemsParts languages rest

end

end Context

/-- Languages are read from values one by one, up to the first that is none. -/
theorem fault?_mapM_language (operator : Operator) (values : List Value) :
    fault? (values.mapM fun v =>
      match LanguageId.parse v.text with
      | .ok language => Except.ok language
      | .error e => .error (Error.invalidOperand Name.languageId operator (.language e))) =
      values.findSome? (languageFault? operator) := by
  induction values with
  | nil => rfl
  | cons v rest ih =>
    rw [List.mapM_cons, List.findSome?_cons, languageFault?]
    cases LanguageId.parse v.text with
    | error e => rfl
    | ok language =>
      rw [← ih]
      exact fault?_bind_pure _ _

/-- The languages that a group restricts its members to are at fault with the first value of the
restriction that is no language. -/
theorem fault?_languageOverride (members : List Item) :
    fault? (languageOverride members) = restrictionFault? members := by
  have found : restriction? members = (members.filterMap fun
      | .condition c =>
        if c.field = Name.languageId ∧ (c.operator = .eq ∨ c.operator = .isIn) then some c else none
      | .group _ _ _ => none).head? := by
    rw [List.head?_filterMap]
    rfl
  unfold languageOverride restrictionFault?
  rw [found]
  cases members.filterMap fun
      | .condition c =>
        if c.field = Name.languageId ∧ (c.operator = .eq ∨ c.operator = .isIn) then some c else none
      | .group _ _ _ => none with
  | nil => rfl
  | cons c rest =>
    dsimp only [List.head?_cons, Option.bind_some]
    cases c.operand with
    | null => rfl
    | scalar v =>
      dsimp only [Operand.values, List.findSome?_cons, languageFault?]
      cases LanguageId.parse v.text <;> rfl
    | list values =>
      exact (fault?_bind_pure _ _).trans (fault?_mapM_language c.operator _)

namespace Context

variable {ctx : Context}

mutual

/-- A member fails with the fault of its first part at fault. -/
theorem fault?_item (ctx : Context) (languages : List LanguageId) (i : Item) :
    fault? (ctx.item languages i).outcome = (itemParts languages i).findSome? ctx.partFault? := by
  cases i with
  | condition c =>
    rw [itemParts, List.findSome?_singleton]
    rfl
  | group conjunction members tags =>
    rw [item, Traced.outcome_bind, Traced.outcome_ofExcept, itemParts, List.findSome?_cons,
      partFault?, ← fault?_languageOverride]
    cases scope : languageOverride members with
    | error e => rfl
    | ok override =>
      change fault? (_ >>= fun fragments => (pure _ : Traced _)).outcome = _
      rw [Traced.outcome_bind, languagesWithin_eq scope, ← fault?_items]
      exact fault?_bind_pure _ _

/-- Members fail with the fault of their first part at fault. -/
theorem fault?_items (ctx : Context) (languages : List LanguageId) (is : List Item) :
    fault? (ctx.items languages is).outcome =
      (itemsParts languages is).findSome? ctx.partFault? := by
  cases is with
  | nil => rfl
  | cons i rest =>
    rw [items, Traced.outcome_bind, itemsParts, List.findSome?_append, ← fault?_item,
      ← fault?_items]
    refine fault?_bind _ _ fun o _ => ?_
    rw [Traced.outcome_bind]
    exact fault?_bind_pure _ _

end

/-- Strings are written as they are. -/
theorem valueTexts_strings {field : Field} (plain : field.type = .string) (operator : Operator)
    (texts : List String) :
    valueTexts field operator (texts.map Value.string) = .ok texts := by
  induction texts with
  | nil => rfl
  | cons text rest ih =>
    have own : valueText field operator (.string text) = .ok text := by
      unfold valueText
      rw [plain]
      rfl
    rw [List.map_cons, valueTexts, own, ih]
    rfl

/-- The filter on the languages can always be compiled. -/
theorem languageCondition_ok (ctx : Context) {languages : List LanguageId}
    (spoken : languages ≠ []) :
    ∃ o, (ctx.condition languages (languageCondition languages)).outcome = .ok o := by
  have known : ctx.field Name.languageId = .ok (.simple Name.languageId .string) := by
    unfold Context.field
    rw [schema_language]
  have values : (languages.map fun l => some (Value.string l.text)).filterMap id =
      (languages.map LanguageId.text).map Value.string := by
    rw [List.filterMap_map, List.map_map, ← List.filterMap_eq_map]
    rfl
  have some_language : (languages.map fun l => some (Value.string l.text)).isEmpty = false := by
    rw [List.isEmpty_map, List.isEmpty_eq_false_iff]
    exact spoken
  have written (name : String) : ∃ clause,
      valueClause (.simple Name.languageId .string) name .isIn
        (.list (languages.map fun l => some (Value.string l.text))) = .ok clause := by
    unfold valueClause
    rw [if_neg (by decide)]
    dsimp only
    rw [some_language, values, valueTexts_strings rfl]
    exact ⟨_, rfl⟩
  obtain ⟨clause, compiled⟩ :=
    written (ctx.catalog.nameOf (.simple Name.languageId .string) .unspecified)
  have operand : (languageCondition languages).operand =
      .list (languages.map fun l => some (Value.string l.text)) := by
    unfold languageCondition Operand.ofValues
    rw [List.map_map]
    rfl
  refine ⟨some (.ofClause clause), ?_⟩
  rw [condition_outcome]
  change (ctx.field Name.languageId >>= _).map _ = _
  rw [known]
  change (Except.map some (valueClause _ _ .isIn (languageCondition languages).operand)).map _ = _
  rw [operand, compiled]
  rfl

/-- A filter on the languages, where one is added, adds no fault. -/
theorem fault?_languages (ctx : Context) {languages : List LanguageId} (filters : List Fragment)
    (asked : Bool) (spoken : asked = true → languages ≠ []) :
    fault? (Traced.outcome (
      if asked then do
        let language ← ctx.condition languages (languageCondition languages)
        return filters ++ language.toList
      else return filters)) = none := by
  cases asked with
  | false => rfl
  | true =>
    obtain ⟨o, compiled⟩ := ctx.languageCondition_ok (spoken rfl)
    rw [if_pos rfl, Traced.outcome_bind, compiled]
    rfl

/-- The languages of a group and its own conditions are free of faults. -/
def IsFaultless (ctx : Context) (languages : List LanguageId) (group : Group) : Prop :=
  restrictionFault? group.members = none ∧
    ∀ c ∈ group.conditions,
      ∃ o, (ctx.condition (languagesWithin languages group.members) c).outcome = .ok o

/-- A member is free of faults if it is a condition that compiles, and no group in it, at whatever
depth, has a fault of its own. -/
def IsSound (ctx : Context) (languages : List LanguageId) (i : Item) : Prop :=
  (∀ c, i = .condition c → ∃ o, (ctx.condition languages c).outcome = .ok o) ∧
    ∀ others group, Within languages i others group → ctx.IsFaultless others group

/-- A group is free of faults iff its languages and all of its members are. -/
theorem isSound_group_iff {languages : List LanguageId} {conjunction : Conjunction}
    {members : List Item} {tags : Text.TextSet} :
    ctx.IsSound languages (.group conjunction members tags) ↔
      restrictionFault? members = none ∧
        ∀ i ∈ members, ctx.IsSound (languagesWithin languages members) i := by
  constructor
  · rintro ⟨-, groups⟩
    obtain ⟨restricted, own⟩ := groups _ _ (within_group_iff.mpr (.inl ⟨rfl, rfl⟩))
    refine ⟨restricted, fun i among => ⟨?_, fun others group stands => ?_⟩⟩
    · rintro c rfl
      exact own c (Group.mem_conditions.mpr among)
    · exact groups others group (within_group_iff.mpr (.inr ⟨i, among, stands⟩))
  · rintro ⟨restricted, each⟩
    refine ⟨fun c same => (nomatch same), fun others group stands => ?_⟩
    rcases within_group_iff.mp stands with ⟨rfl, rfl⟩ | ⟨i, among, stands⟩
    · exact ⟨restricted, fun c inside => (each _ (Group.mem_conditions.mp inside)).1 c rfl⟩
    · exact (each i among).2 others group stands

mutual

/-- Going through all parts of a member finds the same faults as going down its groups. -/
theorem parts_faultless_iff (ctx : Context) (languages : List LanguageId) (i : Item) :
    (∀ part ∈ itemParts languages i, ctx.partFault? part = none) ↔ ctx.IsSound languages i := by
  cases i with
  | condition c =>
    simp [itemParts, partFault?, fault?_eq_none_iff, IsSound, not_within_condition]
  | group conjunction members tags =>
    rw [itemParts, List.forall_mem_cons, members_parts_faultless_iff, isSound_group_iff, partFault?]

theorem members_parts_faultless_iff (ctx : Context) (languages : List LanguageId) (is : List Item) :
    (∀ part ∈ itemsParts languages is, ctx.partFault? part = none) ↔
      ∀ i ∈ is, ctx.IsSound languages i := by
  cases is with
  | nil => simp [itemsParts]
  | cons i rest =>
    rw [itemsParts, List.forall_mem_append, List.forall_mem_cons, parts_faultless_iff,
      members_parts_faultless_iff]

end

/-- A group at the top fails with the fault of its first part at fault. -/
theorem fault?_conditions (ctx : Context) (languages : List LanguageId) (group : Group) :
    fault? (ctx.conditions languages group).outcome =
      (itemParts languages group.toItem).findSome? ctx.partFault? := by
  rw [conditions, Traced.outcome_bind, Traced.outcome_ofExcept, Group.toItem, itemParts,
    List.findSome?_cons, partFault?, ← fault?_languageOverride]
  cases scope : languageOverride group.members with
  | error e => rfl
  | ok override =>
    change fault? (_ >>= fun fragments => _ : Traced _).outcome = _
    rw [Traced.outcome_bind, languagesWithin_eq scope, ← fault?_items]
    refine (fault?_bind _ _ fun fs _ => ctx.fault?_languages _ _ fun asked => ?_).trans Option.or_none
    rintro rfl
    simp at asked

/-- A member compiles iff it is free of faults. -/
theorem item_compiles_iff (ctx : Context) (languages : List LanguageId) (i : Item) :
    (∃ o, (ctx.item languages i).outcome = .ok o) ↔ ctx.IsSound languages i := by
  rw [← fault?_eq_none_iff, fault?_item, List.findSome?_eq_none_iff, parts_faultless_iff]

/-- A group at the top compiles iff it is free of faults. -/
theorem conditions_compile_iff (ctx : Context) (languages : List LanguageId) (group : Group) :
    (∃ fragments, (ctx.conditions languages group).outcome = .ok fragments) ↔
      ctx.IsSound languages group.toItem := by
  rw [← fault?_eq_none_iff, fault?_conditions, List.findSome?_eq_none_iff, parts_faultless_iff]

/-- Compiling a tree of conditions succeeds iff no part of it is at fault: the languages that groups
restrict their members to, and the conditions in the languages that they are compiled in. Otherwise
the error is that of the first part at fault in the order of the document. -/
theorem conditions_faults (ctx : Context) (languages : List LanguageId) (group : Group) :
    ((∃ fragments, (ctx.conditions languages group).outcome = .ok fragments) ↔
      ∀ others inner, Within languages group.toItem others inner → ctx.IsFaultless others inner) ∧
    ∀ e, (ctx.conditions languages group).outcome = .error e ↔
      ∃ before part after, itemParts languages group.toItem = before ++ part :: after ∧
        (∀ earlier ∈ before, ctx.partFault? earlier = none) ∧ ctx.partFault? part = some e := by
  constructor
  · rw [conditions_compile_iff]
    exact and_iff_right fun c same => nomatch same
  · intro e
    rw [← fault?_eq_some_iff, fault?_conditions, List.findSome?_eq_some_iff]
    constructor
    · rintro ⟨before, part, after, parts, own, earlier⟩
      exact ⟨before, part, after, parts, earlier, own⟩
    · rintro ⟨before, part, after, parts, earlier, own⟩
      exact ⟨before, part, after, parts, own, earlier⟩

/-- A title `A`; and a color, which the index does not have, or a title below nothing. -/
def colored : Group :=
  ⟨.and, [.condition (.equal "title" (.string "A")),
    .group .or [.condition (.equal "color" (.string "red")), .condition ⟨"title", .lt, .null⟩]
      .empty], .empty⟩

-- The parts are the languages of the outer group, the title, and the inner group with its own two.
example : (itemParts [english] colored.toItem).map catalogue.partFault? =
    [none, none, none, some (.unknownField "color"),
      some (.invalidOperand "title" .lt .nullBound)] ∧
    (catalogue.conditions [english] colored).outcome = .error (.unknownField "color") :=
  ⟨rfl, rfl⟩

end Context

end SearchCompiler.Compile
