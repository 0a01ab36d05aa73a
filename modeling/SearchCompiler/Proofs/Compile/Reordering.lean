import Mathlib.Data.Finset.Insert
import SearchCompiler.Proofs.Compile.Scopes

/-!
# Members in another order

A group restricts the languages of its members by the first of its conditions that asks for some
(`languageOverride_cases`), and every condition that does comes first in some order of the members.
So the order does not matter iff these conditions ask alike: each by itself restricts the group to
the same set, or each to none, or each has a value that is no language (`Group.AsksAlike`).

The languages that a tree is compiled in matter to its success only in that there are some
(`isSound_congr`). In a group whose conditions ask alike, members in another order hence compile
iff they did, in the same languages, and a condition with values restricts the group
(`reordered_members`). In others a condition that asks for no language can stand before one that
asks for some, which is then not heard.
-/

namespace SearchCompiler.Filter

open Compile

/-- The set of languages that a group restricts its members to, if it does; nothing, if one of the
values is no language. -/
def ownSet? (members : List Item) : Option (Option (Finset LanguageId)) :=
  (languageOverride members).toOption.map (Option.map List.toFinset)

/-- The conditions of a group that ask for languages all ask for the same. -/
def Group.AsksAlike (group : Group) : Prop :=
  ∀ c ∈ group.conditions, ∀ d ∈ group.conditions, AsksLanguage c → AsksLanguage d →
    ownSet? [.condition c] = ownSet? [.condition d]

/-- The first condition that asks for languages decides. -/
theorem languageOverride_first {c : Condition} (asks : AsksLanguage c) (rest : List Item) :
    languageOverride (.condition c :: rest) = languageOverride [.condition c] := by
  have chosen : c.field = Name.languageId ∧ (c.operator = .eq ∨ c.operator = .isIn) := asks
  simp [languageOverride, chosen]

/-- Members that ask for no language do not matter. -/
theorem languageOverride_later {member : Item}
    (silent : ¬ ∃ c, member = .condition c ∧ AsksLanguage c) (rest : List Item) :
    languageOverride (member :: rest) = languageOverride rest := by
  cases member with
  | group => rfl
  | condition c =>
    have passed : ¬ (c.field = Name.languageId ∧ (c.operator = .eq ∨ c.operator = .isIn)) :=
      fun asks => silent ⟨c, rfl, asks⟩
    simp [languageOverride, passed]

/-- A group is restricted as by one of its conditions alone, if there is one that asks for
languages. -/
theorem languageOverride_cases (members : List Item) :
    ((∀ c, .condition c ∈ members → ¬ AsksLanguage c) ∧ languageOverride members = .ok none) ∨
      ∃ c, .condition c ∈ members ∧ AsksLanguage c ∧
        languageOverride members = languageOverride [.condition c] := by
  induction members with
  | nil => exact .inl ⟨nofun, rfl⟩
  | cons member rest ih =>
    by_cases asking : ∃ c, member = .condition c ∧ AsksLanguage c
    · obtain ⟨c, rfl, asks⟩ := asking
      exact .inr ⟨c, List.mem_cons_self, asks, languageOverride_first asks rest⟩
    · rw [languageOverride_later asking]
      rcases ih with ⟨silent, free⟩ | ⟨c, among, asks, same⟩
      · refine .inl ⟨fun c among asks => ?_, free⟩
        rcases List.mem_cons.mp among with own | later
        · exact asking ⟨c, own.symm, asks⟩
        · exact silent c later asks
      · exact .inr ⟨c, List.mem_cons_of_mem _ among, asks, same⟩

theorem ownSet?_eq_some_iff {members : List Item} {set : Finset LanguageId} :
    ownSet? members = some (some set) ↔
      ∃ own, languageOverride members = .ok (some own) ∧ own.toFinset = set := by
  unfold ownSet?
  cases languageOverride members with
  | error e => simp [Except.toOption]
  | ok own => cases own <;> simp [Except.toOption]

/-- Every condition that asks for languages decides in some order. -/
theorem exists_perm_first {members : List Item} {c : Condition}
    (among : .condition c ∈ members) (asks : AsksLanguage c) :
    ∃ others, others.Perm members ∧ languageOverride others = languageOverride [.condition c] := by
  obtain ⟨before, after, rfl⟩ := List.append_of_mem among
  exact ⟨_, List.perm_middle.symm, languageOverride_first asks _⟩

/-- A group whose conditions ask alike is restricted as by any of them. -/
theorem ownSet?_of_asks {group : Group} (alike : group.AsksAlike) {c : Condition}
    (among : c ∈ group.conditions) (asks : AsksLanguage c) :
    ownSet? group.members = ownSet? [.condition c] := by
  rcases languageOverride_cases group.members with ⟨silent, -⟩ | ⟨d, among', asks', decides⟩
  · exact absurd asks (silent c (Group.mem_conditions.mp among))
  · rw [ownSet?, decides]
    exact alike d (Group.mem_conditions.mpr among') c among asks' asks

/-- In a group whose conditions ask alike it does not matter in what order the members are, nor how
often one occurs. -/
theorem ownSet?_of_mem_iff {group : Group} (alike : group.AsksAlike) {members : List Item}
    (same : ∀ i, i ∈ members ↔ i ∈ group.members) : ownSet? members = ownSet? group.members := by
  rcases languageOverride_cases members with ⟨silent, free⟩ | ⟨c, among, asks, decides⟩
  · rcases languageOverride_cases group.members with ⟨-, free'⟩ | ⟨d, among, asks, -⟩
    · rw [ownSet?, ownSet?, free, free']
    · exact absurd asks (silent d ((same _).mpr among))
  · have inside : c ∈ group.conditions := Group.mem_conditions.mpr ((same _).mp among)
    rw [ownSet?_of_asks alike inside asks, ownSet?, decides, ownSet?]

/-- The order of the members does not matter iff the conditions that ask for languages ask alike. -/
theorem ownSet?_perm_iff (group : Group) :
    (∀ members, members.Perm group.members → ownSet? members = ownSet? group.members) ↔
      group.AsksAlike := by
  constructor
  · intro same c among d among' asks asks'
    obtain ⟨first, order, decides⟩ := exists_perm_first (Group.mem_conditions.mp among) asks
    obtain ⟨second, order', decides'⟩ := exists_perm_first (Group.mem_conditions.mp among') asks'
    rw [ownSet?, ownSet?, ← decides, ← decides']
    exact (same first order).trans (same second order').symm
  · intro alike members order
    exact ownSet?_of_mem_iff alike fun _ => order.mem_iff

/-- The language that a value stands for. -/
def languageOf (operator : Operator) (v : Value) : Except Error LanguageId :=
  match LanguageId.parse v.text with
  | .ok language => .ok language
  | .error e => .error (.invalidOperand Name.languageId operator (.language e))

/-- Values that all are languages are read one by one. -/
theorem mapM_languageOf (operator : Operator) {values : List Value}
    (spoken : ∀ v ∈ values, ∃ language, LanguageId.parse v.text = .ok language) :
    ∃ own, values.mapM (languageOf operator) = .ok own ∧
      ∀ language, language ∈ own ↔ ∃ v ∈ values, LanguageId.parse v.text = .ok language := by
  induction values with
  | nil => exact ⟨[], rfl, by simp⟩
  | cons v rest ih =>
    rw [List.forall_mem_cons] at spoken
    obtain ⟨⟨first, read⟩, later⟩ := spoken
    obtain ⟨own, others, members⟩ := ih later
    refine ⟨first :: own, ?_, fun language => ?_⟩
    · rw [List.mapM_cons, others, languageOf, read]
      rfl
    · rw [List.mem_cons, List.exists_mem_cons_iff, members, read, Except.ok.injEq, eq_comm]

/-- A condition that asks for languages restricts a group to its values. -/
theorem languageOverride_values {c : Condition} (asks : AsksLanguage c)
    (given : c.operand ≠ .null) :
    languageOverride [.condition c] =
      (c.operand.values.mapM (languageOf c.operator)).map some := by
  have chosen : c.field = Name.languageId ∧ (c.operator = .eq ∨ c.operator = .isIn) := asks
  simp only [languageOverride, List.filterMap_cons, List.filterMap_nil, if_pos chosen]
  cases shape : c.operand with
  | null => exact absurd shape given
  | scalar v =>
    change (languageOf c.operator v >>= fun language => pure (some [language])) =
      ([v].mapM (languageOf c.operator)).map some
    rw [List.mapM_cons, List.mapM_nil]
    cases languageOf c.operator v <;> rfl
  | list values =>
    change ((values.filterMap id).mapM (languageOf c.operator) >>= fun own => pure (some own)) =
      ((values.filterMap id).mapM (languageOf c.operator)).map some
    cases (values.filterMap id).mapM (languageOf c.operator) <;> rfl

/-- Values that all are languages put these in force. -/
theorem exists_own_of_values {c : Condition} (asks : AsksLanguage c)
    (given : c.operand.values ≠ [])
    (spoken : ∀ v ∈ c.operand.values, ∃ language, LanguageId.parse v.text = .ok language) :
    ∃ own, languageOverride [.condition c] = .ok (some own) ∧
      ∀ language, language ∈ own ↔
        ∃ v ∈ c.operand.values, LanguageId.parse v.text = .ok language := by
  have valued : c.operand ≠ .null := by
    intro null
    rw [null] at given
    exact given rfl
  obtain ⟨own, read, members⟩ := mapM_languageOf c.operator spoken
  refine ⟨own, ?_, members⟩
  rw [languageOverride_values asks valued, read]
  rfl

end SearchCompiler.Filter

namespace SearchCompiler.Compile

open Filter

theorem restrictionFault?_eq_none_iff (members : List Item) :
    restrictionFault? members = none ↔ ownSet? members ≠ none := by
  rw [← fault?_languageOverride, ownSet?]
  cases languageOverride members <;> simp [fault?, Except.toOption]

/-- Under what names a text is compared has no influence on the fault. -/
theorem fault?_textClause (field : Field) {names others : List String} (named : names ≠ [])
    (renamed : others ≠ []) (operator : Operator) (operand : Operand) :
    fault? (textClause field names operator operand) =
      fault? (textClause field others operator operand) := by
  have phrases (names : List String) (named : names ≠ []) :
      fault? (textValues field operator operand >>= fun values =>
        (Keys.Flattening.mk (names.map fun name => ⟨name, Target.plainSuffix⟩) .phrase).compile
          (if operator = .neq ∨ operator = .notIn then
            (Keys.Expression.terms .or (values.map Value.text)).negate
          else Keys.Expression.terms .or (values.map Value.text))) =
        fault? (textValues field operator operand) := by
    cases textValues field operator operand with
    | error e => rfl
    | ok values =>
      change fault? (Keys.Flattening.compile _ _) = none
      rw [compile_textKeys _ _ _ named]
      rfl
  unfold textClause
  split
  · rfl
  · rfl
  · exact (phrases names named).trans (phrases others renamed).symm

namespace Context

variable {ctx : Context} {languages others : List LanguageId}

/-- The languages matter to the fault of a condition only in that there are some. -/
theorem fault?_condition (spoken : languages = [] ↔ others = []) (c : Condition) :
    fault? (ctx.condition languages c).outcome = fault? (ctx.condition others c).outcome := by
  rw [condition_outcome, condition_outcome, fault?_map, fault?_map]
  cases ctx.field c.field with
  | error e => rfl
  | ok field =>
    change fault? (ctx.leaf languages c field) = fault? (ctx.leaf others c field)
    unfold leaf
    cases field.type
    case text =>
      dsimp only
      by_cases silent : languages = []
      · rw [silent, spoken.mp silent]
      · have heard : others ≠ [] := fun none => silent (spoken.mpr none)
        rw [if_neg (by simpa using silent), if_neg (by simpa using heard)]
        exact fault?_textClause field (namesIn_ne_nil ctx field (.inl silent))
          (namesIn_ne_nil ctx field (.inl heard)) _ _
    all_goals rfl

/-- A group without languages of its own leaves its members those around it. -/
theorem languagesWithin_eq_nil (spoken : languages = [] ↔ others = []) (members : List Item) :
    languagesWithin languages members = [] ↔ languagesWithin others members = [] := by
  rw [languagesWithin_eq_getD, languagesWithin_eq_getD]
  cases ownLanguages? members with
  | none => exact spoken
  | some own => rfl

mutual

/-- The languages matter to the success of a tree only in that there are some. -/
theorem isSound_congr {languages others : List LanguageId} (spoken : languages = [] ↔ others = [])
    (i : Item) : ctx.IsSound languages i ↔ ctx.IsSound others i := by
  cases i with
  | condition c =>
    rw [← item_compiles_iff, ← item_compiles_iff, item, item, ← fault?_eq_none_iff,
      ← fault?_eq_none_iff, fault?_condition spoken]
  | group conjunction members tags =>
    rw [isSound_group_iff, isSound_group_iff,
      isSound_members_congr (languagesWithin_eq_nil spoken members) members]

/-- Whether members are free of faults depends on the languages only by whether there are any. -/
theorem isSound_members_congr {languages others : List LanguageId}
    (spoken : languages = [] ↔ others = []) (is : List Item) :
    (∀ i ∈ is, ctx.IsSound languages i) ↔ ∀ i ∈ is, ctx.IsSound others i := by
  cases is with
  | nil => simp
  | cons i rest =>
    rw [List.forall_mem_cons, List.forall_mem_cons, isSound_congr spoken i,
      isSound_members_congr spoken rest]

end

/-- The set of languages that the members of a group are compiled in. -/
theorem toFinset_languagesWithin (languages : List LanguageId) (members : List Item) :
    (languagesWithin languages members).toFinset =
      (ownSet? members).join.getD languages.toFinset := by
  unfold languagesWithin ownSet?
  cases languageOverride members with
  | error e => rfl
  | ok own => cases own <;> rfl

/-- Whether a group compiles depends on which members it has and what languages they ask for. -/
theorem isSound_of_mem_iff {conjunction : Conjunction} {members others : List Item}
    {tags : Text.TextSet} (same : ∀ i, i ∈ others ↔ i ∈ members)
    (own : ownSet? others = ownSet? members) :
    ctx.IsSound languages (.group conjunction others tags) ↔
      ctx.IsSound languages (.group conjunction members tags) := by
  have spoken : languagesWithin languages others = [] ↔ languagesWithin languages members = [] := by
    rw [← List.toFinset_eq_empty_iff, toFinset_languagesWithin, own, ← toFinset_languagesWithin,
      List.toFinset_eq_empty_iff]
  rw [isSound_group_iff, isSound_group_iff, restrictionFault?_eq_none_iff,
    restrictionFault?_eq_none_iff, own, isSound_members_congr spoken others]
  simp only [same]

/-- The members of a group can be put in another order without a change to the languages it asks for
iff its conditions ask alike. Then the group compiles in one order iff it does in the other, its
members are compiled in the same set of languages, and a condition with values that are languages
restricts them to these. -/
theorem reordered_members (ctx : Context) (languages : List LanguageId) (group : Group) :
    ((∀ members, members.Perm group.members → ownSet? members = ownSet? group.members) ↔
      group.AsksAlike) ∧
    (group.AsksAlike →
      (∀ members, members.Perm group.members →
        ((∃ fragments, (ctx.conditions languages { group with members }).outcome = .ok fragments) ↔
          ∃ fragments, (ctx.conditions languages group).outcome = .ok fragments) ∧
        ((∃ o, (ctx.item languages (Group.toItem { group with members })).outcome = .ok o) ↔
          ∃ o, (ctx.item languages group.toItem).outcome = .ok o) ∧
        (languagesWithin languages members).toFinset =
          (languagesWithin languages group.members).toFinset) ∧
      ∀ c ∈ group.conditions, AsksLanguage c → c.operand.values ≠ [] →
        (∀ v ∈ c.operand.values, ∃ language, LanguageId.parse v.text = .ok language) →
        ∃ own, languageOverride group.members = .ok (some own) ∧
          ∀ language, language ∈ own ↔
            ∃ v ∈ c.operand.values, LanguageId.parse v.text = .ok language) := by
  refine ⟨ownSet?_perm_iff group, fun alike => ⟨fun members order => ?_, ?_⟩⟩
  · have same (i : Item) : i ∈ members ↔ i ∈ group.members := order.mem_iff
    have own := ownSet?_of_mem_iff alike same
    refine ⟨?_, ?_, ?_⟩
    · rw [conditions_compile_iff, conditions_compile_iff]
      exact isSound_of_mem_iff same own
    · rw [item_compiles_iff, item_compiles_iff]
      exact isSound_of_mem_iff same own
    · rw [toFinset_languagesWithin, own, ← toFinset_languagesWithin]
  · intro c among asks given spoken
    obtain ⟨values, alone, members⟩ := exists_own_of_values asks given spoken
    have set := (ownSet?_of_asks alike among asks).trans
      (ownSet?_eq_some_iff.mpr ⟨values, alone, rfl⟩)
    obtain ⟨own, restricted, same⟩ := ownSet?_eq_some_iff.mp set
    refine ⟨own, restricted, fun language => ?_⟩
    rw [← members, ← List.mem_toFinset, same, List.mem_toFinset]

def french : LanguageId := ⟨"fr", by decide, by decide⟩

/-- A word in French, which is asked for twice. -/
def insistent : Group :=
  ⟨.and, [.condition (.equal Name.languageId (.string "fr")),
    .condition (.equal "body" (.string "acier")),
    .condition (.oneOf Name.languageId [.string "fr", .string "fr"])], .empty⟩

/-- The members of the French group in reverse order. -/
theorem reordered_members_french :
    insistent.AsksAlike ∧ insistent.members.reverse.Perm insistent.members ∧
      (∃ fragments, (bodies.conditions [english]
        { insistent with members := insistent.members.reverse }).outcome = .ok fragments) ∧
      (languagesWithin [english] insistent.members.reverse).toFinset = {french} ∧
      .oneOf Name.languageId [.string "fr", .string "fr"] ∈ insistent.conditions ∧
      AsksLanguage (.oneOf Name.languageId [.string "fr", .string "fr"]) ∧
      ∃ own, languageOverride insistent.members = .ok (some own) ∧ french ∈ own := by
  have each : ∀ c ∈ insistent.conditions, AsksLanguage c →
      ownSet? [.condition c] = some (some {french}) := by
    intro c among asks
    change c ∈ [_, _, _] at among
    simp only [List.mem_cons, List.not_mem_nil, or_false] at among
    rcases among with rfl | rfl | rfl
    · rfl
    · exact absurd asks.1 (by decide)
    · rfl
  have alike : insistent.AsksAlike := fun c among d among' asks asks' =>
    (each c among asks).trans (each d among' asks').symm
  have order : insistent.members.reverse.Perm insistent.members := List.reverse_perm _
  have inside : .oneOf Name.languageId [.string "fr", .string "fr"] ∈ insistent.conditions :=
    Group.mem_conditions.mpr (List.mem_of_getLast? rfl)
  have asks : AsksLanguage (.oneOf Name.languageId [.string "fr", .string "fr"]) := by decide
  have spoken : ∀ v ∈ [Value.string "fr", .string "fr"],
      ∃ language, LanguageId.parse v.text = .ok language := by
    simp only [List.forall_mem_cons]
    exact ⟨⟨french, rfl⟩, ⟨french, rfl⟩, nofun⟩
  obtain ⟨-, settled⟩ := reordered_members bodies [english] insistent
  obtain ⟨reorders, restricts⟩ := settled alike
  obtain ⟨compiles, -, set⟩ := reorders _ order
  obtain ⟨own, restricted, members⟩ := restricts _ inside asks (List.cons_ne_nil _ _) spoken
  refine ⟨alike, order, compiles.mpr ⟨_, rfl⟩, set.trans rfl, inside, asks, own, restricted, ?_⟩
  exact (members french).mpr ⟨.string "fr", List.mem_cons_self, rfl⟩

/-- A word in French, behind another condition. -/
def frenchBehind (first : Condition) : Group :=
  ⟨.and, [.condition first, .condition (.equal Name.languageId (.string "fr")),
    .condition (.equal "body" (.string "rust"))], .empty⟩

/-- The same in the reverse order. -/
def frenchBefore (last : Condition) : Group :=
  { frenchBehind last with members := (frenchBehind last).members.reverse }

/-- Behind a condition that asks for no language, a condition that asks for one is not heard; behind
one that asks for an absent language in a list, a group does not even compile. -/
theorem french_not_heard :
    (frenchBefore (.absent Name.languageId)).members.Perm
      (frenchBehind (.absent Name.languageId)).members ∧
    languageOverride (frenchBehind (.absent Name.languageId)).members = .ok none ∧
    languageOverride (frenchBefore (.absent Name.languageId)).members = .ok (some [french]) ∧
    (bodies.conditions [english] (frenchBehind (.absent Name.languageId))).outcome.map
        (List.map Fragment.query) =
      .ok ["-ss_search_api_language:[* TO *]", "ss_search_api_language:\"fr\"",
        "+(ts_X3b_en_body:(\"rust\")^1)", "ss_search_api_language:\"en\""] ∧
    (bodies.conditions [english] (frenchBefore (.absent Name.languageId))).outcome.map
        (List.map Fragment.query) =
      .ok ["+(ts_X3b_fr_body:(\"rust\")^1)", "ss_search_api_language:\"fr\"",
        "-ss_search_api_language:[* TO *]"] ∧
    (bodies.conditions [english]
        (frenchBehind ⟨Name.languageId, .isIn, .list [none]⟩)).outcome =
      .error (.missingLanguage "body") ∧
    (bodies.conditions [english]
        (frenchBefore ⟨Name.languageId, .isIn, .list [none]⟩)).outcome.map
        (List.map Fragment.query) =
      .ok ["+(ts_X3b_fr_body:(\"rust\")^1)", "ss_search_api_language:\"fr\"",
        "(*:* -ss_search_api_language:[* TO *])"] :=
  ⟨List.reverse_perm _, rfl, rfl, rfl, rfl, rfl, rfl⟩

end Context

end SearchCompiler.Compile
