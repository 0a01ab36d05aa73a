import SearchCompiler.Proofs.Compile.Meaning
import SearchCompiler.Proofs.Keys.Negation

/-!
# Filters that only prohibit

A compiled condition never has a list of nothing but clauses with a minus in it: where a condition
subtracts, it subtracts from a base. Folding adds such lists. A nested AND group adds one when all
of its filters are excluded, and an OR group when one of several is, since a filter with a sign is
put into parentheses there (`conditions_negation`).
-/

namespace SearchCompiler.Compile

open Filter Clause

/-- Whether a comparison asks for the absence of its field. -/
def asksAbsence : Operator → Operand → Bool
  | .eq, .null => true
  | _, _ => false

def operandTexts : Operand → List String
  | .null => []
  | .scalar v => [v.text]
  | .list values => (values.filterMap id).map Value.text

theorem isProhibited_anyOf {cs : List Clause} (free : ∀ c ∈ cs, c.isProhibited = false) :
    (anyOf cs).isProhibited = false := by
  unfold anyOf
  split
  · exact free _ List.mem_cons_self
  · rfl

/-- One of several values is never asked for behind a minus. -/
theorem isProhibited_inClause (name : String) (texts : List String) (orAbsent : Bool) :
    (inClause name texts orAbsent).isProhibited = false := by
  refine isProhibited_anyOf ?_
  rw [List.forall_mem_append, List.forall_mem_map]
  refine ⟨fun text _ => rfl, ?_⟩
  split
  · rw [List.forall_mem_singleton]
    rfl
  · exact List.forall_mem_nil _

theorem isProhibited_notInClause (name : String) (texts : List String) (andPresent : Bool) :
    (notInClause name texts andPresent).isProhibited = false := by
  unfold notInClause
  split <;> rfl

/-- A comparison of values stands behind a minus only where it asks for absence. -/
theorem valueClause_isProhibited {field : Field} {name : String} {operator : Operator}
    {operand : Operand} {c : Clause} (success : valueClause field name operator operand = .ok c) :
    c.isProhibited = asksAbsence operator operand := by
  unfold valueClause at success
  dsimp only at success
  split at success
  · cases success
  split at success
  case h_1 | h_2 => cases success; rfl
  case h_3 | h_4 | h_5 | h_6 | h_7 | h_8 =>
    obtain ⟨text, -, success⟩ := bind_eq_ok success
    cases success
    rfl
  case h_9 | h_10 =>
    obtain ⟨low, -, success⟩ := bind_eq_ok success
    obtain ⟨high, -, success⟩ := bind_eq_ok success
    cases success
    rfl
  case h_11 =>
    split at success
    · cases success
    · obtain ⟨texts, -, success⟩ := bind_eq_ok success
      cases success
      exact isProhibited_inClause _ _ _
  case h_12 =>
    split at success
    · cases success
    · obtain ⟨texts, -, success⟩ := bind_eq_ok success
      cases success
      exact isProhibited_notInClause _ _ _
  all_goals cases success

theorem locationClause_isProhibited {field : Field} {name : String} {operator : Operator}
    {operand : Operand} {c : Clause}
    (success : locationClause field name operator operand = .ok c) :
    c.isProhibited = asksAbsence operator operand := by
  unfold locationClause at success
  split at success
  · cases success
    rfl
  · cases success
    rfl
  · split at success
    · cases success
      rfl
    · cases success
  · split at success
    · cases success
      rfl
    · cases success
  · cases success

/-- Whether a comparison of a text becomes a query behind a minus; there is none for blank
values. -/
def textExcluded? (names : List String) (operator : Operator) : Operand → Option Bool
  | .null => some (asksAbsence operator .null && names.length == 1)
  | operand =>
    if shownTexts (operandTexts operand) = [] then none
    else some (operator == .neq || operator == .notIn)

/-- The phrases that are searched are the values of the operand. -/
theorem textValues_texts {field : Field} {operator : Operator} {operand : Operand}
    {values : List Value} (success : textValues field operator operand = .ok values) :
    values.map Value.text = operandTexts operand ∧ operand ≠ .null := by
  unfold textValues at success
  split at success
  · cases success
    exact ⟨rfl, nofun⟩
  · cases success
    exact ⟨rfl, nofun⟩
  · split at success
    · cases success
    · cases success
      exact ⟨rfl, nofun⟩
  · split at success
    · cases success
    · cases success
      exact ⟨rfl, nofun⟩
  · cases success

/-- A comparison of text stands behind a minus where it asks for absence or rules values out. -/
theorem textClause_isProhibited {field : Field} {names : List String} {operator : Operator}
    {operand : Operand} {c : Option Clause} (nonempty : names ≠ [])
    (success : textClause field names operator operand = .ok c) :
    c.map isProhibited = textExcluded? names operator operand := by
  unfold textClause at success
  split at success
  · cases success
    obtain ⟨name, rest, rfl⟩ := List.exists_cons_of_ne_nil nonempty
    cases rest <;> rfl
  · cases success
    have free : ∀ c ∈ names.map Clause.present, c.isProhibited = false := by
      rw [List.forall_mem_map]
      exact fun name _ => rfl
    rw [Option.map_some, isProhibited_anyOf free]
    rfl
  · obtain ⟨values, read, success⟩ := bind_eq_ok success
    obtain ⟨texts, given⟩ := textValues_texts read
    dsimp only at success
    rw [compile_textKeys _ _ _ nonempty, texts] at success
    cases success
    have excluded : textExcluded? names operator operand =
        if shownTexts (operandTexts operand) = [] then none
        else some (operator == .neq || operator == .notIn) := by
      cases operand with
      | null => exact absurd rfl given
      | list | scalar => rfl
    rw [excluded]
    split
    · rfl
    · cases operator <;> rfl

theorem any_not_hasNegativeList (clause : String → Clause) (texts : List String)
    (fine : ∀ text, (clause text).hasNegativeList = false) :
    (texts.map fun text => (clause text).not).any Clause.hasNegativeList = false := by
  rw [List.any_map, List.any_eq_false]
  intro text _
  exact Bool.eq_false_iff.mp (fine text)

/-- No form of a condition has a list of nothing but clauses with a minus. -/
theorem LeafForm.hasNegativeList {named : String → Prop} {c : Clause} (form : LeafForm named c) :
    c.hasNegativeList = false := by
  cases form with
  | absent | present | equals | range | circle => rfl
  | differs | outside => rfl
  | oneOf name texts orAbsent known some =>
    refine (isPlain_anyOf ?_ ?_).fine
    · cases texts with
      | nil => rw [some rfl]; exact List.cons_ne_nil _ _
      | cons text rest => exact List.cons_ne_nil _ _
    · rw [List.forall_mem_append, List.forall_mem_map]
      refine ⟨fun text _ => ⟨rfl, rfl⟩, ?_⟩
      split
      · rw [List.forall_mem_singleton]
        exact ⟨rfl, rfl⟩
      · exact List.forall_mem_nil _
  | noneOf name texts andPresent known =>
    have subtracted := any_not_hasNegativeList (Clause.equals name) texts fun _ => rfl
    unfold notInClause
    split
    · rfl
    · cases andPresent
      · rw [if_neg Bool.false_ne_true, hasNegativeList_list_cons rfl, List.any_cons, subtracted]
        rfl
      · rw [if_pos rfl, hasNegativeList_list_cons rfl, List.any_cons, subtracted]
        rfl
  | allAbsent names known =>
    have subtracted := any_not_hasNegativeList Clause.present names fun _ => rfl
    rw [hasNegativeList_list_cons rfl, List.any_cons, subtracted]
    rfl
  | anyPresent names known some =>
    refine (isPlain_anyOf (by simpa using some) ?_).fine
    rw [List.forall_mem_map]
    exact fun name _ => ⟨rfl, rfl⟩
  | phrases sign names texts known some shown =>
    have phrases : (Clause.list (texts.map fun text => Clause.atom (.phrase text))).IsPlain := by
      refine isPlain_list (by simpa using shown) ?_
      rw [List.forall_mem_map]
      exact fun text _ => isPlain_atom _
    refine (isPlain_list (by simpa using some) ?_).fine
    rw [List.forall_mem_map]
    exact fun name _ => phrases.onField name _

/-- Whether folded filters stand behind a minus, given for each whether it does; there is none
without filters. -/
def foldExcluded : List Bool → Option Bool
  | [] => none
  | [single] => some single
  | _ => some false

/-- Whether folding filters adds a list that only prohibits, given for each whether it stands
behind a minus. -/
def foldProhibits (conjunction : Conjunction) (excluded : List Bool) : Bool :=
  2 ≤ excluded.length && match conjunction with
    | .and => excluded.all id
    | .or => excluded.any id

/-- As a member under AND a fragment stands behind a minus iff it does by itself; under OR it never
does. -/
theorem isProhibited_memberClause (f : Fragment) :
    (f.memberClause .and).isProhibited = f.clause.isProhibited ∧
      (f.memberClause .or).isProhibited = false := by
  unfold Fragment.memberClause
  cases signed : f.clause.isSigned with
  | true => exact ⟨rfl, rfl⟩
  | false =>
    have free : f.clause.isProhibited = false := by
      rw [Bool.eq_false_iff]
      intro prohibited
      rw [isSigned_of_isProhibited prohibited] at signed
      cases signed
    exact ⟨free.symm, free⟩

/-- Under OR the parentheses around a minus are a list that only prohibits. -/
theorem hasNegativeList_memberClause (f : Fragment) :
    (f.memberClause .and).hasNegativeList = f.clause.hasNegativeList ∧
      (f.memberClause .or).hasNegativeList =
        (f.clause.isProhibited || f.clause.hasNegativeList) := by
  have free := isProhibited_memberClause f
  unfold Fragment.memberClause at free ⊢
  cases signed : f.clause.isSigned with
  | true =>
    refine ⟨rfl, ?_⟩
    change (Clause.list _).hasNegativeList = _
    rw [hasNegativeList_list]
    simp only [List.all_cons, List.all_nil, List.any_cons, List.any_nil, Bool.and_true,
      Bool.or_false]
  | false =>
    rw [signed] at free
    refine ⟨rfl, ?_⟩
    rw [show f.clause.isProhibited = false from free.2, Bool.false_or]

theorem all_memberClause_or {fs : List Fragment} (nonempty : fs ≠ []) :
    (fs.map (Fragment.memberClause .or)).all isProhibited = false := by
  obtain ⟨f, rest, rfl⟩ := List.exists_cons_of_ne_nil nonempty
  rw [List.map_cons, List.all_cons, (isProhibited_memberClause f).2, Bool.false_and]

theorem any_memberClause_or (fs : List Fragment) :
    (fs.map (Fragment.memberClause .or)).any Clause.hasNegativeList =
      (fs.any (fun f => f.clause.isProhibited) || fs.any fun f => f.clause.hasNegativeList) := by
  rw [List.any_map]
  induction fs with
  | nil => rfl
  | cons f rest ih =>
    rw [List.any_cons, List.any_cons, List.any_cons, ih, Function.comp_apply,
      (hasNegativeList_memberClause f).2]
    simp only [Bool.or_assoc, Bool.or_left_comm]

theorem memberClause_and (fs : List Fragment) :
    (fs.map (Fragment.memberClause .and)).all isProhibited =
        fs.all (fun f => f.clause.isProhibited) ∧
      (fs.map (Fragment.memberClause .and)).any Clause.hasNegativeList =
        fs.any fun f => f.clause.hasNegativeList := by
  rw [List.all_map, List.any_map]
  constructor
  · exact congrArg fs.all (funext fun f => (isProhibited_memberClause f).1)
  · exact congrArg fs.any (funext fun f => (hasNegativeList_memberClause f).1)

/-- What folding does to minuses and to lists that only prohibit, in all of its cases. -/
theorem reduce_negation (conjunction : Conjunction) (tags : Text.TextSet) {outermost : Bool}
    (row : outermost = true → conjunction = .or) (fs : List Fragment) :
    (Fragment.reduce fs conjunction tags outermost).map (fun f => f.clause.isProhibited) =
        foldExcluded (fs.map fun f => f.clause.isProhibited) ∧
      (Fragment.reduce fs conjunction tags outermost).any (fun f => f.clause.hasNegativeList) =
        (foldProhibits conjunction (fs.map fun f => f.clause.isProhibited) ||
          fs.any fun f => f.clause.hasNegativeList) := by
  match fs with
  | [] => exact ⟨rfl, rfl⟩
  | [f] => exact ⟨rfl, (Bool.or_false _).symm⟩
  | f :: g :: rest =>
    have several : decide (2 ≤ ((f :: g :: rest).map fun f => f.clause.isProhibited).length) =
        true := decide_eq_true (by simp)
    unfold foldProhibits
    rw [several, Bool.true_and]
    cases outermost with
    | true =>
      cases row rfl
      refine ⟨rfl, ?_⟩
      change (Clause.row _).hasNegativeList = _
      rw [hasNegativeList_row, any_memberClause_or, List.any_map]
      rfl
    | false =>
      refine ⟨rfl, ?_⟩
      change (Clause.list _).hasNegativeList = _
      rw [hasNegativeList_list]
      cases conjunction with
      | and =>
        rw [(memberClause_and (f :: g :: rest)).1, (memberClause_and (f :: g :: rest)).2,
          List.all_map]
        rfl
      | or =>
        rw [all_memberClause_or (List.cons_ne_nil f (g :: rest)), Bool.false_or,
          any_memberClause_or, List.any_map]
        rfl

namespace Context

/-- Whether a condition becomes a query behind a minus; there is none where it adds no filter. -/
def excluded? (ctx : Context) (languages : List LanguageId) (c : Condition) : Option Bool :=
  match ctx.schema.field? c.field with
  | none => none
  | some field =>
    match field.type with
    | .location =>
      match ctx.spatial with
      | .skip => none
      | .circles => some (asksAbsence c.operator c.operand)
      | .other builder =>
        match builder field (ctx.catalog.nameOf field .unspecified) c with
        | .ok (some _) => some false
        | _ => none
    | .text => textExcluded? (ctx.namesIn field languages []) c.operator c.operand
    | _ => some (asksAbsence c.operator c.operand)

/-- Whether a condition stands behind a minus is told by its field, operator and operand alone. -/
theorem leaf_isProhibited {ctx : Context} {languages : List LanguageId} {c : Condition}
    {field : Field} {clause : Option Clause} (found : ctx.schema.field? c.field = some field)
    (success : ctx.leaf languages c field = .ok clause) :
    clause.map isProhibited = ctx.excluded? languages c := by
  unfold leaf at success
  unfold excluded?
  rw [found]
  dsimp only
  cases type : field.type
  case location =>
    rw [type] at success
    dsimp only at success ⊢
    cases spatial : ctx.spatial with
    | skip =>
      rw [spatial] at success
      cases success
      rfl
    | circles =>
      rw [spatial] at success
      obtain ⟨x, read, rfl⟩ := map_eq_ok success
      exact congrArg some (locationClause_isProhibited read)
    | other builder =>
      rw [spatial] at success
      obtain ⟨query, written, rfl⟩ := map_eq_ok success
      dsimp only
      rw [written]
      cases query <;> rfl
  case text =>
    rw [type] at success
    dsimp only at success ⊢
    split at success
    · cases success
    · next asked =>
      refine textClause_isProhibited (namesIn_ne_nil ctx field (.inl ?_)) success
      simpa using asked
  all_goals
    rw [type] at success
    dsimp only at success ⊢
    obtain ⟨x, read, rfl⟩ := map_eq_ok success
    exact congrArg some (valueClause_isProhibited read)

theorem condition_isProhibited {ctx : Context} {languages : List LanguageId} {c : Condition}
    {f : Option Fragment} (success : (ctx.condition languages c).outcome = .ok f) :
    f.map (fun f => f.clause.isProhibited) = ctx.excluded? languages c := by
  rw [condition_outcome] at success
  obtain ⟨clause, compiled, rfl⟩ := map_eq_ok success
  obtain ⟨field, found, compiled⟩ := bind_eq_ok compiled
  rw [← leaf_isProhibited (field_eq_ok found) compiled, Option.map_map]
  rfl

/-- A compiled condition has no list that only prohibits. The query of a builder from outside is
not looked into. -/
theorem condition_hasNegativeList {ctx : Context} {languages : List LanguageId} {c : Condition}
    {f : Fragment} (success : (ctx.condition languages c).outcome = .ok (some f)) :
    f.clause.hasNegativeList = false := by
  rcases condition_form_or_raw success with form | ⟨-, text, written⟩
  · exact form.hasNegativeList
  · rw [written]
    rfl

mutual

/-- Whether a member of a group becomes a query behind a minus; there is none where it adds no
filter. -/
def itemExcluded? (ctx : Context) (languages : List LanguageId) : Item → Option Bool
  | .condition c => ctx.excluded? languages c
  | .group _ members _ =>
    foldExcluded (ctx.itemsExcluded (languagesWithin languages members) members)

/-- Which of the filters that members add stand behind a minus. -/
def itemsExcluded (ctx : Context) (languages : List LanguageId) : List Item → List Bool
  | [] => []
  | member :: rest =>
    (ctx.itemExcluded? languages member).toList ++ ctx.itemsExcluded languages rest

end

mutual

def itemProhibits (ctx : Context) (languages : List LanguageId) : Item → Bool
  | .condition _ => false
  | .group conjunction members _ =>
    foldProhibits conjunction (ctx.itemsExcluded (languagesWithin languages members) members) ||
      ctx.itemsProhibit (languagesWithin languages members) members

def itemsProhibit (ctx : Context) (languages : List LanguageId) : List Item → Bool
  | [] => false
  | member :: rest => ctx.itemProhibits languages member || ctx.itemsProhibit languages rest

end

/-- Whether the group at the top gets a list that only prohibits: under AND its filters are not
folded. -/
def groupProhibits (ctx : Context) (languages : List LanguageId) (group : Group) : Bool :=
  match group.conjunction with
  | .and => ctx.itemsProhibit (languagesWithin languages group.members) group.members
  | .or => ctx.itemProhibits languages group.toItem

mutual

/-- By induction on the tree: the minus of a member, and the lists that only prohibit in it. -/
theorem item_negation (ctx : Context) (languages : List LanguageId) (i : Item) {f : Option Fragment}
    (success : (ctx.item languages i).outcome = .ok f) :
    f.map (fun f => f.clause.isProhibited) = ctx.itemExcluded? languages i ∧
      f.any (fun f => f.clause.hasNegativeList) = ctx.itemProhibits languages i := by
  cases i with
  | condition c =>
    rw [item] at success
    refine ⟨condition_isProhibited success, ?_⟩
    cases f with
    | none => rfl
    | some f => exact condition_hasNegativeList success
  | group conjunction members tags =>
    obtain ⟨fs, compiled, rfl⟩ := group_outcome success
    obtain ⟨excluded, prohibits⟩ :=
      items_negation ctx (languagesWithin languages members) members compiled
    have fold := reduce_negation conjunction tags (nofun : false = true → conjunction = .or) fs
    rw [itemExcluded?, itemProhibits, ← excluded, ← prohibits]
    exact fold

theorem items_negation (ctx : Context) (languages : List LanguageId) (is : List Item)
    {fs : List Fragment} (success : (ctx.items languages is).outcome = .ok fs) :
    fs.map (fun f => f.clause.isProhibited) = ctx.itemsExcluded languages is ∧
      fs.any (fun f => f.clause.hasNegativeList) = ctx.itemsProhibit languages is := by
  cases is with
  | nil =>
    cases success
    exact ⟨rfl, rfl⟩
  | cons i rest =>
    obtain ⟨f, others, compiled, rest_compiled, rfl⟩ := items_cons_eq_ok success
    obtain ⟨excluded, prohibits⟩ := item_negation ctx languages i compiled
    obtain ⟨excluded', prohibits'⟩ := items_negation ctx languages rest rest_compiled
    rw [itemsExcluded, itemsProhibit, ← excluded, ← prohibits, ← excluded', ← prohibits']
    cases f <;> exact ⟨rfl, rfl⟩

end

/-- Compiled conditions have a list that only prohibits iff folding adds one. -/
theorem conditions_negation (ctx : Context) (languages : List LanguageId) (group : Group)
    {fragments : List Fragment}
    (success : (ctx.conditions languages group).outcome = .ok fragments) :
    fragments.any (fun f => f.clause.hasNegativeList) = ctx.groupProhibits languages group := by
  rw [conditions, Traced.outcome_bind] at success
  obtain ⟨override, scope, success⟩ := bind_eq_ok success
  rw [Traced.outcome_bind] at success
  obtain ⟨fs, compiled, success⟩ := bind_eq_ok success
  obtain ⟨excluded, prohibits⟩ :=
    items_negation ctx (override.getD languages) group.members compiled
  have filters : (match group.conjunction with
      | .and => fs.map (Fragment.withTags · group.tags)
      | .or => (Fragment.reduce fs .or group.tags true).toList).any
        (fun f => f.clause.hasNegativeList) = ctx.groupProhibits languages group := by
    rw [groupProhibits, languagesWithin_eq scope, ← prohibits]
    cases joined : group.conjunction with
    | and =>
      dsimp only
      rw [List.any_map]
      rfl
    | or =>
      have fold := (reduce_negation .or group.tags (fun _ => rfl : true = true → _) fs).2
      dsimp only
      rw [Group.toItem, joined, itemProhibits, languagesWithin_eq scope, ← excluded, ← prohibits,
        ← fold]
      cases Fragment.reduce fs .or group.tags true <;> simp
  dsimp only at success
  split at success
  · rw [Traced.outcome_bind] at success
    obtain ⟨language, added, success⟩ := bind_eq_ok success
    cases success
    have fine : language.toList.any (fun f => f.clause.hasNegativeList) = false := by
      cases language with
      | none => rfl
      | some f =>
        have own := condition_hasNegativeList added
        simp [own]
    refine List.any_append.trans ?_
    rw [fine, Bool.or_false]
    exact filters
  · cases success
    exact filters

/-- A list of nothing but clauses with a minus is written for keys iff they have a group of nothing
but negated groups, and for conditions iff folding adds one. -/
theorem negative_lists :
    (∀ (keys : Keys.Expression) (targets : List Target) (mode : Keys.Mode) (query : Option Clause),
      (Keys.Flattening.mk targets mode).compile keys = .ok query →
      Keys.compile keys targets mode = .ok ((query.map Clause.render).getD "") ∧
        query.any Clause.hasNegativeList = keys.hasNegativeGroup) ∧
    ∀ (ctx : Context) (languages : List LanguageId) (group : Group) (fragments : List Fragment),
      (ctx.conditions languages group).outcome = .ok fragments →
      fragments.any (fun f => f.clause.hasNegativeList) = ctx.groupProhibits languages group := by
  constructor
  · intro keys targets mode query success
    refine ⟨by rw [Keys.compile, success], ?_⟩
    unfold Keys.Flattening.compile at success
    split at success
    · cases success
    · next made =>
      cases success
      exact Keys.Flattening.clause_hasNegativeList _ keys made
  · intro ctx languages group fragments success
    exact conditions_negation ctx languages group success

/-- Rust, and neither Java nor Go. -/
def rustOnly : Keys.Expression :=
  .group .and false false [.term "rust", (Keys.Expression.terms .or ["java", "go"]).negate]

/-- A title `A`, or no title. -/
def titleOrNone : Group :=
  ⟨.or, [.condition (.equal "title" (.string "A")), .condition (.absent "title")], .empty⟩

/-- A title `A`, and a group of no body and some title. -/
def titleWithoutBody : Group :=
  ⟨.and, [.condition (.equal "title" (.string "A")),
    .group .and [.condition (.absent "body"), .condition (.present "title")] .empty], .empty⟩

/-- Keys without such a list, and conditions with one for either conjunction. -/
theorem negative_lists_examples :
    (∃ query, (Keys.Flattening.mk [] .terms).compile rustOnly = .ok query ∧
      Keys.compile rustOnly [] .terms = .ok ((query.map Clause.render).getD "") ∧
      query.any Clause.hasNegativeList = false) ∧
    ∃ fragments, (catalogue.conditions [english] titleWithoutBody).outcome = .ok fragments ∧
      fragments.map Fragment.query = ["ss_title:\"A\"", "(-ts_body:[* TO *] +ss_title:[* TO *])",
        "ss_search_api_language:\"en\""] ∧
      fragments.any (fun f => f.clause.hasNegativeList) = false := by
  constructor
  · obtain ⟨text, same⟩ := negative_lists.1 rustOnly [] .terms _ rfl
    exact ⟨_, rfl, text, same⟩
  · have ran : (catalogue.conditions [english] titleWithoutBody).outcome.map
        (List.map Fragment.query) = .ok ["ss_title:\"A\"", "(-ts_body:[* TO *] +ss_title:[* TO *])",
          "ss_search_api_language:\"en\""] := by
      rfl
    obtain ⟨fragments, compiled, texts⟩ := map_eq_ok ran
    have same := negative_lists.2 catalogue [english] titleWithoutBody fragments compiled
    exact ⟨fragments, compiled, texts, same⟩

/-- The absence of a field as an alternative is nested without a base. -/
theorem absent_alternative_negative :
    ∃ fragments, (catalogue.conditions [] titleOrNone).outcome = .ok fragments ∧
      fragments.map Fragment.query = ["ss_title:\"A\" (-ss_title:[* TO *])"] ∧
      fragments.any (fun f => f.clause.hasNegativeList) = true := by
  have ran : (catalogue.conditions [] titleOrNone).outcome.map (List.map Fragment.query) =
      .ok ["ss_title:\"A\" (-ss_title:[* TO *])"] := by
    rfl
  obtain ⟨fragments, compiled, texts⟩ := map_eq_ok ran
  exact ⟨fragments, compiled, texts, conditions_negation catalogue [] titleOrNone compiled⟩

end Context

end SearchCompiler.Compile
