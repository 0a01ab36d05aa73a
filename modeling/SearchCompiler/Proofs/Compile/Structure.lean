import SearchCompiler.Proofs.Compile.Meaning
import SearchCompiler.Proofs.Compile.Shape
import SearchCompiler.Proofs.Compile.Varying

/-!
# The structure of filters

Strings cannot change the structure of the filters that they end up in. Two groups of conditions
that differ in the strings of some conditions fail alike, or compile into filters with the same tags
that are scanned into the same characters outside quotes, with literals in the same places
(`conditions_structure`). In both cases the literals hold the texts of the values, in the order of
the conditions (`Context.groupTexts`), and nothing else.

One relation is kept from the values to the filters, side by side for both groups: clauses have one
shape, with the texts of the values in their literals (`valueClause_agree`, `textClause_agree`), and
so have the filters that the members of groups fold into (`items_agree`).
-/

namespace SearchCompiler.Filter.Fragment

/-- What a filter consists of besides the texts of its literals: its tags, the characters outside
quotes and the places of the literals. -/
def outline (f : Fragment) : Text.TextSet × List Text.Segment :=
  (f.tags, (Text.segments f.query.toList).map Text.Segment.emptied)

def literals (f : Fragment) : List String :=
  Text.literals (Text.segments f.query.toList)

end SearchCompiler.Filter.Fragment

namespace SearchCompiler.Compile

open Filter
open Keys (Agree)

/-! ### Conditions -/

namespace Context

variable {ctx : Context} {key : String} {field : Field}

section

variable (found : ctx.schema.field? key = some field)

include found

/-- What two ends of a range become. -/
theorem ends_agree {v w v' w' : Value} (low : ctx.ValueVaries key v w)
    (high : ctx.ValueVaries key v' w') (operator : Operator) {form : String → String → Clause}
    (same : ∀ s s' t t', SameShape [s, s'] [t, t'] [form s s'] [form t t']) :
    Agree (fun c d => SameShape [writtenText field v, writtenText field v']
        [writtenText field w, writtenText field w'] [c] [d])
      (do
        let low ← valueText field operator v
        let high ← valueText field operator v'
        return form low high)
      (do
        let low ← valueText field operator w
        let high ← valueText field operator w'
        return form low high) := by
  refine Agree.bind (valueText_agree found low operator) ?_
  rintro _ _ ⟨rfl, rfl⟩
  refine Agree.bind (valueText_agree found high operator) ?_
  rintro _ _ ⟨rfl, rfl⟩
  exact .ok (same _ _ _ _)

/-- A range compiles only from a list of its two ends. -/
theorem rangeClause_agree {vs ws : List (Option Value)}
    (all : List.Forall₂ (Option.Rel (ctx.ValueVaries key)) vs ws) (name : String)
    {operator : Operator} (range : operator = .between ∨ operator = .notBetween) :
    Agree (fun c d => SameShape ((vs.filterMap id).map (writtenText field))
        ((ws.filterMap id).map (writtenText field)) [c] [d])
      (valueClause field name operator (.list vs))
      (valueClause field name operator (.list ws)) := by
  have inside := fun s s' t t' : String =>
    sameShape_range name (some s) (some t) (some s') (some t') rfl rfl true
  unfold valueClause
  dsimp only
  split
  · exact .error _
  -- Whether a list has just two members, and both of them present, shows member by member.
  · cases all with
    | nil => rcases range with rfl | rfl <;> exact .error _
    | cons first rest =>
      cases first with
      | none => rcases range with rfl | rfl <;> exact .error _
      | some low =>
        cases rest with
        | nil => rcases range with rfl | rfl <;> exact .error _
        | cons second rest =>
          cases second with
          | none => rcases range with rfl | rfl <;> exact .error _
          | some high =>
            cases rest with
            | cons => rcases range with rfl | rfl <;> exact .error _
            | nil =>
              rcases range with rfl | rfl
              · exact ends_agree found low high _ inside
              · exact ends_agree found low high _ fun s s' t t' =>
                  (sameShape_everything.append (inside s s' t t').not).list

/-- Lists of values fail alike or are written alike. -/
theorem listClause_agree {vs ws : List (Option Value)}
    (all : List.Forall₂ (Option.Rel (ctx.ValueVaries key)) vs ws) (name : String)
    (operator : Operator) :
    Agree (fun c d => SameShape ((vs.filterMap id).map (writtenText field))
        ((ws.filterMap id).map (writtenText field)) [c] [d])
      (valueClause field name operator (.list vs))
      (valueClause field name operator (.list ws)) := by
  by_cases range : operator = .between ∨ operator = .notBetween
  · exact rangeClause_agree found all name range
  have values := forall₂_filterMap all
  have length : ((vs.filterMap id).map (writtenText field)).length =
      ((ws.filterMap id).map (writtenText field)).length := by
    rw [List.length_map, List.length_map, values.length_eq]
  have texts := valueTexts_agree found values operator
  have empty : vs.isEmpty = ws.isEmpty := by
    cases all <;> rfl
  unfold valueClause
  dsimp only
  split
  · exact .error _
  · cases operator with
    | isIn =>
      dsimp only
      rw [empty, any_isNone all]
      split
      · exact .error _
      · refine Agree.bind texts ?_
        rintro _ _ ⟨rfl, rfl⟩
        exact .ok (sameShape_inClause name length _)
    | notIn =>
      dsimp only
      rw [empty, any_isNone all]
      split
      · exact .error _
      · refine Agree.bind texts ?_
        rintro _ _ ⟨rfl, rfl⟩
        exact .ok (sameShape_notInClause name length _)
    | between => exact absurd (.inl rfl) range
    | notBetween => exact absurd (.inr rfl) range
    | _ => exact .error _

/-- Single values fail alike or are written alike. -/
theorem scalarClause_agree {v w : Value} (both : ctx.ValueVaries key v w) (name : String)
    (operator : Operator) :
    Agree (fun c d => SameShape [writtenText field v] [writtenText field w] [c] [d])
      (valueClause field name operator (.scalar v))
      (valueClause field name operator (.scalar w)) := by
  have compare : ∀ form : String → Clause,
      SameShape [writtenText field v] [writtenText field w] [form (writtenText field v)]
        [form (writtenText field w)] →
      Agree (fun c d => SameShape [writtenText field v] [writtenText field w] [c] [d])
        (do return form (← valueText field operator v))
        (do return form (← valueText field operator w)) := by
    intro form same
    refine Agree.bind (valueText_agree found both operator) ?_
    rintro _ _ ⟨rfl, rfl⟩
    exact .ok same
  have below := sameShape_range name none none (some (writtenText field v))
    (some (writtenText field w)) rfl rfl
  have above := sameShape_range name (some (writtenText field v)) (some (writtenText field w)) none
    none rfl rfl
  unfold valueClause
  dsimp only
  split
  · exact .error _
  · cases operator with
    | eq => exact compare (Clause.equals name) (sameShape_equals name _ _)
    | neq =>
      exact compare (fun text => .both .everything (Clause.equals name text).not)
        (sameShape_differs name _ _)
    | lt => exact compare (fun text => rangeClause name none (some text) false) (below false)
    | lte => exact compare (fun text => rangeClause name none (some text) true) (below true)
    | gt => exact compare (fun text => rangeClause name (some text) none false) (above false)
    | gte => exact compare (fun text => rangeClause name (some text) none true) (above true)
    | _ => exact .error _

theorem valueClause_agree {x y : Operand} (varies : Operand.Varies (ctx.ValueVaries key) x y)
    (name : String) (operator : Operator) :
    Agree (fun c d => SameShape (x.values.map (writtenText field))
        (y.values.map (writtenText field)) [c] [d])
      (valueClause field name operator x) (valueClause field name operator y) := by
  cases varies with
  | scalar both => exact scalarClause_agree found both name operator
  | list all => exact listClause_agree found all name operator
  | null =>
    have present := sameShape_present name
    unfold valueClause
    dsimp only
    split
    · exact .error _
    · cases operator with
      | eq => exact .ok present.not
      | neq => exact .ok present
      | _ => exact .error _

end

theorem textValues_agree {related : Value → Value → Prop} {x y : Operand}
    (varies : Operand.Varies related x y) (field : Field) (operator : Operator) :
    Agree (fun vs ws => vs = x.values ∧ ws = y.values ∧ List.Forall₂ related vs ws)
      (textValues field operator x) (textValues field operator y) := by
  cases varies with
  | null => cases operator <;> exact .error _
  | scalar both =>
    cases operator with
    | eq | neq => exact .ok ⟨rfl, rfl, .cons both .nil⟩
    | _ => exact .error _
  | list all =>
    cases operator with
    | isIn | notIn =>
      unfold textValues
      dsimp only
      rw [any_isNone all]
      split
      · exact .error _
      · exact .ok ⟨rfl, rfl, forall₂_filterMap all⟩
    | _ => exact .error _

/-- Comparing a text field with something makes phrases of it, unless all of it is blank. -/
theorem textClause_values (field : Field) {names : List String} (nonempty : names ≠ [])
    (operator : Operator) {operand : Operand} (given : operand ≠ .null) :
    textClause field names operator operand =
      (textValues field operator operand).map fun values =>
        if shownTexts (values.map Value.text) = [] then none
        else some (phrasesClause (if operator = .neq ∨ operator = .notIn then .mustNot else .must)
          names (shownTexts (values.map Value.text))) := by
  unfold textClause
  split
  · exact absurd rfl given
  · exact absurd rfl given
  · cases textValues field operator operand with
    | error e => rfl
    | ok values => exact compile_textKeys names operator (values.map Value.text) nonempty

theorem length_shownTexts {vs ws : List Value}
    (blank : List.Forall₂ (fun v w => Text.isBlankText v.text = Text.isBlankText w.text) vs ws) :
    (shownTexts (vs.map Value.text)).length = (shownTexts (ws.map Value.text)).length := by
  unfold shownTexts
  rw [List.length_map, List.length_map]
  induction blank with
  | nil => rfl
  | @cons v w vs ws own _ ih =>
    rw [List.map_cons, List.map_cons, List.filter_cons, List.filter_cons, own]
    split
    · exact congrArg Nat.succ ih
    · exact ih

theorem sameShape_names {form : String → Clause}
    (each : ∀ name, SameShape [] [] [form name] [form name]) (names : List String) :
    SameShape [] [] (names.map form) (names.map form) := by
  induction names with
  | nil => exact .nil
  | cons name rest ih => exact (each name).append ih

section

variable (found : ctx.schema.field? key = some field) (text : field.isText = true)

include found text

/-- Phrases in every field, unless the values are blank, which they are on both sides. -/
theorem phrases_agree {x y : Operand} (varies : Operand.Varies (ctx.ValueVaries key) x y)
    (given : x ≠ .null) (given' : y ≠ .null) {names : List String} (nonempty : names ≠ [])
    (operator : Operator) :
    Agree (fun o p => SameShape (names.flatMap fun _ => shownTexts (x.values.map Value.text))
        (names.flatMap fun _ => shownTexts (y.values.map Value.text)) o.toList p.toList)
      (textClause field names operator x) (textClause field names operator y) := by
  have blank : ∀ v w, ctx.ValueVaries key v w →
      Text.isBlankText v.text = Text.isBlankText w.text := by
    rintro _ _ (_ | ⟨s, t, _, together⟩)
    · rfl
    · exact together field found text
  rw [textClause_values field nonempty operator given,
    textClause_values field nonempty operator given']
  refine Agree.map (textValues_agree varies field operator) ?_
  rintro _ _ - - ⟨rfl, rfl, all⟩
  have length := length_shownTexts (all.imp blank)
  have shown : shownTexts (x.values.map Value.text) = [] ↔
      shownTexts (y.values.map Value.text) = [] := by
    rw [← List.length_eq_zero_iff, ← List.length_eq_zero_iff, length]
  by_cases left : shownTexts (x.values.map Value.text) = []
  · rw [if_pos left, if_pos (shown.mp left), left, shown.mp left, List.flatMap_eq_nil_iff.mpr]
    · exact .nil
    · exact fun _ _ => rfl
  · rw [if_neg left, if_neg (left ∘ shown.mpr)]
    exact sameShape_phrases _ names length

/-- Texts that are blank in the same places become the same number of phrases. -/
theorem textClause_agree {x y : Operand} (varies : Operand.Varies (ctx.ValueVaries key) x y)
    {names : List String} (nonempty : names ≠ []) (operator : Operator) :
    Agree (fun o p => SameShape (names.flatMap fun _ => shownTexts (x.values.map Value.text))
        (names.flatMap fun _ => shownTexts (y.values.map Value.text)) o.toList p.toList)
      (textClause field names operator x) (textClause field names operator y) := by
  cases varies with
  | scalar both => exact phrases_agree found text (.scalar both) nofun nofun nonempty operator
  | list all => exact phrases_agree found text (.list all) nofun nofun nonempty operator
  | null =>
    have nothing : (names.flatMap fun _ => shownTexts (Operand.values .null |>.map Value.text)) =
        [] := List.flatMap_eq_nil_iff.mpr fun _ _ => rfl
    rw [nothing]
    cases operator with
    | eq =>
      have absent := sameShape_names fun name => (sameShape_present name).not
      match names, nonempty with
      | [], nonempty => exact absurd rfl nonempty
      | [name], _ => exact .ok (absent [name])
      | name :: other :: rest, _ =>
        exact .ok (sameShape_everything.append (absent (name :: other :: rest))).list
    | neq => exact .ok (sameShape_names sameShape_present names).anyOf
    | _ => exact .error _

end

theorem locationClause_texts {name : String} {operator : Operator} {operand : Operand} {c : Clause}
    (success : locationClause field name operator operand = .ok c) :
    c.texts = circleTexts name operand := by
  unfold locationClause at success
  split at success
  · cases success
    exact (sameShape_present name).not.texts_left
  · cases success
    exact (sameShape_present name).texts_left
  · split at success
    · next circle known =>
      cases success
      rw [circleTexts, known]
      rfl
    · cases success
  · split at success
    · next circle known =>
      cases success
      rw [circleTexts, known]
      rfl
    · cases success
  · cases success

/-- Conditions on one field whose operands vary fail alike or become clauses of one shape. -/
theorem leaf_agree (builtIn : ctx.spatial.IsBuiltIn)
    (found : ctx.schema.field? key = some field) {x y : Operand}
    (varies : Operand.Varies (ctx.ValueVaries key) x y) (languages : List LanguageId)
    (operator : Operator) :
    Agree (fun o p => SameShape (ctx.fieldTexts languages field x)
        (ctx.fieldTexts languages field y) o.toList p.toList)
      (ctx.leaf languages ⟨key, operator, x⟩ field)
      (ctx.leaf languages ⟨key, operator, y⟩ field) := by
  unfold leaf fieldTexts
  cases type : field.type
  case location =>
    -- A distance decides on the circle, so it must not vary.
    have fixed : ¬ ctx.IsFree key := fun free => (free.2 field found).2 type
    rw [varies.eq fun v w => ValueVaries.eq fixed]
    cases spatial : ctx.spatial with
    | skip => exact .ok .nil
    | circles =>
      refine Agree.map (Agree.self fun _ _ => rfl) ?_
      rintro c _ compiled - rfl
      rw [← locationClause_texts compiled]
      exact .single rfl
    | other builder =>
      rw [spatial] at builtIn
      exact builtIn.elim
  case text =>
    dsimp only
    split
    · exact .error _
    · next present =>
      have nonempty : languages ≠ [] := by simpa using present
      exact textClause_agree found (congrArg DataType.isText type) varies
        (namesIn_ne_nil ctx field (.inl nonempty)) operator
  all_goals exact Agree.map (valueClause_agree found varies _ operator) fun _ _ _ _ both => both

/-- What a condition compiles into has no quotes outside its literals. -/
theorem leaf_quoted (builtIn : ctx.spatial.IsBuiltIn)
    (words : ∀ name, ctx.IsName name → Name.IsWord name)
    {languages : List LanguageId} {c : Condition} (found : ctx.schema.field? key = some field)
    {clause : Clause} (success : ctx.leaf languages c field = .ok (some clause)) :
    clause.IsQuoted := by
  have known : ∀ language, ctx.IsName (ctx.catalog.nameOf field language) :=
    fun language => ⟨key, field, language, found, rfl⟩
  have form := leaf_form builtIn known success
  exact form.isQuoted fun name among => Keys.isUnquoted_word (words name among)

/-- Conditions whose strings vary fail alike, or both add no filter, or filters of one shape. -/
theorem condition_agree (builtIn : ctx.spatial.IsBuiltIn)
    (words : ∀ name, ctx.IsName name → Name.IsWord name)
    (languages : List LanguageId) {c d : Condition} (varies : ctx.ConditionVaries c d) :
    Agree (fun o p => FragmentsAlike (ctx.itemTexts languages (.condition c))
        (ctx.itemTexts languages (.condition d)) o.toList p.toList)
      (ctx.condition languages c).outcome (ctx.condition languages d).outcome := by
  obtain ⟨key, operator, x⟩ := c
  obtain ⟨key', operator', y⟩ := d
  obtain ⟨rfl, rfl, operands⟩ := varies
  rw [condition_outcome, condition_outcome, itemTexts, itemTexts]
  dsimp only at operands ⊢
  cases read : ctx.field key with
  | error e => exact .error e
  | ok field =>
    have found := field_eq_ok read
    rw [found]
    refine Agree.map (leaf_agree builtIn found operands languages operator) ?_
    intro o p left right same
    have texts : ∀ o : Option Clause, (o.map Fragment.ofClause).toList.map Fragment.clause =
        o.toList := by
      rintro (_ | c) <;> rfl
    have quoted : ∀ {operand} {o : Option Clause},
        ctx.leaf languages ⟨key, operator, operand⟩ field = .ok o →
        ∀ f ∈ (o.map Fragment.ofClause).toList, f.clause.IsQuoted := by
      rintro operand (_ | c) compiled
      · exact List.forall_mem_nil _
      · exact List.forall_mem_singleton.mpr (leaf_quoted builtIn words found compiled)
    refine ⟨?_, ?_, quoted left, quoted right⟩
    · rw [texts, texts]
      exact same
    · match o, p, same.shapes with
      | none, none, _ | some _, some _, _ => rfl
      | none, some _, shapes | some _, none, shapes => cases shapes

mutual

/-- By induction on the tree: members that vary fail alike or become filters of one shape. -/
theorem item_agree (builtIn : ctx.spatial.IsBuiltIn)
    (words : ∀ name, ctx.IsName name → Name.IsWord name)
    (languages : List LanguageId) (i j : Item) (varies : ctx.ItemVaries i j) :
    Agree (fun o p => FragmentsAlike (ctx.itemTexts languages i) (ctx.itemTexts languages j)
        o.toList p.toList)
      (ctx.item languages i).outcome (ctx.item languages j).outcome := by
  cases i with
  | condition c =>
    cases j with
    | condition d =>
      rw [item, item]
      exact condition_agree builtIn words languages varies
    | group => exact varies.elim
  | group conjunction members tags =>
    cases j with
    | condition => exact varies.elim
    | group conjunction' members' tags' =>
      rw [ItemVaries] at varies
      obtain ⟨rfl, inside, rfl⟩ := varies
      rw [item, item, Traced.outcome_bind, Traced.outcome_bind, itemTexts, itemTexts,
        Traced.outcome_ofExcept, Traced.outcome_ofExcept, ← languageOverride_varies inside]
      cases scope : languageOverride members with
      | error e => exact .error e
      | ok override =>
        rw [← languagesWithin_varies inside, languagesWithin_eq scope]
        have compiled := items_agree builtIn words (override.getD languages) members members' inside
        change Agree _ (Traced.outcome (_ >>= _)) (Traced.outcome (_ >>= _))
        rw [Traced.outcome_bind, Traced.outcome_bind]
        exact Agree.bind compiled fun fs gs both => .ok (both.reduce conjunction tags false)

theorem items_agree (builtIn : ctx.spatial.IsBuiltIn)
    (words : ∀ name, ctx.IsName name → Name.IsWord name)
    (languages : List LanguageId) (is js : List Item) (vary : ctx.ItemsVary is js) :
    Agree (FragmentsAlike (ctx.itemsTexts languages is) (ctx.itemsTexts languages js))
      (ctx.items languages is).outcome (ctx.items languages js).outcome := by
  cases is with
  | nil =>
    cases js with
    | nil => exact .ok .nil
    | cons => exact vary.elim
  | cons i is =>
    cases js with
    | nil => exact vary.elim
    | cons j js =>
      rw [ItemsVary] at vary
      rw [items, items, Traced.outcome_bind, Traced.outcome_bind, itemsTexts, itemsTexts]
      refine Agree.bind (item_agree builtIn words languages i j vary.1) fun o p head => ?_
      rw [Traced.outcome_bind, Traced.outcome_bind]
      refine Agree.bind (items_agree builtIn words languages is js vary.2) fun fs gs rest => ?_
      exact .ok (head.append rest)

end

/-- The filter on the languages writes the languages. -/
theorem itemTexts_languages (ctx : Context) (languages : List LanguageId) :
    ctx.itemTexts languages (.condition (languageCondition languages)) =
      languages.map LanguageId.text := by
  have reserved : ctx.schema.field? Name.languageId = some (.simple Name.languageId .string) := rfl
  rw [itemTexts, languageCondition, reserved]
  change (((languages.map fun l => Value.string l.text).map some).filterMap id).map
    (writtenText (.simple Name.languageId .string)) = _
  rw [List.filterMap_map, Function.id_comp, List.filterMap_some, List.map_map]
  exact List.map_congr_left fun l _ => writtenText_string (by decide) l.text

/-- The filters that the members of the outermost group become. -/
theorem filters_alike {ts us : List String} {fs gs : List Fragment}
    (alike : FragmentsAlike ts us fs gs) (conjunction : Conjunction) (tags : Text.TextSet) :
    FragmentsAlike ts us
      (match conjunction with
        | .and => fs.map (Fragment.withTags · tags)
        | .or => (Fragment.reduce fs .or tags true).toList)
      (match conjunction with
        | .and => gs.map (Fragment.withTags · tags)
        | .or => (Fragment.reduce gs .or tags true).toList) := by
  cases conjunction with
  | and => exact alike.withTags tags
  | or => exact alike.reduce .or tags true

/-- The same for groups at the top, with the filter on the languages. -/
theorem conditions_agree (builtIn : ctx.spatial.IsBuiltIn)
    (words : ∀ name, ctx.IsName name → Name.IsWord name)
    (languages : List LanguageId) (g h : Group) (varies : ctx.ItemVaries g.toItem h.toItem) :
    Agree (FragmentsAlike (ctx.groupTexts languages g) (ctx.groupTexts languages h))
      (ctx.conditions languages g).outcome (ctx.conditions languages h).outcome := by
  obtain ⟨conjunction, members, tags⟩ := g
  obtain ⟨conjunction', members', tags'⟩ := h
  rw [Group.toItem, Group.toItem, ItemVaries] at varies
  dsimp only at varies
  obtain ⟨rfl, inside, rfl⟩ := varies
  rw [conditions, conditions, Traced.outcome_bind, Traced.outcome_bind, groupTexts, groupTexts,
    Traced.outcome_ofExcept, Traced.outcome_ofExcept, Group.toItem, Group.toItem, itemTexts,
    itemTexts]
  dsimp only
  have kept := languageOverride_varies inside
  rw [← kept, ← languagesWithin_varies inside]
  cases scope : languageOverride members with
  | error e => exact .error e
  | ok override =>
    rw [languagesWithin_eq scope, ambientTexts_eq scope, ambientTexts_eq (kept ▸ scope)]
    change Agree _ (Traced.outcome (_ >>= _)) (Traced.outcome (_ >>= _))
    rw [Traced.outcome_bind, Traced.outcome_bind]
    refine Agree.bind (items_agree builtIn words (override.getD languages) members members' inside)
      fun fs gs both => ?_
    have filters := filters_alike both conjunction tags
    split
    · have language : ctx.ConditionVaries (languageCondition languages)
          (languageCondition languages) := ⟨rfl, rfl, .refl .same _⟩
      have ambient := condition_agree builtIn words languages language
      rw [itemTexts_languages] at ambient
      rw [Traced.outcome_bind, Traced.outcome_bind]
      exact Agree.bind ambient fun o p both => .ok (filters.append both)
    · rw [List.append_nil, List.append_nil]
      exact .ok filters

end Context

/-! ### Filters -/

section

variable {f : Fragment} (quoted : f.clause.IsQuoted)

include quoted

theorem outline_eq : f.outline = (f.tags, f.clause.shape) := by
  have scans := (Clause.segmentsTo quoted).segments_eq
  rw [Fragment.outline, Fragment.query, Clause.toList_render, scans]
  rfl

theorem literals_eq : f.literals = f.clause.texts := by
  have scans := (Clause.segmentsTo quoted).segments_eq
  rw [Fragment.literals, Fragment.query, Clause.toList_render, scans]
  rfl

end

theorem flatMap_literals {fs : List Fragment} (quoted : ∀ f ∈ fs, f.clause.IsQuoted) :
    fs.flatMap Fragment.literals = (fs.map Fragment.clause).flatMap Clause.texts := by
  rw [List.flatMap_map]
  exact List.flatMap_congr fun f among => literals_eq (quoted f among)

theorem FragmentsAlike.outlines {ts us : List String} {fs gs : List Fragment}
    (alike : FragmentsAlike ts us fs gs) : fs.map Fragment.outline = gs.map Fragment.outline := by
  have zipped : ∀ {fs : List Fragment}, (∀ f ∈ fs, f.clause.IsQuoted) →
      fs.map Fragment.outline =
        (fs.map Fragment.tags).zip ((fs.map Fragment.clause).map Clause.shape) := by
    intro fs quoted
    rw [List.map_map, List.zip_map']
    exact List.map_congr_left fun f among => outline_eq (quoted f among)
  rw [zipped alike.quoted, zipped alike.quoted', alike.tags, alike.clauses.shapes]

/-- Two groups that differ at most in strings that may vary fail alike, or become filters with the
same tags that are scanned into the same characters and as many literals in the same places. In both
cases the literals hold the texts of the values. -/
theorem conditions_structure (ctx : Context) (languages : List LanguageId) (g h : Group)
    (builtIn : ctx.spatial.IsBuiltIn) (words : ∀ name, ctx.IsName name → Name.IsWord name)
    (varies : ctx.ItemVaries g.toItem h.toItem) :
    Agree (fun fs gs => fs.map Fragment.outline = gs.map Fragment.outline ∧
        fs.flatMap Fragment.literals = ctx.groupTexts languages g ∧
        gs.flatMap Fragment.literals = ctx.groupTexts languages h)
      (ctx.conditions languages g).outcome (ctx.conditions languages h).outcome := by
  have agree := Context.conditions_agree builtIn words languages g h varies
  generalize (ctx.conditions languages g).outcome = left at agree ⊢
  generalize (ctx.conditions languages h).outcome = right at agree ⊢
  cases agree with
  | error e => exact .error e
  | ok alike =>
    refine .ok ⟨alike.outlines, ?_, ?_⟩
    · rw [flatMap_literals alike.quoted, alike.clauses.left]
    · rw [flatMap_literals alike.quoted', alike.clauses.right]

/-- One of two titles; or not about something, and with a title in a range. -/
def choice (first second topic low high : String) : Group :=
  ⟨.or, [.condition (.oneOf "title" [.string first, .string second]),
    .group .and [.condition (.differs "body" (.string topic)),
      .condition (.between "title" (.string low) (.string high))] .empty], .empty⟩

/-- A choice between ordinary texts. -/
def ordinaryChoice : Group := choice "A" "B" "rust" "a" "z"

/-- The same choice between texts that look like syntax. -/
def hostileChoice : Group := choice "\" OR *:*" " " " \\\") -title:(\" " "\\" "*] x"

open Context in
/-- Ordinary and hostile texts in one tree, with the literals that are read of both. -/
theorem conditions_structure_hostile :
    catalogue.spatial.IsBuiltIn ∧ (∀ name, catalogue.IsName name → Name.IsWord name) ∧
      catalogue.ItemVaries ordinaryChoice.toItem hostileChoice.toItem ∧
      ∃ fs gs, (catalogue.conditions [english] ordinaryChoice).outcome = .ok fs ∧
        (catalogue.conditions [english] hostileChoice).outcome = .ok gs ∧
        fs.map Fragment.query =
          ["(ss_title:\"A\" ss_title:\"B\") " ++
            "(-(ts_body:(\"rust\")^1) +ss_title:[\"a\" TO \"z\"])",
          "ss_search_api_language:\"en\""] ∧
        gs.map Fragment.query =
          ["(ss_title:\"\\\" OR *:*\" ss_title:\" \") " ++
            "(-(ts_body:(\"\\\\\\\") -title:(\\\"\")^1) +ss_title:[\"\\\\\" TO \"*] x\"])",
          "ss_search_api_language:\"en\""] ∧
        fs.map Fragment.outline = gs.map Fragment.outline ∧
        fs.flatMap Fragment.literals = ["A", "B", "rust", "a", "z", "en"] ∧
        gs.flatMap Fragment.literals =
          ["\" OR *:*", " ", "\\\") -title:(\"", "\\", "*] x", "en"] := by
  have title : catalogue.IsFree "title" := by
    refine ⟨by decide, fun field found => ?_⟩
    cases found
    exact ⟨by decide, by decide⟩
  have titles : ∀ s t, catalogue.ValueVaries "title" (.string s) (.string t) := by
    refine fun s t => .string s t title fun field found text => ?_
    cases found
    cases text
  have body : catalogue.IsFree "body" := by
    refine ⟨by decide, fun field found => ?_⟩
    cases found
    exact ⟨by decide, by decide⟩
  have bodies : catalogue.ValueVaries "body" (.string "rust") (.string " \\\") -title:(\" ") :=
    .string _ _ body fun _ _ _ => by decide
  have varies : catalogue.ItemVaries ordinaryChoice.toItem hostileChoice.toItem := by
    refine ⟨rfl, ⟨⟨rfl, rfl, .list ?_⟩, ⟨rfl, ⟨⟨rfl, rfl, .scalar bodies⟩,
      ⟨rfl, rfl, .list ?_⟩, trivial⟩, rfl⟩, trivial⟩, rfl⟩
    · exact .cons (.some (titles _ _)) (.cons (.some (titles _ _)) .nil)
    · exact .cons (.some (titles _ _)) (.cons (.some (titles _ _)) .nil)
  have ran : (catalogue.conditions [english] ordinaryChoice).outcome.map (List.map Fragment.query) =
      .ok ["(ss_title:\"A\" ss_title:\"B\") " ++
        "(-(ts_body:(\"rust\")^1) +ss_title:[\"a\" TO \"z\"])",
        "ss_search_api_language:\"en\""] := by
    rfl
  have ran' : (catalogue.conditions [english] hostileChoice).outcome.map (List.map Fragment.query) =
      .ok ["(ss_title:\"\\\" OR *:*\" ss_title:\" \") " ++
        "(-(ts_body:(\"\\\\\\\") -title:(\\\"\")^1) +ss_title:[\"\\\\\" TO \"*] x\"])",
        "ss_search_api_language:\"en\""] := by
    rfl
  obtain ⟨fs, compiled, queries⟩ := map_eq_ok ran
  obtain ⟨gs, compiled', queries'⟩ := map_eq_ok ran'
  have agree :=
    conditions_structure catalogue [english] ordinaryChoice hostileChoice trivial catalogue_words
      varies
  rw [compiled, compiled'] at agree
  cases agree with
  | ok both =>
    obtain ⟨outlines, literals, literals'⟩ := both
    exact ⟨trivial, catalogue_words, varies, fs, gs, compiled, compiled', queries, queries',
      outlines, literals, literals'⟩

end SearchCompiler.Compile
