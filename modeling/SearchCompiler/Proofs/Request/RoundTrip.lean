import SearchCompiler.Proofs.Filter.Encoding
import SearchCompiler.Proofs.Request.Decoding
import SearchCompiler.Request.Compiled

/-!
# Queries and requests in documents

A query is read as it was written, member by member: what was left out is what the reader takes for
granted (`Query.ofJson?_toJson`). That goes for trees of any depth. The text of a document is read
up to a level of nesting only, and a query that is nested more deeply is then not read at all
(`Query.ofJson?_cut`): only its keys and its conditions can be nested without bound, and neither are
read with a part missing. Requests are flat and always come back (`query_request_round_trip`).

The digits of every decimal in the query are taken to be read as that decimal (`Json.ReadsBack`).
-/

namespace SearchCompiler

open Json

theorem LanguageId.ofJson?_toJson (l : LanguageId) : ofJson? l.toJson = some l := by
  change (parse l.text).toOption = _
  rw [l.parse_text]
  rfl

namespace Request

theorem Direction.ofName?_name (d : Direction) : ofName? d.name = some d := by
  cases d <;> rfl

theorem FacetMode.ofName?_name (m : FacetMode) : ofName? m.name = some m := by
  cases m <;> rfl

theorem below?_countJson {n bound : Nat} (small : n < bound) :
    below? bound (countJson n) = some n := by
  have within : (0 : Int) ≤ n ∧ (n : Int) < bound := by omega
  exact if_pos within

theorem writable_countJson {n : Nat} (small : n < bound64) : (countJson n).Writable := by
  simp only [countJson, Json.Writable, fits64, Bool.and_eq_true, decide_eq_true_eq]
  unfold bound64 at small
  omega

theorem Order.ofJson?_toJson (s : Order) : ofJson? s.toJson = some s := by
  change ((Direction.ofName? s.direction.name).bind fun d => some (Order.mk s.field d)) = _
  rw [Direction.ofName?_name]
  rfl

/-- The counts of a facet fit 32 bits. -/
structure Facet.Storable (f : Facet) : Prop where
  limit : ∀ n ∈ f.limit, n < bound32
  minCount : ∀ n ∈ f.minCount, n < bound32

theorem countJson_ne_null (n : Nat) : countJson n ≠ .null :=
  Json.noConfusion

theorem Facet.ofJson?_toJson {f : Facet} (storable : f.Storable) : ofJson? f.toJson = some f := by
  have field : Gives (membersOf f.toJson) "field" text? f.field :=
    ⟨.text f.field, by simp [toJson], rfl⟩
  have limit : valuesOf "limit" (membersOf f.toJson) = (f.limit.map countJson).toList := by
    simp [toJson]
  have minCount : valuesOf "min_count" (membersOf f.toJson) =
      (f.minCount.map countJson).toList := by
    simp [toJson]
  have missing : GivesOr (membersOf f.toJson) "missing" false bool? f.missing :=
    .inl ⟨.bool f.missing, by simp [toJson], rfl⟩
  have mode : GivesOr (membersOf f.toJson) "operator" .and (case? FacetMode.ofName?) f.mode :=
    .inl ⟨.text f.mode.name, by simp [toJson], FacetMode.ofName?_name _⟩
  have names : NamesWithin (["field"] ++ ["limit"] ++ ["min_count"] ++ ["missing", "operator"])
      (membersOf f.toJson) :=
    (((namesWithin_self _).append (namesWithin_member? _ _ _)).append
      (namesWithin_member? _ _ _)).append (namesWithin_self _)
  have record : record? ["field", "limit", "min_count", "missing", "operator"] f.toJson =
      some ⟨membersOf f.toJson⟩ :=
    names.record? (by decide)
  rw [ofJson?, record]
  simp only [bind, Option.bind_some, field.required,
    optional_of_written _ limit countJson_ne_null fun n given =>
      below?_countJson (storable.limit n given),
    optional_of_written _ minCount countJson_ne_null fun n given =>
      below?_countJson (storable.minCount n given),
    missing.withDefault, mode.withDefault]
  rfl

theorem Facet.writable_toJson {f : Facet} (storable : f.Storable) : f.toJson.Writable := by
  have count (n : Nat) (small : n < bound32) : (countJson n).Writable :=
    writable_countJson (Nat.lt_trans small (by decide))
  rw [toJson, Json.Writable]
  repeat' refine writableMembers_append ?_ ?_
  · exact ⟨trivial, trivial⟩
  · exact writableMembers_member? _ fun n given => count n (storable.limit n given)
  · exact writableMembers_member? _ fun n given => count n (storable.minCount n given)
  · exact ⟨trivial, trivial, trivial⟩

theorem Facet.depth_toJson_le (f : Facet) : f.toJson.depth ≤ 1 := by
  have limit : depthMembers (member? "limit" countJson f.limit) ≤ 0 :=
    depthMembers_member?_le _ fun _ _ => Nat.le_refl 0
  have minCount : depthMembers (member? "min_count" countJson f.minCount) ≤ 0 :=
    depthMembers_member?_le _ fun _ _ => Nat.le_refl 0
  rw [toJson, depth]
  simp only [depthMembers_append, depthMembers, depth]
  omega

/-- The limit of groups fits 32 bits. -/
def Grouping.Storable (g : Grouping) : Prop :=
  ∀ n ∈ g.limit, n < bound32

theorem Grouping.ofJson?_toJson {g : Grouping} (storable : g.Storable) :
    ofJson? g.toJson = some g := by
  have fields : Gives (membersOf g.toJson) "fields" (list? text?) g.fields :=
    ⟨.list (g.fields.map .text), by simp [toJson, texts], list?_map fun _ _ => rfl⟩
  have limit : valuesOf "limit" (membersOf g.toJson) = (g.limit.map countJson).toList := by
    simp [toJson]
  have sorts : GivesOr (membersOf g.toJson) "sort" [] (list? Order.ofJson?) g.sorts :=
    givesOr_of_written Order.toJson (by simp [toJson]) fun s _ => s.ofJson?_toJson
  have names : NamesWithin (["fields"] ++ ["limit"] ++ ["sort"]) (membersOf g.toJson) :=
    ((namesWithin_self _).append (namesWithin_member? _ _ _)).append (namesWithin_listMember _ _ _)
  have record : record? ["fields", "limit", "sort"] g.toJson = some ⟨membersOf g.toJson⟩ :=
    names.record? (by decide)
  rw [ofJson?, record]
  simp only [bind, Option.bind_some, fields.required,
    optional_of_written _ limit countJson_ne_null fun n given =>
      below?_countJson (storable n given),
    sorts.withDefault]
  rfl

theorem Grouping.writable_toJson {g : Grouping} (storable : g.Storable) : g.toJson.Writable := by
  rw [toJson, Json.Writable]
  repeat' refine writableMembers_append ?_ ?_
  · exact ⟨writableItems_map fun _ _ => trivial, trivial⟩
  · exact writableMembers_member? _ fun n given =>
      writable_countJson (Nat.lt_trans (storable n given) (by decide))
  · exact writableMembers_listMember _ fun _ _ => ⟨trivial, trivial, trivial⟩

theorem Grouping.depth_toJson_le (g : Grouping) : g.toJson.depth ≤ 3 := by
  have fields : depthItems (g.fields.map Json.text) ≤ 0 :=
    depthItems_map_le fun _ _ => Nat.le_refl 0
  have limit : depthMembers (member? "limit" countJson g.limit) ≤ 0 :=
    depthMembers_member?_le _ fun _ _ => Nat.le_refl 0
  have sorts : depthMembers (listMember "sort" Order.toJson g.sorts) ≤ 2 :=
    depthMembers_listMember_le _ fun _ _ => Nat.le_refl 1
  rw [toJson, depth]
  simp only [depthMembers_append, depthMembers, depth, texts]
  omega

namespace Query

/-- A query that a document can hold: its numbers fit their types and its decimals are finite. -/
structure Storable (q : Query) : Prop where
  values : ∀ v ∈ q.filter.values, v.Storable
  places : ∀ l ∈ q.locations, ∀ x ∈ l.circle.numbers, x.isFinite = true
  facets : ∀ f ∈ q.facets, f.Storable
  grouping : ∀ g ∈ q.grouping, g.Storable
  offset : q.offset < bound64
  limit : ∀ n ∈ q.limit, n < bound64

/-- The decimals of a query, those of its locations included. -/
def decimals (q : Query) : List Float :=
  q.filter.values.flatMap Filter.Value.decimals ++ q.locations.flatMap (·.circle.numbers)

theorem namesWithin_toJson (q : Query) : NamesWithin memberNames (membersOf q.toJson) := by
  change NamesWithin (["keys"] ++ ["text"] ++ ["fields"] ++ ["parse_mode"] ++ ["conditions"] ++
    ["languages"] ++ ["sorts"] ++ ["facets"] ++ ["grouping"] ++ ["locations"] ++ ["offset"] ++
    ["limit"] ++ ["skip_scoping"]) _
  rw [toJson, membersOf_object]
  repeat' refine NamesWithin.append ?_ ?_
  all_goals
    first
    | exact namesWithin_member? _ _ _
    | exact namesWithin_listMember _ _ _
    | exact namesWithin_self _

theorem valuesOf_keys (q : Query) :
    valuesOf "keys" (membersOf q.toJson) = (q.keys.map Keys.Expression.toJson).toList := by
  simp [toJson]

theorem valuesOf_conditions (q : Query) :
    valuesOf "conditions" (membersOf q.toJson) = [q.filter.toJson] := by
  simp [toJson]

variable {q : Query}

/-- A query is read as it was written. -/
theorem ofJson?_toJson (storable : q.Storable) : ofJson? q.toJson = some q := by
  have text : valuesOf "text" (membersOf q.toJson) = (q.text.map Json.text).toList := by
    simp [toJson]
  have fields : GivesOr (membersOf q.toJson) "fields" [] (list? text?) q.fields :=
    givesOr_of_written .text (by simp [toJson]) fun _ _ => rfl
  have mode : valuesOf "parse_mode" (membersOf q.toJson) =
      (q.mode.map fun m => Json.text m.name).toList := by
    simp [toJson]
  have filter : GivesOr (membersOf q.toJson) "conditions" (.ofConjunction .and)
      Filter.Group.ofJson? q.filter :=
    .inl ⟨q.filter.toJson, valuesOf_conditions q, Filter.Group.ofJson?_toJson storable.values⟩
  have languages : GivesOr (membersOf q.toJson) "languages" [] (list? LanguageId.ofJson?)
      q.languages :=
    givesOr_of_written LanguageId.toJson (by simp [toJson])
      fun l _ => l.ofJson?_toJson
  have sorts : GivesOr (membersOf q.toJson) "sorts" [] (list? Order.ofJson?) q.sorts :=
    givesOr_of_written Order.toJson (by simp [toJson]) fun s _ => s.ofJson?_toJson
  have facets : GivesOr (membersOf q.toJson) "facets" [] (list? Facet.ofJson?) q.facets :=
    givesOr_of_written Facet.toJson (by simp [toJson])
      fun f among => Facet.ofJson?_toJson (storable.facets f among)
  have grouping : valuesOf "grouping" (membersOf q.toJson) =
      (q.grouping.map Grouping.toJson).toList := by
    simp [toJson]
  have locations : GivesOr (membersOf q.toJson) "locations" []
      (list? Filter.LocationFilter.ofJson?) q.locations :=
    givesOr_of_written Filter.LocationFilter.toJson (by simp [toJson])
      fun l among => Filter.LocationFilter.ofJson?_toJson (storable.places l among)
  have offset : GivesOr (membersOf q.toJson) "offset" 0 (below? bound64) q.offset :=
    .inl ⟨countJson q.offset, by simp [toJson], below?_countJson storable.offset⟩
  have limit : valuesOf "limit" (membersOf q.toJson) = (q.limit.map countJson).toList := by
    simp [toJson]
  have unscoped : GivesOr (membersOf q.toJson) "skip_scoping" false bool? q.unscoped :=
    .inl ⟨.bool q.unscoped, by simp [toJson], rfl⟩
  have record : record? memberNames q.toJson = some ⟨membersOf q.toJson⟩ :=
    q.namesWithin_toJson.record? (by decide)
  rw [ofJson?, record]
  refine Option.bind_eq_some_iff.mpr ⟨_, rfl, ?_⟩
  refine Option.bind_eq_some_iff.mpr ⟨_, optional_of_written _ q.valuesOf_keys
    Keys.Expression.toJson_ne_null fun e _ => e.ofJson?_toJson, ?_⟩
  refine Option.bind_eq_some_iff.mpr ⟨_, optional_of_written text? text (fun _ => Json.noConfusion)
    fun _ _ => rfl, ?_⟩
  refine Option.bind_eq_some_iff.mpr ⟨_, fields.withDefault, ?_⟩
  refine Option.bind_eq_some_iff.mpr ⟨_, optional_of_written (case? Keys.Mode.ofName?) mode
    (fun _ => Json.noConfusion) fun m _ => m.ofName?_name, ?_⟩
  refine Option.bind_eq_some_iff.mpr ⟨_, filter.withDefault, ?_⟩
  refine Option.bind_eq_some_iff.mpr ⟨_, languages.withDefault, ?_⟩
  refine Option.bind_eq_some_iff.mpr ⟨_, sorts.withDefault, ?_⟩
  refine Option.bind_eq_some_iff.mpr ⟨_, facets.withDefault, ?_⟩
  refine Option.bind_eq_some_iff.mpr ⟨_, optional_of_written _ grouping (fun _ => Json.noConfusion)
    fun g given => Grouping.ofJson?_toJson (storable.grouping g given), ?_⟩
  refine Option.bind_eq_some_iff.mpr ⟨_, locations.withDefault, ?_⟩
  refine Option.bind_eq_some_iff.mpr ⟨_, offset.withDefault, ?_⟩
  refine Option.bind_eq_some_iff.mpr ⟨_, optional_of_written _ limit countJson_ne_null
    fun n given => below?_countJson (storable.limit n given), ?_⟩
  refine Option.bind_eq_some_iff.mpr ⟨_, unscoped.withDefault, ?_⟩
  rfl

/-! ### The text of a query -/

/-- A query can be written and read again, if the digits of its numbers can. -/
theorem writable_toJson (storable : q.Storable) (digits : ∀ x ∈ q.decimals, ReadsBack x) :
    q.toJson.Writable := by
  have values : ∀ v ∈ q.filter.values, v.toJson.Writable := fun v among =>
    Filter.Value.writable_toJson (storable.values v among) fun x part =>
      digits x (List.mem_append_left _ (List.mem_flatMap.mpr ⟨v, among, part⟩))
  have places : ∀ l ∈ q.locations, l.toJson.Writable := fun l among =>
    Filter.LocationFilter.writable_toJson fun x part =>
      digits x (List.mem_append_right _ (List.mem_flatMap.mpr ⟨l, among, part⟩))
  have facets : ∀ f ∈ q.facets, f.toJson.Writable := fun f among =>
    Facet.writable_toJson (storable.facets f among)
  have groups : ∀ g ∈ q.grouping, g.toJson.Writable := fun g given =>
    Grouping.writable_toJson (storable.grouping g given)
  rw [toJson, Json.Writable]
  repeat' refine writableMembers_append ?_ ?_
  · exact writableMembers_member? _ fun e _ => e.writable_toJson
  · exact writableMembers_member? _ fun _ _ => trivial
  · exact writableMembers_listMember _ fun _ _ => trivial
  · exact writableMembers_member? _ fun _ _ => trivial
  · exact ⟨Filter.Item.writable_toJson q.filter.toItem values, trivial⟩
  · exact writableMembers_listMember _ fun _ _ => trivial
  · exact writableMembers_listMember _ fun _ _ => ⟨trivial, trivial, trivial⟩
  · exact writableMembers_listMember _ facets
  · exact writableMembers_member? _ groups
  · exact writableMembers_listMember _ places
  · exact ⟨writable_countJson storable.offset, trivial⟩
  · exact writableMembers_member? _ fun n given => writable_countJson (storable.limit n given)
  · exact ⟨trivial, trivial⟩

/-- Only keys and conditions can be nested without bound. -/
theorem depth_toJson_le {n : Nat} (room : 3 ≤ n)
    (keys : ∀ e ∈ q.keys, e.toJson.depth ≤ n) (filter : q.filter.toJson.depth ≤ n) :
    q.toJson.depth ≤ n + 1 := by
  have flat {m : Nat} {members : List (String × Json)} (small : m ≤ 3)
      (bound : depthMembers members ≤ m) : depthMembers members ≤ n :=
    Nat.le_trans bound (Nat.le_trans small room)
  rw [toJson, depth]
  refine Nat.succ_le_succ ?_
  simp only [depthMembers_append, Nat.max_le]
  repeat' apply And.intro
  · exact depthMembers_member?_le _ keys
  · exact flat (by decide) (depthMembers_member?_le (n := 0) _ fun _ _ => Nat.le_refl 0)
  · exact flat (by decide) (depthMembers_listMember_le (n := 0) _ fun _ _ => Nat.le_refl 0)
  · exact flat (by decide) (depthMembers_member?_le (n := 0) _ fun _ _ => Nat.le_refl 0)
  · exact Nat.max_le.mpr ⟨filter, Nat.zero_le n⟩
  · exact flat (by decide) (depthMembers_listMember_le (n := 0) _ fun _ _ => Nat.le_refl 0)
  · exact flat (by decide) (depthMembers_listMember_le (n := 1) _ fun _ _ => Nat.le_refl 1)
  · exact flat (by decide) (depthMembers_listMember_le (n := 1) _ fun f _ => f.depth_toJson_le)
  · exact flat (by decide) (depthMembers_member?_le (n := 3) _ fun g _ => g.depth_toJson_le)
  · exact flat (by decide) (depthMembers_listMember_le (n := 1) _ fun _ _ => Nat.le_refl 1)
  · exact Nat.zero_le n
  · exact flat (by decide) (depthMembers_member?_le (n := 0) _ fun _ _ => Nat.le_refl 0)
  · exact Nat.zero_le n

/-- A query that is nested too deeply is not read at all. -/
theorem ofJson?_cut {levels : Nat} (room : 4 ≤ levels) (deep : levels < q.toJson.depth) :
    ofJson? (q.toJson.cut levels) = none := by
  obtain ⟨n, rfl⟩ := Nat.exists_eq_add_one_of_ne_zero (show levels ≠ 0 by omega)
  have parts : q.toJson.cut (n + 1) = .object (cutMembers n (membersOf q.toJson)) := rfl
  have record : record? memberNames (.object (cutMembers n (membersOf q.toJson))) =
      some ⟨cutMembers n (membersOf q.toJson)⟩ :=
    (namesWithin_cutMembers q.namesWithin_toJson n).record? (by decide)
  rw [parts, Option.eq_none_iff_forall_ne_some]
  intro other read
  have keys : ∀ e ∈ q.keys, e.toJson.depth ≤ n := by
    intro e given
    by_cases deeper : n < e.toJson.depth
    · rw [ofJson?, record] at read
      obtain ⟨_, same, read⟩ := Option.bind_eq_some_iff.mp read
      obtain rfl := Option.some.inj same
      obtain ⟨others, inside, -⟩ := Option.bind_eq_some_iff.mp read
      have only : valuesOf "keys" (cutMembers n (membersOf q.toJson)) = [e.toJson.cut n] := by
        rw [valuesOf_cutMembers, q.valuesOf_keys, Option.mem_def.mp given]
        rfl
      rw [optional_of_member only (cut_ne_null e.toJson_ne_null n),
        Keys.Expression.ofJson?_cut deeper] at inside
      cases inside
    · exact Nat.le_of_not_lt deeper
  have filter : q.filter.toJson.depth ≤ n := by
    by_cases deeper : n < q.filter.toJson.depth
    · have written : writtenConditions? (.object (cutMembers n (membersOf q.toJson))) =
          some (q.filter.toJson.cut n) := by
        rw [writtenConditions?, record, Option.bind_some, Record.get?, lookup_eq_head?,
          valuesOf_cutMembers, valuesOf_conditions]
        rfl
      have cut := filter_of_written read written
      rw [Filter.Group.ofJson?_cut (by omega) deeper] at cut
      cases cut
    · exact Nat.le_of_not_lt deeper
  exact absurd deep (Nat.not_lt.mpr (depth_toJson_le (by omega) keys filter))

/-- A text that is read as a query, cut off where it is nested too deeply, gives back the query if
nothing was cut off, and nothing otherwise. -/
theorem ofJson?_of_read (storable : q.Storable) {text : String}
    (written : read? text = some (q.toJson.cut levels)) :
    (q.toJson.depth ≤ levels → (read? text).bind ofJson? = some q) ∧
      (levels < q.toJson.depth → (read? text).bind ofJson? = none) := by
  rw [written, Option.bind_some]
  refine ⟨fun shallow => ?_, fun deep => ofJson?_cut (by decide) deep⟩
  rw [cut_of_depth_le shallow, ofJson?_toJson storable]

end Query

namespace Compiled

/-- A request that a document can hold: its numbers fit 64 bits. -/
structure Storable (r : Compiled) : Prop where
  start : r.start < bound64
  rows : r.rows < bound64

variable {r : Compiled}

theorem namesWithin_toJson (r : Compiled) :
    NamesWithin ["q", "fq", "sort", "start", "rows", "fl", "facet", "group"]
      (membersOf r.toJson) := by
  change NamesWithin (["q"] ++ ["fq"] ++ ["sort"] ++ ["start", "rows", "fl"] ++ ["facet"] ++
    ["group"]) _
  rw [toJson, membersOf_object]
  repeat' refine NamesWithin.append ?_ ?_
  all_goals
    first
    | exact namesWithin_member? _ _ _
    | exact namesWithin_listMember _ _ _
    | exact namesWithin_self _

/-- A request is read as it was written. -/
theorem ofJson?_toJson (storable : r.Storable) : ofJson? r.toJson = some r := by
  have query : Gives (membersOf r.toJson) "q" text? r.query :=
    ⟨.text r.query, by simp [toJson], rfl⟩
  have filters : GivesOr (membersOf r.toJson) "fq" [] (list? text?) r.filters :=
    givesOr_of_written .text (by simp [toJson]) fun _ _ => rfl
  have sort : valuesOf "sort" (membersOf r.toJson) = (r.sort.map Json.text).toList := by
    simp [toJson]
  have start : Gives (membersOf r.toJson) "start" (below? bound64) r.start :=
    ⟨countJson r.start, by simp [toJson], below?_countJson storable.start⟩
  have rows : Gives (membersOf r.toJson) "rows" (below? bound64) r.rows :=
    ⟨countJson r.rows, by simp [toJson], below?_countJson storable.rows⟩
  have returned : Gives (membersOf r.toJson) "fl" (list? text?) r.returned :=
    ⟨texts r.returned, by simp [toJson], list?_map fun _ _ => rfl⟩
  have facets : GivesOr (membersOf r.toJson) "facet" [] (list? textPair?) r.facets :=
    givesOr_of_written parameterJson (by simp [toJson]) fun _ _ => rfl
  have groups : GivesOr (membersOf r.toJson) "group" [] (list? textPair?) r.groups :=
    givesOr_of_written parameterJson (by simp [toJson]) fun _ _ => rfl
  have record : record? ["q", "fq", "sort", "start", "rows", "fl", "facet", "group"] r.toJson =
      some ⟨membersOf r.toJson⟩ :=
    r.namesWithin_toJson.record? (by decide)
  rw [ofJson?, record]
  simp only [bind, Option.bind_some, query.required, filters.withDefault,
    optional_of_written text? sort (fun _ => Json.noConfusion) fun _ _ => rfl,
    start.required, rows.required, returned.required, facets.withDefault, groups.withDefault]
  rfl

theorem writable_toJson (storable : r.Storable) : r.toJson.Writable := by
  rw [toJson, Json.Writable]
  repeat' refine writableMembers_append ?_ ?_
  · exact ⟨trivial, trivial⟩
  · exact writableMembers_listMember _ fun _ _ => trivial
  · exact writableMembers_member? _ fun _ _ => trivial
  · exact ⟨writable_countJson storable.start, writable_countJson storable.rows,
      writableItems_map fun _ _ => trivial, trivial⟩
  · exact writableMembers_listMember _ fun _ _ => ⟨trivial, trivial, trivial⟩
  · exact writableMembers_listMember _ fun _ _ => ⟨trivial, trivial, trivial⟩

theorem depth_toJson_le (r : Compiled) : r.toJson.depth ≤ 3 := by
  have filters : depthMembers (listMember "fq" Json.text r.filters) ≤ 1 :=
    depthMembers_listMember_le _ fun _ _ => Nat.le_refl 0
  have sort : depthMembers (member? "sort" Json.text r.sort) ≤ 0 :=
    depthMembers_member?_le _ fun _ _ => Nat.le_refl 0
  have returned : depthItems (r.returned.map Json.text) ≤ 0 :=
    depthItems_map_le fun _ _ => Nat.le_refl 0
  have facets : depthMembers (listMember "facet" parameterJson r.facets) ≤ 2 :=
    depthMembers_listMember_le _ fun _ _ => Nat.le_refl 1
  have groups : depthMembers (listMember "group" parameterJson r.groups) ≤ 2 :=
    depthMembers_listMember_le _ fun _ _ => Nat.le_refl 1
  rw [toJson, depth]
  simp only [depthMembers_append, depthMembers, depth, texts, countJson]
  omega

end Compiled

/-- A query is read from its value as it was written, with all its defaults, and from its text if no
more arrays and objects are nested in it than are read; a query that is nested more deeply is not
read from its text at all. A request is always read from its document as it was written. -/
theorem query_request_round_trip (q : Query) (storable : q.Storable)
    (digits : ∀ x ∈ q.decimals, ReadsBack x) (r : Compiled) (counts : r.Storable) :
    Query.ofJson? q.toJson = some q ∧
    (∀ text ∈ [q.toJson.compact, q.toJson.pretty],
      (q.toJson.depth ≤ levels → (read? text).bind Query.ofJson? = some q) ∧
      (levels < q.toJson.depth → (read? text).bind Query.ofJson? = none)) ∧
    (read? r.document).bind Compiled.ofJson? = some r := by
  have writable := Query.writable_toJson storable digits
  refine ⟨Query.ofJson?_toJson storable, ?_, ?_⟩
  · simp only [List.forall_mem_cons]
    exact ⟨Query.ofJson?_of_read storable (read?_compact writable),
      Query.ofJson?_of_read storable (read?_pretty writable), List.forall_mem_nil _⟩
  · have shallow : r.toJson.depth ≤ levels := Nat.le_trans r.depth_toJson_le (by decide)
    rw [Compiled.document, read?_pretty (Compiled.writable_toJson counts), Option.bind_some,
      cut_of_depth_le shallow, Compiled.ofJson?_toJson counts]

/-- Hotels in Berlin that are rated above three and a half. -/
def hotelsInBerlin : Query :=
  { Query.empty with
    keys := some (.group .and false false [.term "hotel", .group .or true false [.term "hostel"]])
    filter := ⟨.and, [.condition ⟨"rating", .gt, .scalar (.decimal 3.5)⟩,
      .group .or [.condition ⟨"stars", .isIn, .list [some (.integer 4), none]⟩,
        .condition (.absent "closed")] (.ofList ["facet:stars"])], .empty⟩
    languages := [⟨"de", by decide, by decide⟩]
    sorts := [⟨"rating", .descending⟩]
    facets := [{ Facet.simple "stars" with limit := some 10 }]
    grouping := some ⟨["city"], some 1, []⟩
    locations := [⟨"place", ⟨52.5, 13.4, 10⟩⟩]
    limit := some 20 }

/-- The request for all items, from the twentieth on. -/
def allItems : Compiled := ⟨"*:*", [], none, 20, 10, ["id"], [("facet", "true")], []⟩

/-- A query with numbers at several depths, and the request for all items. -/
theorem hotels_round_trip :
    hotelsInBerlin.Storable ∧ hotelsInBerlin.decimals = [3.5, 52.5, 13.4, 10] ∧
    (∀ x ∈ hotelsInBerlin.decimals, ReadsBack x) ∧ hotelsInBerlin.toJson.depth = 7 ∧
    allItems.Storable ∧
    (read? hotelsInBerlin.toJson.compact).bind Query.ofJson? = some hotelsInBerlin ∧
    (read? allItems.document).bind Compiled.ofJson? = some allItems := by
  have values : hotelsInBerlin.filter.values =
      [.decimal 3.5, .integer 4] := rfl
  have storable : hotelsInBerlin.Storable := {
    values := by
      rw [values]
      simp only [List.forall_mem_cons]
      exact ⟨rfl, rfl, List.forall_mem_nil _⟩
    places := by
      simp only [hotelsInBerlin, List.forall_mem_cons, Filter.Circle.numbers]
      exact ⟨⟨rfl, rfl, rfl, List.forall_mem_nil _⟩, List.forall_mem_nil _⟩
    facets := by
      simp only [hotelsInBerlin, List.forall_mem_cons]
      refine ⟨⟨?_, ?_⟩, List.forall_mem_nil _⟩
      · rintro _ ⟨⟩
        decide
      · rintro _ ⟨⟩
    grouping := by
      rintro _ ⟨⟩ _ ⟨⟩
      decide
    offset := by decide
    limit := by
      rintro _ ⟨⟩
      decide }
  have decimals : hotelsInBerlin.decimals = [3.5, 52.5, 13.4, 10] := rfl
  have digits : ∀ x ∈ hotelsInBerlin.decimals, ReadsBack x := by
    rw [decimals]
    simp only [List.forall_mem_cons]
    exact ⟨rfl, rfl, rfl, rfl, List.forall_mem_nil _⟩
  have depth : hotelsInBerlin.toJson.depth = 7 := by decide +kernel
  have counts : allItems.Storable := ⟨by decide, by decide⟩
  obtain ⟨-, texts, document⟩ :=
    query_request_round_trip hotelsInBerlin storable digits allItems counts
  have shallow : hotelsInBerlin.toJson.depth ≤ levels := by rw [depth]; decide
  exact ⟨storable, decimals, digits, depth, counts,
    (texts _ List.mem_cons_self).1 shallow, document⟩

/-- Groups of keys around one term. -/
def enclosedKeys : Nat → Keys.Expression
  | 0 => .term "a"
  | n + 1 => .group .and false false [enclosedKeys n]

theorem depth_enclosedKeys (n : Nat) : (enclosedKeys n).toJson.depth = 2 * n := by
  induction n with
  | zero => rfl
  | succ n ih =>
    rw [enclosedKeys, Keys.Expression.toJson, depth]
    simp only [depthMembers, depth, Keys.Expression.listToJson, depthItems, ih]
    omega

/-- A query for a term in sixty-four groups. -/
def enclosedQuery : Query := { Query.empty with keys := some (enclosedKeys 64) }

/-- A query with no decimals at all is not read from its own text, since it is nested too deeply. -/
theorem enclosed_query_refused :
    enclosedQuery.Storable ∧ enclosedQuery.decimals = [] ∧
    (read? enclosedQuery.toJson.compact).bind Query.ofJson? = none ∧
    (read? enclosedQuery.toJson.compact).bind Query.ofJson? ≠ some enclosedQuery := by
  have storable : enclosedQuery.Storable :=
    ⟨nofun, nofun, nofun, nofun, by decide, nofun⟩
  have writable := Query.writable_toJson storable nofun
  have inside : ("keys", (enclosedKeys 64).toJson) ∈ membersOf enclosedQuery.toJson :=
    List.mem_cons_self
  have deep : levels < enclosedQuery.toJson.depth := by
    have keys := depth_le_of_mem_members inside
    rw [depth_enclosedKeys] at keys
    change levels < depthMembers (membersOf enclosedQuery.toJson) + 1
    unfold levels
    omega
  have refused := (Query.ofJson?_of_read storable (read?_compact writable)).2 deep
  exact ⟨storable, rfl, refused, by rw [refused]; exact nofun⟩

end Request

end SearchCompiler
