import Mathlib.Data.List.TakeWhile
import SearchCompiler.Proofs.Compile.FieldQueries

/-!
# Filters as they are sent

A filter is sent as one text: its tags between `{!tag=` and a closing brace, with commas between
them, and its query behind. Whoever receives the text cuts it up again (`readTagged`). It gets back
the tags and the query of a fragment iff no tag holds a comma or a closing brace and, if the
fragment has no tags, its query does not look like one with tags (`Fragment.readsBack_iff`): nothing
is escaped on the way.

A query only looks like one with tags if the name of a backend field does. Otherwise all fragments
of compiled conditions are read back iff all tags that they carry are free of the two delimiters
(`rendered_tags_read_back`). A set with one tag that holds a comma is sent like a set with two tags
(`rendered_tags_confused`).
-/

namespace SearchCompiler.Text

theorem joinWith_eq_intercalate (mark : List Char) (pieces : List (List Char)) :
    joinWith mark pieces = mark.intercalate pieces := by
  match pieces with
  | [] => rfl
  | [piece] => exact List.intercalate_singleton.symm
  | piece :: next :: rest =>
    rw [joinWith, joinWith_eq_intercalate mark (next :: rest), List.intercalate_cons_cons]
    exact List.cons_ne_nil _ _

/-- Every character of joined pieces comes from a piece or from a mark. -/
theorem mem_joinWith {c : Char} {mark : List Char} {pieces : List (List Char)}
    (among : c ∈ joinWith mark pieces) : c ∈ mark ∨ ∃ piece ∈ pieces, c ∈ piece := by
  match pieces with
  | [] => cases among
  | [piece] => exact .inr ⟨piece, List.mem_cons_self, among⟩
  | piece :: next :: rest =>
    rw [joinWith, List.mem_append, List.mem_append] at among
    · rcases among with (first | between) | later
      · exact .inr ⟨piece, List.mem_cons_self, first⟩
      · exact .inl between
      · rcases mem_joinWith later with between | ⟨other, behind, inside⟩
        · exact .inl between
        · exact .inr ⟨other, List.mem_cons_of_mem _ behind, inside⟩
    · exact List.cons_ne_nil _ _

/-- The pieces of a text have its characters and no mark. -/
theorem mem_splitOn {mark : Char} {cs piece : List Char} (among : piece ∈ cs.splitOn mark) :
    mark ∉ piece ∧ piece ⊆ cs := by
  rw [List.splitOn_eq_splitOnP] at among
  induction cs generalizing piece with
  | nil =>
    obtain rfl : piece = [] := List.mem_singleton.mp among
    exact ⟨List.not_mem_nil, List.nil_subset _⟩
  | cons c rest ih =>
    rw [List.splitOnP_cons_eq_if_modifyHead] at among
    split at among
    · rcases List.mem_cons.mp among with rfl | later
      · exact ⟨List.not_mem_nil, List.nil_subset _⟩
      · exact ⟨(ih later).1, List.subset_cons_of_subset _ (ih later).2⟩
    · next other =>
      rw [beq_iff_eq] at other
      cases pieces : rest.splitOnP (· == mark) with
      | nil =>
        rw [pieces] at among
        cases among
      | cons first others =>
        rw [pieces, List.modifyHead_cons] at among
        rcases List.mem_cons.mp among with rfl | later
        · obtain ⟨free, inside⟩ := ih (pieces ▸ List.mem_cons_self)
          exact ⟨List.not_mem_cons_of_ne_of_not_mem (Ne.symm other) free, List.cons_subset_cons _ inside⟩
        · obtain ⟨free, inside⟩ := ih (pieces ▸ List.mem_cons_of_mem _ later)
          exact ⟨free, List.subset_cons_of_subset _ inside⟩

theorem TextSet.isEmpty_iff {s : TextSet} : s.isEmpty = true ↔ s = .empty := by
  obtain ⟨items, ordered⟩ := s
  simp [isEmpty, empty]

end SearchCompiler.Text

namespace SearchCompiler.Filter

def tagMark : List Char := "\x7b!tag=".toList

/-- A text looks like a filter with tags: the mark begins it, and a closing brace stands behind. -/
def LooksTagged (text : List Char) : Prop :=
  ∃ inside query, text = tagMark ++ (inside ++ '\x7d' :: query) ∧ '\x7d' ∉ inside

/-- The tags and the query of a filter as it is sent. A text that does not look like a filter with
tags is a query. -/
def readTagged (text : String) : List String × String :=
  if tagMark <+: text.toList then
    let behind := text.toList.drop tagMark.length
    match behind.dropWhile (· != '\x7d') with
    | [] => ([], text)
    | _ :: query =>
      (((behind.takeWhile (· != '\x7d')).splitOn ',').map String.ofList, String.ofList query)
  else ([], text)

/-- A text with the mark in front is cut at the first closing brace and at every comma. -/
theorem readTagged_mark {text : String} {inside query : List Char}
    (form : text.toList = tagMark ++ (inside ++ '\x7d' :: query)) (free : '\x7d' ∉ inside) :
    readTagged text = ((inside.splitOn ',').map String.ofList, String.ofList query) := by
  have word : ∀ c ∈ inside, (c != '\x7d') = true := by
    intro c among
    rw [bne_iff_ne]
    rintro rfl
    exact free among
  have before : (inside ++ '\x7d' :: query).takeWhile (· != '\x7d') = inside := by
    rw [List.takeWhile_append_of_pos word]
    simp
  have behind : (inside ++ '\x7d' :: query).dropWhile (· != '\x7d') = '\x7d' :: query := by
    rw [List.dropWhile_append_of_pos word]
    rfl
  rw [readTagged, form, if_pos (List.prefix_append _ _), List.drop_left]
  simp only [behind, before]

/-- A text without the mark has no tags. -/
theorem readTagged_plain {text : String} (plain : ¬ LooksTagged text.toList) :
    readTagged text = ([], text) := by
  unfold readTagged
  split
  · next begun =>
    obtain ⟨behind, form⟩ := begun
    have split := List.takeWhile_append_dropWhile (p := (· != '\x7d')) (l := behind)
    rw [← form, List.drop_left]
    dsimp only
    split
    · rfl
    · next brace query rest =>
      have isBrace := List.head?_dropWhile_not (· != '\x7d') behind
      rw [rest] at split isBrace
      obtain rfl : brace = '\x7d' := by simpa using isBrace
      refine absurd ⟨behind.takeWhile (· != '\x7d'), query, ?_, fun among => ?_⟩ plain
      · rw [split, form]
      · simpa using List.mem_takeWhile_imp among
  · rfl

/-- A tag without a delimiter. -/
def IsPlainTag (tag : String) : Prop :=
  ',' ∉ tag.toList ∧ '\x7d' ∉ tag.toList

instance (tag : String) : Decidable (IsPlainTag tag) :=
  inferInstanceAs (Decidable (_ ∧ _))

/-- Tags that are read are free of delimiters. -/
theorem isPlainTag_of_read {text tag : String} (among : tag ∈ (readTagged text).1) :
    IsPlainTag tag := by
  by_cases looks : LooksTagged text.toList
  · obtain ⟨inside, query, form, free⟩ := looks
    rw [readTagged_mark form free, List.mem_map] at among
    obtain ⟨piece, cut, rfl⟩ := among
    obtain ⟨noComma, within⟩ := Text.mem_splitOn cut
    rw [IsPlainTag, String.toList_ofList]
    exact ⟨noComma, fun inPiece => free (within inPiece)⟩
  · rw [readTagged_plain looks] at among
    cases among

/-- A text that looks like a filter with tags is read as one. -/
theorem readTagged_ne_nil {text : String} (looks : LooksTagged text.toList) :
    (readTagged text).1 ≠ [] := by
  obtain ⟨inside, query, form, free⟩ := looks
  rw [readTagged_mark form free]
  simp [List.splitOn_ne_nil]

namespace Fragment

/-- What is sent for a fragment is read back as its tags and its query. -/
structure ReadsBack (f : Fragment) : Prop where
  tags : ∀ tag, tag ∈ (readTagged f.render).1 ↔ tag ∈ f.tags
  query : (readTagged f.render).2 = f.query

theorem render_untagged {f : Fragment} (untagged : f.tags = .empty) : f.render = f.query := by
  rw [render, if_pos (Text.TextSet.isEmpty_iff.mpr untagged)]

/-- What is sent for a fragment with tags, character by character. -/
theorem toList_render_tagged {f : Fragment} (tagged : f.tags ≠ .empty) :
    f.render.toList = tagMark ++
      (Text.joinWith [','] (f.tags.items.map String.toList) ++ '\x7d' :: f.query.toList) := by
  have comma : ",".toList = [','] := rfl
  have brace : "\x7d".toList = ['\x7d'] := rfl
  have mark : "\x7b!tag=".toList = tagMark := rfl
  rw [render, if_neg (mt Text.TextSet.isEmpty_iff.mp tagged)]
  simp only [String.toList_append, Text.joinTexts, String.toList_ofList, comma, brace, mark,
    List.append_assoc, List.singleton_append]

/-- Only a fragment with tags is sent with the mark in front, unless its query begins with it. -/
theorem untagged_of_render {f : Fragment} (unmarked : ¬ tagMark <+: f.render.toList) :
    f.tags = .empty := by
  by_contra tagged
  rw [toList_render_tagged tagged] at unmarked
  exact unmarked (List.prefix_append _ _)

/-- Without delimiters in the tags, and without a query that looks tagged where there are none, the
text is read back. -/
theorem readTagged_render {f : Fragment} (plain : ∀ tag ∈ f.tags, IsPlainTag tag)
    (apart : f.tags = .empty → ¬ LooksTagged f.query.toList) :
    readTagged f.render = (f.tags.items, f.query) := by
  by_cases tagged : f.tags = .empty
  · rw [render_untagged tagged, readTagged_plain (apart tagged), tagged]
    rfl
  · have pieces : ∀ piece ∈ f.tags.items.map String.toList, ',' ∉ piece ∧ '\x7d' ∉ piece := by
      rw [List.forall_mem_map]
      exact plain
    have some_tags : f.tags.items.map String.toList ≠ [] := by
      intro nothing
      rw [List.map_eq_nil_iff] at nothing
      exact tagged (Text.TextSet.isEmpty_iff.mp (List.isEmpty_iff.mpr nothing))
    have free : '\x7d' ∉ Text.joinWith [','] (f.tags.items.map String.toList) := by
      intro inside
      rcases Text.mem_joinWith inside with between | ⟨piece, among, inPiece⟩
      · exact absurd between (by decide)
      · exact (pieces piece among).2 inPiece
    rw [readTagged_mark (toList_render_tagged tagged) free, Text.joinWith_eq_intercalate,
      List.splitOn_intercalate ',' (fun piece among => (pieces piece among).1) some_tags]
    simp

/-- What is sent for a fragment is read back iff no tag holds a delimiter and a query without tags
does not look as if it had some. -/
theorem readsBack_iff (f : Fragment) :
    f.ReadsBack ↔ (∀ tag ∈ f.tags, IsPlainTag tag) ∧
      (f.tags = .empty → ¬ LooksTagged f.query.toList) := by
  constructor
  · rintro ⟨tags, -⟩
    refine ⟨fun tag among => isPlainTag_of_read ((tags tag).mpr among), fun untagged looks => ?_⟩
    rw [render_untagged untagged] at tags
    obtain ⟨tag, among⟩ := List.exists_mem_of_ne_nil _ (readTagged_ne_nil looks)
    exact Text.TextSet.not_mem_empty tag (untagged ▸ (tags tag).mp among)
  · rintro ⟨plain, apart⟩
    have read := readTagged_render plain apart
    exact ⟨fun tag => by rw [read]; rfl, by rw [read]⟩

/-- Fragments that are read back are told apart by what is sent for them. -/
theorem ReadsBack.injective {f g : Fragment} (first : f.ReadsBack) (second : g.ReadsBack)
    (same : f.render = g.render) : f.tags = g.tags ∧ f.query = g.query := by
  obtain ⟨plain, apart⟩ := (readsBack_iff f).mp first
  obtain ⟨plain', apart'⟩ := (readsBack_iff g).mp second
  have read := readTagged_render plain apart
  rw [same, readTagged_render plain' apart', Prod.mk.injEq] at read
  obtain ⟨items, query⟩ := read
  refine ⟨?_, query.symm⟩
  cases tags : f.tags
  cases tags' : g.tags
  rw [tags, tags'] at items
  cases items
  rfl

/-- Tags that are given to all fragments are on some fragment, if there is one. -/
theorem exists_tag_withTags (fs : List Fragment) (tags : Text.TextSet) (tag : String) :
    (∃ f ∈ fs.map (withTags · tags), tag ∈ f.tags) ↔
      (tag ∈ tags ∧ fs ≠ []) ∨ ∃ f ∈ fs, tag ∈ f.tags := by
  induction fs with
  | nil => simp
  | cons f rest ih =>
    rw [List.map_cons, List.exists_mem_cons_iff, ih, List.exists_mem_cons_iff]
    simp only [withTags, Text.TextSet.mem_union, ne_eq, reduceCtorEq, not_false_eq_true, and_true]
    tauto

/-- A folded filter has its own tags and those of all that was folded. -/
theorem exists_tag_reduce (fs : List Fragment) (conjunction : Conjunction) (tags : Text.TextSet)
    (outermost : Bool) (tag : String) :
    (∃ f ∈ (reduce fs conjunction tags outermost).toList, tag ∈ f.tags) ↔
      (tag ∈ tags ∧ fs ≠ []) ∨ ∃ f ∈ fs, tag ∈ f.tags := by
  cases folded : reduce fs conjunction tags outermost with
  | none => simp [reduce_eq_none_iff.mp folded]
  | some f =>
    have some_fragments : fs ≠ [] := fun nothing => by
      rw [reduce_eq_none_iff.mpr nothing] at folded
      cases folded
    simp [mem_tags_of_reduce folded, some_fragments]

end Fragment

end SearchCompiler.Filter

namespace SearchCompiler.Compile

open Filter

/-! ### Queries without the mark -/

/-- A clause whose text does not begin with the mark. -/
def IsUnmarked (c : Clause) : Prop :=
  ¬ tagMark <+: c.chars

theorem IsUnmarked.not_looksTagged {c : Clause} (unmarked : IsUnmarked c) :
    ¬ LooksTagged c.chars := by
  rintro ⟨inside, query, form, -⟩
  exact unmarked (form ▸ List.prefix_append _ _)

theorem isUnmarked_of_head {c : Clause} {first : Char} {rest : List Char}
    (form : c.chars = first :: rest) (other : first ≠ '\x7b') : IsUnmarked c := by
  rintro ⟨behind, begun⟩
  rw [form] at begun
  exact other (List.head_eq_of_cons_eq begun).symm

/-- A beginning that lacks a character ends in front of it. -/
theorem prefix_of_append_cons {mark before after : List Char} {c : Char} (free : c ∉ mark)
    (begun : mark <+: before ++ c :: after) : mark <+: before := by
  refine List.prefix_of_prefix_length_le begun (List.prefix_append _ _) ?_
  by_contra longer
  have whole : before ++ [c] <+: mark := by
    refine List.prefix_of_prefix_length_le ⟨after, List.append_assoc _ _ _⟩ begun ?_
    rw [List.length_append, List.length_singleton]
    omega
  exact free (whole.subset (List.mem_append_right _ List.mem_cons_self))

/-- A word does not begin with the mark. -/
theorem not_begins_of_word {name : String} (word : Name.IsWord name) :
    ¬ tagMark <+: name.toList := by
  intro begun
  have brace : '\x7b' ∈ name.toList := begun.subset (by decide)
  exact absurd (List.all_eq_true.mp word _ brace) (by decide)

theorem isUnmarked_onField {name : String} (apart : ¬ tagMark <+: name.toList) (c : Clause)
    (suffix : String) : IsUnmarked (.onField name c suffix) := by
  rw [IsUnmarked, Clause.chars_onField]
  exact fun begun => apart (prefix_of_append_cons (by decide) begun)

/-- A query begins with the name of its field, or with the underscore of a nested one. -/
theorem IsFieldQuery.isUnmarked {named : String → Prop} {c : Clause}
    (apart : ∀ name, named name → ¬ tagMark <+: name.toList) (own : IsFieldQuery named c) :
    IsUnmarked c := by
  cases own with
  | range name lower upper withBounds known => exact isUnmarked_onField (apart name known) _ _
  | equals name text known => exact isUnmarked_onField (apart name known) _ _
  | phrases name texts known => exact isUnmarked_onField (apart name known) _ _
  | circle name circle known => exact isUnmarked_of_head rfl (by decide)

section

variable {part : Clause → Prop} {c : Clause}

/-- A clause begins with the mark only if it is a part that does. -/
theorem isUnmarked_of_madeOf (parts : ∀ c, part c → IsUnmarked c) (made : c.IsMadeOf part) :
    IsUnmarked c := by
  cases made with
  | all => exact isUnmarked_of_head rfl (by decide)
  | part own => exact parts c own
  | signed sign free own =>
    refine isUnmarked_of_head (Clause.chars_signed _ _) ?_
    cases sign <;> decide
  | list each => exact isUnmarked_of_head (Clause.chars_list _) (by decide)
  | both left right => exact isUnmarked_of_head rfl (by decide)

/-- A row begins like its first clause. -/
theorem IsSentOf.isUnmarked (parts : ∀ c, part c → IsUnmarked c) (sent : IsSentOf part c) :
    IsUnmarked c := by
  obtain made | ⟨cs, rfl, each⟩ := sent
  · exact isUnmarked_of_madeOf parts made
  · match cs with
    | [] => exact fun begun => absurd (List.prefix_nil.mp begun) (by decide)
    | first :: rest =>
      have unmarked := isUnmarked_of_madeOf parts (each first List.mem_cons_self)
      cases rest with
      | nil => exact unmarked
      | cons second rest => exact fun begun => unmarked (prefix_of_append_cons (by decide) begun)

end

namespace Context

variable {ctx : Context} {languages : List LanguageId}

/-- The queries of compiled conditions do not begin with the mark. -/
theorem conditions_isUnmarked (builtIn : ctx.spatial.IsBuiltIn)
    (apart : ∀ name, ctx.IsName name → ¬ tagMark <+: name.toList) {group : Group}
    {fragments : List Fragment}
    (success : (ctx.conditions languages group).outcome = .ok fragments) :
    ∀ f ∈ fragments, IsUnmarked f.clause := by
  intro f among
  have sent := conditions_madeOf builtIn success f among
  exact sent.isUnmarked fun _ own => own.isUnmarked apart

/-! ### The tags of all filters -/

/-- A tag that some filter of a group at the top carries: its own, if a member adds a filter, or one
of a group inside that does. -/
def Carries (ctx : Context) (languages : List LanguageId) (group : Group) (tag : String) : Prop :=
  (tag ∈ group.tags ∧
      ∃ member ∈ group.members, ctx.Adds (languagesWithin languages group.members) member) ∨
    ∃ member ∈ group.members, ctx.Tags (languagesWithin languages group.members) member tag

theorem items_adds_iff {is : List Item} {fs : List Fragment}
    (success : (ctx.items languages is).outcome = .ok fs) :
    (∃ member ∈ is, ctx.Adds languages member) ↔ fs ≠ [] := by
  induction is generalizing fs with
  | nil =>
    cases success
    simp
  | cons i rest ih =>
    obtain ⟨o, others, compiled, rest_compiled, rfl⟩ := items_cons_eq_ok success
    rw [List.exists_mem_cons_iff, ih rest_compiled, Adds, compiled]
    cases o <;> simp

/-- The tags of all filters are the tags that are carried. -/
theorem exists_tag_iff {group : Group} {fragments : List Fragment}
    (success : (ctx.conditions languages group).outcome = .ok fragments) (tag : String) :
    (∃ f ∈ fragments, tag ∈ f.tags) ↔ ctx.Carries languages group tag := by
  obtain ⟨fs, language, compiled, rfl, asked, free⟩ := conditions_parts success
  have untagged : ∀ f ∈ language.toList, tag ∉ f.tags := by
    intro f among
    by_cases adds : ctx.AddsLanguage languages group
    · obtain ⟨g, rfl, compiled'⟩ := asked adds
      cases List.mem_singleton.mp among
      rw [condition_untagged compiled']
      exact Text.TextSet.not_mem_empty tag
    · rw [free adds] at among
      cases among
  rw [Carries, items_adds_iff compiled, ← items_tags _ group.members compiled tag]
  have split : ∀ own : List Fragment, (∃ f ∈ own ++ language.toList, tag ∈ f.tags) ↔
      ∃ f ∈ own, tag ∈ f.tags := by
    intro own
    simp only [List.mem_append, or_and_right, exists_or]
    refine or_iff_left ?_
    rintro ⟨f, among, tagged⟩
    exact untagged f among tagged
  rw [split]
  cases group.conjunction with
  | and => exact Fragment.exists_tag_withTags fs group.tags tag
  | or => exact Fragment.exists_tag_reduce fs .or group.tags true tag

/-- What is sent for a fragment of compiled conditions is read back iff no tag of it holds a comma
or a closing brace and, without tags, its query does not look as if it had some; a text without the
mark in front has no tags; and what is read back tells fragments apart. If the name of no field
begins with the mark, and no builder from outside writes the queries of locations, all fragments are
read back iff all tags that are carried are free of the two delimiters. -/
theorem rendered_tags_read_back (ctx : Context) (languages : List LanguageId) (group : Group)
    (fragments : List Fragment)
    (success : (ctx.conditions languages group).outcome = .ok fragments) :
    (∀ f ∈ fragments,
      (f.ReadsBack ↔ (∀ tag ∈ f.tags, IsPlainTag tag) ∧
        (f.tags = .empty → ¬ LooksTagged f.query.toList)) ∧
      (¬ tagMark <+: f.render.toList → f.tags = .empty)) ∧
    (∀ f ∈ fragments, ∀ g ∈ fragments, f.ReadsBack → g.ReadsBack → f.render = g.render →
      f.tags = g.tags ∧ f.query = g.query) ∧
    (ctx.spatial.IsBuiltIn → (∀ name, ctx.IsName name → ¬ tagMark <+: name.toList) →
      ((∀ f ∈ fragments, f.ReadsBack) ↔
        ∀ tag, ctx.Carries languages group tag → IsPlainTag tag)) := by
  refine ⟨fun f _ => ⟨f.readsBack_iff, Fragment.untagged_of_render⟩,
    fun f _ g _ first second same => first.injective second same, fun builtIn apart => ?_⟩
  constructor
  · intro read tag carried
    obtain ⟨f, among, tagged⟩ := (exists_tag_iff success tag).mpr carried
    exact (f.readsBack_iff.mp (read f among)).1 tag tagged
  · intro plain f among
    refine f.readsBack_iff.mpr ⟨fun tag tagged => ?_, fun _ => ?_⟩
    · exact plain tag ((exists_tag_iff success tag).mp ⟨f, among, tagged⟩)
    · rw [Fragment.query, Clause.toList_render]
      exact (conditions_isUnmarked builtIn apart success f among).not_looksTagged

/-- One of two titles, with tags that hold blanks, braces and nothing at all. -/
def oddlyTagged : Group :=
  ⟨.and, [.group .or [.condition (.equal "title" (.string "\x7d")),
      .condition (.equal "title" (.string ","))] (.ofList ["\x7ba b", "facet:type", ""]),
    .condition (.absent "title")], .ofList ["x"]⟩

/-- Tags with blanks, braces and nothing at all come back. -/
theorem rendered_tags_read_back_odd :
    ∃ fragments, (catalogue.conditions [] oddlyTagged).outcome = .ok fragments ∧
      fragments.map Fragment.render =
        ["\x7b!tag=,facet:type,x,\x7ba b\x7d(ss_title:\"\x7d\" ss_title:\",\")",
          "\x7b!tag=x\x7d-ss_title:[* TO *]"] ∧
      (∀ name, catalogue.IsName name → ¬ tagMark <+: name.toList) ∧
      ∀ f ∈ fragments, f.ReadsBack := by
  have ran : (catalogue.conditions [] oddlyTagged).outcome.map
      (List.map fun f => (f.render, f.tags.items)) =
      .ok [("\x7b!tag=,facet:type,x,\x7ba b\x7d(ss_title:\"\x7d\" ss_title:\",\")",
          ["", "facet:type", "x", "\x7ba b"]),
        ("\x7b!tag=x\x7d-ss_title:[* TO *]", ["x"])] := by
    rfl
  obtain ⟨fragments, compiled, parts⟩ := map_eq_ok ran
  have apart : ∀ name, catalogue.IsName name → ¬ tagMark <+: name.toList := fun name known =>
    not_begins_of_word (catalogue_words name known)
  obtain ⟨-, -, read_iff⟩ := rendered_tags_read_back catalogue [] oddlyTagged fragments compiled
  refine ⟨fragments, compiled, ?_, apart, (read_iff trivial apart).mpr fun tag carried => ?_⟩
  · have texts := congrArg (List.map Prod.fst) parts
    rwa [List.map_map] at texts
  · obtain ⟨f, among, tagged⟩ := (exists_tag_iff compiled tag).mpr carried
    have items : fragments.map (fun f => f.tags.items) =
        [["", "facet:type", "x", "\x7ba b"], ["x"]] := by
      have seconds := congrArg (List.map Prod.snd) parts
      rwa [List.map_map] at seconds
    have plain : ∀ items ∈ [["", "facet:type", "x", "\x7ba b"], ["x"]],
        ∀ tag ∈ items, IsPlainTag tag := by decide
    exact plain f.tags.items (items ▸ List.mem_map_of_mem among) tag tagged

/-- The same title twice, once with a tag that holds a comma and once with two tags. -/
def commaTagged : Group :=
  ⟨.and, [.group .and [.condition (.equal "title" (.string "A"))] (.ofList ["a,b"]),
    .group .and [.condition (.equal "title" (.string "A"))] (.ofList ["a", "b"])], .empty⟩

/-- Two fragments with one query and different tags are sent alike. -/
theorem rendered_tags_confused :
    ∃ f g, (catalogue.conditions [] commaTagged).outcome = .ok [f, g] ∧
      f.query = g.query ∧ f.tags.items = ["a,b"] ∧ g.tags.items = ["a", "b"] ∧
      f.render = g.render :=
  ⟨_, _, rfl, rfl, rfl, rfl, rfl⟩

end Context

end SearchCompiler.Compile
