import SearchCompiler.Proofs.Compile.FieldQueries
import SearchCompiler.Proofs.Quotes

/-!
# Filters of one shape

Clauses and filters that differ at most in the texts of their literals, together with these texts.
All forms of a compiled condition keep the relation as long as as many texts go in on both sides
(`sameShape_inClause` and its neighbours), and so does folding (`FragmentsAlike.reduce`), although
it looks at the first character of a text that is composed already.
-/

namespace SearchCompiler.Compile

open Filter Text

/-! ### Clauses of one shape -/

/-- Clauses that differ at most in the texts of their literals, with these texts. -/
structure SameShape (ts us : List String) (cs ds : List Clause) : Prop where
  shapes : cs.map Clause.shape = ds.map Clause.shape
  left : cs.flatMap Clause.texts = ts
  right : ds.flatMap Clause.texts = us

namespace SameShape

variable {ts us ts' us' : List String} {cs ds cs' ds' : List Clause} {c d : Clause}

theorem nil : SameShape [] [] [] [] := ⟨rfl, rfl, rfl⟩

theorem single (shape : c.shape = d.shape) : SameShape c.texts d.texts [c] [d] :=
  ⟨congrArg (fun s => [s]) shape, List.flatMap_singleton _ _, List.flatMap_singleton _ _⟩

theorem shape_eq (same : SameShape ts us [c] [d]) : c.shape = d.shape :=
  List.head_eq_of_cons_eq same.shapes

theorem texts_left (same : SameShape ts us [c] [d]) : c.texts = ts := by
  rw [← same.left, List.flatMap_singleton]

theorem texts_right (same : SameShape ts us [c] [d]) : d.texts = us := by
  rw [← same.right, List.flatMap_singleton]

theorem append (first : SameShape ts us cs ds) (second : SameShape ts' us' cs' ds') :
    SameShape (ts ++ ts') (us ++ us') (cs ++ cs') (ds ++ ds') := by
  refine ⟨?_, ?_, ?_⟩
  · rw [List.map_append, List.map_append, first.shapes, second.shapes]
  · rw [List.flatMap_append, first.left, second.left]
  · rw [List.flatMap_append, first.right, second.right]

theorem list (same : SameShape ts us cs ds) : SameShape ts us [.list cs] [.list ds] := by
  have whole := single (Clause.shape_list same.shapes)
  rwa [Clause.texts_list, Clause.texts_list, same.left, same.right] at whole

theorem row (same : SameShape ts us cs ds) : SameShape ts us [.row cs] [.row ds] := by
  have whole := single (Clause.shape_row same.shapes)
  rwa [Clause.texts_row, Clause.texts_row, same.left, same.right] at whole

theorem signed (sign : Sign) (same : SameShape ts us [c] [d]) :
    SameShape ts us [.signed sign c] [.signed sign d] := by
  have shape : (Clause.signed sign c).shape = (Clause.signed sign d).shape := by
    rw [Clause.shape_signed, Clause.shape_signed, same.shape_eq]
  have whole := single shape
  rwa [Clause.texts_signed, Clause.texts_signed, same.texts_left, same.texts_right] at whole

theorem not (same : SameShape ts us [c] [d]) : SameShape ts us [c.not] [d.not] :=
  same.signed .mustNot

theorem onField (name suffix : String) (same : SameShape ts us [c] [d]) :
    SameShape ts us [.onField name c suffix] [.onField name d suffix] := by
  have whole := single (Clause.shape_onField same.shape_eq name suffix)
  rwa [Clause.texts_onField, Clause.texts_onField, same.texts_left, same.texts_right] at whole

theorem both {a b : Clause} (first : SameShape ts us [c] [d])
    (second : SameShape ts' us' [a] [b]) :
    SameShape (ts ++ ts') (us ++ us') [.both c a] [.both d b] := by
  have whole := single (Clause.shape_both first.shape_eq second.shape_eq)
  rwa [Clause.texts_both, Clause.texts_both, first.texts_left, first.texts_right,
    second.texts_left, second.texts_right] at whole

theorem anyOf (same : SameShape ts us cs ds) : SameShape ts us [.anyOf cs] [.anyOf ds] := by
  match cs, ds with
  | [], [] => exact same.list
  | [_], [_] => exact same
  | _ :: _ :: _, _ :: _ :: _ => exact same.list
  | [], _ :: _ | _ :: _, [] => cases same.shapes
  | [_], _ :: _ :: _ | _ :: _ :: _, [_] => cases List.tail_eq_of_cons_eq same.shapes

/-- One clause of a form for each of several texts. -/
theorem map {form : String → Clause}
    (each : ∀ s t, SameShape [s] [t] [form s] [form t]) {ss ts : List String}
    (length : ss.length = ts.length) : SameShape ss ts (ss.map form) (ts.map form) := by
  match ss, ts with
  | [], [] => exact nil
  | [], _ :: _ | _ :: _, [] => cases length
  | s :: ss, t :: ts => exact (each s t).append (map each (Nat.succ.inj length))

end SameShape

theorem sameShape_everything : SameShape [] [] [.everything] [.everything] := ⟨rfl, rfl, rfl⟩

theorem sameShape_phrase (s t : String) :
    SameShape [s] [t] [.atom (.phrase s)] [.atom (.phrase t)] := ⟨rfl, rfl, rfl⟩

theorem sameShape_equals (name s t : String) :
    SameShape [s] [t] [.equals name s] [.equals name t] :=
  .onField name "" (sameShape_phrase s t)

theorem sameShape_differs (name s t : String) :
    SameShape [s] [t] [.both .everything (Clause.equals name s).not]
      [.both .everything (Clause.equals name t).not] :=
  .both sameShape_everything (sameShape_equals name s t).not

theorem sameShape_range (name : String) (lower lower' upper upper' : Option String)
    (below : lower.isSome = lower'.isSome) (above : upper.isSome = upper'.isSome)
    (withBounds : Bool) :
    SameShape (lower.toList ++ upper.toList) (lower'.toList ++ upper'.toList)
      [rangeClause name lower upper withBounds] [rangeClause name lower' upper' withBounds] := by
  refine .onField name "" ?_
  cases lower <;> cases lower' <;> cases below <;> cases upper <;> cases upper' <;> cases above <;>
    exact ⟨rfl, rfl, rfl⟩

theorem sameShape_present (name : String) : SameShape [] [] [.present name] [.present name] :=
  .onField name "" ⟨rfl, rfl, rfl⟩

/-- One of several values is asked for in one shape, whatever the values are. -/
theorem sameShape_inClause (name : String) {ss ts : List String} (length : ss.length = ts.length)
    (orAbsent : Bool) :
    SameShape ss ts [inClause name ss orAbsent] [inClause name ts orAbsent] := by
  have values := SameShape.map (sameShape_equals name) length
  have absent := (sameShape_everything.append (sameShape_present name).not).list
  have choices : SameShape ss ts
      (ss.map (Clause.equals name) ++
        if orAbsent then [Clause.list [.everything, (Clause.present name).not]] else [])
      (ts.map (Clause.equals name) ++
        if orAbsent then [Clause.list [.everything, (Clause.present name).not]] else []) := by
    cases orAbsent with
    | false => simpa using values
    | true => simpa using values.append absent
  exact choices.anyOf

theorem sameShape_notInClause (name : String) {ss ts : List String}
    (length : ss.length = ts.length) (andPresent : Bool) :
    SameShape ss ts [notInClause name ss andPresent] [notInClause name ts andPresent] := by
  have values := SameShape.map (fun s t => (sameShape_equals name s t).not) length
  match ss, ts with
  | [], [] => exact sameShape_present name
  | [], _ :: _ | _ :: _, [] => cases length
  | s :: ss, t :: ts =>
    cases andPresent with
    | false => exact (sameShape_everything.append values).list
    | true => exact (((sameShape_present name).signed .must).append values).list

theorem sameShape_phrases (sign : Sign) (names : List String) {ss ts : List String}
    (length : ss.length = ts.length) :
    SameShape (names.flatMap fun _ => ss) (names.flatMap fun _ => ts)
      [phrasesClause sign names ss] [phrasesClause sign names ts] := by
  refine .signed sign (.list ?_)
  induction names with
  | nil => exact .nil
  | cons name rest ih =>
    have phrases := (SameShape.map sameShape_phrase length).list
    exact (phrases.onField name Target.plainSuffix).append ih

/-! ### Quotes in compiled clauses -/

theorem IsFieldQuery.isQuoted {named : String → Prop} {c : Clause} (own : IsFieldQuery named c)
    (plain : ∀ name, named name → IsUnquoted name.toList) : c.IsQuoted := by
  cases own with
  | range name lower upper withBounds known =>
    exact .onField (plain name known) (.atom trivial) (by decide)
  | equals name text known => exact .onField (plain name known) (.atom trivial) (by decide)
  | phrases name texts known =>
    refine .onField (plain name known) (.list ?_) (by decide)
    exact List.forall_mem_map.mpr fun text _ => .atom trivial
  | circle name circle known => exact .atom (isUnquoted_circle (plain name known) circle)

/-- In a compiled condition only the literals have quotes in them, if the names have none. -/
theorem LeafForm.isQuoted {named : String → Prop} {c : Clause} (form : LeafForm named c)
    (plain : ∀ name, named name → IsUnquoted name.toList) : c.IsQuoted :=
  form.isMadeOf.isQuoted fun _ own => own.isQuoted plain

/-! ### Fragments of one shape -/

/-- Filters with the same tags that differ at most in the texts of their literals, with these
texts. -/
structure FragmentsAlike (ts us : List String) (fs gs : List Fragment) : Prop where
  clauses : SameShape ts us (fs.map Fragment.clause) (gs.map Fragment.clause)
  tags : fs.map Fragment.tags = gs.map Fragment.tags
  quoted : ∀ f ∈ fs, f.clause.IsQuoted
  quoted' : ∀ g ∈ gs, g.clause.IsQuoted

namespace FragmentsAlike

variable {ts us ts' us' : List String} {fs gs fs' gs' : List Fragment}

theorem nil : FragmentsAlike [] [] [] [] :=
  ⟨.nil, rfl, List.forall_mem_nil _, List.forall_mem_nil _⟩

theorem append (first : FragmentsAlike ts us fs gs) (second : FragmentsAlike ts' us' fs' gs') :
    FragmentsAlike (ts ++ ts') (us ++ us') (fs ++ fs') (gs ++ gs') := by
  refine ⟨?_, ?_, ?_, ?_⟩
  · rw [List.map_append, List.map_append]
    exact first.clauses.append second.clauses
  · rw [List.map_append, List.map_append, first.tags, second.tags]
  · exact List.forall_mem_append.mpr ⟨first.quoted, second.quoted⟩
  · exact List.forall_mem_append.mpr ⟨first.quoted', second.quoted'⟩

end FragmentsAlike

/-- A clause as a member has the texts that it has, and no new quotes. -/
theorem memberClause_texts (conjunction : Conjunction) (f : Fragment) :
    (f.memberClause conjunction).texts = f.clause.texts := by
  unfold Fragment.memberClause
  split
  · rfl
  · rfl
  · rw [Clause.texts_list, List.flatMap_singleton]
  · rfl

theorem memberClause_quoted (conjunction : Conjunction) {f : Fragment}
    (quoted : f.clause.IsQuoted) : (f.memberClause conjunction).IsQuoted := by
  unfold Fragment.memberClause
  split
  · exact quoted
  · exact .signed _ quoted
  · exact .list (List.forall_mem_singleton.mpr quoted)
  · exact quoted

/-- A sign is told by the shape of a clause, so members of one shape get the same. -/
theorem memberClause_shape (conjunction : Conjunction) {f g : Fragment}
    (quoted : f.clause.IsQuoted) (quoted' : g.clause.IsQuoted)
    (same : f.clause.shape = g.clause.shape) :
    (f.memberClause conjunction).shape = (g.memberClause conjunction).shape := by
  have signs : f.clause.isSigned = g.clause.isSigned := Clause.isSigned_shape quoted quoted' same
  unfold Fragment.memberClause
  rw [signs]
  cases conjunction <;> cases g.clause.isSigned
  · exact congrArg (_ :: ·) same
  · exact same
  · exact same
  · exact Clause.shape_list (congrArg (fun s => [s]) same)

theorem memberClauses_shapes (conjunction : Conjunction) {fs gs : List Fragment}
    (quoted : ∀ f ∈ fs, f.clause.IsQuoted) (quoted' : ∀ g ∈ gs, g.clause.IsQuoted)
    (same : (fs.map Fragment.clause).map Clause.shape =
      (gs.map Fragment.clause).map Clause.shape) :
    (fs.map (Fragment.memberClause conjunction)).map Clause.shape =
      (gs.map (Fragment.memberClause conjunction)).map Clause.shape := by
  match fs, gs with
  | [], [] => rfl
  | [], _ :: _ | _ :: _, [] => cases same
  | f :: fs, g :: gs =>
    obtain ⟨own, others⟩ := List.forall_mem_cons.mp quoted
    obtain ⟨own', others'⟩ := List.forall_mem_cons.mp quoted'
    have head := memberClause_shape conjunction own own' (List.head_eq_of_cons_eq same)
    have rest := memberClauses_shapes conjunction others others' (List.tail_eq_of_cons_eq same)
    exact congrArg₂ List.cons head rest

theorem allTags_eq (tags : TextSet) (fs : List Fragment) :
    Fragment.allTags tags fs = (fs.map Fragment.tags).foldl TextSet.union tags := by
  rw [List.foldl_map]
  rfl

namespace FragmentsAlike

variable {ts us : List String} {fs gs : List Fragment}

theorem members (alike : FragmentsAlike ts us fs gs) (conjunction : Conjunction) :
    SameShape ts us (fs.map (Fragment.memberClause conjunction))
      (gs.map (Fragment.memberClause conjunction)) := by
  have texts : ∀ fs : List Fragment, (fs.map (Fragment.memberClause conjunction)).flatMap
      Clause.texts = (fs.map Fragment.clause).flatMap Clause.texts := by
    intro fs
    simp only [List.flatMap_map, memberClause_texts]
  refine ⟨memberClauses_shapes conjunction alike.quoted alike.quoted' alike.clauses.shapes, ?_, ?_⟩
  · rw [texts, alike.clauses.left]
  · rw [texts, alike.clauses.right]

/-- Adding tags leaves the clauses as they are. -/
theorem withTags (alike : FragmentsAlike ts us fs gs) (tags : TextSet) :
    FragmentsAlike ts us (fs.map (Fragment.withTags · tags))
      (gs.map (Fragment.withTags · tags)) := by
  have clauses : ∀ fs : List Fragment, (fs.map (Fragment.withTags · tags)).map Fragment.clause =
      fs.map Fragment.clause := fun fs => List.map_map
  have allTags : ∀ fs : List Fragment, (fs.map (Fragment.withTags · tags)).map Fragment.tags =
      (fs.map Fragment.tags).map (TextSet.union · tags) := by
    intro fs
    rw [List.map_map, List.map_map]
    rfl
  refine ⟨?_, ?_, ?_, ?_⟩
  · rw [clauses, clauses]
    exact alike.clauses
  · rw [allTags, allTags, alike.tags]
  · exact List.forall_mem_map.mpr alike.quoted
  · exact List.forall_mem_map.mpr alike.quoted'

/-- Fragments of one shape fold into fragments of one shape. -/
theorem reduce (alike : FragmentsAlike ts us fs gs) (conjunction : Conjunction) (tags : TextSet)
    (outermost : Bool) :
    FragmentsAlike ts us (Fragment.reduce fs conjunction tags outermost).toList
      (Fragment.reduce gs conjunction tags outermost).toList := by
  match fs, gs with
  | [], [] => exact alike
  | [f], [g] => exact alike.withTags tags
  | [], _ :: _ | _ :: _, [] => cases alike.tags
  | [_], _ :: _ :: _ | _ :: _ :: _, [_] => cases List.tail_eq_of_cons_eq alike.tags
  | f :: f' :: fs, g :: g' :: gs =>
    have members := alike.members conjunction
    have quoted : ∀ c ∈ (f :: f' :: fs).map (Fragment.memberClause conjunction), c.IsQuoted :=
      List.forall_mem_map.mpr fun f among => memberClause_quoted conjunction (alike.quoted f among)
    have quoted' : ∀ c ∈ (g :: g' :: gs).map (Fragment.memberClause conjunction), c.IsQuoted :=
      List.forall_mem_map.mpr fun g among => memberClause_quoted conjunction (alike.quoted' g among)
    have same : Fragment.allTags tags (f :: f' :: fs) = Fragment.allTags tags (g :: g' :: gs) := by
      rw [allTags_eq, allTags_eq, alike.tags]
    cases outermost with
    | true =>
      exact ⟨members.row, congrArg (fun t => [t]) same, List.forall_mem_singleton.mpr (.row quoted),
        List.forall_mem_singleton.mpr (.row quoted')⟩
    | false =>
      exact ⟨members.list, congrArg (fun t => [t]) same,
        List.forall_mem_singleton.mpr (.list quoted), List.forall_mem_singleton.mpr (.list quoted')⟩

end FragmentsAlike

end SearchCompiler.Compile
