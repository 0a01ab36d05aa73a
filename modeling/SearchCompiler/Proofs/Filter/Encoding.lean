import SearchCompiler.Filter.Location
import SearchCompiler.Proofs.Filter.Decoding
import SearchCompiler.Proofs.Keys.Encoding

/-!
# Filters in documents

A tree of conditions is read from a document as it was written into it, as long as its values can
be held there: integers of 64 bits and finite decimals (`Group.ofJson?_toJson`). Each form is
refused by all the forms that are tried before it: a value is no `null` and no list, and a group has
no member `field`, which a condition must have.
-/

namespace SearchCompiler.Text

theorem insertText_of_pairwise {s : String} {texts : List String}
    (ordered : (texts ++ [s]).Pairwise (· < ·)) : insertText s texts = texts ++ [s] := by
  induction texts with
  | nil => rfl
  | cons t rest ih =>
    obtain ⟨below, ordered⟩ := List.pairwise_cons.mp ordered
    have less : t < s := below s (List.mem_append_right _ List.mem_cons_self)
    have other : s ≠ t := by
      rintro rfl
      exact String.lt_irrefl s less
    rw [insertText, if_neg (String.lt_asymm less), if_neg other, ih ordered]
    rfl

theorem TextSet.eq_of_items {s t : TextSet} (same : s.items = t.items) : s = t := by
  cases s
  cases t
  cases same
  rfl

/-- A set of texts is the set of its members. -/
theorem TextSet.ofList_items (s : TextSet) : TextSet.ofList s.items = s := by
  have general : ∀ (texts : List String) (known : TextSet),
      (known.items ++ texts).Pairwise (· < ·) →
        (texts.foldl (fun acc text => acc.insert text) known).items = known.items ++ texts := by
    intro texts
    induction texts with
    | nil => exact fun known _ => (List.append_nil _).symm
    | cons text rest ih =>
      intro known ordered
      have own : (known.items ++ [text] ++ rest).Pairwise (· < ·) := by
        rwa [List.append_assoc, List.singleton_append]
      have added : (known.insert text).items = known.items ++ [text] :=
        insertText_of_pairwise (List.pairwise_append.mp own).1
      rw [List.foldl_cons, ih _ (by rwa [added]), added, List.append_assoc, List.singleton_append]
  exact TextSet.eq_of_items (general s.items .empty s.ordered)

end SearchCompiler.Text

namespace SearchCompiler.Filter

open Json

theorem Operator.ofName?_symbol (o : Operator) : ofName? o.symbol = some o := by
  cases o <;> rfl

/-! ### Values and operands -/

/-- A value that a document can hold: an integer of 64 bits, a finite decimal, or another value. -/
def Value.Storable : Value → Prop
  | .integer n => fitsSigned64 n = true
  | .decimal x => x.isFinite = true
  | .boolean _ | .string _ => True

def Value.decimals : Value → List Float
  | .decimal x => [x]
  | _ => []

theorem Value.ofJson?_toJson {v : Value} (storable : v.Storable) : ofJson? v.toJson = some v := by
  cases v with
  | integer n => exact congrArg some (if_pos storable)
  | decimal x => exact congrArg (Option.map Value.decimal) (if_pos storable)
  | _ => rfl

theorem Value.ofMember?_toJson {o : Option Value} (storable : ∀ v ∈ o, v.Storable) :
    ofMember? (Json.orNull toJson o) = some o := by
  cases o with
  | none => rfl
  | some v =>
    have read := ofJson?_toJson (storable v rfl)
    cases v <;> exact congrArg (Option.map some) read

/-- An operand is read back. -/
theorem Operand.ofJson?_toJson {o : Operand} (storable : ∀ v ∈ o.values, v.Storable) :
    ofJson? o.toJson = some o := by
  cases o with
  | null => rfl
  | list values =>
    have read : list? Value.ofMember? (.list (values.map (orNull Value.toJson))) = some values := by
      refine list?_map fun o among => Value.ofMember?_toJson fun v same => ?_
      exact storable v (List.mem_filterMap.mpr ⟨o, among, same⟩)
    exact congrArg (Option.map Operand.list) read
  | scalar v =>
    have read := Value.ofJson?_toJson (storable v List.mem_cons_self)
    cases v <;> exact congrArg (Option.map Operand.scalar) read

theorem Value.readable_toJson {v : Value} (storable : v.Storable) : v.toJson.readable = true := by
  cases v with
  | decimal x => exact storable
  | _ => rfl

theorem Operand.readable_toJson {o : Operand} (storable : ∀ v ∈ o.values, v.Storable) :
    o.toJson.readable = true := by
  cases o with
  | null => rfl
  | list values =>
    rw [toJson, readable]
    refine readableItems_map fun o among => ?_
    cases o with
    | none => rfl
    | some v =>
      exact Value.readable_toJson (storable v (List.mem_filterMap.mpr ⟨some v, among, rfl⟩))
  | scalar v => exact Value.readable_toJson (storable v List.mem_cons_self)

/-! ### Conditions and groups -/

theorem Condition.writtenIn_toJson {c : Condition} (storable : ∀ v ∈ c.operand.values, v.Storable) :
    c.WrittenIn (membersOf c.toJson) where
  field := ⟨.text c.field, rfl, rfl⟩
  operator := ⟨.text c.operator.symbol, rfl, Operator.ofName?_symbol _⟩
  operand := .inl ⟨c.operand.toJson, rfl, Operand.ofJson?_toJson storable⟩

theorem tagsOfJson?_tags (tags : Text.TextSet) :
    tagsOfJson? (.list (tags.items.map .text)) = some tags := by
  have read : list? text? (.list (tags.items.map .text)) = some tags.items :=
    list?_map fun _ _ => rfl
  rw [tagsOfJson?, read, Option.map_some, Text.TextSet.ofList_items]

theorem givesOr_tags {parts : List (String × Json)} {tags : Text.TextSet}
    (only : valuesOf "tags" parts =
      if tags.items.isEmpty then [] else [.list (tags.items.map .text)]) :
    GivesOr parts "tags" .empty tagsOfJson? tags := by
  split at only
  · next none => exact .inr ⟨only, Text.TextSet.eq_of_items (List.isEmpty_iff.mp none)⟩
  · exact .inl ⟨_, only, tagsOfJson?_tags tags⟩

mutual

/-- The values that the conditions of a member compare with. -/
def Item.values : Item → List Value
  | .condition c => c.operand.values
  | .group _ members _ => Item.listValues members

def Item.listValues : List Item → List Value
  | [] => []
  | item :: rest => item.values ++ Item.listValues rest

end

def Group.values (g : Group) : List Value := Item.listValues g.members

/-- The parts of a group as they are written. -/
theorem valuesOf_group (name : String) (conjunction : Conjunction) (members : List Item)
    (tags : Text.TextSet) :
    valuesOf name (membersOf (Item.group conjunction members tags).toJson) =
      (if "conjunction" == name then [.text conjunction.name] else []) ++
        (if "conditions" == name then [.list (Item.listToJson members)] else []) ++
        (if "tags" == name then
          if tags.items.isEmpty then [] else [.list (tags.items.map .text)] else []) := by
  rw [Item.toJson, membersOf, valuesOf_append, tagsMember, valuesOf_listMember, valuesOf_cons,
    valuesOf_cons]
  congr 1
  split <;> split <;> rfl

/-- A group is written in an object if its members are read as they are. -/
theorem Group.writtenIn_toJson {g : Group}
    (members : list? Item.ofJson? (.list (Item.listToJson g.members)) = some g.members) :
    g.WrittenIn (membersOf g.toJson) where
  conjunction := .inl ⟨.text g.conjunction.name, valuesOf_group _ _ _ _, Conjunction.ofName?_name _⟩
  members := .inl ⟨.list (Item.listToJson g.members), valuesOf_group _ _ _ _, members⟩
  tags := givesOr_tags (valuesOf_group _ _ _ _)

theorem readableMembers_tags (tags : Text.TextSet) : readableMembers (tagsMember tags) = true := by
  unfold tagsMember listMember
  split
  · rfl
  · rw [readableMembers, readable, readableItems_map fun _ _ => rfl]
    rfl

/-- What is not written as a condition has no field. -/
theorem not_condition_writtenIn_group (conjunction : Conjunction) (members : List Item)
    (tags : Text.TextSet) (c : Condition) :
    ¬ c.WrittenIn (membersOf (Item.group conjunction members tags).toJson) := by
  rintro ⟨⟨value, only, -⟩, -, -⟩
  rw [valuesOf_group] at only
  cases only

mutual

theorem Item.readable_toJson (i : Item) (storable : ∀ v ∈ i.values, v.Storable) :
    i.toJson.readable = true := by
  cases i with
  | condition c =>
    rw [Item.values] at storable
    rw [Item.toJson, Condition.toJson, readable]
    simp only [readableMembers, readable, Bool.true_and, Bool.and_true]
    exact Operand.readable_toJson storable
  | group conjunction members tags =>
    rw [Item.values] at storable
    rw [Item.toJson, readable, readableMembers_append, readableMembers_tags]
    simp only [readableMembers, readable, Bool.true_and, Bool.and_true]
    exact Item.readableItems_listToJson members storable

theorem Item.readableItems_listToJson (is : List Item)
    (storable : ∀ v ∈ listValues is, v.Storable) : readableItems (listToJson is) = true := by
  cases is with
  | nil => rfl
  | cons i rest =>
    rw [listValues, List.forall_mem_append] at storable
    rw [listToJson, readableItems, Item.readable_toJson i storable.1,
      Item.readableItems_listToJson rest storable.2]
    rfl

end

mutual

/-- A member of a group is read as it was written. -/
theorem Item.ofJson?_toJson (i : Item) (storable : ∀ v ∈ i.values, v.Storable) :
    Item.ofJson? i.toJson = some i := by
  have readable := i.readable_toJson storable
  cases i with
  | condition c =>
    rw [Item.values] at storable
    exact Item.ofJson?_object.mpr
      ⟨readable, .inl ⟨c, Condition.writtenIn_toJson storable, rfl⟩⟩
  | group conjunction members tags =>
    rw [Item.values] at storable
    have inside := Item.list?_listToJson members storable
    exact Item.ofJson?_object.mpr ⟨readable, .inr
      ⟨not_condition_writtenIn_group conjunction members tags, ⟨conjunction, members, tags⟩,
        Group.writtenIn_toJson (g := ⟨conjunction, members, tags⟩) inside, rfl⟩⟩

/-- A list of members is read back. -/
theorem Item.list?_listToJson (is : List Item) (storable : ∀ v ∈ listValues is, v.Storable) :
    list? Item.ofJson? (.list (listToJson is)) = some is := by
  cases is with
  | nil => rfl
  | cons i rest =>
    rw [listValues, List.forall_mem_append] at storable
    have others := Item.list?_listToJson rest storable.2
    rw [list?] at others
    rw [list?, listToJson, List.mapM_cons, Item.ofJson?_toJson i storable.1, others]
    rfl

end

/-- A group of conditions is read as it was written. -/
theorem Group.ofJson?_toJson {g : Group} (storable : ∀ v ∈ g.values, v.Storable) :
    Group.ofJson? g.toJson = some g :=
  Group.ofJson?_object.mpr
    (Group.writtenIn_toJson (Item.list?_listToJson g.members storable))

/-! ### Groups in the text of a document -/

theorem Value.writable_toJson {v : Value} (storable : v.Storable)
    (digits : ∀ x ∈ v.decimals, ReadsBack x) : v.toJson.Writable := by
  cases v with
  | integer n =>
    simp only [Storable, fitsSigned64, Bool.and_eq_true, decide_eq_true_eq] at storable
    simp only [toJson, Json.Writable, fits64, Bool.and_eq_true, decide_eq_true_eq]
    omega
  | decimal x => exact digits x List.mem_cons_self
  | _ => trivial

theorem Operand.writable_toJson {o : Operand} (each : ∀ v ∈ o.values, v.toJson.Writable) :
    o.toJson.Writable := by
  cases o with
  | null => trivial
  | list values =>
    refine writableItems_map fun o among => ?_
    cases o with
    | none => trivial
    | some v => exact each v (List.mem_filterMap.mpr ⟨some v, among, rfl⟩)
  | scalar v => exact each v List.mem_cons_self

mutual

theorem Item.writable_toJson (i : Item) (each : ∀ v ∈ i.values, v.toJson.Writable) :
    i.toJson.Writable := by
  cases i with
  | condition c =>
    rw [Item.values] at each
    exact ⟨trivial, trivial, Operand.writable_toJson each, trivial⟩
  | group conjunction members tags =>
    rw [Item.values] at each
    rw [Item.toJson, Json.Writable, tagsMember]
    exact ⟨trivial, Item.writableItems_listToJson members each,
      writableMembers_listMember "tags" fun _ _ => trivial⟩

theorem Item.writableItems_listToJson (is : List Item)
    (each : ∀ v ∈ listValues is, v.toJson.Writable) : WritableItems (listToJson is) := by
  cases is with
  | nil => trivial
  | cons i rest =>
    rw [listValues, List.forall_mem_append] at each
    exact ⟨Item.writable_toJson i each.1, Item.writableItems_listToJson rest each.2⟩

end

theorem readableItems_of_list? {items : List Json} {is : List Item}
    (read : list? Item.ofJson? (.list items) = some is) : readableItems items = true := by
  rw [list?] at read
  induction items generalizing is with
  | nil => rfl
  | cons item rest ih =>
    rw [List.mapM_cons] at read
    simp only [bind, pure, Option.bind_eq_some_iff, Option.some.injEq] at read
    obtain ⟨i, here, others, all, -⟩ := read
    rw [readableItems, Item.readable_of_ofJson? here, ih all]
    rfl

theorem Group.depth_toJson_le (g : Group) :
    g.toJson.depth ≤ depthItems (Item.listToJson g.members) + 2 := by
  have tags : depthMembers (tagsMember g.tags) ≤ 1 :=
    depthMembers_listMember_le "tags" fun _ _ => Nat.le_refl 0
  unfold Group.toJson Group.toItem
  rw [Item.toJson, depth, depthMembers_append]
  simp only [depthMembers, depth]
  omega

/-- A group that is nested too deeply is not read at all. -/
theorem Group.ofJson?_cut {g : Group} {levels : Nat} (flat : 2 ≤ levels)
    (deep : levels < g.toJson.depth) : Group.ofJson? (g.toJson.cut levels) = none := by
  have inner : levels - 2 < depthItems (Item.listToJson g.members) := by
    have bound := g.depth_toJson_le
    omega
  have parts : g.toJson.cut levels =
      .object (cutMembers (levels - 1) (membersOf g.toJson)) :=
    if_neg (by omega)
  have members : valuesOf "conditions" (cutMembers (levels - 1) (membersOf g.toJson)) =
      [.list (cutItems (levels - 2) (Item.listToJson g.members))] := by
    have written : valuesOf "conditions" (membersOf g.toJson) =
        [.list (Item.listToJson g.members)] :=
      valuesOf_group "conditions" g.conjunction g.members g.tags
    rw [valuesOf_cutMembers, written, List.map_singleton, cut, if_neg (by omega)]
    rfl
  rw [parts, Option.eq_none_iff_forall_ne_some]
  intro g' read
  obtain ⟨-, written, -⟩ := Group.ofJson?_object.mp read
  rcases written with ⟨value, only, read⟩ | ⟨none, -⟩
  · cases members.symm.trans only
    have readable := readableItems_of_list? read
    rw [readableItems_cut inner] at readable
    cases readable
  · rw [members] at none
    cases none

/-! ### Locations -/

def Circle.numbers (c : Circle) : List Float := [c.latitude, c.longitude, c.kilometers]

theorem LocationFilter.ofJson?_toJson {l : LocationFilter}
    (finite : ∀ x ∈ l.circle.numbers, x.isFinite = true) : ofJson? l.toJson = some l := by
  have number {x : Float} (among : x ∈ l.circle.numbers) : real? (.real x) = some x :=
    if_pos (finite x among)
  change ((real? (.real l.circle.latitude)).bind fun lat =>
    (real? (.real l.circle.longitude)).bind fun lon =>
      (real? (.real l.circle.kilometers)).bind fun km =>
        some (LocationFilter.mk l.field ⟨lat, lon, km⟩)) = _
  rw [number (by simp [Circle.numbers]), number (by simp [Circle.numbers]),
    number (by simp [Circle.numbers])]
  rfl

theorem LocationFilter.writable_toJson {l : LocationFilter}
    (digits : ∀ x ∈ l.circle.numbers, ReadsBack x) : l.toJson.Writable := by
  simp only [Circle.numbers, List.forall_mem_cons] at digits
  exact ⟨trivial, digits.1, digits.2.1, digits.2.2.1, trivial⟩

end SearchCompiler.Filter
