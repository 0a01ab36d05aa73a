import SearchCompiler.Json.Record

/-!
# Members of records

What a record written as an object gives for a name: its one member of that name, or the default
where there is none. A name that is repeated gives nothing. The members of a record are smaller than
the record, and can be read where it can.
-/

namespace SearchCompiler

/-- A list that is read item by item is read as a whole if each item is. -/
theorem mapM_map_of_forall {α β γ : Type} {read : β → Option γ} {write : α → β} {whole : α → γ}
    {items : List α} (each : ∀ a ∈ items, read (write a) = some (whole a)) :
    (items.map write).mapM read = some (items.map whole) := by
  induction items with
  | nil => rfl
  | cons a rest ih =>
    rw [List.forall_mem_cons] at each
    rw [List.map_cons, List.mapM_cons, each.1, ih each.2]
    rfl

namespace Json

variable {α : Type}

/-- Every item of a list that is read has its place in what is read. -/
theorem list?_getElem? {decode : Json → Option α} {items : List Json} {xs : List α}
    (read : list? decode (.list items) = some xs) {n : Nat} {item : Json}
    (found : items[n]? = some item) : ∃ x, xs[n]? = some x ∧ decode item = some x := by
  rw [list?] at read
  induction items generalizing xs n with
  | nil => cases found
  | cons first rest ih =>
    rw [List.mapM_cons] at read
    simp only [bind, pure, Option.bind_eq_some_iff, Option.some.injEq] at read
    obtain ⟨x, here, others, all, rfl⟩ := read
    cases n with
    | zero =>
      cases found
      exact ⟨x, rfl, here⟩
    | succ n => exact ih all found

/-- Lists are read alike where their items are. -/
theorem list?_congr {decode decode' : Json → Option α} {items : List Json}
    (each : ∀ item ∈ items, decode item = decode' item) :
    list? decode (.list items) = list? decode' (.list items) := by
  rw [list?, list?]
  induction items with
  | nil => rfl
  | cons item rest ih =>
    rw [List.forall_mem_cons] at each
    rw [List.mapM_cons, List.mapM_cons, each.1, ih each.2]

/-- The values of all members of a name. -/
def valuesOf (name : String) (members : List (String × Json)) : List Json :=
  (members.filter fun m => m.1 == name).map Prod.snd

theorem lookup_eq_head? (name : String) (members : List (String × Json)) :
    members.lookup name = (valuesOf name members).head? := by
  induction members with
  | nil => rfl
  | cons m rest ih =>
    obtain ⟨other, value⟩ := m
    rw [List.lookup_cons, valuesOf, List.filter_cons, BEq.comm]
    cases other == name with
    | true => rfl
    | false => exact ih

theorem repeats_eq_false_iff {name : String} {members : List (String × Json)} :
    repeats name members = false ↔ (valuesOf name members).length ≤ 1 := by
  rw [repeats, valuesOf, List.length_map, decide_eq_false_iff_not, Nat.not_lt]

/-- A member is there once and is read as `a`. -/
def Gives (members : List (String × Json)) (name : String) (decode : Json → Option α) (a : α) :
    Prop :=
  ∃ value, valuesOf name members = [value] ∧ decode value = some a

/-- A member is there once and is read as `a`, or is not there and `a` is the default. -/
def GivesOr (members : List (String × Json)) (name : String) (default : α)
    (decode : Json → Option α) (a : α) : Prop :=
  Gives members name decode a ∨ valuesOf name members = [] ∧ a = default

section Object

variable {members : List (String × Json)} {name : String} {decode : Json → Option α} {a : α}

theorem Gives.once (gives : Gives members name decode a) : (valuesOf name members).length ≤ 1 := by
  obtain ⟨value, only, -⟩ := gives
  rw [only]
  exact Nat.le_refl 1

theorem GivesOr.once {default : α} (gives : GivesOr members name default decode a) :
    (valuesOf name members).length ≤ 1 := by
  rcases gives with gives | ⟨none, -⟩
  · exact gives.once
  · rw [none]
    exact Nat.zero_le 1

theorem required_eq_some_iff (once : (valuesOf name members).length ≤ 1) :
    (Record.mk members).required name decode = some a ↔ Gives members name decode a := by
  rw [Record.required, Record.get?, lookup_eq_head?, Gives]
  match valuesOf name members, once with
  | [], _ => simp
  | [value], _ => simp

/-- A member with a default is read iff it is there and readable, or is not there. -/
theorem withDefault_eq_some_iff {default : α} (once : (valuesOf name members).length ≤ 1) :
    (Record.mk members).withDefault name default decode = some a ↔
      GivesOr members name default decode a := by
  rw [Record.withDefault, Record.get?, lookup_eq_head?, GivesOr, Gives]
  match valuesOf name members, once with
  | [], _ => simp [eq_comm]
  | [value], _ => simp

theorem Gives.required (gives : Gives members name decode a) :
    (Record.mk members).required name decode = some a :=
  (required_eq_some_iff gives.once).mpr gives

theorem GivesOr.withDefault {default : α} (gives : GivesOr members name default decode a) :
    (Record.mk members).withDefault name default decode = some a :=
  (withDefault_eq_some_iff gives.once).mpr gives

/-- An object is a record unless one of the known names is repeated. -/
theorem record?_object_eq_some_iff {names : List String} {r : Record} :
    record? names (.object members) = some r ↔
      (∀ name ∈ names, (valuesOf name members).length ≤ 1) ∧ r = ⟨members⟩ := by
  simp only [← repeats_eq_false_iff]
  rw [record?]
  split
  · next repeated =>
    rw [List.any_eq_true] at repeated
    obtain ⟨name, among, twice⟩ := repeated
    refine ⟨nofun, fun ⟨once, _⟩ => ?_⟩
    rw [once name among] at twice
    cases twice
  · next single =>
    rw [Bool.not_eq_true, List.any_eq_false] at single
    have once : ∀ name ∈ names, repeats name members = false := by
      intro name among
      exact Bool.not_eq_true _ ▸ single name among
    exact ⟨fun same => ⟨once, (Option.some.inj same).symm⟩, fun ⟨_, same⟩ => same ▸ rfl⟩

end Object

theorem readable_of_mem {items : List Json} (readable : readableItems items = true) {item : Json}
    (member : item ∈ items) : item.readable = true := by
  induction items with
  | nil => cases member
  | cons first rest ih =>
    rw [readableItems, Bool.and_eq_true] at readable
    rcases List.mem_cons.mp member with rfl | later
    · exact readable.1
    · exact ih readable.2 later

theorem readable_of_mem_members {members : List (String × Json)}
    (readable : readableMembers members = true) {name : String} {value : Json}
    (member : (name, value) ∈ members) : value.readable = true := by
  induction members with
  | nil => cases member
  | cons first rest ih =>
    obtain ⟨other, first⟩ := first
    rw [readableMembers, Bool.and_eq_true] at readable
    rcases List.mem_cons.mp member with same | later
    · cases same
      exact readable.1
    · exact ih readable.2 later

theorem depth_le_of_mem {items : List Json} {item : Json} (member : item ∈ items) :
    item.depth ≤ depthItems items := by
  induction items with
  | nil => cases member
  | cons first rest ih =>
    rw [depthItems]
    rcases List.mem_cons.mp member with rfl | later
    · exact Nat.le_max_left _ _
    · exact Nat.le_trans (ih later) (Nat.le_max_right _ _)

theorem depth_le_of_mem_members {members : List (String × Json)} {name : String} {value : Json}
    (member : (name, value) ∈ members) : value.depth ≤ depthMembers members := by
  induction members with
  | nil => cases member
  | cons first rest ih =>
    obtain ⟨other, first⟩ := first
    rw [depthMembers]
    rcases List.mem_cons.mp member with same | later
    · cases same
      exact Nat.le_max_left _ _
    · exact Nat.le_trans (ih later) (Nat.le_max_right _ _)

theorem mem_of_lookup {members : List (String × Json)} {name : String} {value : Json}
    (found : members.lookup name = some value) : (name, value) ∈ members := by
  rw [lookup_eq_head?] at found
  have among := List.mem_of_mem_head? found
  rw [valuesOf, List.mem_map] at among
  obtain ⟨⟨other, same⟩, kept, rfl⟩ := among
  rw [List.mem_filter, beq_iff_eq] at kept
  obtain ⟨inside, rfl⟩ := kept
  exact inside

section Record

variable {names : List String} {v value : Json} {r : Record} {name : String}

/-- A member of a readable value is readable. -/
theorem readable_of_get? (read : v.record? names = some r) (found : r.get? name = some value)
    (readable : v.readable = true) : value.readable = true := by
  have inside := mem_of_lookup found
  cases v with
  | object members =>
    rw [(record?_object_eq_some_iff.mp read).2] at inside
    exact readable_of_mem_members readable inside
  | list items =>
    rw [record?] at read
    split at read
    · cases read
    · cases read
      exact readable_of_mem readable (List.of_mem_zip inside).2
  | _ => cases read

/-- A member is nested in its value. -/
theorem depth_lt_of_get? (read : v.record? names = some r) (found : r.get? name = some value) :
    value.depth < v.depth := by
  have inside := mem_of_lookup found
  cases v with
  | object members =>
    rw [(record?_object_eq_some_iff.mp read).2] at inside
    exact Nat.lt_succ_of_le (depth_le_of_mem_members inside)
  | list items =>
    rw [record?] at read
    split at read
    · cases read
    · cases read
      exact Nat.lt_succ_of_le (depth_le_of_mem (List.of_mem_zip inside).2)
  | _ => cases read

end Record

/-! ### Members as they are written -/

def membersOf : Json → List (String × Json)
  | .object members => members
  | _ => []

@[simp] theorem membersOf_object (members : List (String × Json)) :
    membersOf (.object members) = members := rfl

@[simp] theorem valuesOf_nil (name : String) : valuesOf name [] = [] := rfl

@[simp] theorem valuesOf_cons (name other : String) (value : Json)
    (members : List (String × Json)) :
    valuesOf name ((other, value) :: members) =
      if other == name then value :: valuesOf name members else valuesOf name members := by
  rw [valuesOf, List.filter_cons]
  split <;> rfl

@[simp] theorem valuesOf_append (name : String) (members others : List (String × Json)) :
    valuesOf name (members ++ others) = valuesOf name members ++ valuesOf name others := by
  rw [valuesOf, List.filter_append, List.map_append]
  rfl

@[simp] theorem valuesOf_member? (name other : String) (encode : α → Json) (o : Option α) :
    valuesOf name (member? other encode o) =
      if other == name then (o.map encode).toList else [] := by
  cases o with
  | none => exact (ite_self _).symm
  | some a => exact valuesOf_cons name other (encode a) []

@[simp] theorem valuesOf_listMember (name other : String) (encode : α → Json) (items : List α) :
    valuesOf name (listMember other encode items) =
      if other == name then if items.isEmpty then [] else [.list (items.map encode)] else [] := by
  cases items with
  | nil => exact (ite_self _).symm
  | cons a rest => exact valuesOf_cons name other _ []

theorem list?_map {encode : α → Json} {decode : Json → Option α} {items : List α}
    (back : ∀ a ∈ items, decode (encode a) = some a) :
    list? decode (.list (items.map encode)) = some items := by
  rw [list?, mapM_map_of_forall back, List.map_id']

theorem readableItems_map {encode : α → Json} {items : List α}
    (each : ∀ a ∈ items, (encode a).readable = true) :
    readableItems (items.map encode) = true := by
  induction items with
  | nil => rfl
  | cons a rest ih =>
    rw [List.forall_mem_cons] at each
    rw [List.map_cons, readableItems, each.1, ih each.2]
    rfl

theorem readableMembers_append (members others : List (String × Json)) :
    readableMembers (members ++ others) = (readableMembers members && readableMembers others) := by
  induction members with
  | nil => rfl
  | cons m rest ih =>
    obtain ⟨name, value⟩ := m
    rw [List.cons_append, readableMembers, readableMembers, ih, Bool.and_assoc]

/-! ### Members with distinct names -/

/-- The names of members are among the given ones, in their order. -/
def NamesWithin (names : List String) (members : List (String × Json)) : Prop :=
  (members.map Prod.fst).Sublist names

section NamesWithin

variable {names names' : List String} {members others : List (String × Json)}

theorem NamesWithin.append (left : NamesWithin names members) (right : NamesWithin names' others) :
    NamesWithin (names ++ names') (members ++ others) := by
  rw [NamesWithin, List.map_append]
  exact List.Sublist.append left right

theorem namesWithin_self (members : List (String × Json)) :
    NamesWithin (members.map Prod.fst) members :=
  List.Sublist.refl _

theorem namesWithin_member? (name : String) (encode : α → Json) (o : Option α) :
    NamesWithin [name] (member? name encode o) := by
  cases o with
  | none => exact List.nil_sublist _
  | some a => exact List.Sublist.refl _

theorem namesWithin_listMember (name : String) (encode : α → Json) (items : List α) :
    NamesWithin [name] (listMember name encode items) := by
  cases items with
  | nil => exact List.nil_sublist _
  | cons a rest => exact List.Sublist.refl _

theorem length_valuesOf (name : String) (members : List (String × Json)) :
    (valuesOf name members).length = (members.map Prod.fst).count name := by
  rw [valuesOf, List.length_map, List.count, List.countP_map, List.countP_eq_length_filter]
  rfl

/-- Members with distinct names are a record. -/
theorem NamesWithin.record? (within : NamesWithin names members) (distinct : names.Nodup) :
    record? names (.object members) = some ⟨members⟩ := by
  refine record?_object_eq_some_iff.mpr ⟨fun name _ => ?_, rfl⟩
  rw [length_valuesOf]
  exact Nat.le_trans (within.count_le name) (List.nodup_iff_count.mp distinct name)

end NamesWithin

section Written

variable {members : List (String × Json)} {name : String}

theorem optional_of_member {decode : Json → Option α} {value : Json}
    (only : valuesOf name members = [value]) (shown : value ≠ .null) :
    (Record.mk members).optional name decode = (decode value).map some := by
  rw [Record.optional, Record.get?, lookup_eq_head?, only, List.head?_cons]
  split
  · next null => exact absurd (Option.some.inj null) shown
  · next same =>
    cases same
    rfl
  · next missing => cases missing

/-- A member that is left out when there is no value is read as it was written. -/
theorem optional_of_written (decode : Json → Option α) {encode : α → Json} {o : Option α}
    (only : valuesOf name members = (o.map encode).toList) (shown : ∀ a, encode a ≠ .null)
    (back : ∀ a ∈ o, decode (encode a) = some a) :
    (Record.mk members).optional name decode = some o := by
  cases o with
  | none =>
    rw [Record.optional, Record.get?, lookup_eq_head?, only]
    rfl
  | some a =>
    rw [optional_of_member only (shown a), back a rfl]
    rfl

/-- A list that is left out when it is empty is read as it was written. -/
theorem givesOr_of_written (encode : α → Json) {decode : Json → Option α} {items : List α}
    (only : valuesOf name members = if items.isEmpty then [] else [.list (items.map encode)])
    (back : ∀ a ∈ items, decode (encode a) = some a) :
    GivesOr members name [] (list? decode) items := by
  cases items with
  | nil => exact .inr ⟨only, rfl⟩
  | cons a rest => exact .inl ⟨_, only, list?_map back⟩

end Written

end Json

end SearchCompiler
