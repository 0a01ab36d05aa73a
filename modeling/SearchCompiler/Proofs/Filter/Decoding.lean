import SearchCompiler.Filter.Encoding
import SearchCompiler.Proofs.Json.Record

/-!
# Reading filters

A member of a group is read by its own form alone, on whatever level it stands: as a condition if it
is one, otherwise as a group (`Item.ofJson?_eq`). What the members of an object have to be for that
is said apart from the reader (`Condition.WrittenIn`, `Group.WrittenIn`).

A place in a tree of conditions is a number for each level. What is read at a place is what the
value written there is read as (`Group.at?_of_written`), so a value that cannot be read at all makes
the whole tree unreadable.
-/

namespace SearchCompiler.Filter

open Json

/-- The members of a group, as they are written. -/
def writtenMembers (value : Json) : List Json :=
  match (value.record? ["conjunction", "conditions", "tags"]).bind (·.get? "conditions") with
  | some (.list items) => items
  | _ => []

section WrittenMembers

variable {value item : Json}

/-- A member that is written in a group is an item of its conditions. -/
theorem get?_of_mem_writtenMembers (member : item ∈ writtenMembers value) :
    ∃ r items, value.record? ["conjunction", "conditions", "tags"] = some r ∧
      r.get? "conditions" = some (.list items) ∧ item ∈ items := by
  rw [writtenMembers] at member
  split at member
  · next items found =>
    obtain ⟨r, read, found⟩ := Option.bind_eq_some_iff.mp found
    exact ⟨r, items, read, found, member⟩
  · cases member

theorem readable_of_mem_writtenMembers (member : item ∈ writtenMembers value)
    (readable : value.readable = true) : item.readable = true := by
  obtain ⟨r, items, read, found, inside⟩ := get?_of_mem_writtenMembers member
  exact readable_of_mem (readable_of_get? read found readable) inside

theorem depth_lt_of_mem_writtenMembers (member : item ∈ writtenMembers value) :
    item.depth < value.depth := by
  obtain ⟨r, items, read, found, inside⟩ := get?_of_mem_writtenMembers member
  exact Nat.lt_of_le_of_lt (depth_le_of_mem inside)
    (Nat.lt_of_succ_lt (depth_lt_of_get? read found))

/-- How members are read matters for the written members only. -/
theorem Group.ofJsonWith?_congr {decode decode' : Json → Option Item}
    (each : ∀ item ∈ writtenMembers value, decode item = decode' item) :
    Group.ofJsonWith? decode value = Group.ofJsonWith? decode' value := by
  unfold Group.ofJsonWith?
  cases read : value.record? ["conjunction", "conditions", "tags"] with
  | none => rfl
  | some r =>
    have members : r.withDefault "conditions" [] (list? decode) =
        r.withDefault "conditions" [] (list? decode') := by
      rw [writtenMembers, read, Option.bind_some] at each
      unfold Record.withDefault
      cases found : r.get? "conditions" with
      | none => rfl
      | some written =>
        cases written with
        | list items =>
          rw [found] at each
          exact list?_congr each
        | _ => rfl
    dsimp only [bind, Option.bind_some]
    rw [members]

/-- The members of a group are read one by one. -/
theorem Group.members_of_ofJsonWith? {decode : Json → Option Item} {g : Group}
    (read : Group.ofJsonWith? decode value = some g) :
    list? decode (.list (writtenMembers value)) = some g.members := by
  simp only [Group.ofJsonWith?, bind, pure, Option.bind_eq_some_iff, Option.some.injEq] at read
  obtain ⟨r, record, conjunction, -, members, inside, tags, -, rfl⟩ := read
  rw [writtenMembers, record, Option.bind_some]
  rw [Record.withDefault] at inside
  cases found : r.get? "conditions" with
  | none =>
    rw [found] at inside
    cases inside
    rfl
  | some written =>
    rw [found] at inside
    cases written with
    | list items => exact inside
    | _ => cases inside

end WrittenMembers

namespace Item

/-- A value without members and items is neither a condition nor a group. -/
theorem ofJsonWithin_of_depth_zero {value : Json} (flat : value.depth = 0) (fuel : Nat) :
    ofJsonWithin fuel value = none := by
  cases value with
  | object members => cases flat
  | list items => cases flat
  | _ => cases fuel <;> rfl

/-- Reading does not depend on the number of levels as long as there are enough. -/
theorem ofJsonWithin_stable {m n : Nat} {value : Json} (enough : value.depth ≤ m)
    (enough' : value.depth ≤ n) : ofJsonWithin m value = ofJsonWithin n value := by
  induction m generalizing n value with
  | zero =>
    have flat := Nat.le_zero.mp enough
    rw [ofJsonWithin_of_depth_zero flat, ofJsonWithin_of_depth_zero flat]
  | succ m ih =>
    cases n with
    | zero =>
      have flat := Nat.le_zero.mp enough'
      rw [ofJsonWithin_of_depth_zero flat, ofJsonWithin_of_depth_zero flat]
    | succ n =>
      have below : ∀ item ∈ writtenMembers value, ofJsonWithin m item = ofJsonWithin n item := by
        intro item member
        have smaller := depth_lt_of_mem_writtenMembers member
        exact ih (Nat.le_of_lt_succ (Nat.lt_of_lt_of_le smaller enough))
          (Nat.le_of_lt_succ (Nat.lt_of_lt_of_le smaller enough'))
      rw [ofJsonWithin, ofJsonWithin, Group.ofJsonWith?_congr below]

theorem readable_of_ofJson? {value : Json} {item : Item} (read : ofJson? value = some item) :
    value.readable = true := by
  rw [ofJson?] at read
  split at read
  · assumption
  · cases read

/-- A value that can be read is read as a condition if it is one, and otherwise as a group. -/
theorem ofJson?_eq {value : Json} (readable : value.readable = true) :
    ofJson? value = match Condition.ofJson? value with
      | some c => some (.condition c)
      | none => (Group.ofJson? value).map Group.toItem := by
  have below : ∀ item ∈ writtenMembers value,
      ofJsonWithin value.depth item = ofJson? item := by
    intro item member
    rw [ofJson?, if_pos (readable_of_mem_writtenMembers member readable)]
    exact ofJsonWithin_stable (Nat.le_of_lt (depth_lt_of_mem_writtenMembers member)) (Nat.le_refl _)
  rw [ofJson?, if_pos readable, ofJsonWithin_stable (Nat.le_refl _) (Nat.le_succ value.depth),
    Group.ofJson?, ← Group.ofJsonWith?_congr below]
  rfl

end Item

/-- The members of an object give the parts of a condition. -/
structure Condition.WrittenIn (parts : List (String × Json)) (c : Condition) : Prop where
  field : Gives parts "field" text? c.field
  operator : Gives parts "operator" (case? Operator.ofName?) c.operator
  operand : GivesOr parts "value" .null Operand.ofJson? c.operand

structure Group.WrittenIn (parts : List (String × Json)) (g : Group) : Prop where
  conjunction : GivesOr parts "conjunction" .and (case? Conjunction.ofName?) g.conjunction
  members : GivesOr parts "conditions" [] (list? Item.ofJson?) g.members
  tags : GivesOr parts "tags" .empty tagsOfJson? g.tags

section Object

variable {parts : List (String × Json)}

/-- A condition is read of an object iff the members give its parts. -/
theorem Condition.ofJson?_object {c : Condition} :
    Condition.ofJson? (.object parts) = some c ↔ c.WrittenIn parts := by
  simp only [Condition.ofJson?, bind, pure, Option.bind_eq_some_iff, Option.some.injEq]
  constructor
  · rintro ⟨r, record, field, hasField, operator, hasOperator, operand, hasOperand, rfl⟩
    obtain ⟨once, rfl⟩ := record?_object_eq_some_iff.mp record
    simp only [List.forall_mem_cons] at once
    exact ⟨(required_eq_some_iff once.1).mp hasField,
      (required_eq_some_iff once.2.1).mp hasOperator,
      (withDefault_eq_some_iff once.2.2.1).mp hasOperand⟩
  · rintro ⟨field, operator, operand⟩
    refine ⟨⟨parts⟩, record?_object_eq_some_iff.mpr ⟨?_, rfl⟩,
      c.field, (required_eq_some_iff field.once).mpr field,
      c.operator, (required_eq_some_iff operator.once).mpr operator,
      c.operand, (withDefault_eq_some_iff operand.once).mpr operand, rfl⟩
    simp [field.once, operator.once, operand.once]

theorem Group.ofJson?_object {g : Group} :
    Group.ofJson? (.object parts) = some g ↔ g.WrittenIn parts := by
  simp only [Group.ofJson?, Group.ofJsonWith?, bind, pure, Option.bind_eq_some_iff,
    Option.some.injEq]
  constructor
  · rintro ⟨r, record, conjunction, hasConjunction, items, hasItems, tags, hasTags, rfl⟩
    obtain ⟨once, rfl⟩ := record?_object_eq_some_iff.mp record
    simp only [List.forall_mem_cons] at once
    exact ⟨(withDefault_eq_some_iff once.1).mp hasConjunction,
      (withDefault_eq_some_iff once.2.1).mp hasItems,
      (withDefault_eq_some_iff once.2.2.1).mp hasTags⟩
  · rintro ⟨conjunction, items, tags⟩
    refine ⟨⟨parts⟩, record?_object_eq_some_iff.mpr ⟨?_, rfl⟩,
      g.conjunction, (withDefault_eq_some_iff conjunction.once).mpr conjunction,
      g.members, (withDefault_eq_some_iff items.once).mpr items,
      g.tags, (withDefault_eq_some_iff tags.once).mpr tags, rfl⟩
    simp [conjunction.once, items.once, tags.once]

/-- What an object is read as: the condition that is written in it, or else the group. -/
theorem Item.ofJson?_object {item : Item} :
    Item.ofJson? (.object parts) = some item ↔
      (Json.object parts).readable = true ∧
        ((∃ c, c.WrittenIn parts ∧ item = .condition c) ∨
          (∀ c, ¬ Condition.WrittenIn parts c) ∧
            ∃ g, Group.WrittenIn parts g ∧ item = g.toItem) := by
  constructor
  · intro read
    have readable := readable_of_ofJson? read
    refine ⟨readable, ?_⟩
    rw [ofJson?_eq readable] at read
    split at read
    · next c found =>
      cases read
      exact .inl ⟨c, Condition.ofJson?_object.mp found, rfl⟩
    · next missing =>
      obtain ⟨g, found, rfl⟩ := Option.map_eq_some_iff.mp read
      refine .inr ⟨fun c written => ?_, g, Group.ofJson?_object.mp found, rfl⟩
      rw [Condition.ofJson?_object.mpr written] at missing
      cases missing
  · rintro ⟨readable, ⟨c, written, rfl⟩ | ⟨missing, g, written, rfl⟩⟩
    · rw [ofJson?_eq readable, Condition.ofJson?_object.mpr written]
    · have none : Condition.ofJson? (.object parts) = none := by
        rw [Option.eq_none_iff_forall_ne_some]
        exact fun c found => missing c (Condition.ofJson?_object.mp found)
      rw [ofJson?_eq readable, none, Group.ofJson?_object.mpr written]
      rfl

end Object

/-- The value written at a place below a member of a group. There are no places below a
condition. -/
def writtenBelow? : Json → List Nat → Option Json
  | value, [] => some value
  | value, n :: path =>
    if (Condition.ofJson? value).isSome then none
    else (writtenMembers value)[n]?.bind (writtenBelow? · path)

/-- The value written at a place in a group: the number of a member, and a place below it. -/
def writtenAt? (group : Json) (n : Nat) (path : List Nat) : Option Json :=
  (writtenMembers group)[n]?.bind (writtenBelow? · path)

/-- What is at a place below a member of a group. -/
def Item.below? : Item → List Nat → Option Item
  | item, [] => some item
  | .condition _, _ :: _ => none
  | .group _ members _, n :: path => members[n]?.bind (below? · path)

def Group.at? (g : Group) (n : Nat) (path : List Nat) : Option Item :=
  g.members[n]?.bind (·.below? path)

/-- What is written at a place is read as what is at that place. -/
theorem Item.below?_of_written {value written : Json} {item : Item} {path : List Nat}
    (read : Item.ofJson? value = some item) (found : writtenBelow? value path = some written) :
    ∃ i, item.below? path = some i ∧ Item.ofJson? written = some i := by
  induction path generalizing value item with
  | nil =>
    cases found
    exact ⟨item, by cases item <;> rfl, read⟩
  | cons n path ih =>
    rw [writtenBelow?] at found
    split at found
    · cases found
    next group =>
    obtain ⟨next, member, found⟩ := Option.bind_eq_some_iff.mp found
    rw [ofJson?_eq (readable_of_ofJson? read), Option.not_isSome_iff_eq_none.mp group] at read
    obtain ⟨g, whole, rfl⟩ := Option.map_eq_some_iff.mp read
    obtain ⟨i, inside, read⟩ := list?_getElem? (Group.members_of_ofJsonWith? whole) member
    obtain ⟨j, below, read⟩ := ih read found
    exact ⟨j, Option.bind_eq_some_iff.mpr ⟨i, inside, below⟩, read⟩

/-- A tree of conditions has at every place what the value written there is read as. -/
theorem Group.at?_of_written {value written : Json} {g : Group} {n : Nat} {path : List Nat}
    (read : Group.ofJson? value = some g) (found : writtenAt? value n path = some written) :
    ∃ i, g.at? n path = some i ∧ Item.ofJson? written = some i := by
  obtain ⟨next, member, found⟩ := Option.bind_eq_some_iff.mp found
  obtain ⟨i, inside, read⟩ := list?_getElem? (members_of_ofJsonWith? read) member
  obtain ⟨j, below, read⟩ := Item.below?_of_written read found
  exact ⟨j, Option.bind_eq_some_iff.mpr ⟨i, inside, below⟩, read⟩

end SearchCompiler.Filter
