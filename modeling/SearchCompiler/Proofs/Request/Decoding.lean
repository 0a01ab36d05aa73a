import SearchCompiler.Proofs.Filter.Decoding
import SearchCompiler.Request.Query

/-!
# Reading queries

What a query that is read has at each place of its conditions: the condition that is written there,
or a group where no condition is. An object that is meant as a condition but is none is thus not
refused: it becomes a group, whose parts all have defaults, unless it has a part of a group that
cannot be read (`conditions_kept_iff`).
-/

namespace SearchCompiler.Request.Query

open Filter

/-- The conditions of a query, as they are written. -/
def writtenConditions? (value : Json) : Option Json :=
  (value.record? memberNames).bind (·.get? "conditions")

/-- The value written at a place of the conditions of a query. -/
def writtenAt? (value : Json) (n : Nat) (path : List Nat) : Option Json :=
  (writtenConditions? value).bind (Filter.writtenAt? · n path)

/-- The conditions of a query are read of what is written as its conditions. -/
theorem filter_of_written {value written : Json} {q : Query} (read : ofJson? value = some q)
    (found : writtenConditions? value = some written) : Group.ofJson? written = some q.filter := by
  obtain ⟨r, record, member⟩ := Option.bind_eq_some_iff.mp found
  rw [ofJson?] at read
  obtain ⟨s, same, read⟩ := Option.bind_eq_some_iff.mp read
  cases record.symm.trans same
  -- The conditions are the fifth of thirteen members.
  iterate 4 obtain ⟨_, -, read⟩ := Option.bind_eq_some_iff.mp read
  obtain ⟨filter, inside, read⟩ := Option.bind_eq_some_iff.mp read
  iterate 8 obtain ⟨_, -, read⟩ := Option.bind_eq_some_iff.mp read
  cases read
  rw [Json.Record.withDefault, member] at inside
  exact inside

/-- What is at a place of the conditions of a query, if an object is written there. -/
theorem at?_of_written {value : Json} {q : Query} {n : Nat} {path : List Nat}
    {parts : List (String × Json)} (read : ofJson? value = some q)
    (found : writtenAt? value n path = some (.object parts)) :
    (Json.object parts).readable = true ∧
      ((∃ c, Condition.WrittenIn parts c ∧ q.filter.at? n path = some (.condition c)) ∨
        (∀ c, ¬ Condition.WrittenIn parts c) ∧
          ∃ g, Group.WrittenIn parts g ∧ q.filter.at? n path = some g.toItem) := by
  obtain ⟨written, conditions, found⟩ := Option.bind_eq_some_iff.mp found
  obtain ⟨item, place, read⟩ := Group.at?_of_written (filter_of_written read conditions) found
  obtain ⟨readable, ⟨c, written, rfl⟩ | ⟨missing, g, written, rfl⟩⟩ := Item.ofJson?_object.mp read
  · exact ⟨readable, .inl ⟨c, written, place⟩⟩
  · exact ⟨readable, .inr ⟨missing, g, written, place⟩⟩

/-- A query of nothing but one member among its conditions. -/
def ofMember (item : Json) : Json :=
  .object [("conditions", .object [("conditions", .list [item])])]

theorem writtenAt?_ofMember (item : Json) : writtenAt? (ofMember item) 0 [] = some item := rfl

/-- A query of one member reads as that member alone. -/
theorem ofJson?_ofMember {item : Json} {i : Item} (read : Item.ofJson? item = some i) :
    ofJson? (ofMember item) = some { empty with filter := ⟨.and, [i], .empty⟩ } := by
  have filter : Group.ofJson? (.object [("conditions", .list [item])]) =
      some ⟨.and, [i], .empty⟩ := by
    refine Group.ofJson?_object.mpr ⟨.inr ⟨rfl, rfl⟩, .inl ⟨.list [item], rfl, ?_⟩, .inr ⟨rfl, rfl⟩⟩
    rw [Json.list?, List.mapM_cons, read]
    rfl
  have whole : ofJson? (ofMember item) =
      (Group.ofJson? (.object [("conditions", .list [item])])).bind fun filter =>
        some { empty with filter } := rfl
  rw [whole, filter]
  rfl

/-- Wherever an object stands among the conditions of a query, the query has it there as the
condition that it writes, or is not read at all, iff the object writes a condition or cannot be read
as a group either. -/
theorem conditions_kept_iff (parts : List (String × Json)) :
    (∀ value n path, writtenAt? value n path = some (.object parts) →
      ofJson? value = none ∨
        ∃ q c, ofJson? value = some q ∧ q.filter.at? n path = some (.condition c) ∧
          Condition.WrittenIn parts c) ↔
      (∃ c, Condition.WrittenIn parts c) ∨
        ¬ ((Json.object parts).readable = true ∧ ∃ g, Group.WrittenIn parts g) := by
  constructor
  · intro kept
    by_cases written : ∃ c, Condition.WrittenIn parts c
    · exact .inl written
    refine .inr fun ⟨readable, g, group⟩ => ?_
    have read : Item.ofJson? (.object parts) = some g.toItem :=
      Item.ofJson?_object.mpr ⟨readable, .inr ⟨not_exists.mp written, g, group, rfl⟩⟩
    rcases kept _ 0 [] (writtenAt?_ofMember _) with failed | ⟨q, c, _, _, condition⟩
    · rw [ofJson?_ofMember read] at failed
      cases failed
    · exact written ⟨c, condition⟩
  · intro whole value n path found
    cases read : ofJson? value with
    | none => exact .inl rfl
    | some q =>
      obtain ⟨readable, ⟨c, written, place⟩ | ⟨missing, g, group, -⟩⟩ := at?_of_written read found
      · exact .inr ⟨q, c, rfl, place, written⟩
      · rcases whole with ⟨c, written⟩ | no_group
        · exact absurd written (missing c)
        · exact absurd ⟨readable, g, group⟩ no_group

/-- The members of an object with an operator that does not exist. -/
def likeParts : List (String × Json) :=
  [("field", .text "x"), ("operator", .text "LIKE"), ("value", .text "a")]

theorem likeParts_no_condition (c : Condition) : ¬ Condition.WrittenIn likeParts c := by
  rintro ⟨-, ⟨value, only, operator⟩, -⟩
  cases only
  cases operator

/-- A condition with an unknown operator becomes a group without members, and the query is read. -/
theorem unknown_operator_dropped :
    ∃ q, ofJson? (ofMember (.object likeParts)) = some q ∧
      writtenAt? (ofMember (.object likeParts)) 0 [] = some (.object likeParts) ∧
      (∃ text, (Json.Record.mk likeParts).get? "field" = some (.text text)) ∧
      q.filter.at? 0 [] = some (.group .and [] .empty) := by
  have group : Group.WrittenIn likeParts (.ofConjunction .and) :=
    ⟨.inr ⟨rfl, rfl⟩, .inr ⟨rfl, rfl⟩, .inr ⟨rfl, rfl⟩⟩
  have read : Item.ofJson? (.object likeParts) = some (Group.ofConjunction .and).toItem :=
    Item.ofJson?_object.mpr ⟨rfl, .inr ⟨likeParts_no_condition, _, group, rfl⟩⟩
  exact ⟨_, ofJson?_ofMember read, writtenAt?_ofMember _, ⟨"x", rfl⟩, rfl⟩

end SearchCompiler.Request.Query
