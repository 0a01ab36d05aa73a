import SearchCompiler.Keys.Encoding
import SearchCompiler.Proofs.Json.Layout
import SearchCompiler.Proofs.Json.Record

/-!
# Keys in documents

Keys are read from a document as they were written into it, on whatever level of nesting
(`Expression.ofJson?_toJson`).
-/

namespace SearchCompiler

open Json

theorem Conjunction.ofName?_name (c : Conjunction) : ofName? c.name = some c := by
  cases c <;> rfl

namespace Keys

theorem Mode.ofName?_name (m : Mode) : ofName? m.name = some m := by
  cases m <;> rfl

namespace Expression

theorem toJson_ne_null (e : Expression) : e.toJson ≠ .null := by
  cases e <;> exact Json.noConfusion

mutual

theorem readable_toJson (e : Expression) : e.toJson.readable = true := by
  cases e with
  | term text => rfl
  | group conjunction negated escaped children =>
    rw [toJson, readable]
    simp only [readableMembers, readable, Bool.true_and, Bool.and_true]
    exact readableItems_listToJson children

theorem readableItems_listToJson (es : List Expression) :
    readableItems (listToJson es) = true := by
  cases es with
  | nil => rfl
  | cons e rest =>
    rw [listToJson, readableItems, readable_toJson e, readableItems_listToJson rest]
    rfl

end

mutual

/-- Keys are read back from any depth that is allowed. -/
theorem ofJsonWithin_toJson (e : Expression) {fuel : Nat} (enough : e.toJson.depth ≤ fuel) :
    ofJsonWithin fuel e.toJson = some e := by
  cases e with
  | term text => cases fuel <;> rfl
  | group conjunction negated escaped children =>
    rw [toJson, depth] at enough
    simp only [depthMembers, depth, Nat.zero_max, Nat.max_zero] at enough
    obtain ⟨fuel, rfl⟩ := Nat.exists_eq_add_one_of_ne_zero (show fuel ≠ 0 by omega)
    have inside : (listToJson children).mapM (ofJsonWithin fuel) = some children :=
      mapM_listToJson children (by omega)
    rw [toJson, ofJsonWithin]
    · change ((Conjunction.ofName? conjunction.name).bind fun c =>
        ((listToJson children).mapM (ofJsonWithin fuel)).bind fun cs =>
          some (group c negated escaped cs)) = _
      rw [Conjunction.ofName?_name, inside]
      rfl
    · exact nofun

theorem mapM_listToJson (es : List Expression) {fuel : Nat}
    (enough : depthItems (listToJson es) ≤ fuel) :
    (listToJson es).mapM (ofJsonWithin fuel) = some es := by
  cases es with
  | nil => rfl
  | cons e rest =>
    rw [listToJson, depthItems] at enough
    rw [listToJson, List.mapM_cons, ofJsonWithin_toJson e (by omega),
      mapM_listToJson rest (by omega)]
    rfl

end

/-- Keys are read as they were written. -/
theorem ofJson?_toJson (e : Expression) : ofJson? e.toJson = some e := by
  rw [ofJson?, if_pos e.readable_toJson, ofJsonWithin_toJson e (Nat.le_refl _)]

/-- Keys that are nested too deeply are not read at all. -/
theorem ofJson?_cut {e : Expression} {levels : Nat} (deep : levels < e.toJson.depth) :
    ofJson? (e.toJson.cut levels) = none := by
  rw [ofJson?, readable_cut deep]
  rfl

mutual

theorem writable_toJson (e : Expression) : e.toJson.Writable := by
  cases e with
  | term text => trivial
  | group conjunction negated escaped children =>
    exact ⟨trivial, trivial, trivial, writableItems_listToJson children, trivial⟩

theorem writableItems_listToJson (es : List Expression) : WritableItems (listToJson es) := by
  cases es with
  | nil => trivial
  | cons e rest => exact ⟨writable_toJson e, writableItems_listToJson rest⟩

end

end Expression

end Keys

end SearchCompiler
