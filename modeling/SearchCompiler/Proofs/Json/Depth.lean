import SearchCompiler.Proofs.Json.Record

/-!
# Values that are nested too deeply

Cutting a value off at a level of nesting makes the arrays and objects from that level on
unreadable. A value that is not nested so deeply stays as it is (`cut_of_depth_le`); one that is
cannot be read as a whole any more (`readable_cut`).
-/

namespace SearchCompiler.Json

variable {α : Type}

mutual

/-- A value without the arrays and objects that are nested more than so many levels deep. -/
def cut (levels : Nat) : Json → Json
  | .list items => if levels = 0 then .unreadable else .list (cutItems (levels - 1) items)
  | .object members => if levels = 0 then .unreadable else .object (cutMembers (levels - 1) members)
  | value => value

def cutItems (levels : Nat) : List Json → List Json
  | [] => []
  | item :: rest => item.cut levels :: cutItems levels rest

def cutMembers (levels : Nat) : List (String × Json) → List (String × Json)
  | [] => []
  | (name, value) :: rest => (name, value.cut levels) :: cutMembers levels rest

end

mutual

/-- A value that is not nested too deeply is not cut. -/
theorem cut_of_depth_le {v : Json} {n : Nat} (shallow : v.depth ≤ n) : v.cut n = v := by
  cases v with
  | list items =>
    rw [depth] at shallow
    rw [cut, if_neg (by omega), cutItems_of_depth_le (by omega)]
  | object members =>
    rw [depth] at shallow
    rw [cut, if_neg (by omega), cutMembers_of_depth_le (by omega)]
  | _ => rfl

theorem cutItems_of_depth_le {items : List Json} {n : Nat} (shallow : depthItems items ≤ n) :
    cutItems n items = items := by
  cases items with
  | nil => rfl
  | cons item rest =>
    rw [depthItems] at shallow
    rw [cutItems, cut_of_depth_le (by omega), cutItems_of_depth_le (by omega)]

theorem cutMembers_of_depth_le {members : List (String × Json)} {n : Nat}
    (shallow : depthMembers members ≤ n) : cutMembers n members = members := by
  cases members with
  | nil => rfl
  | cons first rest =>
    obtain ⟨name, value⟩ := first
    rw [depthMembers] at shallow
    rw [cutMembers, cut_of_depth_le (by omega), cutMembers_of_depth_le (by omega)]

end

mutual

/-- A value that is nested too deeply cannot be read as a whole once it is cut. -/
theorem readable_cut {v : Json} {n : Nat} (deep : n < v.depth) : (v.cut n).readable = false := by
  cases v with
  | list items =>
    rw [depth] at deep
    rw [cut]
    split
    · rfl
    · exact readableItems_cut (by omega)
  | object members =>
    rw [depth] at deep
    rw [cut]
    split
    · rfl
    · exact readableMembers_cut (by omega)
  | _ => exact absurd deep (Nat.not_lt_zero n)

/-- Items that are nested too deeply cannot be read when cut. -/
theorem readableItems_cut {items : List Json} {n : Nat} (deep : n < depthItems items) :
    readableItems (cutItems n items) = false := by
  cases items with
  | nil => exact absurd deep (Nat.not_lt_zero n)
  | cons item rest =>
    have deeper : n < item.depth ∨ n < depthItems rest := by
      rw [depthItems] at deep
      omega
    rw [cutItems, readableItems, Bool.and_eq_false_iff]
    exact deeper.imp (fun own => readable_cut own) fun later => readableItems_cut later

theorem readableMembers_cut {members : List (String × Json)} {n : Nat}
    (deep : n < depthMembers members) : readableMembers (cutMembers n members) = false := by
  cases members with
  | nil => exact absurd deep (Nat.not_lt_zero n)
  | cons first rest =>
    obtain ⟨name, value⟩ := first
    have deeper : n < value.depth ∨ n < depthMembers rest := by
      rw [depthMembers] at deep
      omega
    rw [cutMembers, readableMembers, Bool.and_eq_false_iff]
    exact deeper.imp (fun own => readable_cut own) fun later => readableMembers_cut later

end

theorem cut_ne_null {v : Json} (shown : v ≠ .null) (levels : Nat) : v.cut levels ≠ .null := by
  cases v with
  | list items | object members =>
    rw [cut]
    split <;> exact Json.noConfusion
  | _ => exact shown

theorem map_fst_cutMembers (levels : Nat) (members : List (String × Json)) :
    (cutMembers levels members).map Prod.fst = members.map Prod.fst := by
  induction members with
  | nil => rfl
  | cons m rest ih => exact congrArg (m.1 :: ·) ih

theorem namesWithin_cutMembers {names : List String} {members : List (String × Json)}
    (within : NamesWithin names members) (levels : Nat) :
    NamesWithin names (cutMembers levels members) := by
  rwa [NamesWithin, map_fst_cutMembers]

/-- Cutting members leaves them under their names. -/
theorem valuesOf_cutMembers (levels : Nat) (name : String) (members : List (String × Json)) :
    valuesOf name (cutMembers levels members) = (valuesOf name members).map (cut levels) := by
  induction members with
  | nil => rfl
  | cons m rest ih =>
    obtain ⟨other, value⟩ := m
    rw [cutMembers, valuesOf_cons, valuesOf_cons, ih]
    split <;> rfl

/-! ### How deep members are nested -/

theorem depthMembers_append (members others : List (String × Json)) :
    depthMembers (members ++ others) = max (depthMembers members) (depthMembers others) := by
  induction members with
  | nil => exact (Nat.zero_max _).symm
  | cons m rest ih =>
    obtain ⟨name, value⟩ := m
    rw [List.cons_append, depthMembers, depthMembers, ih, Nat.max_assoc]

theorem depthItems_map_le {encode : α → Json} {items : List α} {n : Nat}
    (each : ∀ a ∈ items, (encode a).depth ≤ n) : depthItems (items.map encode) ≤ n := by
  induction items with
  | nil => exact Nat.zero_le n
  | cons a rest ih =>
    rw [List.forall_mem_cons] at each
    rw [List.map_cons, depthItems]
    exact Nat.max_le.mpr ⟨each.1, ih each.2⟩

theorem depthMembers_member?_le (name : String) {encode : α → Json} {o : Option α} {n : Nat}
    (each : ∀ a ∈ o, (encode a).depth ≤ n) : depthMembers (member? name encode o) ≤ n := by
  cases o with
  | none => exact Nat.zero_le n
  | some a => exact Nat.max_le.mpr ⟨each a rfl, Nat.zero_le n⟩

theorem depthMembers_listMember_le (name : String) {encode : α → Json} {items : List α} {n : Nat}
    (each : ∀ a ∈ items, (encode a).depth ≤ n) :
    depthMembers (listMember name encode items) ≤ n + 1 := by
  unfold listMember
  split
  · exact Nat.zero_le _
  · exact Nat.max_le.mpr ⟨Nat.succ_le_succ (depthItems_map_le each), Nat.zero_le _⟩

end SearchCompiler.Json
