import SearchCompiler.Files.Path

/-!
# Paths by their components

A path means what its components say: the segments that name something. The parent of a path has
all of its components but the last (`components_of_parent?`), so that the directories above a path
are told apart by the number of their components (`ancestors_pairwise`), and a name below a path is
one component more (`components_join_name`).
-/

namespace SearchCompiler.Files.Path

/-- The segments that name something; a dot in front of a relative path does. -/
def named (leading : Bool) : List String → List String
  | [] => []
  | segment :: rest => (if isVoid leading segment then [] else [segment]) ++ named false rest

theorem named_false (segments : List String) :
    named false segments = segments.filter fun s => !isVoid false s := by
  induction segments with
  | nil => rfl
  | cons segment rest ih =>
    rw [named, ih, List.filter_cons]
    cases isVoid false segment <;> rfl

theorem components_eq_named (p : Path) : p.components = named (!p.absolute) p.segments := by
  unfold components
  cases p.segments with
  | nil => rfl
  | cons first rest => rw [named, named_false]

theorem named_append (leading : Bool) (segments others : List String) :
    named leading (segments ++ others) =
      named leading segments ++ named (leading && segments.isEmpty) others := by
  cases segments with
  | nil => cases leading <;> rfl
  | cons first rest =>
    rw [List.cons_append, named, named, named_false, named_false, List.filter_append,
      ← List.append_assoc]
    simp [named_false]

/-- An empty segment names nothing wherever it stands. -/
theorem isVoid_empty (leading : Bool) : isVoid leading "" = true := rfl

/-! ### Parents -/

theorem dropVoid_eq_nil_iff {leading : Bool} {segments : List String} :
    dropVoid leading segments = [] ↔ named leading segments = [] := by
  induction segments generalizing leading with
  | nil => exact iff_of_true rfl rfl
  | cons segment rest ih =>
    rw [dropVoid, named, List.append_eq_nil_iff, ← ih]
    cases dropVoid false rest with
    | nil => cases isVoid leading segment <;> simp
    | cons kept others => simp

/-- Without its last segment that names something, a path has one component less. -/
theorem named_dropLast (leading : Bool) (segments : List String) :
    named leading (dropVoid leading segments).dropLast = (named leading segments).dropLast := by
  induction segments generalizing leading with
  | nil => rfl
  | cons segment rest ih =>
    have inner := ih false
    have empty_iff : dropVoid false rest = [] ↔ named false rest = [] := dropVoid_eq_nil_iff
    rw [dropVoid, named]
    cases tail : dropVoid false rest with
    | nil =>
      rw [empty_iff.mp tail]
      cases isVoid leading segment <;> rfl
    | cons kept others =>
      rw [tail] at inner
      have more : named false rest ≠ [] := fun nothing => by
        rw [empty_iff.mpr nothing] at tail
        cases tail
      rw [List.dropLast_append_of_ne_nil more, ← inner]
      rfl

/-- Dropping segments that name nothing loses no name. -/
theorem named_dropVoid (leading : Bool) (segments : List String) :
    named leading (dropVoid leading segments) = named leading segments := by
  induction segments generalizing leading with
  | nil => rfl
  | cons segment rest ih =>
    have inner := ih false
    rw [dropVoid, named]
    cases tail : dropVoid false rest with
    | nil =>
      rw [tail] at inner
      rw [← inner]
      cases void : isVoid leading segment <;> simp [named, void]
    | cons kept others => rw [← inner, tail, named]

/-- The parent of a path has all components but the last. -/
theorem components_of_parent? {p q : Path} (up : p.parent? = some q) :
    q.components = p.components.dropLast ∧ p.components ≠ [] := by
  unfold parent? at up
  split at up
  · cases up
  · next segments some_named =>
    cases up
    rw [components_eq_named, components_eq_named, named_dropVoid, named_dropLast]
    exact ⟨rfl, fun nothing => some_named (dropVoid_eq_nil_iff.mpr nothing)⟩

/-- A path that names something has a parent on the same side of the root. -/
theorem exists_parent? {p : Path} (names : p.components ≠ []) :
    ∃ q, p.parent? = some q ∧ q.absolute = p.absolute ∧
      q.components = p.components.dropLast := by
  cases up : p.parent? with
  | some q =>
    refine ⟨q, rfl, ?_, (components_of_parent? up).1⟩
    unfold parent? at up
    split at up
    · cases up
    · cases up
      rfl
  | none =>
    unfold parent? at up
    split at up
    · next nothing =>
      rw [components_eq_named] at names
      exact absurd (dropVoid_eq_nil_iff.mp nothing) names
    · cases up

theorem length_components_of_parent? {p q : Path} (up : p.parent? = some q) :
    q.components.length < p.components.length := by
  obtain ⟨shorter, nonempty⟩ := components_of_parent? up
  have positive := List.length_pos_iff.mpr nonempty
  rw [shorter, List.length_dropLast]
  omega

/-! ### Ancestors -/

theorem length_components_le {p q : Path} (above : q ∈ p.ancestors) :
    q.components.length ≤ p.components.length := by
  fun_induction ancestors p with
  | case1 p =>
    obtain rfl := List.mem_singleton.mp above
    exact Nat.le_refl _
  | case2 p r up ih =>
    have shorter := length_components_of_parent? up
    rcases List.mem_cons.mp above with rfl | above
    · exact Nat.le_refl _
    · exact Nat.le_of_lt (Nat.lt_of_le_of_lt (ih above) shorter)

/-- The directories above a path have fewer components, the further up the fewer. -/
theorem ancestors_pairwise (p : Path) :
    p.ancestors.Pairwise fun q r => r.components.length < q.components.length := by
  fun_induction ancestors p with
  | case1 p => exact List.pairwise_singleton _ _
  | case2 p q up ih =>
    refine List.pairwise_cons.mpr ⟨fun r above => ?_, ih⟩
    exact Nat.lt_of_le_of_lt (length_components_le above) (length_components_of_parent? up)

/-! ### Names below a path -/

/-- An empty segment at the end names nothing. -/
theorem named_stem (leading : Bool) (segments : List String) :
    named leading (if segments.getLast? = some "" then segments.dropLast else segments) =
      named leading segments := by
  split
  · next ended =>
    obtain ⟨front, rfl⟩ := List.getLast?_eq_some_iff.mp ended
    rw [List.dropLast_concat, named_append, named, isVoid_empty]
    exact (List.append_nil _).symm
  · rfl

/-- A name below a path is one component more. -/
theorem components_join_name (p : Path) {name : String}
    (shown : ∀ leading, isVoid leading name = false) :
    (p.join ⟨false, [name]⟩).components = p.components ++ [name] := by
  have joined : p.join ⟨false, [name]⟩ = ⟨p.absolute,
      (if p.segments.getLast? = some "" then p.segments.dropLast else p.segments) ++ [name]⟩ := rfl
  rw [joined, components_eq_named, components_eq_named, named_append, named_stem, named, shown]
  rfl

theorem same_iff {p q : Path} :
    p.same q = true ↔ p.absolute = q.absolute ∧ p.components = q.components := by
  simp [same]

theorem same_comm (p q : Path) : p.same q = q.same p := by
  rw [Bool.eq_iff_iff, same_iff, same_iff, eq_comm, eq_comm (a := p.components)]

end SearchCompiler.Files.Path
