import SearchCompiler.Text.Pieces

/-!
# Paths

A path keeps its text: it is taken apart at its slashes and nothing is dropped. Empty segments and
inner dots name nothing, so they are skipped where paths are compared and where the parent is found.
-/

namespace SearchCompiler.Files

/-- A path: whether it begins at the root, and its segments between slashes. -/
structure Path where
  absolute : Bool
  segments : List String
deriving DecidableEq, Repr, Inhabited

namespace Path

def ofText (text : String) : Path :=
  let segmentsOf := fun (cs : List Char) =>
    if cs.isEmpty then [] else (Text.cutAt '/' cs).map String.ofList
  match text.toList with
  | '/' :: rest => ⟨true, segmentsOf rest⟩
  | cs => ⟨false, segmentsOf cs⟩

def text (p : Path) : String :=
  (if p.absolute then "/" else "") ++ Text.joinTexts "/" p.segments

/-- Whether a segment names nothing; a dot in front of a relative path does. -/
def isVoid (leading : Bool) (segment : String) : Bool :=
  segment = "" || (segment = "." && !leading)

/-- Drops the segments at the end that name nothing. -/
def dropVoid (leading : Bool) : List String → List String
  | [] => []
  | segment :: rest =>
    match dropVoid false rest with
    | [] => if isVoid leading segment then [] else [segment]
    | kept => segment :: kept

theorem length_dropVoid_le (leading : Bool) (segments : List String) :
    (dropVoid leading segments).length ≤ segments.length := by
  induction segments generalizing leading with
  | nil => simp [dropVoid]
  | cons segment rest ih =>
    have := ih false
    rw [dropVoid]
    split
    · split <;> simp
    · next kept h => simp only [List.length_cons]; omega

/-- The directory that holds a path; neither the root nor the empty path has one. -/
def parent? (p : Path) : Option Path :=
  match dropVoid (!p.absolute) p.segments with
  | [] => none
  | segments => some ⟨p.absolute, dropVoid (!p.absolute) segments.dropLast⟩

/-- The directory that holds a path has fewer segments. -/
theorem length_of_parent? {p q : Path} (h : p.parent? = some q) :
    q.segments.length < p.segments.length := by
  rw [parent?] at h
  split at h
  · simp at h
  · next segments hne =>
    obtain rfl := Option.some.inj h
    have h₁ := length_dropVoid_le (!p.absolute) p.segments
    have h₂ := length_dropVoid_le (!p.absolute) (dropVoid (!p.absolute) p.segments).dropLast
    have h₃ := List.length_pos_iff.2 hne
    simp only [List.length_dropLast] at h₂ ⊢
    omega

/-- A path and the directories above it, closest first. -/
def ancestors (p : Path) : List Path :=
  match _h : p.parent? with
  | none => [p]
  | some q => p :: q.ancestors
termination_by p.segments.length
decreasing_by exact length_of_parent? _h

/-- The segments that name something. -/
def components (p : Path) : List String :=
  match p.segments with
  | [] => []
  | first :: rest =>
    (if isVoid (!p.absolute) first then [] else [first]) ++ rest.filter fun s => !isVoid false s

/-- Whether two paths are equal apart from segments that name nothing. -/
def same (p q : Path) : Bool :=
  p.absolute == q.absolute && p.components == q.components

/-- A path below another, or an absolute path by itself. -/
def join (p q : Path) : Path :=
  if q.absolute then q
  else
    let stem := if p.segments.getLast? = some "" then p.segments.dropLast else p.segments
    if q.segments.isEmpty then
      if p.segments.isEmpty then p else ⟨p.absolute, stem ++ [""]⟩
    else ⟨p.absolute, stem ++ q.segments⟩

end Path

end SearchCompiler.Files
