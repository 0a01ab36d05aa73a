import Mathlib.Data.List.Pairwise
import SearchCompiler.Proofs.Config.Discovery
import SearchCompiler.Proofs.Config.Merging

/-!
# The file of the home directory

The file of the home directory is meant to come last, so that all files of projects take precedence
over it. It does unless the walk upward meets it below another file: the home directory is the
working directory or one above it, its file is no root file, and a directory further up has a file
too (`MetBelow`). What stands behind the file of the home directory then has to give way to it.

Whenever the file of the home directory is listed, it is last iff it is not met below another file,
and then every setting and every field that any other listed file has is that of such a file
(`home_file_last_iff`).
-/

namespace SearchCompiler.Config

open Files

/-- The walk upward from a directory meets the file of the home directory, which is no root file,
and there is a file further up as well. -/
def MetBelow (files : Tree) (directory home : Path) : Prop :=
  ∃ here ∈ filesAbove files directory, here.same (fileIn home) = true ∧
    isRoot files here = false ∧
    ∃ above ∈ filesAbove files directory, above.components.length < here.components.length

instance (files : Tree) (directory home : Path) : Decidable (MetBelow files directory home) :=
  inferInstanceAs (Decidable (∃ here ∈ filesAbove files directory, _ ∧ _ ∧
    ∃ above ∈ filesAbove files directory, _))

variable {files : Tree} {directory home : Path}

/-! ### Where the file of the home directory is listed -/

/-- Without a root file the walk upward meets all files. -/
theorem upToRoot_eq_self {paths : List Path}
    (open_above : ∀ path ∈ upToRoot files paths, isRoot files path = false) :
    upToRoot files paths = paths := by
  induction paths with
  | nil => rfl
  | cons path rest ih =>
    rw [upToRoot_cons] at open_above ⊢
    split
    · next root =>
      rw [if_pos root] at open_above
      rw [open_above path List.mem_cons_self] at root
      cases root
    · next no_root =>
      rw [if_neg no_root] at open_above
      rw [ih fun p among => open_above p (List.mem_cons_of_mem _ among)]

/-- What the walk upward meets on the way to the root of the tree. -/
theorem walk_paths (files : Tree) (global : Option Path) (directory : Path) :
    (upward files global directory.ancestors).map Source.path =
      upToRoot files (filesAbove files directory) :=
  upward_paths _

theorem mem_filesAbove_of_walk {global : Option Path} {s : Source}
    (walked : s ∈ upward files global directory.ancestors) :
    s.path ∈ filesAbove files directory := by
  have listed := List.mem_map_of_mem (f := Source.path) walked
  rw [walk_paths] at listed
  exact (upToRoot_prefix_self _).subset listed

theorem walk_paths_of_open {global : Option Path}
    (no_root : ∀ s ∈ upward files global directory.ancestors, s.root = false) :
    (upward files global directory.ancestors).map Source.path = filesAbove files directory := by
  rw [walk_paths]
  refine upToRoot_eq_self fun path among => ?_
  rw [← walk_paths files global, List.mem_map] at among
  obtain ⟨s, among, rfl⟩ := among
  rw [← (upward_describes _ s among).root_iff]
  exact no_root s among

theorem eq_of_same_of_mem_filesAbove {p q : Path} (among : p ∈ filesAbove files directory)
    (among' : q ∈ filesAbove files directory) (same : p.same q = true) : p = q := by
  have symmetric : Std.Symm fun p q : Path => p.same q = false :=
    ⟨fun p q other => Path.same_comm p q ▸ other⟩
  by_contra different
  rw [(filesAbove_pairwise files directory).forall among among' different] at same
  cases same

/-- A listed file in front of another one is that of the home directory only if it is met below
another file. -/
theorem discover_metBelow (files : Tree) (directory home : Path) :
    (discover files directory (some home)).Pairwise fun s _ =>
      s.kind = .global → MetBelow files directory home := by
  rw [discover_eq]
  refine pairwise_append_toList ?_ fun s walked t added is_global => ?_
  · have decreasing : (upward files (some (fileIn home)) directory.ancestors).Pairwise
        fun s t => t.path.components.length < s.path.components.length := by
      rw [← List.pairwise_map (f := Source.path)
        (R := fun p q => q.components.length < p.components.length), walk_paths]
      exact (filesAbove_decreasing files directory).sublist (upToRoot_prefix_self _).sublist
    refine (decreasing.and (upward_sealed _)).imp_of_mem ?_
    rintro s t walked walked' ⟨shorter, no_root⟩ is_global
    have described := upward_describes directory.ancestors s walked
    obtain ⟨path, is_home, same⟩ := described.global_iff.mp is_global
    cases is_home
    refine ⟨s.path, mem_filesAbove_of_walk walked, Path.same_comm _ _ ▸ same, ?_, t.path,
      mem_filesAbove_of_walk walked', shorter⟩
    rw [← described.root_iff, no_root]
  · -- What is added behind the others is not listed among them.
    obtain ⟨path, is_home, same⟩ :=
      (upward_describes directory.ancestors s walked).global_iff.mp is_global
    have adds := homeSource?_iff.mp (congrArg _ added)
    cases is_home.symm.trans adds.is_home
    rw [Path.same_comm, adds.unlisted s walked] at same
    cases same

/-- A file that is met below another file is not added behind the walk. -/
theorem homeSource?_of_metBelow (below : MetBelow files directory home) :
    homeSource? files (some home) (upward files (some (fileIn home)) directory.ancestors) =
      none := by
  obtain ⟨here, met, same, -⟩ := below
  rw [Option.eq_none_iff_forall_ne_some]
  intro t added
  have adds := homeSource?_iff.mp (congrArg _ added)
  rw [← walk_paths_of_open adds.unsealed, List.mem_map] at met
  obtain ⟨u, among, rfl⟩ := met
  have is_home : fileIn home = t.path := Option.some.inj adds.is_home
  rw [is_home, adds.unlisted u among] at same
  cases same

/-- A file that is listed last is not that of the home directory if this is met below another
file. -/
theorem not_metBelow_of_last {before : List Source} {s : Source}
    (listed : discover files directory (some home) = before ++ [s]) (is_global : s.kind = .global) :
    ¬ MetBelow files directory home := by
  intro below
  rw [discover_eq, Option.map_some, homeSource?_of_metBelow below, Option.toList_none,
    List.append_nil] at listed
  obtain ⟨here, met, same, no_root, above, met', shorter⟩ := below
  have walked : s ∈ upward files (some (fileIn home)) directory.ancestors := by
    rw [listed]
    exact List.mem_append_right _ List.mem_cons_self
  have described := upward_describes _ s walked
  obtain ⟨path, is_home, same'⟩ := described.global_iff.mp is_global
  cases is_home
  -- The listed file is the one that is met below another file.
  have is_here : here = s.path := by
    refine eq_of_same_of_mem_filesAbove met (mem_filesAbove_of_walk walked) ?_
    rw [Path.same_iff] at same same' ⊢
    exact ⟨same.1.trans same'.1, same.2.trans same'.2⟩
  subst is_here
  have open_above : ∀ u ∈ upward files (some (fileIn home)) directory.ancestors,
      u.root = false := by
    have sealing : (upward files (some (fileIn home)) directory.ancestors).Pairwise
        fun s _ => s.root = false :=
      upward_sealed directory.ancestors
    rw [listed] at sealing ⊢
    refine List.forall_mem_append.mpr ⟨fun u front => ?_, List.forall_mem_singleton.mpr ?_⟩
    · exact (List.pairwise_append.mp sealing).2.2 u front s List.mem_cons_self
    · rw [described.root_iff, no_root]
  have all := walk_paths_of_open open_above
  rw [listed, List.map_append, List.map_singleton] at all
  have decreasing := filesAbove_decreasing files directory
  rw [← all] at decreasing met'
  rcases List.mem_append.mp met' with front | last
  · have longer := (List.pairwise_append.mp decreasing).2.2 above front _ List.mem_cons_self
    exact Nat.lt_asymm shorter longer
  · rw [List.mem_singleton.mp last] at shorter
    exact Nat.lt_irrefl _ shorter

/-! ### What the file of the home directory gives way to -/

/-- The files besides that of the home directory. -/
def projectFiles (home : Path) (placed : List Placed) : List Placed :=
  placed.filter fun f => !(fileIn home).same f.path

/-- Files are read in the order in which they were found. -/
theorem paths_of_placedAt {paths : List Path} {placed : List Placed}
    (loaded : placedAt files paths = .ok placed) : placed.map Placed.path = paths := by
  induction paths generalizing placed with
  | nil =>
    cases loaded
    rfl
  | cons path rest ih =>
    rw [placedAt] at loaded
    cases own : fileAt files path with
    | error e =>
      rw [own] at loaded
      cases loaded
    | ok file =>
      cases others : placedAt files rest with
      | error e =>
        rw [own, others] at loaded
        cases loaded
      | ok placed' =>
        rw [own, others] at loaded
        cases loaded
        rw [List.map_cons, ih others]

/-- Where only the last file may be that of the home directory, what the first other file says is
what the first file says. -/
theorem firstOf_projectFiles {α : Type} {placed : List Placed} {inFile : File → Option α} {a : α}
    (last : placed.Pairwise fun f _ => (fileIn home).same f.path = false)
    (first : firstOf (projectFiles home placed) inFile = some a) :
    firstOf placed inFile = some a := by
  induction placed with
  | nil => exact first
  | cons f rest ih =>
    obtain ⟨front, inner⟩ := List.pairwise_cons.mp last
    cases is_home : (fileIn home).same f.path with
    | true =>
      -- Nothing stands behind the file of the home directory, so there is no other file.
      have alone : rest = [] := List.eq_nil_iff_forall_not_mem.mpr fun g among => by
        rw [front g among] at is_home
        cases is_home
      subst alone
      rw [projectFiles, List.filter_cons_of_neg (by simp [is_home])] at first
      cases first
    | false =>
      rw [projectFiles, List.filter_cons_of_pos (by simp [is_home])] at first
      unfold firstOf at first ⊢
      rw [List.findSome?_cons] at first ⊢
      cases own : inFile f.file with
      | some b =>
        rw [own] at first
        exact first
      | none =>
        rw [own] at first
        exact ih inner first

/-- Whenever the file of the home directory is listed, it is the last one iff it is not met below
another file. Then every setting and every field that another listed file has is that of the first
such file. -/
theorem home_file_last_iff (files : Tree) (directory home : Path) :
    (∀ before s after, discover files directory (some home) = before ++ s :: after →
      s.kind = .global → (after = [] ↔ ¬ MetBelow files directory home)) ∧
    (¬ MetBelow files directory home → ∀ placed,
      placedAt files ((discover files directory (some home)).map (·.path)) = .ok placed →
      ∃ config, load files directory (some home) = .ok config ∧
        (∀ (α : Type) (s : Setting α) (a : α),
          firstOf (projectFiles home placed) s.inFile = some a → s.of config = a) ∧
        ∀ id part, firstOf (projectFiles home placed) (·.part? id) = some part →
          config.field? id = some (part.field id)) := by
  constructor
  · intro before s after listed is_global
    constructor
    · rintro rfl
      exact not_metBelow_of_last listed is_global
    · intro above
      have behind := discover_metBelow files directory home
      rw [listed] at behind
      refine List.eq_nil_iff_forall_not_mem.mpr fun t among => above ?_
      have front := (List.pairwise_append.mp behind).2.1
      exact (List.pairwise_cons.mp front).1 t among is_global
  · intro above placed loaded
    have last : placed.Pairwise fun f _ => (fileIn home).same f.path = false := by
      rw [← List.pairwise_map (f := Placed.path)
        (R := fun p _ => (fileIn home).same p = false), paths_of_placedAt loaded,
        List.pairwise_map]
      refine (discover_metBelow files directory home).imp_of_mem fun {s t} among _ below => ?_
      rw [Bool.eq_false_iff]
      intro same
      have described := discover_describes files directory (some home) s among
      exact above (below (described.global_iff.mpr ⟨_, rfl, same⟩))
    refine ⟨merge placed, ?_, fun α s a first => ?_, fun id part first => ?_⟩
    · rw [load, loadFiles, loaded]
      rfl
    · rw [s.of_merge, firstOf_projectFiles last first, Option.getD_some]
    · rw [field?_merge, firstOf_projectFiles last first, Option.map_some]

/-- A project below the home directory. -/
def homeAbove : Tree :=
  ⟨[(["home", "site", fileName], "[search]\nlimit = 5\n[field.title]\ntype = \"text\"\n"),
    (["home", fileName], "[search]\nlimit = 7\n[field.title]\ntype = \"string\"\n")], []⟩

/-- A project below the home directory, whose file comes last. -/
theorem home_file_last_above :
    ¬ MetBelow homeAbove (.ofText "/home/site") (.ofText "/home") ∧
      (∃ before s, discover homeAbove (.ofText "/home/site") (some (.ofText "/home")) =
        before ++ [s] ∧ s.kind = .global) ∧
      ∃ config, load homeAbove (.ofText "/home/site") (some (.ofText "/home")) = .ok config ∧
        config.search.limit = 5 ∧ (config.field? "title").map Field.type = some .text := by
  have listed : discover homeAbove (.ofText "/home/site") (some (.ofText "/home")) =
      [⟨.ofText "/home/site/.lucent.toml", .project, false⟩] ++
        ⟨.ofText "/home/.lucent.toml", .global, false⟩ :: [] := by
    decide +kernel
  have above := ((home_file_last_iff homeAbove (.ofText "/home/site") (.ofText "/home")).1
    _ _ _ listed rfl).mp rfl
  have said : ((placedAt homeAbove ((discover homeAbove (.ofText "/home/site")
      (some (.ofText "/home"))).map (·.path))).toOption.map fun placed =>
        (firstOf (projectFiles (.ofText "/home") placed) Setting.limit.inFile,
          (firstOf (projectFiles (.ofText "/home") placed) (·.part? "title")).map (·.type))) =
      some (some 5, some .text) := by
    decide +kernel
  cases loaded : placedAt homeAbove ((discover homeAbove (.ofText "/home/site")
      (some (.ofText "/home"))).map (·.path)) with
  | error e =>
    rw [loaded] at said
    cases said
  | ok placed =>
    rw [loaded] at said
    obtain ⟨limit, type⟩ := Prod.mk.inj (Option.some.inj said)
    obtain ⟨part, title, text⟩ := Option.map_eq_some_iff.mp type
    obtain ⟨config, merged, settings, fields⟩ :=
      (home_file_last_iff homeAbove (.ofText "/home/site") (.ofText "/home")).2 above placed loaded
    refine ⟨above, ⟨_, _, listed, rfl⟩, config, merged, settings Nat .limit 5 limit, ?_⟩
    rw [fields "title" part title, ← text]
    rfl

/-- Files of the home directory and of the directory above it. -/
def nestedHome : Tree :=
  ⟨[(["home", "user", fileName], "[search]\nlimit = 7\n"),
    (["home", fileName], "[search]\nlimit = 5\n")], []⟩

/-- Below the home directory, the file of the home directory is listed in front of the file above
it, and takes precedence. -/
theorem home_file_before_project :
    MetBelow nestedHome (.ofText "/home/user/site") (.ofText "/home/user") ∧
      discover nestedHome (.ofText "/home/user/site") (some (.ofText "/home/user")) =
        [⟨.ofText "/home/user/.lucent.toml", .global, false⟩,
          ⟨.ofText "/home/.lucent.toml", .project, false⟩] ∧
      (load nestedHome (.ofText "/home/user/site") (some (.ofText "/home/user"))).toOption.map
        (·.search.limit) = some 7 := by
  refine ⟨?_, ?_, ?_⟩ <;> decide +kernel

end SearchCompiler.Config
