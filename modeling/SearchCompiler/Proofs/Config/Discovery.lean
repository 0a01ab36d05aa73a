import SearchCompiler.Config.Source
import SearchCompiler.Proofs.Files.Path

/-!
# Which files apply

The files that apply to a directory are those of the directory and of the directories above it,
closest first, up to and including the first root file; and the file of the home directory behind
them, unless a root file was met or the file is among them already. No file is listed twice, a root
file is listed last, and exactly the file of the home directory is listed as global
(`discover_sealed`).

Which files the walk upward meets is said apart from the walk (`upToRoot`).
-/

namespace SearchCompiler.Config

open Files

/-- The configuration files of a directory and of those above it that exist, closest first. -/
def filesAbove (files : Tree) (directory : Path) : List Path :=
  (directory.ancestors.map fileIn).filter files.isFile

/-- The paths up to and including the first that leads to a root file. -/
def upToRoot (files : Tree) (paths : List Path) : List Path :=
  paths.takeWhile (fun path => !isRoot files path) ++ (paths.find? (isRoot files)).toList

/-- The path of a source leads to a file, and what the source says of the file is right. -/
structure Source.Describes (files : Tree) (global : Option Path) (s : Source) : Prop where
  exists_file : files.isFile s.path = true
  root_iff : s.root = isRoot files s.path
  global_iff : s.kind = .global ↔ ∃ path, global = some path ∧ path.same s.path = true

variable {files : Tree} {global : Option Path}

/-- A source is made for the path that was asked for. -/
theorem source?_eq_some {path : Path} {s : Source} (found : source? files global path = some s) :
    s.path = path ∧ s.Describes files global := by
  unfold source? at found
  split at found
  · next present =>
    cases found
    refine ⟨rfl, present, rfl, ?_⟩
    cases global with
    | none => simp
    | some other => simp [Option.any]
  · cases found

theorem source?_eq_none_iff {path : Path} :
    source? files global path = none ↔ files.isFile path = false := by
  unfold source?
  split <;> simp_all

theorem upToRoot_cons (path : Path) (rest : List Path) :
    upToRoot files (path :: rest) =
      if isRoot files path then [path] else path :: upToRoot files rest := by
  unfold upToRoot
  cases root : isRoot files path <;> simp [root]

/-- The walk meets the files that exist, up to the first root file. -/
theorem upward_paths (directories : List Path) :
    (upward files global directories).map Source.path =
      upToRoot files ((directories.map fileIn).filter files.isFile) := by
  induction directories with
  | nil => rfl
  | cons directory rest ih =>
    rw [upward, List.map_cons]
    cases found : source? files global (fileIn directory) with
    | none =>
      rw [List.filter_cons_of_neg (by simp [source?_eq_none_iff.mp found])]
      exact ih
    | some s =>
      obtain ⟨same, described⟩ := source?_eq_some found
      have present : files.isFile (fileIn directory) = true := same ▸ described.exists_file
      rw [List.filter_cons_of_pos present, upToRoot_cons, ← same, ← described.root_iff]
      dsimp only
      split
      · rfl
      · rw [List.map_cons, ih]

/-- What is found on the way up describes its file. -/
theorem upward_describes (directories : List Path) :
    ∀ s ∈ upward files global directories, s.Describes files global := by
  induction directories with
  | nil => exact List.forall_mem_nil _
  | cons directory rest ih =>
    rw [upward]
    cases found : source? files global (fileIn directory) with
    | none => exact ih
    | some s =>
      obtain ⟨-, described⟩ := source?_eq_some found
      dsimp only
      split
      · exact List.forall_mem_singleton.mpr described
      · exact List.forall_mem_cons.mpr ⟨described, ih⟩

/-- A root file ends the walk. -/
theorem upward_sealed (directories : List Path) :
    (upward files global directories).Pairwise fun s _ => s.root = false := by
  induction directories with
  | nil => exact .nil
  | cons directory rest ih =>
    rw [upward]
    cases source? files global (fileIn directory) with
    | none => exact ih
    | some s =>
      dsimp only
      split
      · exact List.pairwise_singleton _ _
      · next open_above => exact List.pairwise_cons.mpr ⟨fun _ _ => by simpa using open_above, ih⟩

/-! ### No file twice -/

theorem upToRoot_prefix_self (paths : List Path) : upToRoot files paths <+: paths := by
  induction paths with
  | nil => exact List.prefix_rfl
  | cons path rest ih =>
    rw [upToRoot_cons]
    split
    · exact List.prefix_append [path] rest
    · exact List.cons_prefix_cons.mpr ⟨rfl, ih⟩

theorem components_fileIn (directory : Path) :
    (fileIn directory).components = directory.components ++ [fileName] :=
  directory.components_join_name (by decide)

/-- The configuration files of directories above each other have fewer components, the further up
the fewer. -/
theorem filesAbove_decreasing (files : Tree) (directory : Path) :
    (filesAbove files directory).Pairwise fun p q =>
      q.components.length < p.components.length := by
  refine List.Pairwise.filter _ (List.pairwise_map.mpr ?_)
  refine directory.ancestors_pairwise.imp fun {below above} shorter => ?_
  rw [components_fileIn, components_fileIn, List.length_append, List.length_append]
  exact Nat.add_lt_add_right shorter _

/-- The configuration files of directories above each other are different files. -/
theorem filesAbove_pairwise (files : Tree) (directory : Path) :
    (filesAbove files directory).Pairwise fun p q => p.same q = false := by
  refine (filesAbove_decreasing files directory).imp fun {p q} shorter => ?_
  rw [Bool.eq_false_iff]
  intro same
  rw [(Path.same_iff.mp same).2] at shorter
  exact Nat.lt_irrefl _ shorter

theorem upward_pairwise (directory : Path) :
    (upward files global directory.ancestors).Pairwise fun s t => s.path.same t.path = false := by
  rw [← List.pairwise_map (f := Source.path) (R := fun p q => p.same q = false), upward_paths]
  exact (filesAbove_pairwise files directory).sublist (upToRoot_prefix_self _).sublist

/-! ### The whole list -/

/-- The source that the file in the home directory adds behind the others: it exists, no root file
was met, and it is not listed already. -/
def homeSource? (files : Tree) (home : Option Path) (met : List Source) : Option Source :=
  (home.map fileIn).bind fun path =>
    if met.any Source.root || met.any (·.path.same path) then none
    else source? files (home.map fileIn) path

/-- The files that apply are those on the way up and, it may be, the one of the home directory. -/
theorem discover_eq (files : Tree) (directory : Path) (home : Option Path) :
    discover files directory home =
      upward files (home.map fileIn) directory.ancestors ++
        (homeSource? files home (upward files (home.map fileIn) directory.ancestors)).toList := by
  unfold discover homeSource?
  dsimp only
  generalize upward files (home.map fileIn) directory.ancestors = met
  cases home with
  | none => simp
  | some path =>
    simp only [Option.map_some, Option.bind_some]
    cases met.any Source.root <;> cases met.any (·.path.same (fileIn path)) <;> simp

/-- The file in the home directory is not listed already, and no root file keeps it out. -/
structure AddsHome (files : Tree) (home : Option Path) (met : List Source) (path : Path) :
    Prop where
  is_home : home.map fileIn = some path
  exists_file : files.isFile path = true
  unsealed : ∀ s ∈ met, s.root = false
  unlisted : ∀ s ∈ met, s.path.same path = false

/-- When the file of the home directory is added, and by which path. -/
theorem homeSource?_iff {home : Option Path} {met : List Source} {path : Path} :
    (homeSource? files home met).map Source.path = some path ↔ AddsHome files home met path := by
  unfold homeSource?
  constructor
  · intro added
    obtain ⟨s, found, rfl⟩ := Option.map_eq_some_iff.mp added
    obtain ⟨own, is_home, found⟩ := Option.bind_eq_some_iff.mp found
    split at found
    · cases found
    · next free =>
      obtain ⟨rfl, described⟩ := source?_eq_some found
      simp only [Bool.or_eq_true, List.any_eq_true, not_or, not_exists, not_and,
        Bool.not_eq_true] at free
      exact ⟨is_home, described.exists_file, free.1, free.2⟩
  · rintro ⟨is_home, present, unsealed, unlisted⟩
    have free : (met.any Source.root || met.any (·.path.same path)) = false := by
      simp only [Bool.or_eq_false_iff, List.any_eq_false, Bool.not_eq_true]
      exact ⟨unsealed, unlisted⟩
    rw [is_home, Option.bind_some, free, if_neg Bool.false_ne_true, source?, if_pos present]
    rfl

theorem homeSource?_describes {home : Option Path} {met : List Source} {s : Source}
    (added : homeSource? files home met = some s) : s.Describes files (home.map fileIn) := by
  unfold homeSource? at added
  obtain ⟨own, -, found⟩ := Option.bind_eq_some_iff.mp added
  split at found
  · cases found
  · exact (source?_eq_some found).2

theorem discover_describes (files : Tree) (directory : Path) (home : Option Path) :
    ∀ s ∈ discover files directory home, s.Describes files (home.map fileIn) := by
  rw [discover_eq]
  refine List.forall_mem_append.mpr ⟨upward_describes _, fun s among => ?_⟩
  exact homeSource?_describes (Option.mem_toList.mp among)

/-- One element more keeps a list in order if it is in order with all that is there. -/
theorem pairwise_append_toList {R : Source → Source → Prop} {met : List Source}
    {added : Option Source} (among : met.Pairwise R)
    (behind : ∀ s ∈ met, ∀ t, added = some t → R s t) : (met ++ added.toList).Pairwise R := by
  refine List.pairwise_append.mpr ⟨among, ?_, fun s mem t last => ?_⟩
  · cases added with
    | none => exact .nil
    | some t => exact List.pairwise_singleton _ _
  · exact behind s mem t (Option.mem_toList.mp last)

/-- The files that apply to a directory are those that exist there and above, closest first, up to
and including the first root file; and behind them that of the home directory, exactly if it
exists, no root file was met and it is not listed already. Each is described rightly, the one of
the home directory as global; none is listed twice; and nothing is listed behind a root file. -/
theorem discover_sealed (files : Tree) (directory : Path) (home : Option Path) :
    ∃ (met : List Source) (added : Option Source),
      discover files directory home = met ++ added.toList ∧
      met.map Source.path = upToRoot files (filesAbove files directory) ∧
      (∀ path, added.map Source.path = some path ↔ AddsHome files home met path) ∧
      (∀ s ∈ discover files directory home, s.Describes files (home.map fileIn)) ∧
      (discover files directory home).Pairwise (fun s t => s.path.same t.path = false) ∧
      (discover files directory home).Pairwise fun s _ => s.root = false := by
  refine ⟨_, _, discover_eq files directory home, upward_paths _, fun path => homeSource?_iff,
    discover_describes files directory home, ?_, ?_⟩
  all_goals rw [discover_eq]
  · refine pairwise_append_toList (upward_pairwise directory) fun s walked t added => ?_
    exact (homeSource?_iff.mp (congrArg _ added)).unlisted s walked
  · refine pairwise_append_toList (upward_sealed _) fun s walked t added => ?_
    exact (homeSource?_iff.mp (congrArg _ added)).unsealed s walked

/-- A home directory above the project: its file is met on the way up and not listed again. -/
example :
    let files : Tree := ⟨[(["home", "project", fileName], ""), (["home", fileName], "")], []⟩
    discover files (.ofText "/home/project") (some (.ofText "/home")) =
      [⟨.ofText "/home/project/.lucent.toml", .project, false⟩,
        ⟨.ofText "/home/.lucent.toml", .global, false⟩] := by
  decide +kernel

end SearchCompiler.Config
