import SearchCompiler.Proofs.Toml.Values

/-!
# Documents of sections

A document is a sequence of sections: a header, then keys with values. Every line takes the reader
from one page to the next (`Leads`), and a header opens a place in the document (`Opens`) that the
keys below it fill. A document is read section by section (`read?_sections`).
-/

namespace SearchCompiler.Toml

/-! ### Places in a document -/

namespace Draft

variable {outer : Members} {key : String}

theorem change_new (new : ∀ m ∈ outer, m.1 ≠ key) (f : Option Draft → Option Draft) :
    change key f outer = (f none).map fun part => outer ++ [(key, part)] := by
  induction outer with
  | nil => rfl
  | cons m rest ih =>
    rw [List.forall_mem_cons] at new
    rw [change, if_neg new.1, ih new.2, Option.map_map]
    rfl

theorem change_last (new : ∀ m ∈ outer, m.1 ≠ key) (part : Draft) (f : Option Draft → Option Draft) :
    change key f (outer ++ [(key, part)]) =
      (f (some part)).map fun part => outer ++ [(key, part)] := by
  induction outer with
  | nil => exact if_pos rfl
  | cons m rest ih =>
    rw [List.forall_mem_cons] at new
    rw [List.cons_append, change, if_neg new.1, ih new.2, Option.map_map]
    rfl

/-- A header leads to a place in the document, whatever is there. -/
def Opens (header : List String) (put : Members → Members) : Prop :=
  ∀ inner f, atHeader header f (put inner) = (f inner).map put

theorem opens_nil : Opens [] id := fun _ _ => Option.map_id'.symm

/-- A header below a table that is new. -/
theorem opens_cons {path : List String} {put : Members → Members} (new : ∀ m ∈ outer, m.1 ≠ key)
    (form : Form) (opens : Opens path put) :
    Opens (key :: path) fun inner => outer ++ [(key, .table form (put inner))] := by
  intro inner f
  have inside : within .passed (fun _ => true) (fun _ => f) path form (put inner) =
      (f inner).map put := by
    cases path with
    | nil => exact opens inner f
    | cons next rest => exact opens inner f
  rw [atHeader, within, change_last new]
  dsimp only
  rw [if_pos rfl, inside, Option.map_map, Option.map_map]
  rfl

theorem assign_new (new : ∀ m ∈ outer, m.1 ≠ key) (value : Toml) :
    assign [] key value outer = some (outer ++ [(key, .closed value)]) :=
  change_new new _

theorem define_new (new : ∀ m ∈ outer, m.1 ≠ key) :
    define [] key outer = some (outer ++ [(key, .table .defined [])]) :=
  change_new new _

/-- Values as members of a table in the making. -/
def ofValues (values : List (String × Toml)) : Members :=
  values.map fun m => (m.1, .closed m.2)

theorem membersToToml_ofValues (values : List (String × Toml)) :
    membersToToml (ofValues values) = values := by
  induction values with
  | nil => rfl
  | cons m rest ih =>
    change (m.1, m.2) :: membersToToml (ofValues rest) = _
    rw [ih]

end Draft

open Draft

/-! ### Keys -/

section Keys

variable {fuel : Nat} {rest : List Char}

theorem isOpening_of_isKeyChar {c : Char} (plain : isKeyChar c = true) : IsOpening c ∧ c ≠ '[' := by
  have other : ∀ d, isKeyChar d = false → c ≠ d := by
    rintro d mark rfl
    rw [plain] at mark
    cases mark
  refine ⟨⟨?_, other _ rfl, other _ rfl, other _ rfl, other _ rfl⟩, other _ rfl⟩
  simp [isSpace, other ' ' rfl, other '\t' rfl]

theorem exists_writtenKey (key : String) :
    ∃ c tail, (writtenKey key).toList = c :: tail ∧ IsOpening c ∧ c ≠ '[' := by
  unfold writtenKey
  rw [String.toList_ofList]
  split
  · next bare =>
    rw [Bool.and_eq_true, Bool.not_eq_true', List.isEmpty_eq_false_iff] at bare
    obtain ⟨c, tail, same⟩ := List.exists_cons_of_ne_nil bare.1
    exact ⟨c, tail, same,
      isOpening_of_isKeyChar (List.all_eq_true.mp bare.2 c (same ▸ List.mem_cons_self))⟩
  split
  · exact ⟨'"', _, rfl, by constructor <;> decide, by decide⟩
  split
  · exact ⟨'\'', _, rfl, by constructor <;> decide, by decide⟩
  · exact ⟨'"', _, rfl, by constructor <;> decide, by decide⟩

theorem skipSpace_writtenKey (key : String) (rest : List Char) :
    skipSpace ((writtenKey key).toList ++ rest) = (writtenKey key).toList ++ rest := by
  obtain ⟨c, tail, same, opening, -⟩ := exists_writtenKey key
  rw [same, List.cons_append, skipSpace_cons opening.space]

/-- The keys of a path, with dots between them. -/
def keyChars (path : List String) : List Char :=
  Text.joinWith ['.'] (path.map fun key => (writtenKey key).toList)

theorem keyChars_cons (key next : String) (path : List String) :
    keyChars (key :: next :: path) = (writtenKey key).toList ++ '.' :: keyChars (next :: path) := by
  simp [keyChars, Text.joinWith]

/-- Keys with dots between them are read back. -/
theorem readKeys_written (path : List String) (key : String)
    (enough : (keyChars (path ++ [key])).length < fuel)
    (ends : ∀ c ∈ rest.head?, isKeyChar c = false)
    (no_dot : ∀ tail, skipSpace rest ≠ '.' :: tail) :
    readKeys fuel (keyChars (path ++ [key]) ++ rest) = some (path, key, skipSpace rest) := by
  induction path generalizing fuel with
  | nil =>
    obtain ⟨fuel, rfl⟩ := Nat.exists_eq_add_one_of_ne_zero (Nat.ne_zero_of_lt enough)
    change readKeys (fuel + 1) ((writtenKey key).toList ++ rest) = _
    rw [readKeys, skipSpace_writtenKey, readKey_writtenKey key ends]
    simp only [bind, Option.bind_some]
    rfl
  | cons first path ih =>
    obtain ⟨fuel, rfl⟩ := Nat.exists_eq_add_one_of_ne_zero (Nat.ne_zero_of_lt enough)
    obtain ⟨next, others, more⟩ : ∃ next others, path ++ [key] = next :: others :=
      List.exists_cons_of_ne_nil (by simp)
    rw [List.cons_append, more, keyChars_cons, ← more] at enough ⊢
    rw [List.length_append, List.length_cons] at enough
    have inner : (keyChars (path ++ [key])).length < fuel := by omega
    have dot : skipSpace ('.' :: (keyChars (path ++ [key]) ++ rest)) =
        '.' :: (keyChars (path ++ [key]) ++ rest) := rfl
    rw [List.append_assoc, readKeys, skipSpace_writtenKey, List.cons_append,
      readKey_writtenKey first (by rintro _ ⟨⟩; rfl)]
    simp only [bind, Option.bind_some, dot, ih inner]
    rfl

/-- A path of keys is read as it was written, if it is not too long. -/
theorem readPath_written {path : List String} (shallow : path.length < levels) (key : String)
    (ends : ∀ c ∈ rest.head?, isKeyChar c = false)
    (no_dot : ∀ tail, skipSpace rest ≠ '.' :: tail) :
    readPath (keyChars (path ++ [key]) ++ rest) = some (path, key, skipSpace rest) := by
  have enough : (keyChars (path ++ [key])).length <
      (keyChars (path ++ [key]) ++ rest).length + 1 := by
    rw [List.length_append]
    omega
  rw [readPath, readKeys_written path key enough ends no_dot]
  simp only [bind, Option.bind_some, if_neg (Nat.not_le.mpr shallow)]
  rfl

theorem exists_keyChars (path : List String) (key : String) :
    ∃ c tail, keyChars (path ++ [key]) = c :: tail ∧ c ≠ '[' := by
  cases path with
  | nil =>
    obtain ⟨c, tail, same, -, other⟩ := exists_writtenKey key
    exact ⟨c, tail, same, other⟩
  | cons first path =>
    obtain ⟨next, others, more⟩ : ∃ next others, path ++ [key] = next :: others :=
      List.exists_cons_of_ne_nil (by simp)
    obtain ⟨c, tail, same, -, other⟩ := exists_writtenKey first
    rw [List.cons_append, more, keyChars_cons, same]
    exact ⟨c, _, rfl, other⟩

end Keys

/-! ### Lines -/

section Lines

variable {page page' page'' : Page} {cs rest : List Char}

/-- The reader comes from one page with a text in front of it to another with the rest of it. -/
def Leads (page : Page) (cs : List Char) (page' : Page) (rest : List Char) : Prop :=
  ∀ fuel, cs.length < fuel →
    ∃ fuel', rest.length < fuel' ∧ readLines fuel page cs = readLines fuel' page' rest

theorem Leads.refl (page : Page) (cs : List Char) : Leads page cs page cs :=
  fun fuel enough => ⟨fuel, enough, rfl⟩

theorem Leads.trans {more : List Char} (leads : Leads page cs page' rest)
    (leads' : Leads page' rest page'' more) : Leads page cs page'' more := by
  intro fuel enough
  obtain ⟨fuel', enough', same⟩ := leads fuel enough
  obtain ⟨fuel'', enough'', same'⟩ := leads' fuel' enough'
  exact ⟨fuel'', enough'', same.trans same'⟩

theorem leads_blank (page : Page) (cs : List Char) : Leads page ('\n' :: cs) page cs := by
  intro fuel enough
  obtain ⟨fuel, rfl⟩ := Nat.exists_eq_add_one_of_ne_zero (Nat.ne_zero_of_lt enough)
  exact ⟨fuel + 1, Nat.lt_of_succ_lt enough, rfl⟩

theorem leads_line {c : Char} {tail : List Char} (opening : IsOpening c)
    (line : readLine page (c :: tail) = some (page', '\n' :: rest))
    (shorter : rest.length < (c :: tail).length) : Leads page (c :: tail) page' rest := by
  intro fuel enough
  obtain ⟨fuel, rfl⟩ := Nat.exists_eq_add_one_of_ne_zero (Nat.ne_zero_of_lt enough)
  refine ⟨fuel, by omega, ?_⟩
  have ended : endLine? ('\n' :: rest) = some rest := rfl
  rw [readLines, skipFill_opening opening]
  simp only [bind, Option.bind_some, line, ended]

variable {root root' : Members} {header : List String}

/-- A header is one line, and opens its table. -/
theorem leads_header {path : List String} {key : String} (shallow : path.length < levels)
    (defined : define path key root = some root') (rest : List Char) :
    Leads ⟨root, header⟩ ('[' :: (keyChars (path ++ [key]) ++ ']' :: '\n' :: rest))
      ⟨root', path ++ [key]⟩ rest := by
  have read : readPath (keyChars (path ++ [key]) ++ ']' :: '\n' :: rest) =
      some (path, key, skipSpace (']' :: '\n' :: rest)) :=
    readPath_written shallow key (by rintro _ ⟨⟩; rfl) nofun
  have closed : expect? ']' (skipSpace (']' :: '\n' :: rest)) = some ('\n' :: rest) := rfl
  obtain ⟨c, tail, same, other⟩ := exists_keyChars path key
  refine leads_line (by constructor <;> decide) ?_ (by simp; omega)
  rw [same, List.cons_append] at read ⊢
  rw [readLine]
  · simp only [bind, Option.bind_some, read, closed, defined]
    rfl
  · exact fun _ again => other (List.cons.inj again).1

def memberLine (key : String) (value : Toml) : List Char :=
  (writtenKey key).toList ++ ' ' :: '=' :: ' ' :: ((writtenValue value).toList ++ ['\n'])

/-- A member is one line, and puts its value where the header says. -/
theorem leads_member {key : String} {written value : Toml}
    (writes : Writes 0 (writtenValue written).toList value)
    (assigned : atHeader header (assign [] key value) root = some root') (rest : List Char) :
    Leads ⟨root, header⟩ (memberLine key written ++ rest) ⟨root', header⟩ rest := by
  have text : memberLine key written ++ rest = (writtenKey key).toList ++
      ' ' :: '=' :: ' ' :: ((writtenValue written).toList ++ '\n' :: rest) := by
    simp [memberLine]
  have path : readPath ((writtenKey key).toList ++
      ' ' :: '=' :: ' ' :: ((writtenValue written).toList ++ '\n' :: rest)) =
      some ([], key, skipSpace (' ' :: '=' :: ' ' ::
        ((writtenValue written).toList ++ '\n' :: rest))) := by
    have shallow : ([] : List String).length < levels := by decide
    exact readPath_written shallow key (by rintro _ ⟨⟩; rfl) nofun
  obtain ⟨v, others, begins, opening⟩ := writes.begins
  have equals : expect? '=' (skipSpace (' ' :: '=' :: ' ' ::
      ((writtenValue written).toList ++ '\n' :: rest))) =
      some (' ' :: ((writtenValue written).toList ++ '\n' :: rest)) := rfl
  have gap : skipSpace (' ' :: ((writtenValue written).toList ++ '\n' :: rest)) =
      (writtenValue written).toList ++ '\n' :: rest := by
    change skipSpace ((writtenValue written).toList ++ '\n' :: rest) = _
    rw [begins, List.cons_append, skipSpace_cons opening.space]
  have read := writes.read
    (2 * (' ' :: ((writtenValue written).toList ++ '\n' :: rest)).length + 2) ('\n' :: rest)
    (by rw [List.length_cons, List.length_append]; omega) (endsValue_cons (by decide) rest)
  obtain ⟨c, tail, same, first, no_header⟩ := exists_writtenKey key
  have shorter : rest.length < (memberLine key written ++ rest).length := by
    rw [text, same]
    simp
    omega
  rw [text, same, List.cons_append] at shorter ⊢
  refine leads_line first ?_ shorter
  rw [same, List.cons_append] at path
  rw [readLine]
  · simp only [bind, Option.bind_some, path, equals, gap, read, assigned]
    rfl
  · exact fun _ again => no_header (List.cons.inj again).1
  · exact fun _ again => no_header (List.cons.inj again).1

end Lines

/-! ### Sections -/

/-- Keys that are new stay so behind another key that differs from them. -/
theorem new_after {α : Type} {known : Members} {key : String} (part : Draft)
    {others : List (String × α)} (new : ∀ t ∈ others, ∀ m ∈ known, m.1 ≠ t.1)
    (apart : ∀ t ∈ others, key ≠ t.1) :
    ∀ t ∈ others, ∀ m ∈ known ++ [(key, part)], m.1 ≠ t.1 := by
  intro t among m stands
  rcases List.mem_append.mp stands with stands | own
  · exact new t among m stands
  · rw [List.mem_singleton.mp own]
    exact apart t among

/-- A header and the keys with values below it. -/
structure Section where
  path : List String
  key : String
  members : List (String × Toml)

namespace Section

/-- What the keys of a section are read as. -/
def values (s : Section) : List (String × Toml) :=
  s.members.map fun m => (m.1, reread m.2)

/-- A section can be read: no key occurs twice, and every value is read as it should be. -/
structure Readable (s : Section) : Prop where
  shallow : s.path.length < levels
  distinct : s.members.Pairwise fun m n => m.1 ≠ n.1
  each : ∀ m ∈ s.members, Writes 0 (writtenValue m.2).toList (reread m.2)

def memberLines (members : List (String × Toml)) : List Char :=
  members.flatMap fun m => memberLine m.1 m.2

def chars (s : Section) : List Char :=
  '[' :: (keyChars (s.path ++ [s.key]) ++ ']' :: '\n' :: memberLines s.members)

/-- Members one after the other fill the table of their header. -/
theorem leads_members {header : List String} {put : Members → Members} (opens : Opens header put)
    {members : List (String × Toml)} {inner : Members}
    (each : ∀ m ∈ members, Writes 0 (writtenValue m.2).toList (reread m.2))
    (distinct : members.Pairwise fun m n => m.1 ≠ n.1)
    (new : ∀ m ∈ members, ∀ n ∈ inner, n.1 ≠ m.1) (rest : List Char) :
    Leads ⟨put inner, header⟩ (memberLines members ++ rest)
      ⟨put (inner ++ ofValues (members.map fun m => (m.1, reread m.2))), header⟩ rest := by
  induction members generalizing inner with
  | nil =>
    change Leads _ rest ⟨put (inner ++ []), header⟩ rest
    rw [List.append_nil]
    exact .refl _ _
  | cons m members ih =>
    obtain ⟨front, others⟩ := List.pairwise_cons.mp distinct
    rw [List.forall_mem_cons] at each new
    have assigned : atHeader header (assign [] m.1 (reread m.2)) (put inner) =
        some (put (inner ++ [(m.1, .closed (reread m.2))])) := by
      rw [opens, assign_new new.1, Option.map_some]
    have more := ih each.2 others (new_after (.closed (reread m.2)) new.2 front)
    rw [List.append_assoc] at more
    rw [memberLines, List.flatMap_cons, List.append_assoc]
    exact (leads_member each.1 assigned _).trans more

/-- A section fills the place that its header opens. -/
theorem Readable.leads {s : Section} (readable : s.Readable) {root : Members}
    {put : Members → Members} (defined : define s.path s.key root = some (put []))
    (opens : Opens (s.path ++ [s.key]) put) (header : List String) (rest : List Char) :
    Leads ⟨root, header⟩ (s.chars ++ rest)
      ⟨put (ofValues s.values), s.path ++ [s.key]⟩ rest := by
  have text : s.chars ++ rest = '[' :: (keyChars (s.path ++ [s.key]) ++
      ']' :: '\n' :: (memberLines s.members ++ rest)) := by
    simp [chars]
  have new : ∀ m ∈ s.members, ∀ n ∈ ([] : Members), n.1 ≠ m.1 :=
    fun _ _ _ among => absurd among List.not_mem_nil
  rw [text]
  exact (leads_header readable.shallow defined _).trans
    (leads_members opens readable.each readable.distinct new rest)

end Section

/-- Sections fill a document, one after the other. -/
inductive Fills : Members → List Section → Members → Prop where
  | nil (root : Members) : Fills root [] root
  | cons {root root' : Members} {s : Section} {rest : List Section} {put : Members → Members} :
      s.Readable → define s.path s.key root = some (put []) → Opens (s.path ++ [s.key]) put →
      Fills (put (ofValues s.values)) rest root' → Fills root (s :: rest) root'

theorem Fills.append {root root' root'' : Members} {ss others : List Section}
    (fills : Fills root ss root') (more : Fills root' others root'') :
    Fills root (ss ++ others) root'' := by
  induction fills with
  | nil => exact more
  | cons readable defined opens _ ih => exact .cons readable defined opens (ih more)

/-- The table that a section fills. -/
def Section.draft (s : Section) : Draft :=
  .table .defined (ofValues s.values)

theorem Section.toToml_draft (s : Section) : s.draft.toToml = .table s.values := by
  rw [draft, toToml, membersToToml_ofValues]

/-- A section fills a table of the document. -/
theorem fills_table {outer : Members} {key : String} (new : ∀ m ∈ outer, m.1 ≠ key)
    {members : List (String × Toml)} (readable : (Section.mk [] key members).Readable) :
    Fills outer [⟨[], key, members⟩] (outer ++ [(key, (Section.mk [] key members).draft)]) := by
  have opens : Opens ([] ++ [key]) fun inner => outer ++ [(key, .table .defined inner)] :=
    opens_cons new .defined opens_nil
  exact @Fills.cons outer _ ⟨[], key, members⟩ _ _ readable (define_new new) opens (.nil _)

/-- A document with a table of tables behind the rest. -/
def withTables (outer : Members) (key : String) (tables : Members) : Members :=
  outer ++ [(key, .table .passed tables)]

theorem opens_withTables {outer : Members} {key : String} (new : ∀ m ∈ outer, m.1 ≠ key) :
    Opens [key] (withTables outer key) :=
  opens_cons new .passed opens_nil

/-- The header of another table finds the others where the first one opened a place for all. -/
theorem fills_withTables {outer : Members} {key : String} (new : ∀ m ∈ outer, m.1 ≠ key)
    {tables : List (String × List (String × Toml))} {done : Members}
    (apart : ∀ t ∈ tables, ∀ m ∈ done, m.1 ≠ t.1)
    (distinct : tables.Pairwise fun t u => t.1 ≠ u.1)
    (readable : ∀ t ∈ tables, (Section.mk [key] t.1 t.2).Readable) :
    Fills (withTables outer key done) (tables.map fun t => ⟨[key], t.1, t.2⟩)
      (withTables outer key (done ++ tables.map fun t =>
        (t.1, (Section.mk [key] t.1 t.2).draft))) := by
  induction tables generalizing done with
  | nil =>
    rw [List.map_nil, List.map_nil, List.append_nil]
    exact .nil _
  | cons t rest ih =>
    rw [List.forall_mem_cons] at apart readable
    obtain ⟨front, distinct⟩ := List.pairwise_cons.mp distinct
    have defined : define [key] t.1 (withTables outer key done) =
        some (withTables outer key (done ++ [(t.1, .table .defined [])])) := by
      rw [define, opens_withTables new, change_new apart.1]
      rfl
    have opens : Opens ([key] ++ [t.1]) fun inner =>
        withTables outer key (done ++ [(t.1, .table .defined inner)]) :=
      opens_cons new .passed (opens_cons apart.1 .defined opens_nil)
    have more := ih (new_after (Section.mk [key] t.1 t.2).draft apart.2 front) distinct readable.2
    rw [List.append_assoc] at more
    exact .cons readable.1 defined opens more

/-- A table of tables, one of which there is at least, is filled by their sections. -/
theorem fills_tables {outer : Members} {key : String} (new : ∀ m ∈ outer, m.1 ≠ key)
    {tables : List (String × List (String × Toml))} (some_table : tables ≠ [])
    (distinct : tables.Pairwise fun t u => t.1 ≠ u.1)
    (readable : ∀ t ∈ tables, (Section.mk [key] t.1 t.2).Readable) :
    Fills outer (tables.map fun t => ⟨[key], t.1, t.2⟩)
      (withTables outer key (tables.map fun t => (t.1, (Section.mk [key] t.1 t.2).draft))) := by
  obtain ⟨t, rest, rfl⟩ := List.exists_cons_of_ne_nil some_table
  rw [List.forall_mem_cons] at readable
  obtain ⟨front, distinct⟩ := List.pairwise_cons.mp distinct
  have none_before : ∀ u, ∀ m ∈ ([] : Members), m.1 ≠ u :=
    fun _ _ among => absurd among List.not_mem_nil
  have defined : define [key] t.1 outer =
      some (withTables outer key [(t.1, .table .defined [])]) := by
    rw [define, atHeader, within, change_new new]
    rfl
  have opens : Opens ([key] ++ [t.1]) fun inner =>
      withTables outer key [(t.1, .table .defined inner)] :=
    opens_cons new .passed (opens_cons (none_before t.1) .defined opens_nil)
  have front' := new_after (Section.mk [key] t.1 t.2).draft (fun u _ => none_before u.1) front
  have others := fills_withTables new front' distinct readable.2
  exact @Fills.cons outer _ ⟨[key], t.1, t.2⟩ _ _ readable.1 defined opens others

/-- Sections are read with blank lines between them. -/
theorem Fills.leads {root root' : Members} {ss : List Section} (fills : Fills root ss root')
    (header : List String) : ∃ header',
    Leads ⟨root, header⟩ (Text.joinWith ['\n'] (ss.map Section.chars)) ⟨root', header'⟩ [] := by
  induction fills generalizing header with
  | nil root => exact ⟨header, .refl _ _⟩
  | @cons root root' s rest put readable defined opens _ ih =>
    obtain ⟨header', others⟩ := ih (s.path ++ [s.key])
    refine ⟨header', ?_⟩
    cases rest with
    | nil =>
      have alone := readable.leads defined opens header []
      rw [List.append_nil] at alone
      exact alone.trans others
    | cons next rest =>
      have text : Text.joinWith ['\n'] ((s :: next :: rest).map Section.chars) =
          s.chars ++ '\n' :: Text.joinWith ['\n'] ((next :: rest).map Section.chars) := by
        simp [Text.joinWith]
      rw [text]
      exact ((readable.leads defined opens header _).trans (leads_blank _ _)).trans others

/-- A document is read section by section. -/
theorem read?_sections {root : Members} {ss : List Section} (fills : Fills [] ss root) :
    read? (String.ofList (Text.joinWith ['\n'] (ss.map Section.chars))) =
      some (.table (membersToToml root)) := by
  obtain ⟨header, leads⟩ := fills.leads []
  obtain ⟨fuel, enough, same⟩ := leads _ (Nat.lt_succ_self _)
  obtain ⟨fuel, rfl⟩ := Nat.exists_eq_add_one_of_ne_zero (Nat.ne_zero_of_lt enough)
  have ended : readLines (fuel + 1) ⟨root, header⟩ [] = some root := rfl
  have plain : ∀ c ∈ (Text.joinWith ['\n'] (ss.map Section.chars)).head?, c = '[' := by
    cases ss with
    | nil => exact nofun
    | cons s rest => cases rest <;> rintro _ ⟨⟩ <;> rfl
  unfold read?
  rw [String.toList_ofList]
  split
  · next same => rw [same] at plain; exact absurd (plain _ rfl) (by decide)
  · exact congrArg (Option.map fun root => Toml.table (membersToToml root)) (same.trans ended)

/-! ### Sections of a table -/

theorem memberSections_flat (path : List String) {members : List (String × Toml)}
    (flat : ∀ m ∈ members, isTable m.2 = false) : memberSections path members = [] := by
  induction members with
  | nil => rfl
  | cons m rest ih =>
    rw [List.forall_mem_cons] at flat
    obtain ⟨key, value⟩ := m
    have own : value.sections (path ++ [key]) = [] := by
      cases value with
      | table => cases flat.1
      | _ => rfl
    rw [memberSections, own, ih flat.2, List.append_nil]

theorem toList_headerText (path : List String) :
    (headerText path).toList = '[' :: (keyChars path ++ [']', '\n']) := by
  simp [headerText, keyChars, Text.joinTexts, Function.comp_def]

theorem toList_memberTexts (members : List (String × Toml)) :
    (String.join ((writtenMembers members).map (· ++ "\n"))).toList =
      Section.memberLines members := by
  induction members with
  | nil => rfl
  | cons m rest ih =>
    obtain ⟨key, value⟩ := m
    rw [writtenMembers, List.map_cons, String.join_cons, String.toList_append, ih,
      Section.memberLines, Section.memberLines, List.flatMap_cons]
    simp [memberLine]

/-- A table without tables is a section. -/
theorem sections_flat (path : List String) (key : String) {members : List (String × Toml)}
    (flat : ∀ m ∈ members, isTable m.2 = false) :
    (Toml.table members).sections (path ++ [key]) =
      [String.ofList (Section.chars ⟨path, key, members⟩)] := by
  have own : members.filter (fun m => !m.2.isTable) = members :=
    List.filter_eq_self.mpr fun m among => by rw [flat m among]; rfl
  have path_nonempty : (path ++ [key]).isEmpty = false := by simp
  have some_own : (members.isEmpty && !members.isEmpty) = false := by simp
  rw [sections, memberSections_flat _ flat, ownSection, own, path_nonempty, some_own,
    if_neg Bool.false_ne_true, if_neg Bool.false_ne_true, List.append_nil]
  refine congrArg (fun text => [text]) (String.ext ?_)
  rw [String.toList_append, toList_headerText, toList_memberTexts, String.toList_ofList]
  simp [Section.chars]

end SearchCompiler.Toml
