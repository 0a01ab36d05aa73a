import SearchCompiler.Proofs.Json.Depth
import SearchCompiler.Proofs.Json.Scalars

/-!
# Reading back what is written

Both ways to write a document are layouts of the same tokens: they differ only in the space between
them (`toList_compact`, `toList_pretty`). A document in any layout is read as the value that was
written, cut off where arrays and objects are nested too deeply to be read (`read?_value`).
-/

namespace SearchCompiler.Json

/-- The digits of a number are read as that number. -/
def ReadsBack (x : Float) : Prop :=
  readNumber (Decimal.Style.json.double x).toList = some (.real x, [])

mutual

/-- A value that can be read back from its text: its integers fit 64 bits and the digits of its
other numbers read back. -/
def Writable : Json → Prop
  | .integer n => fits64 n = true
  | .real x => ReadsBack x
  | .single _ | .unreadable => False
  | .list items => WritableItems items
  | .object members => WritableMembers members
  | .null | .bool _ | .text _ => True

def WritableItems : List Json → Prop
  | [] => True
  | item :: rest => item.Writable ∧ WritableItems rest

def WritableMembers : List (String × Json) → Prop
  | [] => True
  | (_, value) :: rest => value.Writable ∧ WritableMembers rest

end

theorem writableItems_map {α : Type} {encode : α → Json} {items : List α}
    (each : ∀ a ∈ items, (encode a).Writable) : WritableItems (items.map encode) := by
  induction items with
  | nil => trivial
  | cons a rest ih =>
    rw [List.forall_mem_cons] at each
    exact ⟨each.1, ih each.2⟩

theorem writableMembers_append {members others : List (String × Json)}
    (left : WritableMembers members) (right : WritableMembers others) :
    WritableMembers (members ++ others) := by
  induction members with
  | nil => exact right
  | cons m rest ih => exact ⟨left.1, ih left.2⟩

theorem writableMembers_member? {α : Type} (name : String) {encode : α → Json} {o : Option α}
    (each : ∀ a ∈ o, (encode a).Writable) : WritableMembers (member? name encode o) := by
  cases o with
  | none => trivial
  | some a => exact ⟨each a rfl, trivial⟩

theorem writableMembers_listMember {α : Type} (name : String) {encode : α → Json} {items : List α}
    (each : ∀ a ∈ items, (encode a).Writable) : WritableMembers (listMember name encode items) := by
  unfold listMember
  split
  · trivial
  · exact ⟨writableItems_map each, trivial⟩

/-! ### Layouts -/

/-- The space between the tokens of a document. -/
structure Layout where
  /-- The space in front of an item, a member or a closing bracket on a level of indentation. -/
  line : Nat → List Char
  /-- The space between the name of a member and its value. -/
  gap : List Char
  line_isSpace : ∀ level, (line level).all isSpace = true
  gap_isSpace : gap.all isSpace = true

namespace Layout

def dense : Layout := ⟨fun _ => [], [], fun _ => rfl, rfl⟩

/-- Every item and member on a line of its own, indented by two blanks a level. -/
def lines : Layout where
  line level := '\n' :: List.replicate (2 * level) ' '
  gap := [' ']
  line_isSpace level := by
    rw [List.all_cons, List.all_replicate]
    split <;> rfl
  gap_isSpace := rfl

/-- Parts with a comma and space between neighbours. -/
def joined (l : Layout) (level : Nat) (parts : List (List Char)) : List Char :=
  Text.joinWith (',' :: l.line level) parts

/-- Parts between two brackets. -/
def enclosed (l : Layout) (level : Nat) (opening closing : Char) (parts : List (List Char)) :
    List Char :=
  if parts.isEmpty then [opening, closing]
  else
    opening :: (l.line (level + 1) ++ (l.joined (level + 1) parts ++ (l.line level ++ [closing])))

mutual

/-- The text of a value on a level of indentation. -/
def value (l : Layout) (level : Nat) : Json → List Char
  | .list items => l.enclosed level '[' ']' (l.itemTexts (level + 1) items)
  | .object members => l.enclosed level '\x7b' '\x7d' (l.memberTexts (level + 1) members)
  | scalar => (writeScalar scalar).toList

def itemTexts (l : Layout) (level : Nat) : List Json → List (List Char)
  | [] => []
  | item :: rest => l.value level item :: l.itemTexts level rest

def memberTexts (l : Layout) (level : Nat) : List (String × Json) → List (List Char)
  | [] => []
  | (name, value) :: rest =>
    ((writeText name).toList ++ ':' :: (l.gap ++ l.value level value)) :: l.memberTexts level rest

end

end Layout

theorem toList_joinTexts (mark : String) (pieces : List String) :
    (Text.joinTexts mark pieces).toList = Text.joinWith mark.toList (pieces.map String.toList) :=
  String.toList_ofList

theorem toList_blanks (n : Nat) : (Text.blanks n).toList = List.replicate n ' ' :=
  String.toList_ofList

/-- Brackets around nothing are the same whether parts are put between them or not. -/
theorem enclosed_dense (level : Nat) (opening closing : Char) (parts : List String) :
    Layout.dense.enclosed level opening closing (parts.map String.toList) =
      opening :: ((Text.joinTexts "," parts).toList ++ [closing]) := by
  rw [toList_joinTexts]
  cases parts <;> rfl

mutual

/-- A document on one line has no space. -/
theorem toList_compact (v : Json) (level : Nat) :
    v.compact.toList = Layout.dense.value level v := by
  cases v with
  | list items =>
    rw [compact, Layout.value, ← toList_compactItems items (level + 1), enclosed_dense,
      String.toList_append, String.toList_append]
    rfl
  | object members =>
    rw [compact, Layout.value, ← toList_compactMembers members (level + 1), enclosed_dense,
      String.toList_append, String.toList_append]
    rfl
  | _ => rfl

theorem toList_compactItems (items : List Json) (level : Nat) :
    (compactItems items).map String.toList = Layout.dense.itemTexts level items := by
  cases items with
  | nil => rfl
  | cons item rest =>
    rw [compactItems, List.map_cons, toList_compact item level, toList_compactItems rest level]
    rfl

theorem toList_compactMembers (members : List (String × Json)) (level : Nat) :
    (compactMembers members).map String.toList = Layout.dense.memberTexts level members := by
  cases members with
  | nil => rfl
  | cons first rest =>
    obtain ⟨name, value⟩ := first
    rw [compactMembers, List.map_cons, toList_compactMembers rest level, String.toList_append,
      String.toList_append, toList_compact value level, List.append_assoc]
    rfl

end

/-- Parts on lines of their own, as a layout. -/
theorem toList_indented (level : Nat) (opening closing : Char) (parts : List String) :
    (indented level (String.singleton opening) (String.singleton closing) parts).toList =
      Layout.lines.enclosed level opening closing (parts.map String.toList) := by
  have line (n : Nat) : "\n".toList ++ (Text.blanks (2 * n)).toList = Layout.lines.line n := by
    rw [toList_blanks]
    rfl
  unfold indented Layout.enclosed
  rw [List.isEmpty_map]
  split
  · rw [String.toList_append, String.toList_singleton, String.toList_singleton]
    rfl
  · simp only [String.toList_append, toList_joinTexts, line, String.toList_singleton,
      List.append_assoc]
    rfl

mutual

/-- An indented document has its items and members on lines of their own. -/
theorem toList_prettyAt (v : Json) (level : Nat) :
    (v.prettyAt level).toList = Layout.lines.value level v := by
  cases v with
  | list items =>
    rw [prettyAt, Layout.value, ← toList_prettyItems items (level + 1)]
    exact toList_indented level '[' ']' _
  | object members =>
    rw [prettyAt, Layout.value, ← toList_prettyMembers members (level + 1)]
    exact toList_indented level '\x7b' '\x7d' _
  | _ => rfl

theorem toList_prettyItems (items : List Json) (level : Nat) :
    (prettyItems level items).map String.toList = Layout.lines.itemTexts level items := by
  cases items with
  | nil => rfl
  | cons item rest =>
    rw [prettyItems, List.map_cons, toList_prettyAt item level, toList_prettyItems rest level]
    rfl

theorem toList_prettyMembers (members : List (String × Json)) (level : Nat) :
    (prettyMembers level members).map String.toList = Layout.lines.memberTexts level members := by
  cases members with
  | nil => rfl
  | cons first rest =>
    obtain ⟨name, value⟩ := first
    rw [prettyMembers, List.map_cons, toList_prettyMembers rest level, String.toList_append,
      String.toList_append, toList_prettyAt value level, List.append_assoc]
    rfl

end

/-! ### Reading -/

theorem skipSpace_cons {c : Char} (shown : isSpace c = false) (rest : List Char) :
    skipSpace (c :: rest) = c :: rest := by
  rw [skipSpace, List.dropWhile_cons, if_neg (by simp [shown])]

theorem skipSpace_append {pad : List Char} (space : pad.all isSpace = true) {c : Char}
    (shown : isSpace c = false) (rest : List Char) : skipSpace (pad ++ c :: rest) = c :: rest := by
  rw [skipSpace, List.dropWhile_append_of_pos (List.all_eq_true.mp space)]
  exact skipSpace_cons shown rest

/-- A text begins with neither space nor a closing bracket. -/
def BeginsValue (text : List Char) : Prop :=
  ∃ c tail, text = c :: tail ∧ isSpace c = false ∧ c ≠ ']'

/-- Behind space, reading goes on with what begins a value. -/
theorem skipSpace_begins {pad text : List Char} (space : pad.all isSpace = true)
    (begins : BeginsValue text) (rest : List Char) :
    skipSpace (pad ++ (text ++ rest)) = text ++ rest := by
  obtain ⟨c, tail, rfl, shown, -⟩ := begins
  exact skipSpace_append space shown _

/-- What is read as a number begins a value. -/
theorem beginsValue_number {cs left : List Char} {n : Json}
    (read : readNumber cs = some (n, left)) : BeginsValue cs := by
  obtain ⟨c, tail, rfl, first⟩ := head_of_readNumber read
  refine ⟨c, tail, rfl, ?_⟩
  rcases first with rfl | digit
  · exact ⟨rfl, by decide⟩
  · have other {d : Char} (plain : d.isDigit = false) : c ≠ d := by
      rintro rfl
      rw [digit] at plain
      cases plain
    refine ⟨?_, other rfl⟩
    simp only [isSpace, Bool.or_eq_false_iff, beq_eq_false_iff_ne]
    exact ⟨⟨⟨other rfl, other rfl⟩, other rfl⟩, other rfl⟩

theorem writeText_append (s : String) (rest : List Char) :
    (writeText s).toList ++ rest = '"' :: (s.toList.flatMap writtenChar ++ '"' :: rest) := by
  rw [writeText, String.toList_ofList, List.cons_append, List.append_assoc, List.singleton_append]

theorem readText_writeText (s : String) (rest : List Char) :
    readText ((s.toList.flatMap writtenChar ++ '"' :: rest).length + 1)
      (s.toList.flatMap writtenChar ++ '"' :: rest) = some (some s.toList, rest) := by
  refine readText_written rest ?_
  rw [List.length_append]
  omega

namespace Layout

variable (l : Layout) (level : Nat)

theorem joined_cons_cons (part next : List Char) (parts : List (List Char)) :
    l.joined level (part :: next :: parts) =
      part ++ ',' :: (l.line level ++ l.joined level (next :: parts)) := by
  change part ++ _ ++ _ = _
  rw [List.append_assoc]
  rfl

theorem head_joined {c : Char} {part : List Char} (parts : List (List Char))
    (head : ∃ tail, part = c :: tail) : ∃ tail, l.joined level (part :: parts) = c :: tail := by
  obtain ⟨tail, rfl⟩ := head
  cases parts with
  | nil => exact ⟨tail, rfl⟩
  | cons next parts => exact ⟨_, l.joined_cons_cons level _ next parts⟩

theorem beginsValue_joined {part : List Char} (parts : List (List Char))
    (begins : BeginsValue part) : BeginsValue (l.joined level (part :: parts)) := by
  obtain ⟨c, tail, text, own⟩ := begins
  obtain ⟨more, whole⟩ := l.head_joined level parts ⟨tail, text⟩
  exact ⟨c, more, whole, own⟩

theorem enclosed_cons (opening closing : Char) (part : List Char) (parts : List (List Char))
    (rest : List Char) :
    l.enclosed level opening closing (part :: parts) ++ rest =
      opening :: (l.line (level + 1) ++ (l.joined (level + 1) (part :: parts) ++
        (l.line level ++ closing :: rest))) := by
  change opening :: _ ++ rest = _
  simp only [List.cons_append, List.append_assoc, List.nil_append]

theorem length_enclosed (opening closing : Char) (part : List Char) (parts : List (List Char)) :
    (l.joined (level + 1) (part :: parts)).length + 2 ≤
      (l.enclosed level opening closing (part :: parts)).length := by
  rw [← List.append_nil (l.enclosed _ _ _ _), l.enclosed_cons, List.length_cons, List.length_append,
    List.length_append, List.length_append, List.length_cons]
  omega

/-- The text of a value begins with a character of its own. -/
theorem beginsValue_value {v : Json} (writable : v.Writable) : BeginsValue (l.value level v) := by
  have enclosed {opening closing : Char} (own : isSpace opening = false ∧ opening ≠ ']')
      (parts : List (List Char)) : BeginsValue (l.enclosed level opening closing parts) := by
    cases parts with
    | nil => exact ⟨opening, _, rfl, own⟩
    | cons part parts => exact ⟨opening, _, rfl, own⟩
  cases v with
  | null => exact ⟨_, _, rfl, rfl, by decide⟩
  | bool b => cases b <;> exact ⟨_, _, rfl, rfl, by decide⟩
  | integer n => exact beginsValue_number (readNumber_integer writable)
  | real x => exact beginsValue_number writable
  | single x => exact writable.elim
  | text s => exact ⟨'"', _, String.toList_ofList, rfl, by decide⟩
  | unreadable => exact writable.elim
  | list items => exact enclosed (by decide) _
  | object members => exact enclosed (by decide) _

end Layout

theorem endsNumber_cons {c : Char} (plain : c.isDigit = false ∧ c ≠ '.' ∧ c ≠ 'e' ∧ c ≠ 'E')
    (rest : List Char) : EndsNumber (c :: rest) := by
  rintro d ⟨⟩
  exact plain

/-- Space ends a number, and so does what stands behind a value. -/
theorem endsNumber_append {pad : List Char} (space : pad.all isSpace = true) {c : Char}
    (plain : c.isDigit = false ∧ c ≠ '.' ∧ c ≠ 'e' ∧ c ≠ 'E') (rest : List Char) :
    EndsNumber (pad ++ c :: rest) := by
  cases pad with
  | nil => exact endsNumber_cons plain rest
  | cons d pad =>
    refine endsNumber_cons ?_ _
    have blank : isSpace d = true := List.all_eq_true.mp space d List.mem_cons_self
    simp only [isSpace, Bool.or_eq_true, beq_iff_eq] at blank
    rcases blank with ((rfl | rfl) | rfl) | rfl <;> decide

/-! ### Steps of the reader -/

section Steps

variable {cs text left more rest : List Char} {fuel level : Nat} {value : Json}

theorem readValue_number (fuel level : Nat) (read : readNumber cs = some (value, left)) :
    readValue (fuel + 1) level cs = some (value, left) := by
  rw [readValue, read]
  all_goals
    rintro tail rfl
    obtain ⟨c, _, same, first⟩ := head_of_readNumber read
    cases same
    revert first
    decide

/-- A list is read if its items are. -/
theorem readValue_list {items : List Json} (begins : BeginsValue text)
    (skipped : skipSpace cs = text ++ rest)
    (read : readItems fuel (level + 1) (text ++ rest) = some (items, left)) :
    readValue (fuel + 1) level ('[' :: cs) =
      some (if level < levels then .list items else .unreadable, left) := by
  obtain ⟨c, tail, rfl, -, other⟩ := begins
  rw [readValue, skipped]
  split
  · next same =>
    cases same
    exact absurd rfl other
  · rw [read]
    rfl

/-- An object is read if its members are. -/
theorem readValue_object {members : List (String × Json)} (begins : ∃ tail, text = '"' :: tail)
    (skipped : skipSpace cs = text ++ rest)
    (read : readMembers fuel (level + 1) (text ++ rest) = some (some members, left)) :
    readValue (fuel + 1) level ('\x7b' :: cs) =
      some (if level < levels then .object members else .unreadable, left) := by
  obtain ⟨tail, rfl⟩ := begins
  rw [readValue, skipped]
  split
  · next same => cases same
  · rw [read]
    rfl

theorem readItems_last (read : readValue fuel level cs = some (value, left))
    (closed : skipSpace left = ']' :: rest) :
    readItems (fuel + 1) level cs = some ([value], rest) := by
  rw [readItems]
  simp only [bind, Option.bind_some, read, closed]
  rfl

theorem readItems_next {items : List Json} (read : readValue fuel level cs = some (value, left))
    (comma : skipSpace left = ',' :: more)
    (others : readItems fuel level (skipSpace more) = some (items, rest)) :
    readItems (fuel + 1) level cs = some (value :: items, rest) := by
  rw [readItems]
  simp only [bind, Option.bind_some, read, comma, others]
  rfl

theorem skipSpace_colon (cs : List Char) : skipSpace (':' :: cs) = ':' :: cs :=
  skipSpace_cons rfl cs

theorem readMembers_last (name : String) (skipped : skipSpace cs = text)
    (read : readValue fuel level text = some (value, left))
    (closed : skipSpace left = '\x7d' :: rest) :
    readMembers (fuel + 1) level ((writeText name).toList ++ ':' :: cs) =
      some (some [(name, value)], rest) := by
  rw [writeText_append, readMembers, readText_writeText]
  simp only [bind, Option.bind_some, skipSpace_colon, skipped, read, closed, Option.map_some,
    String.ofList_toList]
  rfl

theorem readMembers_next (name : String) {members : List (String × Json)}
    (skipped : skipSpace cs = text) (read : readValue fuel level text = some (value, left))
    (comma : skipSpace left = ',' :: more)
    (others : readMembers fuel level (skipSpace more) = some (some members, rest)) :
    readMembers (fuel + 1) level ((writeText name).toList ++ ':' :: cs) =
      some (some ((name, value) :: members), rest) := by
  rw [writeText_append, readMembers, readText_writeText]
  simp only [bind, Option.bind_some, skipSpace_colon, skipped, read, comma, others, Option.map_some,
    String.ofList_toList]
  rfl

end Steps

/-- An array or object is left if there are levels left for it. -/
theorem kept_on_level (level : Nat) (kept : Json) :
    (if level < levels then kept else .unreadable) =
      if levels - level = 0 then .unreadable else kept := by
  by_cases deep : level < levels
  · rw [if_pos deep, if_neg (by omega)]
  · rw [if_neg deep, if_pos (by omega)]

mutual

/-- The text of a value is read as the value, without what is nested too deeply. -/
theorem readValue_value (l : Layout) (v : Json) (writable : v.Writable) {indent level fuel : Nat}
    {rest : List Char} (enough : 2 * (l.value indent v).length < fuel) (ends : EndsNumber rest) :
    readValue fuel level (l.value indent v ++ rest) = some (v.cut (levels - level), rest) := by
  obtain ⟨fuel, rfl⟩ := Nat.exists_eq_add_one_of_ne_zero (Nat.ne_zero_of_lt enough)
  cases v with
  | null => rfl
  | bool b => cases b <;> rfl
  | integer n =>
    exact readValue_number fuel level (readNumber_append ends (readNumber_integer writable))
  | real x => exact readValue_number fuel level (readNumber_append ends writable)
  | single x => exact writable.elim
  | text s =>
    change readValue (fuel + 1) level ((writeText s).toList ++ rest) = _
    rw [writeText_append, readValue, readText_writeText]
    exact congrArg (fun t => some (Json.text t, rest)) String.ofList_toList
  | unreadable => exact writable.elim
  | list items =>
    rw [cut, ← kept_on_level]
    rw [Layout.value] at enough ⊢
    cases items with
    | nil => rfl
    | cons item others =>
      have begins := l.beginsValue_joined (indent + 1) (l.itemTexts (indent + 1) others)
        (l.beginsValue_value (indent + 1) writable.1)
      have inside := l.length_enclosed indent '[' ']' (l.value (indent + 1) item)
        (l.itemTexts (indent + 1) others)
      rw [Layout.itemTexts] at enough ⊢
      rw [l.enclosed_cons]
      exact readValue_list begins (skipSpace_begins (l.line_isSpace _) begins _)
        (readItems_itemTexts l (item :: others) (List.cons_ne_nil _ _) writable
          (l.line_isSpace indent) (by rw [Layout.itemTexts]; omega))
  | object members =>
    rw [cut, ← kept_on_level]
    rw [Layout.value] at enough ⊢
    cases members with
    | nil => rfl
    | cons first others =>
      obtain ⟨name, value⟩ := first
      have quote := l.head_joined (indent + 1) (l.memberTexts (indent + 1) others)
        ⟨_, writeText_append name (':' :: (l.gap ++ l.value (indent + 1) value))⟩
      have begins : BeginsValue (l.joined (indent + 1) (_ :: _)) :=
        quote.elim fun tail text => ⟨'"', tail, text, rfl, by decide⟩
      have inside := l.length_enclosed indent '\x7b' '\x7d'
        ((writeText name).toList ++ ':' :: (l.gap ++ l.value (indent + 1) value))
        (l.memberTexts (indent + 1) others)
      rw [Layout.memberTexts] at enough ⊢
      rw [l.enclosed_cons]
      exact readValue_object quote (skipSpace_begins (l.line_isSpace _) begins _)
        (readMembers_memberTexts l ((name, value) :: others) (List.cons_ne_nil _ _) writable
          (l.line_isSpace indent) (by rw [Layout.memberTexts]; omega))

/-- The texts of items are read one by one, up to the closing bracket. -/
theorem readItems_itemTexts (l : Layout) (items : List Json) (nonempty : items ≠ [])
    (writable : WritableItems items) {indent level fuel : Nat} {pad rest : List Char}
    (space : pad.all isSpace = true)
    (enough : 2 * (l.joined indent (l.itemTexts indent items)).length + 1 < fuel) :
    readItems fuel level (l.joined indent (l.itemTexts indent items) ++ (pad ++ ']' :: rest)) =
      some (cutItems (levels - level) items, rest) := by
  obtain ⟨fuel, rfl⟩ := Nat.exists_eq_add_one_of_ne_zero (Nat.ne_zero_of_lt enough)
  cases items with
  | nil => exact absurd rfl nonempty
  | cons item others =>
    obtain ⟨own, writable⟩ := writable
    cases others with
    | nil =>
      exact readItems_last
        (readValue_value l item own (Nat.lt_of_succ_lt_succ enough)
          (endsNumber_append space (by decide) rest))
        (skipSpace_append space rfl rest)
    | cons next others =>
      have begins := l.beginsValue_joined indent (l.itemTexts indent others)
        (l.beginsValue_value indent writable.1)
      rw [Layout.itemTexts, Layout.itemTexts, l.joined_cons_cons] at enough ⊢
      rw [List.length_append, List.length_cons, List.length_append] at enough
      rw [List.append_assoc, List.cons_append, List.append_assoc]
      refine readItems_next (readValue_value l item own (by omega)
        (endsNumber_cons (by decide) _)) (skipSpace_cons rfl _) ?_
      rw [skipSpace_begins (l.line_isSpace indent) begins]
      exact readItems_itemTexts l (next :: others) (List.cons_ne_nil _ _) writable space
        (by rw [Layout.itemTexts]; omega)

/-- The texts of members are read one by one, up to the closing brace. -/
theorem readMembers_memberTexts (l : Layout) (members : List (String × Json))
    (nonempty : members ≠ []) (writable : WritableMembers members) {indent level fuel : Nat}
    {pad rest : List Char} (space : pad.all isSpace = true)
    (enough : 2 * (l.joined indent (l.memberTexts indent members)).length + 1 < fuel) :
    readMembers fuel level (l.joined indent (l.memberTexts indent members) ++
        (pad ++ '\x7d' :: rest)) =
      some (some (cutMembers (levels - level) members), rest) := by
  obtain ⟨fuel, rfl⟩ := Nat.exists_eq_add_one_of_ne_zero (Nat.ne_zero_of_lt enough)
  cases members with
  | nil => exact absurd rfl nonempty
  | cons first others =>
    obtain ⟨name, value⟩ := first
    obtain ⟨own, writable⟩ := writable
    have begins := l.beginsValue_value indent own
    cases others with
    | nil =>
      have text : l.joined indent (l.memberTexts indent [(name, value)]) =
          (writeText name).toList ++ ':' :: (l.gap ++ l.value indent value) := rfl
      rw [text, List.length_append, List.length_cons, List.length_append] at enough
      rw [text, List.append_assoc, List.cons_append, List.append_assoc]
      exact readMembers_last name (skipSpace_begins l.gap_isSpace begins _)
        (readValue_value l value own (by omega) (endsNumber_append space (by decide) rest))
        (skipSpace_append space rfl rest)
    | cons next others =>
      obtain ⟨name', value'⟩ := next
      have quote := l.head_joined indent (l.memberTexts indent others)
        ⟨_, writeText_append name' (':' :: (l.gap ++ l.value indent value'))⟩
      have following : BeginsValue (l.joined indent (_ :: _)) :=
        quote.elim fun tail text => ⟨'"', tail, text, rfl, by decide⟩
      rw [Layout.memberTexts, Layout.memberTexts, l.joined_cons_cons] at enough ⊢
      simp only [List.length_append, List.length_cons] at enough
      simp only [List.append_assoc, List.cons_append]
      refine readMembers_next name (skipSpace_begins l.gap_isSpace begins _)
        (readValue_value l value own (by omega) (endsNumber_cons (by decide) _))
        (skipSpace_cons rfl _) ?_
      rw [skipSpace_begins (l.line_isSpace indent) following]
      exact readMembers_memberTexts l ((name', value') :: others) (List.cons_ne_nil _ _) writable
        space (by rw [Layout.memberTexts]; omega)

end

/-- A document in any layout is read as the value that was written, without what is nested too
deeply. -/
theorem read?_value (l : Layout) {v : Json} (writable : v.Writable) :
    read? (String.ofList (l.value 0 v)) = some (v.cut levels) := by
  have read : readValue (2 * (l.value 0 v).length + 2) 0 (l.value 0 v ++ []) =
      some (v.cut (levels - 0), []) :=
    readValue_value l v writable (by omega) nofun
  have begins : skipSpace (l.value 0 v) = l.value 0 v := by
    obtain ⟨c, tail, text, shown, -⟩ := l.beginsValue_value 0 writable
    rw [text, skipSpace_cons shown]
  rw [List.append_nil, Nat.sub_zero] at read
  unfold read?
  dsimp only
  rw [String.toList_ofList, begins, read]
  rfl

theorem read?_compact {v : Json} (writable : v.Writable) :
    read? v.compact = some (v.cut levels) := by
  rw [← String.ofList_toList (s := v.compact), toList_compact v 0, read?_value _ writable]

theorem read?_pretty {v : Json} (writable : v.Writable) :
    read? v.pretty = some (v.cut levels) := by
  rw [pretty, ← String.ofList_toList (s := v.prettyAt 0), toList_prettyAt v 0,
    read?_value _ writable]

end SearchCompiler.Json
