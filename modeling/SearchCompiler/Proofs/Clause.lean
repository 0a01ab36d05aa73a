import SearchCompiler.Clause

/-!
# Written clauses

How the written form of a clause is made up, constructor by constructor, and how its sign shows in
the text. A clause carries a sign when it was given one; a text carries a sign when it begins with
one. The two agree wherever field names are words (`startsWithSign_onField`), and only there: a name
that began with a hyphen would read as a sign.
-/

namespace SearchCompiler

def startsWithSign : List Char → Bool
  | '+' :: _ => true
  | '-' :: _ => true
  | _ => false

theorem startsWithSign_cons (c : Char) (rest : List Char) :
    startsWithSign (c :: rest) = (c == '+' || c == '-') := by
  unfold startsWithSign
  split <;> simp_all

theorem startsWithSign_sign (sign : Sign) (rest : List Char) :
    startsWithSign (sign.char :: rest) = true := by
  cases sign <;> rfl

namespace Name

/-- Whether a character may occur in the names of backend fields: letters, digits and the
underscore. -/
def isWordChar (c : Char) : Bool :=
  c.isAlphanum || c == '_'

/-- A name of such characters only. -/
def IsWord (name : String) : Prop :=
  name.toList.all isWordChar = true

instance (name : String) : Decidable (IsWord name) :=
  inferInstanceAs (Decidable (name.toList.all isWordChar = true))

/-- A name that is a word does not begin like a signed clause. -/
theorem isWordChar_not_sign {c : Char} (word : isWordChar c = true) :
    (c == '+' || c == '-') = false := by
  rw [Bool.or_eq_false_iff, beq_eq_false_iff_ne, beq_eq_false_iff_ne]
  constructor
  · rintro rfl
    exact absurd word (by decide)
  · rintro rfl
    exact absurd word (by decide)

end Name

namespace Clause

/-- The sign that a clause was given. -/
def sign? : Clause → Option Sign
  | .signed sign _ => some sign
  | _ => none

def unsigned : Clause → Clause
  | .signed _ c => c
  | c => c

mutual

/-- The backend fields that a clause searches, as often as it does. -/
def fieldNames : Clause → List String
  | .atom _ => []
  | .signed _ c => c.fieldNames
  | .onField name c _ => name :: c.fieldNames
  | .list cs => allFieldNames cs
  | .row cs => allFieldNames cs
  | .both a b => a.fieldNames ++ b.fieldNames
  | .dismax targets cs => targets.map Target.name ++ allFieldNames cs

def allFieldNames : List Clause → List String
  | [] => []
  | c :: rest => c.fieldNames ++ allFieldNames rest

end

/-- Clauses made of parts with signs, parentheses and the word `AND`. -/
inductive IsMadeOf (part : Clause → Prop) : Clause → Prop where
  | all : IsMadeOf part everything
  | part {c : Clause} : part c → IsMadeOf part c
  | signed (sign : Sign) {c : Clause} : c.sign? = none → IsMadeOf part c →
      IsMadeOf part (.signed sign c)
  | list {cs : List Clause} : (∀ c ∈ cs, IsMadeOf part c) → IsMadeOf part (.list cs)
  | both {a b : Clause} : IsMadeOf part a → IsMadeOf part b → IsMadeOf part (.both a b)

namespace IsMadeOf

variable {part other : Clause → Prop} {c : Clause}

theorem mono (step : ∀ c, part c → other c) (made : c.IsMadeOf part) : c.IsMadeOf other := by
  induction made with
  | all => exact .all
  | part own => exact .part (step _ own)
  | signed sign free _ ih => exact .signed sign free ih
  | list _ ih => exact .list ih
  | both _ _ left right => exact .both left right

theorem anyOf {cs : List Clause} (each : ∀ c ∈ cs, c.IsMadeOf part) :
    (Clause.anyOf cs).IsMadeOf part := by
  unfold Clause.anyOf
  split
  · exact each _ List.mem_cons_self
  · exact .list each

end IsMadeOf

theorem unsigned_eq_self {c : Clause} (free : c.sign? = none) : c.unsigned = c := by
  cases c with
  | signed => cases free
  | _ => rfl

/-- Clauses that each search nothing but a field of their own. -/
theorem allFieldNames_map {clause : String → Clause}
    (own : ∀ name, (clause name).fieldNames = [name]) (names : List String) :
    allFieldNames (names.map clause) = names := by
  induction names with
  | nil => rfl
  | cons name rest ih => rw [List.map_cons, allFieldNames, own, ih, List.singleton_append]

theorem allFieldNames_atoms (atoms : List Atom) : allFieldNames (atoms.map .atom) = [] := by
  induction atoms with
  | nil => rfl
  | cons a rest ih => rw [List.map_cons, allFieldNames, ih, fieldNames, List.nil_append]

theorem chars_signed (sign : Sign) (c : Clause) :
    (Clause.signed sign c).chars = sign.char :: c.chars := rfl

theorem chars_onField (name : String) (c : Clause) (suffix : String) :
    (Clause.onField name c suffix).chars = name.toList ++ ':' :: (c.chars ++ suffix.toList) := rfl

theorem chars_list (cs : List Clause) :
    (Clause.list cs).chars = '(' :: (charsAll cs ++ [')']) := rfl

theorem chars_dismax (targets : List Target) (cs : List Clause) :
    (Clause.dismax targets cs).chars =
      "\x7b!edismax qf='".toList ++ (targetsText targets).toList ++ "'\x7d".toList ++
        charsAll cs := rfl

theorem charsAll_single (c : Clause) : charsAll [c] = c.chars := rfl

theorem charsAll_cons_cons (c d : Clause) (rest : List Clause) :
    charsAll (c :: d :: rest) = c.chars ++ ' ' :: charsAll (d :: rest) := rfl

theorem isSigned_eq (c : Clause) : c.isSigned = startsWithSign c.chars := rfl

/-- A sign that was given shows in the text. -/
theorem sign?_eq_none {c : Clause} (free : c.isSigned = false) : c.sign? = none := by
  cases c with
  | signed sign c =>
    rw [isSigned_eq, chars_signed, startsWithSign_sign] at free
    cases free
  | _ => rfl

theorem toList_render (c : Clause) : c.render.toList = c.chars := by
  simp [render]

end Clause

/-- A clause on a field shows no sign, if the name of the field is a word. -/
theorem startsWithSign_onField {name : String} (word : Name.IsWord name) (c : Clause)
    (suffix : String) : startsWithSign (Clause.onField name c suffix).chars = false := by
  unfold Name.IsWord at word
  rw [Clause.chars_onField]
  cases letters : name.toList with
  | nil => rfl
  | cons first rest =>
    rw [letters, List.all_cons, Bool.and_eq_true] at word
    rw [List.cons_append, startsWithSign_cons, Name.isWordChar_not_sign word.1]

end SearchCompiler
