import SearchCompiler.Text.Emoji
import SearchCompiler.Text.Ligature

/-!
# Columns of a line

The columns that a line takes on a display. They are the sum of those of its characters, but some
characters join: pictures with modifiers and joiners, the letters of flags, and ligatures of several
scripts. A line is read from its end, so that a character is met after what it may join.
-/

namespace SearchCompiler.Text

/-- What begins behind a character, as far as the character may join it. -/
inductive Joint where
  /-- Nothing that joins. -/
  | plain
  | modifier
  /-- One letter of a flag. -/
  | region
  /-- Several letters of flags. -/
  | regions
  | picture
  /-- A joiner and a picture, and whether the mark of a key stands in front. -/
  | joinedPicture (key : Bool)
  /-- One letter of a flag in front of a joiner and a picture. -/
  | joinedRegion
  /-- Several letters of flags in front of a joiner and a picture, and whether they make pairs. -/
  | joinedRegions (pairs : Bool)
  /-- The end of a tag in front of a joiner and a picture, and letters of the tag. -/
  | tagLetters (count : Nat)
  /-- A tag whose digits have begun. -/
  | tagDigits (count : Nat)
  /-- The vowel e of Kirat Rai. -/
  | vowelE
  /-- The vowel ai of Kirat Rai. -/
  | vowelAi
  /-- A letter of the group of the Arabic alef. -/
  | alef
  /-- The Hebrew lamed, and whether a joiner stands in front. -/
  | lamed (joined : Bool)
  /-- The Buginese ya, and whether a joiner stands in front. -/
  | ya (joined : Bool)
  /-- The Buginese vowel i in front of a joiner and ya. -/
  | vowelAndYa
  /-- A consonant of Tifinagh, and whether a joiner stands in front. -/
  | tifinagh (joined : Bool)
  /-- The consonant joiner of Tifinagh in front of a consonant. -/
  | tifinaghJoiner
  /-- The second part of a tone of Lisu. -/
  | toneEnd
  /-- The i of Old Turkic, and whether a joiner stands in front. -/
  | orkhonI (joined : Bool)
  /-- A Khmer letter that can be drawn below another. -/
  | subscript
deriving DecidableEq, Repr

namespace Joint

def ofChar (c : Char) : Joint :=
  if c.toNat ≤ 0xa0 then plain
  else if isRegion c then region
  else if isModifier c then modifier
  else if isPicture c then picture
  else if isAlef c then alef
  else if c = '\u05dc' then lamed false
  else if isSubscript c then subscript
  else if c = '\u1a10' then ya false
  else if isTifinagh c then tifinagh false
  else if isToneEnd c then toneEnd
  else if c.toNat = 0x10c03 then orkhonI false
  else if c.toNat = 0x16d67 then vowelE
  else if c.toNat = 0x16d68 then vowelAi
  else plain

/-- Whether marks that a display leaves out may stand in front without parting what joins. -/
def isLigature : Joint → Bool
  | lamed _ | ya _ | vowelAndYa | tifinagh _ | tifinaghJoiner | toneEnd | orkhonI _ | subscript => true
  | _ => false

/-- A ligature with a joiner in front. -/
def withJoiner : Joint → Joint
  | lamed _ => lamed true
  | ya _ => ya true
  | tifinagh _ => tifinagh true
  | orkhonI _ => orkhonI true
  | joint => joint

/-- Whether a joiner in front joins a picture. -/
def isJoinable : Joint → Bool
  | picture | modifier | regions | joinedRegions _ => true
  | _ => false

/-- Whether a selector of a style in front leaves the joint as it is. -/
def bearsStyle (joint : Joint) : Bool :=
  joint == alef || joint.isLigature

end Joint

/-- What stands behind a character: what begins there, and the selectors in front of it. -/
structure Behind where
  joint : Joint
  /-- A selector of the style of a picture. -/
  asPicture : Bool
  /-- A selector of the style of text. -/
  asText : Bool
  /-- A selector of the wide form. -/
  asWide : Bool
deriving DecidableEq, Repr

namespace Behind

def of (joint : Joint) : Behind :=
  ⟨joint, false, false, false⟩

/-- Puts the selector of the style of a picture in front. -/
def selectPicture (b : Behind) : Behind :=
  match b.joint with
  | .joinedPicture _ => { b with asPicture := true }
  | joint => if joint.bearsStyle then { b with asPicture := true } else ⟨.plain, true, false, false⟩

def selectText (b : Behind) : Behind :=
  if b.joint.bearsStyle then { b with asText := true } else ⟨.plain, false, true, false⟩

def selectWide (b : Behind) : Behind :=
  if b.joint.bearsStyle then { b with asWide := true } else ⟨.plain, false, false, true⟩

/-- Drops the selector of the style of a picture, which does not apply to the character in front. -/
def dropPicture (b : Behind) : Behind :=
  if b.joint.bearsStyle then { b with asPicture := false } else of .plain

end Behind

/-- A character that joins nothing. -/
def alone (c : Char) : Int × Behind :=
  (columns c, .of (.ofChar c))

/-- The joiner of pictures and letters. -/
def joiner : Char := '\u200d'

def isTagLetter (c : Char) : Bool :=
  0xe0061 ≤ c.toNat && c.toNat ≤ 0xe007a

def isTagDigit (c : Char) : Bool :=
  0xe0030 ≤ c.toNat && c.toNat ≤ 0xe0039

/-- Whether a character is the flag that tags stand behind. -/
def isTagged (c : Char) : Bool :=
  c.toNat == 0x1f3f4

/-- What a character adds to the columns of a line when it joins pictures behind it, and what begins
with it. -/
def joinPicture? (c : Char) : Joint → Option (Int × Joint)
  | .modifier => if isModifiable c then some (0, .picture) else none
  | .region | .regions => if isRegion c then some (1, .regions) else none
  | .joinedPicture key =>
    if c = '\u20e3' ∧ !key then some (0, .joinedPicture true)
    else if key then none
    else if isRegion c then some (1, .joinedRegion)
    else if isModifier c then some (0, .modifier)
    else if c.toNat = 0xe007f then some (0, .tagLetters 0)
    else if isPicture c then some (0, .picture)
    else none
  | .joinedRegion | .joinedRegions false =>
    if isRegion c then some (-1, .joinedRegions true) else none
  | .joinedRegions true => if isRegion c then some (3, .joinedRegions false) else none
  | .tagLetters n =>
    if isTagLetter c ∧ n < 6 then some (0, .tagLetters (n + 1))
    else if isTagDigit c ∧ n < 5 then some (0, .tagDigits 1)
    else if isTagged c ∧ 3 ≤ n then some (0, .picture)
    else none
  | .tagDigits n =>
    if isTagDigit c ∧ n < 3 then some (0, .tagDigits (n + 1))
    else if isTagged c ∧ n = 3 then some (0, .picture)
    else none
  | _ => none

def joinLetters? (c : Char) : Joint → Option (Int × Joint)
  | .alef =>
    if isLam c then some (0, .plain) else if isTransparent c then some (0, .alef) else none
  | .lamed true => if c = '\u05d0' then some (0, .plain) else none
  | .subscript => if c = '\u17d2' then some (-1, .plain) else none
  | .ya true => if c = '\u1a17' then some (0, .vowelAndYa) else none
  | .vowelAndYa => if c = '\u1a15' then some (0, .plain) else none
  | .tifinagh joined =>
    if c = '\u2d7f' then some (1, .tifinaghJoiner)
    else if joined ∧ isTifinagh c then some (0, .plain)
    else none
  | .tifinaghJoiner => if isTifinagh c then some (-1, .plain) else none
  | .toneEnd => if isToneStart c then some (0, .plain) else none
  | .orkhonI true => if c.toNat = 0x10c32 then some (0, .plain) else none
  | .vowelE =>
    if c.toNat = 0x16d63 ∨ c.toNat = 0x16d69 then some (0, .plain)
    else if c.toNat = 0x16d67 then some (0, .vowelAi)
    else if c.toNat = 0x16d68 then some (1, .vowelE)
    else none
  | .vowelAi => if c.toNat = 0x16d63 then some (0, .plain) else none
  | _ => none

/-- A character in front of what begins behind it. -/
def join (c : Char) (joint : Joint) : Int × Behind :=
  if c = joiner ∧ joint.isJoinable then (0, .of (.joinedPicture false))
  else
    match (joinPicture? c joint).or (joinLetters? c joint) with
    | some (added, joint) => (added, .of joint)
    | none => alone c

/-- A character in front of selectors other than that of the style of a picture. -/
def joinSelected (c : Char) (b : Behind) : Int × Behind :=
  if b.asText && isNarrowedByStyle c then (1, .of .plain)
  else if !b.asText && b.asWide && isWidenable c then (2, .of .plain)
  else
    let b := if b.asText then { b with asText := false } else { b with asWide := false }
    if b.joint.isLigature && isLoose c then
      (0, if c = joiner then { b with joint := b.joint.withJoiner } else b)
    else if b.asWide then alone c
    else join c b.joint

/-- What a character adds to the columns of a line, and what stands behind the next character. -/
def addColumns (c : Char) (b : Behind) : Int × Behind :=
  if b.asPicture && isStyled c then
    (if b.joint matches .joinedPicture _ then 0 else 2, .of .picture)
  else
    let b := if b.asPicture then b.dropPicture else b
    if c.toNat ≤ 0xa0 then alone c
    else if c = '\ufe0f' then (0, b.selectPicture)
    else if c = '\ufe0e' then (0, b.selectText)
    else if c = '\ufe01' then (0, b.selectWide)
    else joinSelected c b

/-- The columns that a line takes on a display. -/
def columnsOf (line : String) : Nat :=
  (line.toList.foldr (fun c (sum, b) =>
    let (added, b) := addColumns c b
    (sum + added, b)) ((0 : Int), Behind.of .plain)).1.toNat

end SearchCompiler.Text
