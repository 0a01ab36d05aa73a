import SearchCompiler.Json.Reader
import SearchCompiler.Json.Writer

/-!
# Texts and numbers in documents

A text is read as it was written, with every character escaped that has to be (`readText_written`).
An integer that 64 bits can hold is read as itself (`readNumber_integer`). A number is read the same
whatever follows it, unless what follows could go on with it (`readNumber_append`).
-/

namespace SearchCompiler.Json

/-! ### Texts -/

theorem hexNumber?_control :
    ∀ n < 0x20, Text.hexNumber? ['0', '0', Nat.digitChar (n / 16), Nat.digitChar (n % 16)] =
      some n := by
  decide

/-- Every character that is written in a text is read back as itself. -/
theorem readText_writtenChar (c : Char) (fuel : Nat) (rest : List Char) :
    readText (fuel + 1) (writtenChar c ++ rest) =
      readText fuel rest >>= fun read => pure (read.push c) := by
  unfold writtenChar
  split
  · next quoted => rcases quoted with rfl | rfl <;> rfl
  next plain =>
  split
  · next named => subst named; rfl
  split
  · next named => subst named; rfl
  split
  · next named => subst named; rfl
  split
  · next named => subst named; rfl
  split
  · next named => subst named; rfl
  split
  · next control =>
    have digits := hexNumber?_control c.toNat control
    have low : c.toNat < 0xD800 := by omega
    change (Text.hexNumber? _ >>= _) = _
    rw [digits]
    simp only [Option.bind_eq_bind, Option.bind_some, low, decide_true, Bool.true_or, if_true,
      Char.ofNat_toNat]
    rfl
  · next shown =>
    obtain ⟨quote, backslash⟩ := not_or.mp plain
    rw [List.singleton_append, readText]
    · rw [if_neg shown]
    · exact quote
    · exact fun _ _ _ _ _ same => absurd same backslash
    · exact fun _ _ same => absurd same backslash

theorem length_writtenChar_pos (c : Char) : 0 < (writtenChar c).length := by
  unfold writtenChar
  repeat' split
  all_goals exact Nat.zero_lt_succ _

/-- A text is read as it was written, up to its closing quote. -/
theorem readText_written {cs : List Char} {fuel : Nat} (rest : List Char)
    (enough : (cs.flatMap writtenChar).length < fuel) :
    readText fuel (cs.flatMap writtenChar ++ '"' :: rest) = some (some cs, rest) := by
  induction cs generalizing fuel with
  | nil =>
    obtain ⟨fuel, rfl⟩ := Nat.exists_eq_add_one_of_ne_zero (Nat.ne_zero_of_lt enough)
    rfl
  | cons c cs ih =>
    have taken := length_writtenChar_pos c
    rw [List.flatMap_cons, List.length_append] at enough
    obtain ⟨fuel, rfl⟩ := Nat.exists_eq_add_one_of_ne_zero (Nat.ne_zero_of_lt enough)
    rw [List.flatMap_cons, List.append_assoc, readText_writtenChar, ih (by omega)]
    rfl

/-! ### Numbers -/

/-- What follows cannot go on with a number. -/
def EndsNumber (rest : List Char) : Prop :=
  ∀ c ∈ rest.head?, c.isDigit = false ∧ c ≠ '.' ∧ c ≠ 'e' ∧ c ≠ 'E'

variable {rest : List Char}

/-- Digits are taken as far as they go, whatever ends the number. -/
theorem takeDigits_append (ends : EndsNumber rest) (cs : List Char) :
    takeDigits (cs ++ rest) = ((takeDigits cs).1, (takeDigits cs).2 ++ rest) := by
  have stops : rest.takeWhile Char.isDigit = [] ∧ rest.dropWhile Char.isDigit = rest := by
    cases rest with
    | nil => exact ⟨rfl, rfl⟩
    | cons c rest =>
      have other : c.isDigit = false := (ends c rfl).1
      constructor
      · rw [List.takeWhile_cons, if_neg (by simp [other])]
      · rw [List.dropWhile_cons, if_neg (by simp [other])]
  unfold takeDigits
  induction cs with
  | nil => rw [List.nil_append, stops.1, stops.2]; rfl
  | cons c cs ih =>
    obtain ⟨taken, left⟩ := Prod.mk.inj ih
    rw [List.cons_append, List.takeWhile_cons, List.dropWhile_cons, List.takeWhile_cons,
      List.dropWhile_cons]
    split
    · rw [taken, left]
    · rfl

theorem readFraction_of_ne {cs : List Char} (other : ∀ c ∈ cs.head?, c ≠ '.') :
    readFraction cs = some ([], cs) := by
  unfold readFraction
  split
  · next point => exact absurd rfl (other '.' rfl)
  · rfl

theorem readFraction_append (ends : EndsNumber rest) {cs : List Char} {fraction left : List Char}
    (read : readFraction cs = some (fraction, left)) :
    readFraction (cs ++ rest) = some (fraction, left ++ rest) := by
  cases cs with
  | nil =>
    cases read
    exact readFraction_of_ne fun c first => (ends c first).2.1
  | cons c cs =>
    by_cases point : c = '.'
    · subst point
      rw [readFraction] at read
      rw [List.cons_append, readFraction, takeDigits_append ends]
      dsimp only at read ⊢
      split at read
      · cases read
      · next digits =>
        cases read
        rw [if_neg digits]
    · have other : ∀ d ∈ (c :: (cs ++ rest)).head?, d ≠ '.' := by
        rintro d ⟨⟩
        exact point
      rw [readFraction_of_ne (by rintro d ⟨⟩; exact point)] at read
      cases read
      exact readFraction_of_ne other

theorem takeSign_cons (c : Char) (cs : List Char) :
    Decimal.takeSign (c :: cs) =
      if c = '-' then (true, cs) else if c = '+' then (false, cs) else (false, c :: cs) := by
  unfold Decimal.takeSign
  split <;> simp_all

theorem takeSign_append {cs : List Char} (nonempty : cs ≠ []) :
    Decimal.takeSign (cs ++ rest) = ((Decimal.takeSign cs).1, (Decimal.takeSign cs).2 ++ rest) := by
  obtain ⟨c, cs, rfl⟩ := List.exists_cons_of_ne_nil nonempty
  rw [List.cons_append, takeSign_cons, takeSign_cons]
  repeat' split
  all_goals rfl

theorem readExponent_append (ends : EndsNumber rest) {cs left : List Char} {n : Int}
    (read : readExponent cs = some (n, left)) :
    readExponent (cs ++ rest) = some (n, left ++ rest) := by
  have nonempty : cs ≠ [] := by
    rintro rfl
    cases read
  unfold readExponent at read ⊢
  rw [takeSign_append nonempty]
  dsimp only at read ⊢
  rw [takeDigits_append ends]
  dsimp only at read ⊢
  split at read
  · cases read
  · next digits =>
    cases read
    rw [if_neg digits]

/-- A power of ten is read up to its end. -/
theorem readPower_append (ends : EndsNumber rest) {cs : List Char} {power : Option Int}
    {left : List Char} (read : readPower cs = some (power, left)) :
    readPower (cs ++ rest) = some (power, left ++ rest) := by
  cases cs with
  | nil =>
    cases read
    cases rest with
    | nil => rfl
    | cons c rest =>
      obtain ⟨-, -, lower, upper⟩ := ends c rfl
      rw [List.nil_append, readPower, if_neg (not_or.mpr ⟨lower, upper⟩)]
  | cons c cs =>
    rw [readPower] at read
    rw [List.cons_append, readPower]
    split at read
    · next mark =>
      obtain ⟨⟨n, left⟩, exponent, same⟩ := Option.map_eq_some_iff.mp read
      cases same
      rw [if_pos mark, readExponent_append ends exponent]
      rfl
    · next other =>
      cases read
      rw [if_neg other]
      rfl

theorem takeMinus_cons (c : Char) (cs : List Char) :
    takeMinus (c :: cs) = if c = '-' then (true, cs) else (false, c :: cs) := by
  unfold takeMinus
  split <;> simp_all

theorem takeMinus_append {cs : List Char} (nonempty : cs ≠ []) :
    takeMinus (cs ++ rest) = ((takeMinus cs).1, (takeMinus cs).2 ++ rest) := by
  obtain ⟨c, cs, rfl⟩ := List.exists_cons_of_ne_nil nonempty
  rw [List.cons_append, takeMinus_cons, takeMinus_cons]
  split <;> rfl

/-- A number is read the same whatever follows it, unless that could go on with it. -/
theorem readNumber_append (ends : EndsNumber rest) {cs left : List Char} {value : Json}
    (read : readNumber cs = some (value, left)) :
    readNumber (cs ++ rest) = some (value, left ++ rest) := by
  have nonempty : cs ≠ [] := by
    rintro rfl
    cases read
  unfold readNumber at read ⊢
  rw [takeMinus_append nonempty]
  dsimp only at read ⊢
  rw [takeDigits_append ends]
  dsimp only at read ⊢
  split at read
  · cases read
  · next digits =>
    rw [if_neg digits]
    obtain ⟨⟨fraction, cs⟩, point, read⟩ := Option.bind_eq_some_iff.mp read
    obtain ⟨⟨power, cs⟩, mark, read⟩ := Option.bind_eq_some_iff.mp read
    cases read
    rw [readFraction_append ends point]
    change (readPower _ >>= _) = _
    rw [readPower_append ends mark]
    rfl

/-- The first character of a number. -/
theorem head_of_readNumber {cs left : List Char} {value : Json}
    (read : readNumber cs = some (value, left)) :
    ∃ c tail, cs = c :: tail ∧ (c = '-' ∨ c.isDigit = true) := by
  cases cs with
  | nil => cases read
  | cons c cs =>
    refine ⟨c, cs, rfl, ?_⟩
    by_cases minus : c = '-'
    · exact .inl minus
    by_cases digit : c.isDigit = true
    · exact .inr digit
    unfold readNumber takeDigits at read
    rw [takeMinus_cons, if_neg minus] at read
    dsimp only at read
    rw [List.takeWhile_cons, if_neg digit] at read
    cases read

/-! ### Integers -/

theorem isDigit_toDigits {n : Nat} : ∀ c ∈ Nat.toDigits 10 n, c.isDigit = true :=
  fun _ among => Nat.isDigit_of_mem_toDigits (by decide) (by decide) among

/-- No number but zero begins with a zero. -/
theorem head?_toDigits_ne {n : Nat} (positive : 0 < n) : (Nat.toDigits 10 n).head? ≠ some '0' := by
  induction n using Nat.strongRecOn with
  | ind n ih =>
    by_cases small : n < 10
    · rw [Nat.toDigits_of_lt_base small]
      have digit : ∀ d < 10, 0 < d → [Nat.digitChar d].head? ≠ some '0' := by decide
      exact digit n small positive
    · have smaller := ih (n / 10) (by omega) (by omega)
      obtain ⟨c, ds, digits⟩ :=
        List.exists_cons_of_ne_nil (Nat.toDigits_ne_nil (n := n / 10) (b := 10))
      rw [digits] at smaller
      rw [Nat.toDigits_of_base_le (by decide) (by omega), digits]
      exact smaller

theorem takeDigits_toDigits (n : Nat) :
    takeDigits (Nat.toDigits 10 n) = (Nat.toDigits 10 n, []) := by
  unfold takeDigits
  rw [← List.append_nil (Nat.toDigits 10 n), List.takeWhile_append_of_pos isDigit_toDigits,
    List.dropWhile_append_of_pos isDigit_toDigits, List.takeWhile_nil, List.dropWhile_nil]

/-- The digits of a natural, with a sign or without, are read as they are. -/
theorem readNumber_toDigits (negative : Bool) (n : Nat) :
    readNumber ((if negative then ['-'] else []) ++ Nat.toDigits 10 n) =
      some (numberOf negative (Nat.toDigits 10 n) [] none, []) := by
  have sign : takeMinus ((if negative then ['-'] else []) ++ Nat.toDigits 10 n) =
      (negative, Nat.toDigits 10 n) := by
    cases negative with
    | true => rfl
    | false =>
      obtain ⟨c, ds, digits⟩ := List.exists_cons_of_ne_nil (Nat.toDigits_ne_nil (n := n) (b := 10))
      have digit : c.isDigit = true := isDigit_toDigits c (digits ▸ List.mem_cons_self)
      have other : c ≠ '-' := by
        rintro rfl
        cases digit
      change takeMinus (Nat.toDigits 10 n) = _
      rw [digits, takeMinus_cons, if_neg other]
  have proper : ((Nat.toDigits 10 n).isEmpty ||
      ((Nat.toDigits 10 n).head? == some '0' && (Nat.toDigits 10 n).length != 1)) = false := by
    rw [Bool.or_eq_false_iff, List.isEmpty_eq_false_iff]
    refine ⟨Nat.toDigits_ne_nil, ?_⟩
    rcases Nat.eq_zero_or_pos n with rfl | positive
    · rfl
    · rw [beq_eq_false_iff_ne.mpr (head?_toDigits_ne positive), Bool.false_and]
  unfold readNumber
  rw [sign]
  dsimp only
  rw [takeDigits_toDigits]
  dsimp only
  rw [proper]
  rfl

/-- The digits of an integer that 64 bits can hold make that integer. -/
theorem numberOf_toDigits {n : Int} (fits : fits64 n = true) :
    numberOf (n < 0) (Nat.toDigits 10 n.natAbs) [] none = .integer n := by
  have digits : Decimal.digitsValue (Nat.toDigits 10 n.natAbs ++ []) = n.natAbs := by
    rw [List.append_nil]
    exact Nat.ofDigitChars_ten_toDigits
  have value : (if decide (n < 0) = true then -(n.natAbs : Int) else n.natAbs) = n := by
    split
    · next negative => have := of_decide_eq_true negative; omega
    · next positive => have := of_decide_eq_false (Bool.not_eq_true _ ▸ positive); omega
  have proper : (!(decide (n < 0) && n.natAbs == 0)) = true := by
    simp only [Bool.not_eq_true', Bool.and_eq_false_iff, decide_eq_false_iff_not,
      beq_eq_false_iff_ne]
    omega
  unfold numberOf
  rw [digits]
  dsimp only
  rw [value, fits, proper]
  rfl

theorem toList_toString (n : Int) :
    (toString n).toList = (if decide (n < 0) then ['-'] else []) ++ Nat.toDigits 10 n.natAbs := by
  cases n with
  | ofNat m => exact Nat.toList_repr
  | negSucc m =>
    change ("-" ++ (m + 1).repr).toList = _
    rw [String.toList_append, Nat.toList_repr, if_pos (decide_eq_true (Int.negSucc_lt_zero m))]
    rfl

/-- An integer that 64 bits can hold is read as itself. -/
theorem readNumber_integer {n : Int} (fits : fits64 n = true) :
    readNumber (toString n).toList = some (.integer n, []) := by
  rw [toList_toString, readNumber_toDigits, numberOf_toDigits fits]

end SearchCompiler.Json
