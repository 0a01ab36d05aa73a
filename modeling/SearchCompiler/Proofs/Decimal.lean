import SearchCompiler.Decimal.Style
import SearchCompiler.Filter.Location
import SearchCompiler.Proofs.Keys.Structure

/-!
# Characters of written numbers

A number in a query is written with digits, a point and a sign, or as one of three words, so that it
can stand inside quotes as it is. The same goes for a circle around a point.
-/

namespace SearchCompiler.Decimal

open Text Keys

/-- Numbers in full hold nothing but digits and a point. -/
theorem mem_inFull {keepPoint : Bool} {digits : List Char} {exponent : Int} {c : Char}
    (among : c ∈ inFull keepPoint digits exponent) : c ∈ digits ∨ c = '0' ∨ c = '.' := by
  unfold inFull at among
  split at among
  · cases keepPoint <;> simp at among <;> grind
  · dsimp only at among
    split at among
    · rw [List.mem_append, List.mem_cons] at among
      rcases among with own | rfl | own
      · exact .inl (List.mem_of_mem_take own)
      · exact .inr (.inr rfl)
      · exact .inl (List.mem_of_mem_drop own)
    · simp at among
      grind

/-- A character that numbers are written with in full. -/
def IsNumberChar (c : Char) : Prop :=
  c.isDigit = true ∨ c = '.' ∨ c = '-'

instance (c : Char) : Decidable (IsNumberChar c) :=
  inferInstanceAs (Decidable (_ ∨ _))

/-- A style that writes all numbers in full writes digits, a point and a sign, or one of its three
words. -/
theorem text_in_full (style : Style) (full : style.full = none) (b : Binary) :
    style.text b ∈ [style.undefined, style.infinity, style.negativeInfinity] ∨
      ∀ c ∈ (style.text b).toList, IsNumberChar c := by
  cases b with
  | undefined => exact .inl (List.mem_cons_self)
  | infinite negative => cases negative <;> simp [Style.text]
  | finite negative m q narrow =>
    right
    have written : ∀ {digits : List Char} {exponent : Int}, (∀ c ∈ digits, c.isDigit = true) →
        ∀ c ∈ inFull style.keepPoint digits exponent, IsNumberChar c := by
      intro digits exponent each c among
      rcases mem_inFull among with own | rfl | rfl
      · exact .inl (each c own)
      · exact .inl rfl
      · exact .inr (.inl rfl)
    have body : ∀ c ∈ (if m = 0 then inFull style.keepPoint ['0'] 0
        else style.layout (shortest style.tie m q narrow).1 (shortest style.tie m q narrow).2),
          IsNumberChar c := by
      split
      · exact written (List.forall_mem_singleton.mpr rfl)
      · rw [Style.layout, full]
        exact written fun c => Nat.isDigit_of_mem_toDigits (by decide) (by decide)
    rw [Style.text, String.toList_ofList]
    cases negative with
    | true => exact List.forall_mem_cons.mpr ⟨.inr (.inr rfl), body⟩
    | false => exact body

/-- No number is written like a truth value. -/
theorem plain_ne_truth (b : Binary) (truth : Bool) :
    Style.plain.text b ≠ if truth then "true" else "false" := by
  intro same
  rcases text_in_full .plain rfl b with word | number
  · rw [same] at word
    cases truth <;> exact absurd word (by decide)
  · rw [same] at number
    have letter : IsNumberChar 'e' := number 'e' (by cases truth <;> decide)
    exact absurd letter (by decide)

/-- A number in a query has no quotes in it. -/
theorem isUnquoted_plain (b : Binary) : IsUnquoted (Style.plain.text b).toList := by
  rcases text_in_full .plain rfl b with word | number
  · generalize Style.plain.text b = text at word ⊢
    simp only [List.mem_cons, List.not_mem_nil, or_false] at word
    rcases word with rfl | rfl | rfl <;> decide
  · intro c among
    rcases number c among with digit | rfl | rfl
    · exact ⟨fun same => absurd (same ▸ digit) (by decide),
        fun same => absurd (same ▸ digit) (by decide)⟩
    · decide
    · decide

end SearchCompiler.Decimal

namespace SearchCompiler.Filter

open Text Keys

/-- A circle around a point of a field whose name is a word has no quotes in it. -/
theorem isUnquoted_circle {name : String} (plain : IsUnquoted name.toList) (c : Circle) :
    IsUnquoted (c.query name).toList := by
  have number : ∀ x : Float, IsUnquoted (Decimal.Style.plain.double x).toList :=
    fun x => Decimal.isUnquoted_plain _
  have mark : ∀ text : String, IsUnquoted text.toList → ∀ {cs : List Char}, IsUnquoted cs →
      IsUnquoted (cs ++ text.toList) := fun text own cs before => isUnquoted_append before own
  unfold Circle.query
  simp only [String.toList_append]
  have front := isUnquoted_append (by decide : IsUnquoted "\x7b!geofilt sfield=".toList) plain
  have point := isUnquoted_append (mark " pt=" (by decide) front) (number c.latitude)
  have place := isUnquoted_append (mark "," (by decide) point) (number c.longitude)
  have distance := isUnquoted_append (mark " d=" (by decide) place) (number c.kilometers)
  exact mark "\x7d" (by decide) distance

end SearchCompiler.Filter
