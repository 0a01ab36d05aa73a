import Mathlib.Data.List.Forall2
import SearchCompiler.Proofs.Filter.Calendar
import SearchCompiler.Proofs.Scan

/-!
# Written timestamps

A timestamp of the years 0 to 9999 is written as the date and time of the calendar that it stands
for, in the form `YYYY-MM-DDTHH:MM:SSZ` (`Timestamp.text?_eq_some_iff`); any other timestamp is not
written (`Timestamp.text?_eq_none_iff`).

Six numbers that have their fixed widths are in the order of what they are written as, and so are
dates and times: the bytes of the texts are in the order of the seconds
(`DateTime.utf8_text_lt_iff`).

The year of a day is guessed by the mean length of a year. That the guess is off by one at most
comes from `daysBefore_near`: where a year begins is never far from a multiple of the mean length.
-/

namespace SearchCompiler.Filter

open Calendar

/-! ### Numbers of a fixed width -/

/-- The decimal digits of a number, filled up with zeros. -/
def decimal (width n : Nat) : List Char :=
  (Nat.toDigits 10 n).leftpad width '0'

theorem isDigit_of_mem_decimal {width n : Nat} {c : Char} (among : c ∈ decimal width n) :
    c.isDigit = true := by
  rcases List.mem_append.mp among with zero | digit
  · rw [List.eq_of_mem_replicate zero]
    rfl
  · exact Nat.isDigit_of_mem_toDigits (by decide) (by decide) digit

namespace Timestamp

theorem length_padded (width n : Nat) : (padded width n).length = width := by
  induction width generalizing n with
  | zero => rfl
  | succ width ih => rw [padded, List.length_append, ih, List.length_singleton]

/-- Digits are filled up with zeros. -/
theorem padded_eq_decimal {width n : Nat} (wide : 0 < width) (fits : n < 10 ^ width) :
    padded width n = decimal width n := by
  induction width generalizing n with
  | zero => cases wide
  | succ width ih =>
    rw [padded, decimal]
    cases width with
    | zero =>
      have digit : n < 10 := fits
      rw [Nat.mod_eq_of_lt digit, Nat.toDigits_of_lt_base digit]
      rfl
    | succ width =>
      have fits' : n / 10 < 10 ^ (width + 1) := by
        rw [Nat.pow_succ] at fits
        omega
      rw [ih (Nat.succ_pos width) fits', decimal]
      by_cases digit : n < 10
      · rw [Nat.div_eq_of_lt digit, Nat.mod_eq_of_lt digit, Nat.toDigits_of_lt_base digit,
          Nat.toDigits_zero]
        simp [List.leftpad, List.replicate_succ']
      · rw [Nat.toDigits_of_base_le (by decide) (Nat.le_of_not_lt digit)]
        simp [List.leftpad]

end Timestamp

theorem length_decimal {width n : Nat} (wide : 0 < width) (fits : n < 10 ^ width) :
    (decimal width n).length = width := by
  rw [← Timestamp.padded_eq_decimal wide fits, Timestamp.length_padded]

/-- Of two lists of one length the first difference decides, whatever follows them. -/
theorem append_lt_append {α : Type} [LT α] {as bs : List α} (same : as.length = bs.length)
    (less : as < bs) (xs ys : List α) : as ++ xs < bs ++ ys := by
  induction as generalizing bs with
  | nil =>
    obtain rfl := List.length_eq_zero_iff.mp same.symm
    cases less
  | cons a rest ih =>
    cases bs with
    | nil => cases same
    | cons b others =>
      rw [List.cons_append, List.cons_append, List.cons_lt_cons_iff]
      rcases List.cons_lt_cons_iff.mp less with first | ⟨rfl, later⟩
      · exact .inl first
      · exact .inr ⟨rfl, ih (Nat.succ.inj same) later⟩

theorem digitChar_lt {a b : Nat} (less : a < b) (digit : b < 10) :
    Nat.digitChar a < Nat.digitChar b := by
  have all : ∀ b : Fin 10, ∀ a : Fin b, Nat.digitChar a < Nat.digitChar b := by decide
  exact all ⟨b, digit⟩ ⟨a, less⟩

/-- Numbers of one width are in the order of their digits. -/
theorem decimal_lt {width n m : Nat} (wide : 0 < width) (less : n < m) (fits : m < 10 ^ width) :
    decimal width n < decimal width m := by
  rw [← Timestamp.padded_eq_decimal wide fits,
    ← Timestamp.padded_eq_decimal wide (less.trans fits)]
  clear wide
  induction width generalizing n m with
  | zero =>
    rw [Nat.pow_zero] at fits
    omega
  | succ width ih =>
    rw [Timestamp.padded, Timestamp.padded]
    rw [Nat.pow_succ] at fits
    by_cases front : n / 10 < m / 10
    · exact append_lt_append (by rw [Timestamp.length_padded, Timestamp.length_padded])
        (ih front (by omega)) _ _
    · have same : n / 10 = m / 10 := by omega
      rw [same]
      refine List.append_left_lt (List.cons_lt_cons_iff.mpr (.inl ?_))
      exact digitChar_lt (by omega) (Nat.mod_lt m (by decide))

/-! ### Numbers with marks between them -/

/-- Numbers of given widths, each with a mark behind it. -/
def written : List (Nat × Char) → List Nat → List Char
  | (width, mark) :: rest, n :: others => decimal width n ++ mark :: written rest others
  | _, _ => []

/-- A written date is made of digits and the marks of its form. -/
theorem mem_written {form : List (Nat × Char)} {ns : List Nat} {c : Char}
    (among : c ∈ written form ns) : c.isDigit = true ∨ c ∈ form.map Prod.snd := by
  induction form generalizing ns with
  | nil => cases among
  | cons part rest ih =>
    cases ns with
    | nil => cases among
    | cons n others =>
      rw [List.map_cons]
      rcases List.mem_append.mp among with digit | mark
      · exact .inl (isDigit_of_mem_decimal digit)
      · rcases List.mem_cons.mp mark with rfl | later
        · exact .inr List.mem_cons_self
        · exact (ih later).imp_right (List.mem_cons_of_mem _)

/-- Numbers that fit their widths. -/
def Fit (form : List (Nat × Char)) (ns : List Nat) : Prop :=
  List.Forall₂ (fun part n => 0 < part.1 ∧ n < 10 ^ part.1) form ns

/-- Written numbers are in the order of the numbers. -/
theorem written_lt {form : List (Nat × Char)} {ns ms : List Nat} (fits : Fit form ns)
    (others : Fit form ms) (less : ns < ms) : written form ns < written form ms := by
  induction fits generalizing ms with
  | nil =>
    cases others
    cases less
  | @cons part n form ns own _ ih =>
    obtain ⟨width, mark⟩ := part
    obtain ⟨m, ms, fits, more, rfl⟩ := List.forall₂_cons_left_iff.mp others
    rw [written, written]
    rcases List.cons_lt_cons_iff.mp less with first | ⟨rfl, later⟩
    · refine append_lt_append ?_ (decimal_lt own.1 first fits.2) _ _
      rw [length_decimal own.1 own.2, length_decimal fits.1 fits.2]
    · exact List.append_left_lt (List.cons_lt_cons_iff.mpr (.inr ⟨rfl, ih more later⟩))

/-- Numbers that fit are written digit by digit. -/
theorem written_eq_padded {form : List (Nat × Char)} {ns : List Nat} (fits : Fit form ns) :
    written form ns =
      (List.zipWith (fun part n => Timestamp.padded part.1 n ++ [part.2]) form ns).flatten := by
  induction fits with
  | nil => rfl
  | @cons part n form ns own _ ih =>
    rw [written, ih, List.zipWith_cons_cons, List.flatten_cons,
      Timestamp.padded_eq_decimal own.1 own.2, List.append_assoc]
    rfl

/-- The length of what numbers of given widths are written as. -/
def formLength : List (Nat × Char) → Nat
  | [] => 0
  | (width, _) :: rest => width + 1 + formLength rest

theorem length_written {form : List (Nat × Char)} {ns : List Nat} (fits : Fit form ns) :
    (written form ns).length = formLength form := by
  induction fits with
  | nil => rfl
  | cons own _ ih =>
    rw [written, List.length_append, List.length_cons, ih, length_decimal own.1 own.2, formLength]
    omega

/-! ### Dates and times in writing -/

/-- The widths of the numbers of a date and time, and what stands behind each. -/
def dateForm : List (Nat × Char) :=
  [(4, '-'), (2, '-'), (2, 'T'), (2, ':'), (2, ':'), (2, 'Z')]

def utf8 (text : String) : List UInt8 :=
  text.toUTF8.data.toList

/-- Every character of seven bits is one byte. -/
theorem utf8_ofList {cs : List Char} (narrow : ∀ c ∈ cs, c.utf8Size = 1) :
    utf8 (String.ofList cs) = cs.map fun c => c.val.toUInt8 := by
  rw [utf8, String.toUTF8_eq_toByteArray, String.toByteArray_ofList, List.utf8Encode,
    List.toList_data_toByteArray, List.map_eq_flatMap]
  exact List.flatMap_congr fun c among => String.utf8EncodeChar_eq_singleton (narrow c among)

theorem byte_lt {a b : Char} (less : a < b) (narrow : b.utf8Size = 1) :
    a.val.toUInt8 < b.val.toUInt8 := by
  have below : a.toNat < b.toNat := less
  have small : b.toNat ≤ 127 := Char.utf8Size_eq_one_iff.mp narrow
  rw [UInt8.lt_iff_toNat_lt, UInt32.toNat_toUInt8, UInt32.toNat_toUInt8]
  change a.toNat % 256 < b.toNat % 256
  omega

/-- Texts of seven bits are in the order of their bytes. -/
theorem bytes_lt {cs ds : List Char} (narrow : ∀ d ∈ ds, d.utf8Size = 1) (less : cs < ds) :
    (cs.map fun c => c.val.toUInt8) < ds.map fun c => c.val.toUInt8 := by
  induction ds generalizing cs with
  | nil => cases less
  | cons d rest ih =>
    obtain ⟨own, others⟩ := List.forall_mem_cons.mp narrow
    cases cs with
    | nil => exact List.nil_lt_cons _ _
    | cons c cs =>
      rw [List.map_cons, List.map_cons, List.cons_lt_cons_iff]
      rcases List.cons_lt_cons_iff.mp less with first | ⟨rfl, later⟩
      · exact .inl (byte_lt first own)
      · exact .inr ⟨rfl, ih others later⟩

namespace DateTime

/-- The text `YYYY-MM-DDTHH:MM:SSZ` of a date and time. -/
def text (d : DateTime) : String :=
  String.ofList (written dateForm d.fields)

theorem fit (d : DateTime) : Fit dateForm d.fields := by
  have month : d.month < 100 := d.month_le.trans_lt (by decide)
  have day : d.day < 100 := (d.day_le.trans (monthLength_le d.year d.month)).trans_lt (by decide)
  have hour : d.hour < 100 := d.hour_lt.trans (by decide)
  have minute : d.minute < 100 := d.minute_lt.trans (by decide)
  have second : d.second < 100 := d.second_lt.trans (by decide)
  exact .cons ⟨by decide, d.year_lt⟩ (.cons ⟨by decide, month⟩ (.cons ⟨by decide, day⟩
    (.cons ⟨by decide, hour⟩ (.cons ⟨by decide, minute⟩ (.cons ⟨by decide, second⟩ .nil)))))

theorem length_text (d : DateTime) : d.text.length = 20 := by
  rw [text, String.length_ofList, length_written d.fit]
  rfl

theorem utf8Size_of_mem_text {d : DateTime} {c : Char} (among : c ∈ written dateForm d.fields) :
    c.utf8Size = 1 := by
  rcases mem_written among with digit | mark
  · have small : c.toNat ≤ 57 := (Char.isDigit_iff_toNat.mp digit).2
    exact Char.utf8Size_eq_one_iff.mpr (Nat.le_trans small (by decide))
  · obtain ⟨part, listed, rfl⟩ := List.mem_map.mp mark
    have marks : ∀ part ∈ dateForm, part.2.utf8Size = 1 := by decide
    exact marks part listed

theorem isUnquoted_text (d : DateTime) : Text.IsUnquoted d.text.toList := by
  intro c among
  rw [text, String.toList_ofList] at among
  rcases mem_written among with digit | mark
  · exact ⟨fun same => absurd (same ▸ digit) (by decide),
      fun same => absurd (same ▸ digit) (by decide)⟩
  · obtain ⟨part, listed, rfl⟩ := List.mem_map.mp mark
    have marks : ∀ part ∈ dateForm, part.2 ≠ '\\' ∧ part.2 ≠ '"' := by decide
    exact marks part listed

theorem utf8_text (d : DateTime) :
    utf8 d.text = (written dateForm d.fields).map fun c => c.val.toUInt8 :=
  utf8_ofList fun _ => utf8Size_of_mem_text

theorem utf8_text_lt {d e : DateTime} (sooner : d.seconds < e.seconds) :
    utf8 d.text < utf8 e.text := by
  rw [utf8_text, utf8_text]
  exact bytes_lt (fun _ => utf8Size_of_mem_text) (written_lt d.fit e.fit (seconds_lt_iff.mp sooner))

/-- The bytes of texts are in the order of the points in time. -/
theorem utf8_text_lt_iff {d e : DateTime} : utf8 d.text < utf8 e.text ↔ d.timestamp < e.timestamp := by
  have seconds : d.timestamp < e.timestamp ↔ d.seconds < e.seconds := by
    unfold timestamp
    omega
  rw [seconds]
  refine ⟨fun less => ?_, utf8_text_lt⟩
  rcases Nat.lt_trichotomy d.seconds e.seconds with sooner | same | later
  · exact sooner
  · rw [seconds_injective same] at less
    exact absurd less (List.lt_irrefl _)
  · exact absurd less (List.lt_asymm (utf8_text_lt later))

end DateTime

/-! ### From seconds to dates -/

namespace Timestamp

theorem isLeap_eq_true_iff {year : Nat} : isLeap year = true ↔ IsLeapYear year := by
  simp only [isLeap, IsLeapYear, Bool.and_eq_true, Bool.or_eq_true, decide_eq_true_eq]
  omega

theorem monthLengths_eq (year : Nat) :
    monthLengths year = (List.range 12).map fun m => monthLength year (m + 1) := by
  unfold monthLengths
  simp only [isLeap_eq_true_iff]
  rfl

/-- A year is one more multiple of a number, or none. -/
theorem multiples_succ (k year : Nat) :
    (year + 1 + k) / (k + 1) = (year + k) / (k + 1) + if k + 1 ∣ year then 1 else 0 := by
  rw [Nat.add_right_comm, Nat.succ_div]
  simp only [Nat.add_assoc, Nat.dvd_add_self_right]

/-- The days before a year grow by the length of the year. -/
theorem daysBefore_succ (year : Nat) : daysBefore (year + 1) = daysBefore year + yearLength year := by
  have fewer : (year + 99) / 100 ≤ (year + 3) / 4 := by omega
  unfold daysBefore yearLength IsLeapYear
  rw [multiples_succ 3, multiples_succ 99, multiples_succ 399]
  by_cases fourth : 4 ∣ year
  · by_cases century : 100 ∣ year
    · by_cases leap : 400 ∣ year <;> simp [fourth, century, leap] <;> omega
    · have common : ¬ 400 ∣ year := fun leap => century ((show 100 ∣ 400 by decide).trans leap)
      simp [fourth, century, common]
      omega
  · have century : ¬ 100 ∣ year := fun century => fourth ((show 4 ∣ 100 by decide).trans century)
    have common : ¬ 400 ∣ year := fun leap => fourth ((show 4 ∣ 400 by decide).trans leap)
    simp [fourth, century, common]
    omega

theorem daysBefore_eq (year : Nat) : daysBefore year = daysBeforeYear year := by
  induction year with
  | zero => rfl
  | succ year ih =>
    rw [daysBefore_succ, ih]
    exact (Finset.sum_range_succ _ _).symm

/-- A year begins near a multiple of the mean length of a year, which is 146097 / 400 days. -/
theorem daysBefore_near (year : Nat) : 400 * daysBefore year ≤ 146097 * year + 699 ∧
    146097 * year ≤ 400 * daysBefore year + 396 := by
  unfold daysBefore
  omega

/-- A day lies in its year. -/
theorem yearOf_spec (day : Nat) :
    daysBeforeYear (yearOf day) ≤ day ∧ day < daysBeforeYear (yearOf day + 1) := by
  rw [← daysBefore_eq, ← daysBefore_eq]
  unfold yearOf
  dsimp only
  generalize quotient : day * 400 / 146097 = guess
  have low : 146097 * guess ≤ 400 * day := by omega
  have high : 400 * day < 146097 * (guess + 1) := by omega
  split
  · next early =>
    cases guess with
    | zero => exact absurd early (Nat.not_lt_zero day)
    | succ before =>
      have near := daysBefore_near before
      rw [Nat.add_sub_cancel]
      omega
  · split
    · have near := daysBefore_near (guess + 1 + 1)
      omega
    · omega

/-- A day within months of given lengths lies in one of them. -/
theorem monthAndDay_spec (length : Nat → Nat) {count day : Nat}
    (within : day < ∑ m ∈ Finset.range count, length m) :
    ∃ month < count, ∃ inMonth < length month,
      monthAndDay ((List.range count).map length) day = (month + 1, inMonth + 1) ∧
        day = ∑ m ∈ Finset.range month, length m + inMonth := by
  induction count generalizing length day with
  | zero => cases within
  | succ count ih =>
    rw [Finset.sum_range_succ'] at within
    rw [List.range_succ_eq_map, List.map_cons, List.map_map, monthAndDay]
    by_cases first : day < length 0
    · rw [if_pos first]
      exact ⟨0, Nat.succ_pos count, day, first, rfl, (Nat.zero_add day).symm⟩
    · have later : day - length 0 < ∑ m ∈ Finset.range count, length (m + 1) := by omega
      obtain ⟨month, low, inMonth, short, found, split⟩ := ih (length ∘ Nat.succ) later
      refine ⟨month + 1, Nat.succ_lt_succ low, inMonth, short, ?_, ?_⟩
      · rw [if_neg first, found]
      · rw [Finset.sum_range_succ']
        simp only [Function.comp_apply, Nat.succ_eq_add_one] at split
        omega

/-- A day is a day of a month of its year. -/
theorem date_spec (day : Nat) :
    ∃ month < 12, ∃ inMonth < monthLength (yearOf day) (month + 1),
      monthAndDay (monthLengths (yearOf day)) (day - daysBefore (yearOf day)) =
          (month + 1, inMonth + 1) ∧
        day = daysBeforeYear (yearOf day) + daysBeforeMonth (yearOf day) (month + 1) + inMonth := by
  obtain ⟨begun, ends⟩ := yearOf_spec day
  have months : ∑ m ∈ Finset.range 12, monthLength (yearOf day) (m + 1) = yearLength (yearOf day) :=
    daysBeforeMonth_thirteen _
  have next : daysBeforeYear (yearOf day + 1) =
      daysBeforeYear (yearOf day) + yearLength (yearOf day) := Finset.sum_range_succ _ _
  have within : day - daysBeforeYear (yearOf day) <
      ∑ m ∈ Finset.range 12, monthLength (yearOf day) (m + 1) := by omega
  obtain ⟨month, low, inMonth, short, found, split⟩ := monthAndDay_spec _ within
  refine ⟨month, low, inMonth, short, ?_, ?_⟩
  · rw [monthLengths_eq, daysBefore_eq, found]
  · rw [daysBeforeMonth, Nat.add_sub_cancel, Nat.add_assoc, ← split]
    omega

/-- The text of a point in time is that of a date and time. -/
theorem textFrom_spec {seconds : Nat} (within : seconds < 86400 * daysBeforeYear 10000) :
    ∃ d : DateTime, d.seconds = seconds ∧ String.ofList (textFrom seconds) = d.text := by
  have begun := (yearOf_spec (seconds / 86400)).1
  obtain ⟨month, low, inMonth, short, found, split⟩ := date_spec (seconds / 86400)
  unfold textFrom daySeconds
  dsimp only
  rw [found]
  dsimp only
  generalize yearOf (seconds / 86400) = year at begun short split
  have year_lt : year < 10000 := by
    by_contra late
    have years := daysBeforeYear_mono (Nat.le_of_not_lt late)
    omega
  have hour_lt : seconds % 86400 / 3600 < 24 := by omega
  let d : DateTime :=
    { year
      month := month + 1
      day := inMonth + 1
      hour := seconds % 86400 / 3600
      minute := seconds % 86400 / 60 % 60
      second := seconds % 86400 % 60
      year_lt
      month_pos := Nat.succ_pos month
      month_le := low
      day_pos := Nat.succ_pos inMonth
      day_le := short
      hour_lt
      minute_lt := Nat.mod_lt _ (by decide)
      second_lt := Nat.mod_lt _ (by decide) }
  refine ⟨d, ?_, ?_⟩
  · have days : d.days = seconds / 86400 := split.symm
    rw [DateTime.seconds, days]
    dsimp only [d]
    omega
  · rw [DateTime.text, written_eq_padded d.fit]
    simp [DateTime.fields, dateForm, d]

theorem epoch_eq : DateTime.epoch.seconds = epoch := by
  have year : daysBeforeYear DateTime.epoch.year = 719528 := (daysBefore_eq 1970).symm
  have month : daysBeforeMonth DateTime.epoch.year DateTime.epoch.month = 0 := rfl
  rw [DateTime.seconds, DateTime.days, year, month]
  rfl

/-- A timestamp is written as the date and time that it stands for, if there is one. -/
theorem text?_eq_some_iff {timestamp : Int} {text : String} :
    text? timestamp = some text ↔ ∃ d : DateTime, d.timestamp = timestamp ∧ text = d.text := by
  have epochs := epoch_eq
  have before := daysBefore_eq 10000
  unfold text? DateTime.timestamp
  dsimp only
  constructor
  · intro found
    split at found
    · next within =>
      have point : (timestamp + epoch).toNat < 86400 * daysBeforeYear 10000 := by
        rw [← before]
        unfold daySeconds at within
        omega
      obtain ⟨d, seconds, same⟩ := textFrom_spec point
      refine ⟨d, by omega, ?_⟩
      rw [← same]
      exact (Option.some.inj found).symm
    · cases found
  · rintro ⟨d, rfl, rfl⟩
    have within := d.seconds_lt
    obtain ⟨e, seconds, same⟩ := textFrom_spec within
    obtain rfl := DateTime.seconds_injective seconds
    have shifted : (e.seconds : Int) - DateTime.epoch.seconds + epoch = e.seconds := by omega
    rw [shifted, if_pos, Int.toNat_natCast, same]
    rw [before]
    unfold daySeconds
    omega

example : text? 951825600 = some "2000-02-29T12:00:00Z" := rfl

/-- The timestamps of the years 0 to 9999. -/
def InYears (timestamp : Int) : Prop :=
  -62167219200 ≤ timestamp ∧ timestamp ≤ 253402300799

instance (timestamp : Int) : Decidable (InYears timestamp) :=
  inferInstanceAs (Decidable (_ ∧ _))

/-- A timestamp has no text iff it is out of the years of four digits. -/
theorem text?_eq_none_iff {timestamp : Int} : text? timestamp = none ↔ ¬ InYears timestamp := by
  have years : daysBefore 10000 = 3652425 := rfl
  have written : (0 ≤ timestamp + epoch ∧ timestamp + epoch < daySeconds * daysBefore 10000) ↔
      InYears timestamp := by
    rw [years]
    unfold daySeconds epoch InYears
    omega
  unfold text?
  dsimp only
  rw [ite_eq_right_iff, ← written]
  simp

theorem exists_text_iff {timestamp : Int} :
    (∃ text, text? timestamp = some text) ↔ InYears timestamp := by
  rw [← Option.ne_none_iff_exists', ne_eq, text?_eq_none_iff, not_not]

end Timestamp

end SearchCompiler.Filter
