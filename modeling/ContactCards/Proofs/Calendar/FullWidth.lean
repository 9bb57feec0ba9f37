import ContactCards.Proofs.Calendar.DateForms
import ContactCards.Proofs.Calendar.DayNumbers

/-! Fields at full width: as many digits as the field is wide, with leading zeros. A number is
written at full width in one way, and is read back whatever comes behind it. -/
namespace ContactCards

open Scan

variable {cs rest : List Char} {width n : Nat}

namespace DateOrTime

theorem isBlank_eq_false_of_isFormChar {c : Char} (h : isFormChar c) : isBlank c = false := by
  simp only [isFormChar, Bool.or_eq_true, beq_iff_eq] at h
  rcases h with ((((h | rfl) | rfl) | rfl) | rfl) | rfl
  · exact isBlank_eq_false_of_isDigit h
  all_goals rfl

theorem isFormChar_sign {sign : Char} (h : sign = '+' ∨ sign = '-') : isFormChar sign := by
  rcases h with rfl | rfl <;> rfl

/-- Nothing is trimmed from the characters of dates and times. -/
theorem trimChars_eq_self (h : ∀ c ∈ cs, isFormChar c) : trimChars cs = cs := by
  have hdrop {cs : List Char} (h : ∀ c ∈ cs, isFormChar c) : dropBlanks cs = cs :=
    dropBlanks_eq_self fun c hc => isBlank_eq_false_of_isFormChar (h c (List.mem_of_mem_head? hc))
  have hreverse : ∀ c ∈ cs.reverse, isFormChar c := fun c hc => h c (List.mem_reverse.mp hc)
  rw [trimChars, hdrop h, hdrop hreverse, List.reverse_reverse]

end DateOrTime

namespace Scan

theorem valueOf_eq_ofDigitChars (cs : List Char) : valueOf cs = Nat.ofDigitChars 10 cs 0 := by
  simp only [valueOf, Nat.ofDigitChars_eq_foldl, Nat.mul_comm]

theorem valueOf_lt (h : ∀ c ∈ cs, c.isDigit) : valueOf cs < 10 ^ cs.length := by
  induction cs with
  | nil => decide
  | cons c cs ih =>
    obtain ⟨hc, hcs⟩ := List.forall_mem_cons.mp h
    have hrange : 48 ≤ c.toNat ∧ c.toNat ≤ 57 := by
      simpa [Char.isDigit, UInt32.le_iff_toNat_le] using hc
    have hrest := ih hcs
    rw [valueOf_eq_ofDigitChars] at hrest ⊢
    rw [Nat.ofDigitChars_cons, Nat.ofDigitChars_eq_ofDigitChars_zero, List.length_cons, pow_succ]
    have hzero : '0'.toNat = 48 := rfl
    have hfirst : 10 ^ cs.length * (10 * 0 + (c.toNat - '0'.toNat)) ≤ 10 ^ cs.length * 9 :=
      Nat.mul_le_mul_left _ (by omega)
    omega

theorem padded_toList (width n : Nat) : (Date.padded width n).toList =
    List.replicate (width - (Nat.toDigits 10 n).length) '0' ++ Nat.toDigits 10 n :=
  String.toList_ofList

theorem isDigits_padded (width n : Nat) : IsDigits (Date.padded width n).toList := by
  rw [padded_toList]
  refine ⟨fun hnil => Nat.toDigits_ne_nil (List.append_eq_nil_iff.mp hnil).2, fun c hc => ?_⟩
  rcases List.mem_append.mp hc with hzero | hdigit
  · rw [List.eq_of_mem_replicate hzero]
    rfl
  · exact Nat.isDigit_of_mem_toDigits (by decide) le_rfl hdigit

/-- As many digits as a field is wide. -/
structure Digits (width : Nat) where
  chars : List Char
  isDigit : ∀ c ∈ chars, c.isDigit
  length_eq : chars.length = width

namespace Digits

def value (d : Digits width) : Nat :=
  valueOf d.chars

theorem value_lt (d : Digits width) : d.value < 10 ^ width := by
  have h := valueOf_lt d.isDigit
  rwa [d.length_eq] at h

theorem isDigits [NeZero width] (d : Digits width) : IsDigits d.chars := by
  refine ⟨fun hnil => NeZero.ne width ?_, d.isDigit⟩
  rw [← d.length_eq, hnil, List.length_nil]

theorem isFormChar (d : Digits width) : ∀ c ∈ d.chars, DateOrTime.isFormChar c :=
  fun c hc => DateOrTime.isFormChar_of_isDigit (d.isDigit c hc)

/-- A number at full width. -/
def ofNat [NeZero width] (n : Nat) (h : n < 10 ^ width) : Digits width where
  chars := (Date.padded width n).toList
  isDigit := (isDigits_padded width n).isDigit
  length_eq := by
    have hlength := (Nat.length_toDigits_le_iff (by decide : 1 < 10) (NeZero.pos width)).mpr h
    rw [padded_toList, List.length_append, List.length_replicate]
    omega

theorem value_ofNat [NeZero width] (h : n < 10 ^ width) : (ofNat n h).value = n := by
  have hvalue : (ofNat n h).value = valueOf (Date.padded width n).toList := rfl
  rw [hvalue, valueOf_eq_ofDigitChars, padded_toList, Nat.ofDigitChars_append,
    Nat.ofDigitChars_replicate_zero, Nat.mul_zero, Nat.ofDigitChars_ten_toDigits]

/-- A field of two digits, as all but years are. -/
def two (n : Nat) (h : n < 10 ^ 2) : Digits 2 :=
  ofNat n h

theorem value_two {n : Nat} (h : n < 10 ^ 2) : (two n h).value = n :=
  value_ofNat h

end Digits

theorem fixed_digits (d : Digits width) (rest : List Char) :
    fixed width (d.chars ++ rest) = some (d.value, rest) := by
  have htake : ((d.chars ++ rest).take width).takeWhile Char.isDigit = d.chars :=
    takeWhile_take_digits d.isDigit d.length_eq.le (Or.inl d.length_eq)
  have hdrop : (d.chars ++ rest).drop width = rest := List.drop_left' d.length_eq
  rw [fixed, htake, if_pos d.length_eq, hdrop]
  rfl

theorem field_digits (d : Digits 2) (rest : List Char) :
    field (d.chars ++ rest) = some (d.value, rest) := by
  rw [field_eq_some_iff]
  exact ⟨[], d.chars, rfl, nofun, d.isDigits, d.length_eq.le, Or.inl d.length_eq, rfl⟩

theorem yearNumber_fullWidth (d : Digits 4) (rest : List Char) :
    yearNumber (d.chars ++ rest) = some ((d.value : Int), rest) :=
  (yearNumber_eq_some_iff d.isDigits.dropBlanks_eq_self).mpr ⟨none, d.chars, rfl,
    ⟨d.isDigits, Or.inl ⟨rfl, d.length_eq.le, Or.inl d.length_eq⟩⟩, rfl⟩

end Scan

/-- The years that are printed with four digits and no sign. -/
def Date.HasFourDigits (year : Int) : Prop :=
  0 ≤ year ∧ year ≤ 9999

instance (year : Int) : Decidable (Date.HasFourDigits year) :=
  inferInstanceAs (Decidable (_ ∧ _))

theorem Date.HasFourDigits.natAbs_lt {year : Int} (h : HasFourDigits year) :
    year.natAbs < 10 ^ 4 := by
  unfold HasFourDigits at h
  omega

section YearDay

variable {year : Int} {month day : Nat}

theorem Date.IsYearDay.month_lt (h : IsYearDay year month day) : month < 10 ^ 2 := by
  have hmonth := h.1.2
  omega

theorem Date.IsYearDay.day_lt (h : IsYearDay year month day) : day < 10 ^ 2 := by
  have hday := h.2.2.trans (daysInMonth_le year month)
  omega

theorem Date.IsYearDay.isDay (h : IsYearDay year month day) (hyear : HasFourDigits year) :
    IsDay year month day := by
  refine ⟨?_, h⟩
  unfold HasFourDigits at hyear
  unfold minYear maxYear
  omega

end YearDay

/-- A date at full width. -/
structure FullDate where
  year : Digits 4
  month : Digits 2
  day : Digits 2

namespace FullDate

open Date

variable {form : Form} {s : String}

def text (form : Form) (d : FullDate) : List Char :=
  d.year.chars ++ (form.mark ++ (d.month.chars ++ (form.mark ++ d.day.chars)))

def written (form : Form) (d : FullDate) : Written where
  form := form
  sign := none
  year := d.year.chars
  before := []
  month := d.month.chars
  between := []
  day := d.day.chars
  sign_mem := Or.inl rfl
  year_digits := d.year.isDigits
  year_length _ := d.year.length_eq.le
  year_end _ := ⟨rfl, d.year.length_eq⟩
  before_blank := nofun
  month_digits := d.month.isDigits
  month_length := d.month.length_eq.le
  month_end _ := d.month.length_eq
  between_blank := nofun
  day_digits := d.day.isDigits
  day_length := d.day.length_eq.le

theorem fullWidth_written (form : Form) (d : FullDate) : (d.written form).FullWidth :=
  ⟨rfl, d.year.length_eq, rfl, d.month.length_eq, rfl, d.day.length_eq⟩

/-- The day that is written, if it is a day of the calendar. -/
def date? (d : FullDate) : Option Date :=
  ofFields? d.year.value d.month.value d.day.value

theorem isFormChar_text (form : Form) (d : FullDate) :
    ∀ c ∈ d.text form, DateOrTime.isFormChar c :=
  DateOrTime.isFormChar_of_fullWidth (d.fullWidth_written form)

/-- In either form a text at full width is a date just if it names a day of the calendar. -/
theorem parse?_text (form : Form) (d : FullDate) :
    DateOrTime.parse? (String.ofList (d.text form)) =
      some ((d.date?.map .date).getD (.partly (String.ofList (d.text form)))) := by
  have htrim : trimChars (String.ofList (d.text form)).toList = d.text form := by
    rw [String.toList_ofList]
    exact DateOrTime.trimChars_eq_self (d.isFormChar_text form)
  have hread := DateOrTime.parse?_of_fullWidth (d.fullWidth_written form) htrim.symm
  rwa [trim, htrim] at hread

/-- A day in a year of four digits. -/
def ofDay {year : Int} {month day : Nat} (hyear : HasFourDigits year)
    (h : IsYearDay year month day) : FullDate where
  year := .ofNat year.natAbs hyear.natAbs_lt
  month := .two month h.month_lt
  day := .two day h.day_lt

section OfDay

variable {year : Int} {month day : Nat} (hyear : HasFourDigits year) (h : IsYearDay year month day)

include hyear h

theorem value_year_ofDay : ((ofDay hyear h).year.value : Int) = year := by
  have hvalue : (ofDay hyear h).year.value = year.natAbs := Digits.value_ofNat hyear.natAbs_lt
  rw [hvalue]
  exact Int.natAbs_of_nonneg hyear.1

theorem value_month_ofDay : (ofDay hyear h).month.value = month :=
  Digits.value_two h.month_lt

theorem value_day_ofDay : (ofDay hyear h).day.value = day :=
  Digits.value_two h.day_lt

theorem text_ofDay : (ofDay hyear h).text .basic = (renderFields year month day).toList := by
  have hsign : (if year < 0 then "-" else if 9999 < year then "+" else "") = "" := by
    unfold HasFourDigits at hyear
    rw [if_neg (by omega), if_neg (by omega)]
  rw [renderFields, renderYear, hsign, String.empty_append, String.toList_append,
    String.toList_append, List.append_assoc]
  rfl

end OfDay

end FullDate
end ContactCards
