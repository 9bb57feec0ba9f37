import ContactCards.Calendar.Scan
import Mathlib

/-! What the readers of numbers accept at the front of a text: a run of digits is read as far as it
goes or until it has the width of the field, after any blanks. -/
namespace ContactCards

variable {c : Char} {cs rest blanks digits : List Char} {n width : Nat} {y : Int}

theorem isBlank_eq_false_of_isDigit (h : c.isDigit) : isBlank c = false := by
  have hrange : 48 ≤ c.toNat ∧ c.toNat ≤ 57 := by
    simpa [Char.isDigit, UInt32.le_iff_toNat_le] using h
  simp [isBlank, blankRanges]
  omega

theorem dropBlanks_eq_self (h : ∀ c ∈ cs.head?, isBlank c = false) : dropBlanks cs = cs := by
  cases cs with
  | nil => rfl
  | cons c cs => exact List.dropWhile_cons_of_neg (by simp [h c rfl])

theorem dropBlanks_hyphen (cs : List Char) : dropBlanks ('-' :: cs) = '-' :: cs :=
  dropBlanks_eq_self (by rintro _ ⟨⟩; decide)

theorem dropBlanks_append (h : ∀ c ∈ blanks, isBlank c) :
    dropBlanks (blanks ++ cs) = dropBlanks cs :=
  List.dropWhile_append_of_pos h

/-- Trimmed text does not begin with a blank. -/
theorem dropBlanks_trimChars (cs : List Char) : dropBlanks (trimChars cs) = trimChars cs := by
  have hprefix : trimChars cs <+: dropBlanks cs := by
    rw [trimChars, ← List.reverse_suffix, List.reverse_reverse]
    exact List.dropWhile_suffix isBlank
  obtain ⟨after, hafter⟩ := hprefix
  have hhead := List.head?_dropWhile_not isBlank cs
  apply dropBlanks_eq_self
  intro c hc
  rw [← dropBlanks, ← hafter, List.head?_append, Option.mem_def.mp hc] at hhead
  exact hhead

namespace Scan

/-- Digits, at least one. -/
structure IsDigits (digits : List Char) : Prop where
  ne_nil : digits ≠ []
  isDigit : ∀ c ∈ digits, c.isDigit

/-- No digit comes next. -/
def Ends (rest : List Char) : Prop :=
  ∀ c ∈ rest.head?, c.isDigit = false

theorem IsDigits.head_isDigit (h : IsDigits digits) : ∀ c ∈ (digits ++ rest).head?, c.isDigit := by
  cases digits with
  | nil => exact absurd rfl h.ne_nil
  | cons c digits =>
    rintro _ ⟨⟩
    exact h.isDigit c List.mem_cons_self

theorem IsDigits.dropBlanks_eq_self (h : IsDigits digits) :
    dropBlanks (digits ++ rest) = digits ++ rest :=
  ContactCards.dropBlanks_eq_self fun c hc => isBlank_eq_false_of_isDigit (h.head_isDigit c hc)

theorem takeWhile_take_digits (h : ∀ c ∈ digits, c.isDigit) (hlength : digits.length ≤ width)
    (hends : digits.length = width ∨ Ends rest) :
    ((digits ++ rest).take width).takeWhile Char.isDigit = digits := by
  have hnone : (rest.take (width - digits.length)).takeWhile Char.isDigit = [] := by
    rcases hends with hfull | hends
    · rw [hfull, Nat.sub_self, List.take_zero, List.takeWhile_nil]
    · cases rest with
      | nil => rw [List.take_nil, List.takeWhile_nil]
      | cons c rest =>
        have hc : c.isDigit = false := hends c rfl
        cases width - digits.length <;> simp [hc]
  rw [List.take_append, List.take_of_length_le hlength, List.takeWhile_append_of_pos h, hnone,
    List.append_nil]

/-- Every text begins with a run of digits, which may be empty. -/
theorem exists_run (width : Nat) (cs : List Char) : ∃ digits rest, cs = digits ++ rest ∧
    (∀ c ∈ digits, c.isDigit) ∧ digits.length ≤ width ∧ (digits.length = width ∨ Ends rest) := by
  induction cs generalizing width with
  | nil => exact ⟨[], [], rfl, nofun, Nat.zero_le width, Or.inr nofun⟩
  | cons c cs ih =>
    cases width with
    | zero => exact ⟨[], c :: cs, rfl, nofun, le_rfl, Or.inl rfl⟩
    | succ width =>
      by_cases hc : c.isDigit
      · obtain ⟨digits, rest, rfl, hdigits, hlength, hends⟩ := ih width
        refine ⟨c :: digits, rest, rfl, List.forall_mem_cons.mpr ⟨hc, hdigits⟩,
          Nat.succ_le_succ hlength, hends.imp_left ?_⟩
        rintro rfl
        rfl
      · refine ⟨[], c :: cs, rfl, nofun, Nat.zero_le _, Or.inr ?_⟩
        rintro _ ⟨⟩
        simpa using hc

/-- A number is a run of digits that has the width or is not followed by a digit. -/
theorem number_eq_some_iff : number width cs = some (n, rest) ↔
    ∃ digits, cs = digits ++ rest ∧ IsDigits digits ∧ digits.length ≤ width ∧
      (digits.length = width ∨ Ends rest) ∧ n = valueOf digits := by
  have hnumber {digits rest : List Char} (h : ∀ c ∈ digits, c.isDigit)
      (hlength : digits.length ≤ width) (hends : digits.length = width ∨ Ends rest) :
      number width (digits ++ rest) =
        if digits.isEmpty then none else some (valueOf digits, rest) := by
    simp only [number, takeWhile_take_digits h hlength hends, List.drop_left]
  constructor
  · intro h
    obtain ⟨digits, rest, rfl, hdigits, hlength, hends⟩ := exists_run width cs
    rw [hnumber hdigits hlength hends] at h
    split at h
    · cases h
    · next hne =>
      cases h
      exact ⟨digits, rfl, ⟨by simpa using hne, hdigits⟩, hlength, hends, rfl⟩
  · rintro ⟨digits, rfl, hdigits, hlength, hends, rfl⟩
    rw [hnumber hdigits.isDigit hlength hends, if_neg (by simpa using hdigits.ne_nil)]

theorem number_of_not_isDigit (h : c.isDigit = false) (width : Nat) (cs : List Char) :
    number width (c :: cs) = none := by
  cases width <;> simp [number, h]

/-- A field is one or two digits after blanks. -/
theorem field_eq_some_iff : field cs = some (n, rest) ↔
    ∃ blanks digits, cs = blanks ++ (digits ++ rest) ∧ (∀ c ∈ blanks, isBlank c) ∧
      IsDigits digits ∧ digits.length ≤ 2 ∧ (digits.length = 2 ∨ Ends rest) ∧
      n = valueOf digits := by
  rw [field, number_eq_some_iff]
  constructor
  · rintro ⟨digits, hcs, h⟩
    refine ⟨cs.takeWhile isBlank, digits, ?_, fun c hc => List.mem_takeWhile_imp hc, h⟩
    rw [← hcs, dropBlanks, List.takeWhile_append_dropWhile]
  · rintro ⟨blanks, digits, rfl, hblanks, hdigits, h⟩
    exact ⟨digits, by rw [dropBlanks_append hblanks, hdigits.dropBlanks_eq_self], hdigits, h⟩

theorem field_of_not_isDigit (hblank : isBlank c = false) (h : c.isDigit = false)
    (cs : List Char) : field (c :: cs) = none := by
  have hdrop : dropBlanks (c :: cs) = c :: cs := by
    apply dropBlanks_eq_self
    rintro _ ⟨⟩
    exact hblank
  rw [field, hdrop, number_of_not_isDigit h]

/-- A hyphen is neither a blank nor a digit. -/
theorem field_hyphen (cs : List Char) : field ('-' :: cs) = none :=
  field_of_not_isDigit rfl rfl cs

/-- The number of a year, which a minus sign makes negative. -/
def yearOf (sign : Option Char) (digits : List Char) : Int :=
  if sign = some '-' then -(valueOf digits : Int) else valueOf digits

/-- The digits of a year before the text `rest`: at most four without a sign, any number after
one. -/
def IsYear (sign : Option Char) (digits rest : List Char) : Prop :=
  IsDigits digits ∧ (sign = none ∧ digits.length ≤ 4 ∧ (digits.length = 4 ∨ Ends rest) ∨
    (sign = some '+' ∨ sign = some '-') ∧ Ends rest)

/-- After a sign a run of digits goes on to its end. -/
theorem number_length_eq_some_iff : number cs.length cs = some (n, rest) ↔
    ∃ digits, cs = digits ++ rest ∧ IsDigits digits ∧ Ends rest ∧ n = valueOf digits := by
  rw [number_eq_some_iff]
  constructor
  · rintro ⟨digits, rfl, hdigits, -, hends, rfl⟩
    refine ⟨digits, rfl, hdigits, hends.elim (fun hfull => ?_) id, rfl⟩
    have hrest : rest = [] := by simpa using hfull
    rw [hrest]
    exact nofun
  · rintro ⟨digits, rfl, hdigits, hends, rfl⟩
    exact ⟨digits, rfl, hdigits, by simp, Or.inr hends, rfl⟩

/-- How a year is read that no blank comes before. -/
theorem yearNumber_eq_some_iff (h : dropBlanks cs = cs) : yearNumber cs = some (y, rest) ↔
    ∃ sign digits, cs = sign.toList ++ (digits ++ rest) ∧ IsYear sign digits rest ∧
      y = yearOf sign digits := by
  rw [yearNumber, h]
  constructor
  · intro hread
    split at hread
    · next after =>
      obtain ⟨⟨n, rest⟩, hnumber, hvalue⟩ := Option.map_eq_some_iff.mp hread
      obtain ⟨rfl, rfl⟩ := Prod.mk.inj hvalue
      obtain ⟨digits, rfl, hdigits, hends, rfl⟩ := number_length_eq_some_iff.mp hnumber
      exact ⟨some '-', digits, rfl, ⟨hdigits, Or.inr ⟨Or.inr rfl, hends⟩⟩, rfl⟩
    · next after =>
      obtain ⟨⟨n, rest⟩, hnumber, hvalue⟩ := Option.map_eq_some_iff.mp hread
      obtain ⟨rfl, rfl⟩ := Prod.mk.inj hvalue
      obtain ⟨digits, rfl, hdigits, hends, rfl⟩ := number_length_eq_some_iff.mp hnumber
      exact ⟨some '+', digits, rfl, ⟨hdigits, Or.inr ⟨Or.inl rfl, hends⟩⟩, rfl⟩
    · obtain ⟨⟨n, rest⟩, hnumber, hvalue⟩ := Option.map_eq_some_iff.mp hread
      obtain ⟨rfl, rfl⟩ := Prod.mk.inj hvalue
      obtain ⟨digits, rfl, hdigits, hlength, hends, rfl⟩ := number_eq_some_iff.mp hnumber
      exact ⟨none, digits, rfl, ⟨hdigits, Or.inl ⟨rfl, hlength, hends⟩⟩, rfl⟩
  · rintro ⟨sign, digits, rfl, ⟨hdigits, ⟨rfl, hlength, hends⟩ | ⟨rfl | rfl, hends⟩⟩, rfl⟩
    · have hnumber : number 4 (digits ++ rest) = some (valueOf digits, rest) :=
        number_eq_some_iff.mpr ⟨digits, rfl, hdigits, hlength, hends, rfl⟩
      have hhead : ∀ c ∈ (digits ++ rest).head?, c.isDigit := hdigits.head_isDigit
      simp only [Option.toList_none, List.nil_append]
      split
      · next after heq =>
        rw [heq] at hhead
        exact absurd (hhead '-' rfl) (by decide)
      · next after heq =>
        rw [heq] at hhead
        exact absurd (hhead '+' rfl) (by decide)
      · rw [hnumber]
        rfl
    · have hnumber := number_length_eq_some_iff.mpr ⟨digits, rfl, hdigits, hends, rfl⟩
      simp only [Option.toList_some, List.singleton_append, hnumber]
      rfl
    · have hnumber := number_length_eq_some_iff.mpr ⟨digits, rfl, hdigits, hends, rfl⟩
      simp only [Option.toList_some, List.singleton_append, hnumber]
      rfl

theorem yearNumber_digits (h : IsDigits digits) (hlength : digits.length ≤ 4) (hends : Ends rest) :
    yearNumber (digits ++ rest) = some ((valueOf digits : Int), rest) :=
  (yearNumber_eq_some_iff h.dropBlanks_eq_self).mpr
    ⟨none, digits, rfl, ⟨h, Or.inl ⟨rfl, hlength, Or.inr hends⟩⟩, rfl⟩

theorem yearNumber_hyphens (cs : List Char) : yearNumber ('-' :: '-' :: cs) = none := by
  have hdigit : '-'.isDigit = false := rfl
  simp only [yearNumber, dropBlanks_hyphen, number_of_not_isDigit hdigit, Option.map_none]

end Scan
end ContactCards
