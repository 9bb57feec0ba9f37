import ContactCards.Card.Value
import ContactCards.Proofs.Calendar.Scanning

/-! Which texts are dates. A date can be written in more ways than at full width: with a sign, with
a field cut short where its end can be seen, and with blanks before the month or the day. Texts that
are no date are kept as they are where all their characters may stand in a date or a time. -/
namespace ContactCards

open Scan

variable {cs rest gap digits : List Char} {n : Nat} {date : Date}

namespace Date

/-- Basic, in which nothing parts the fields, and extended, in which hyphens do. -/
inductive Form where
  | basic
  | extended

/-- What stands before the month and before the day. -/
def Form.mark : Form → List Char
  | basic => []
  | extended => ['-']

/-- A date as it may be written. A field whose end nothing marks has its full width. -/
structure Written where
  form : Form
  sign : Option Char
  year : List Char
  /-- The blanks before the month. -/
  before : List Char
  month : List Char
  /-- The blanks before the day. -/
  between : List Char
  day : List Char
  sign_mem : sign = none ∨ sign = some '+' ∨ sign = some '-'
  year_digits : IsDigits year
  year_length : sign = none → year.length ≤ 4
  year_end : form.mark ++ before = [] → sign = none ∧ year.length = 4
  before_blank : ∀ c ∈ before, isBlank c
  month_digits : IsDigits month
  month_length : month.length ≤ 2
  month_end : form.mark ++ between = [] → month.length = 2
  between_blank : ∀ c ∈ between, isBlank c
  day_digits : IsDigits day
  day_length : day.length ≤ 2

namespace Written

def afterMonth (w : Written) : List Char :=
  w.form.mark ++ (w.between ++ w.day)

def afterYear (w : Written) : List Char :=
  w.form.mark ++ (w.before ++ (w.month ++ w.afterMonth))

def text (w : Written) : List Char :=
  w.sign.toList ++ (w.year ++ w.afterYear)

def fields (w : Written) : Int × Nat × Nat :=
  (yearOf w.sign w.year, valueOf w.month, valueOf w.day)

/-- The day that is written, if it is a day of the calendar. -/
def date? (w : Written) : Option Date :=
  ofFields? w.fields.1 w.fields.2.1 w.fields.2.2

/-- Four, two and two digits, and no blanks. -/
structure FullWidth (w : Written) : Prop where
  sign : w.sign = none
  year : w.year.length = 4
  before : w.before = []
  month : w.month.length = 2
  between : w.between = []
  day : w.day.length = 2

end Written

/-! What the readers of the two forms accept. -/

/-- A field of a form, with what stands before it. -/
def Form.field : Form → List Char → Option (Nat × List Char)
  | basic, cs => Scan.field cs
  | extended, cs => (char '-' cs).bind Scan.field

def Form.scan (form : Form) (cs : List Char) : Option ((Int × Nat × Nat) × List Char) :=
  (yearNumber cs).bind fun (y, cs) =>
    (form.field cs).bind fun (m, cs) =>
      (form.field cs).bind fun (d, cs) => some ((y, m, d), cs)

theorem scanBasic_eq (cs : List Char) : scanBasic cs = Form.basic.scan cs := rfl

theorem scanExtended_eq (cs : List Char) : scanExtended cs = Form.extended.scan cs := by
  simp only [scanExtended, Form.scan, Form.field, Option.bind_assoc]
  rfl

theorem char_eq_some_iff {c : Char} : char c cs = some rest ↔ cs = c :: rest := by
  cases cs with
  | nil => simp [char]
  | cons d cs =>
    simp only [char, List.cons.injEq]
    split
    · next h => simp [h]
    · next h => simp [Ne.symm h]

variable {form form' : Form}

theorem Form.field_eq_some_iff : form.field cs = some (n, rest) ↔
    ∃ blanks digits, cs = form.mark ++ (blanks ++ (digits ++ rest)) ∧ (∀ c ∈ blanks, isBlank c) ∧
      IsDigits digits ∧ digits.length ≤ 2 ∧ (digits.length = 2 ∨ Ends rest) ∧
      n = valueOf digits := by
  cases form with
  | basic => exact Scan.field_eq_some_iff
  | extended =>
    simp only [Form.field, Option.bind_eq_some_iff, char_eq_some_iff, Scan.field_eq_some_iff]
    constructor
    · rintro ⟨_, rfl, blanks, digits, rfl, h⟩
      exact ⟨blanks, digits, rfl, h⟩
    · rintro ⟨blanks, digits, rfl, h⟩
      exact ⟨_, rfl, blanks, digits, rfl, h⟩

theorem Form.field_nil (form : Form) : form.field [] = none := by
  cases form <;> rfl

/-- No text has a field of both forms at its front. -/
theorem Form.field_unique {a a' : Nat × List Char} (h : form.field cs = some a)
    (h' : form'.field cs = some a') : form = form' := by
  cases form <;> cases form'
  case basic.basic => rfl
  case extended.extended => rfl
  case basic.extended =>
    obtain ⟨rest, hrest, -⟩ := Option.bind_eq_some_iff.mp h'
    rw [char_eq_some_iff.mp hrest, Form.field, field_hyphen] at h
    cases h
  case extended.basic =>
    obtain ⟨rest, hrest, -⟩ := Option.bind_eq_some_iff.mp h
    rw [char_eq_some_iff.mp hrest, Form.field, field_hyphen] at h'
    cases h'

theorem Form.isDigit_mark {c : Char} (h : c ∈ form.mark) : c.isDigit = false := by
  cases form with
  | basic => cases h
  | extended =>
    cases List.mem_singleton.mp h
    decide

/-- The end of a field can be seen where anything parts it from the next one. -/
theorem ends_gap_iff (hgap : ∀ c ∈ gap, c.isDigit = false) (hdigits : IsDigits digits) :
    Ends (gap ++ (digits ++ rest)) ↔ gap ≠ [] := by
  cases gap with
  | nil =>
    refine iff_of_false (fun hends => ?_) fun hne => hne rfl
    obtain ⟨c, after, rfl⟩ := List.exists_cons_of_ne_nil hdigits.ne_nil
    exact Bool.false_ne_true ((hends c rfl).symm.trans (hdigits.isDigit c List.mem_cons_self))
  | cons c gap =>
    refine iff_of_true ?_ (List.cons_ne_nil c gap)
    rintro _ ⟨⟩
    exact hgap c List.mem_cons_self

/-- The same before a month or a day of a form. -/
theorem Form.ends_iff {blanks : List Char} (hblanks : ∀ c ∈ blanks, isBlank c)
    (hdigits : IsDigits digits) :
    Ends (form.mark ++ (blanks ++ (digits ++ rest))) ↔ form.mark ++ blanks ≠ [] := by
  rw [← List.append_assoc]
  refine ends_gap_iff (fun c hc => ?_) hdigits
  rcases List.mem_append.mp hc with hmark | hblank
  · exact Form.isDigit_mark hmark
  · by_contra hdigit
    have hfalse := isBlank_eq_false_of_isDigit (Bool.eq_true_of_not_eq_false hdigit)
    exact Bool.false_ne_true (hfalse.symm.trans (hblanks c hblank))

theorem Written.isYear (w : Written) : IsYear w.sign w.year w.afterYear := by
  refine ⟨w.year_digits, ?_⟩
  rw [Written.afterYear, Form.ends_iff w.before_blank w.month_digits]
  by_cases hgap : w.form.mark ++ w.before = []
  · obtain ⟨hsign, hlength⟩ := w.year_end hgap
    exact Or.inl ⟨hsign, w.year_length hsign, Or.inl hlength⟩
  · exact w.sign_mem.imp (fun hsign => ⟨hsign, w.year_length hsign, Or.inr hgap⟩)
      fun hsign => ⟨hsign, hgap⟩

theorem Written.month_ends (w : Written) : w.month.length = 2 ∨ Ends w.afterMonth := by
  have hends : Ends (w.form.mark ++ (w.between ++ (w.day ++ []))) ↔ _ :=
    Form.ends_iff w.between_blank w.day_digits
  rw [List.append_nil] at hends
  rw [Written.afterMonth, hends]
  by_cases hgap : w.form.mark ++ w.between = []
  · exact Or.inl (w.month_end hgap)
  · exact Or.inr hgap

theorem Written.text_ne_nil (w : Written) : w.text ≠ [] := by
  intro h
  have hyear := (List.append_eq_nil_iff.mp (List.append_eq_nil_iff.mp h).2).1
  exact w.year_digits.ne_nil hyear

theorem Written.yearNumber_text (w : Written) (h : dropBlanks w.text = w.text) :
    yearNumber w.text = some (yearOf w.sign w.year, w.afterYear) :=
  (yearNumber_eq_some_iff h).mpr ⟨w.sign, w.year, rfl, w.isYear, rfl⟩

theorem Written.field_afterYear (w : Written) :
    w.form.field w.afterYear = some (valueOf w.month, w.afterMonth) :=
  Form.field_eq_some_iff.mpr ⟨w.before, w.month, rfl, w.before_blank, w.month_digits,
    w.month_length, w.month_ends, rfl⟩

theorem Written.field_afterMonth (w : Written) :
    w.form.field w.afterMonth = some (valueOf w.day, []) :=
  Form.field_eq_some_iff.mpr ⟨w.between, w.day, by rw [List.append_nil, Written.afterMonth],
    w.between_blank, w.day_digits, w.day_length, Or.inr nofun, rfl⟩

/-- The reader of a form reads what is written in it. -/
theorem Written.scan_text (w : Written) (h : dropBlanks w.text = w.text) :
    w.form.scan w.text = some (w.fields, []) := by
  simp only [Form.scan, w.yearNumber_text h, w.field_afterYear, w.field_afterMonth,
    Option.bind_some]
  rfl

/-- What the reader of a form has read to its end is a date written in that form. -/
theorem Form.exists_written {fields : Int × Nat × Nat} (h : dropBlanks cs = cs)
    (hscan : form.scan cs = some (fields, [])) :
    ∃ w : Written, w.form = form ∧ w.text = cs ∧ w.fields = fields := by
  obtain ⟨⟨y, afterYear⟩, hreadYear, hscan⟩ := Option.bind_eq_some_iff.mp hscan
  obtain ⟨⟨m, afterMonth⟩, hreadMonth, hscan⟩ := Option.bind_eq_some_iff.mp hscan
  obtain ⟨⟨d, afterDay⟩, hreadDay, hfields⟩ := Option.bind_eq_some_iff.mp hscan
  cases hfields
  obtain ⟨sign, year, rfl, ⟨hyearDigits, hyear⟩, rfl⟩ := (yearNumber_eq_some_iff h).mp hreadYear
  obtain ⟨before, month, rfl, hbefore, hmonthDigits, hmonthLength, hmonth, rfl⟩ :=
    Form.field_eq_some_iff.mp hreadMonth
  obtain ⟨between, day, rfl, hbetween, hdayDigits, hdayLength, -, rfl⟩ :=
    Form.field_eq_some_iff.mp hreadDay
  -- Nothing but a gap before the next field shows that a short year or month has ended.
  rw [Form.ends_iff hbefore hmonthDigits] at hyear
  rw [Form.ends_iff hbetween hdayDigits] at hmonth
  have hyearLength : sign = none → year.length ≤ 4 := by
    rintro rfl
    rcases hyear with ⟨-, hlength, -⟩ | ⟨hsign | hsign, -⟩
    · exact hlength
    · cases hsign
    · cases hsign
  have hyearEnd : form.mark ++ before = [] → sign = none ∧ year.length = 4 := by
    intro hgap
    rcases hyear with ⟨hsign, -, hlength⟩ | ⟨-, hne⟩
    · exact ⟨hsign, hlength.resolve_right (not_not_intro hgap)⟩
    · exact absurd hgap hne
  have hmonthEnd : form.mark ++ between = [] → month.length = 2 :=
    fun hgap => hmonth.resolve_right (not_not_intro hgap)
  exact ⟨⟨form, sign, year, before, month, between, day, hyear.imp And.left And.left, hyearDigits,
    hyearLength, hyearEnd, hbefore, hmonthDigits, hmonthLength, hmonthEnd, hbetween, hdayDigits,
    hdayLength⟩, rfl, by rw [List.append_nil]; rfl, rfl⟩

theorem Form.scan_unique {a a' : (Int × Nat × Nat) × List Char} (h : form.scan cs = some a)
    (h' : form'.scan cs = some a') : form = form' := by
  obtain ⟨⟨y, afterYear⟩, hyear, h⟩ := Option.bind_eq_some_iff.mp h
  obtain ⟨⟨m, afterMonth⟩, hmonth, -⟩ := Option.bind_eq_some_iff.mp h
  rw [Form.scan, hyear, Option.bind_some] at h'
  obtain ⟨⟨m', afterMonth'⟩, hmonth', -⟩ := Option.bind_eq_some_iff.mp h'
  exact Form.field_unique hmonth hmonth'

theorem parse?_eq (cs : List Char) :
    parse? cs = (complete? (Form.basic.scan cs)).or (complete? (Form.extended.scan cs)) := by
  rw [parse?, scanBasic_eq, scanExtended_eq]

/-- What is written in either form is read as the day that it writes. -/
theorem Written.parse?_text (w : Written) (h : dropBlanks w.text = w.text) :
    parse? w.text = w.date? := by
  have hscan := w.scan_text h
  have hother {form : Form} (hne : w.form ≠ form) : form.scan w.text = none :=
    Option.eq_none_iff_forall_ne_some.mpr fun _ hform => hne (Form.scan_unique hscan hform)
  cases hform : w.form with
  | basic =>
    rw [parse?_eq, ← hform, hscan, hother (by simp [hform])]
    exact Option.or_none
  | extended =>
    rw [parse?_eq, hother (by simp [hform]), ← hform, hscan]
    exact Option.none_or

/-- The text writes a day of the calendar in one of the two forms. -/
def IsWritten (cs : List Char) (date : Date) : Prop :=
  ∃ w : Written, w.text = cs ∧ w.date? = some date

theorem isWritten_of_complete? (h : dropBlanks cs = cs)
    (hread : complete? (form.scan cs) = some date) : IsWritten cs date := by
  unfold complete? at hread
  split at hread
  · next y m d hscan =>
    obtain ⟨w, -, htext, hfields⟩ := Form.exists_written h hscan
    exact ⟨w, htext, by rw [Written.date?, hfields]; exact hread⟩
  · cases hread

theorem parse?_eq_some_iff (h : dropBlanks cs = cs) : parse? cs = some date ↔ IsWritten cs date := by
  constructor
  · rw [parse?_eq, Option.or_eq_some_iff]
    rintro (hread | ⟨-, hread⟩) <;> exact isWritten_of_complete? h hread
  · rintro ⟨w, rfl, hdate⟩
    rw [w.parse?_text h, hdate]

theorem parse?_eq_none_iff (h : dropBlanks cs = cs) :
    parse? cs = none ↔ ∀ date, ¬ IsWritten cs date := by
  rw [Option.eq_none_iff_forall_ne_some]
  exact forall_congr' fun date => not_congr (parse?_eq_some_iff h)

end Date

namespace DateOrTime

open Date

variable {s : String}

theorem isFormChar_of_isDigit {c : Char} (h : c.isDigit) : isFormChar c := by
  simp [isFormChar, h]

theorem isFormChar_hyphen : isFormChar '-' := by
  decide

/-- The text is not empty and has only characters of the forms of dates and times. -/
def HasForm (cs : List Char) : Prop :=
  cs ≠ [] ∧ ∀ c ∈ cs, isFormChar c

instance (cs : List Char) : Decidable (HasForm cs) :=
  inferInstanceAs (Decidable (_ ∧ _))

/-- The forms that leave out a part of the date: a year without a day, a text that leaves out the
year, and a text with a time. -/
inductive Reduced : List Char → Prop
  | year {year : List Char} (h : IsDigits year) (hlength : year.length ≤ 4) : Reduced year
  | yearMonth {year month : List Char} (h : IsDigits year) (hlength : year.length ≤ 4)
      (hmonth : IsDigits month) : Reduced (year ++ '-' :: month)
  | yearless {rest : List Char} (h : ∀ c ∈ rest, isFormChar c) : Reduced ('-' :: '-' :: rest)
  | timed {cs : List Char} (h : ∀ c ∈ cs, isFormChar c) (htime : 'T' ∈ cs) : Reduced cs

theorem Reduced.isFormChar (h : Reduced cs) : ∀ c ∈ cs, isFormChar c := by
  cases h with
  | year h => exact fun c hc => isFormChar_of_isDigit (h.isDigit c hc)
  | yearMonth h _ hmonth =>
    intro c hc
    rcases List.mem_append.mp hc with hyear | hc
    · exact isFormChar_of_isDigit (h.isDigit c hyear)
    · rcases List.mem_cons.mp hc with rfl | hc
      · exact isFormChar_hyphen
      · exact isFormChar_of_isDigit (hmonth.isDigit c hc)
  | yearless h => simpa [isFormChar_hyphen] using h
  | timed h => exact h

theorem Reduced.ne_nil (h : Reduced cs) : cs ≠ [] := by
  cases h with
  | year h => exact h.ne_nil
  | yearMonth => simp
  | yearless => exact List.cons_ne_nil _ _
  | timed _ htime => exact List.ne_nil_of_mem htime

/-- A date has no other characters than digits, signs and blanks. -/
theorem time_notMem_text (w : Written) : 'T' ∉ w.text := by
  have hdigits {digits : List Char} (h : IsDigits digits) : 'T' ∉ digits :=
    fun hmem => absurd (h.isDigit 'T' hmem) (by decide)
  have hblanks {blanks : List Char} (h : ∀ c ∈ blanks, isBlank c) : 'T' ∉ blanks :=
    fun hmem => absurd (h 'T' hmem) (by decide)
  have hmark : 'T' ∉ w.form.mark := by
    cases w.form <;> decide
  have hsign : 'T' ∉ w.sign.toList := by
    rcases w.sign_mem with h | h | h <;> rw [h] <;> decide
  simp only [Written.text, Written.afterYear, Written.afterMonth, List.mem_append, not_or]
  exact ⟨hsign, hdigits w.year_digits, hmark, hblanks w.before_blank, hdigits w.month_digits, hmark,
    hblanks w.between_blank, hdigits w.day_digits⟩

/-- No date is written in a reduced form. -/
theorem Reduced.not_isWritten (h : Reduced cs) (hcs : dropBlanks cs = cs) :
    ¬ IsWritten cs date := by
  rintro ⟨w, htext, -⟩
  have hyear := w.yearNumber_text (by rw [htext, hcs])
  have hmonth := w.field_afterYear
  rw [htext] at hyear
  cases h with
  | year h hlength =>
    have hread : yearNumber (cs ++ []) = some (_, []) := yearNumber_digits h hlength nofun
    rw [List.append_nil, hyear] at hread
    obtain ⟨-, hnothing⟩ := Prod.mk.inj (Option.some.inj hread)
    rw [hnothing, Form.field_nil] at hmonth
    cases hmonth
  | @yearMonth year month h hlength hdigits =>
    have hends : Ends ('-' :: month) := by
      rintro _ ⟨⟩
      decide
    rw [yearNumber_digits h hlength hends] at hyear
    obtain ⟨-, hafter⟩ := Prod.mk.inj (Option.some.inj hyear)
    cases hform : w.form with
    | basic =>
      rw [hform, ← hafter, Form.field, field_hyphen] at hmonth
      cases hmonth
    | extended =>
      -- A second hyphen would have to be among the digits of the month.
      have hhyphen : '-' ∈ month := by
        simp only [Written.afterYear, Written.afterMonth, hform, Form.mark] at hafter
        rw [(List.cons.inj hafter).2]
        simp
      exact absurd (hdigits.isDigit '-' hhyphen) (by decide)
  | yearless h =>
    rw [yearNumber_hyphens] at hyear
    cases hyear
  | timed _ htime => exact time_notMem_text w (htext ▸ htime)

theorem isFormChar_of_fullWidth {w : Written} (h : w.FullWidth) : ∀ c ∈ w.text, isFormChar c := by
  have hdigits {digits : List Char} (h : IsDigits digits) : ∀ c ∈ digits, isFormChar c :=
    fun c hc => isFormChar_of_isDigit (h.isDigit c hc)
  have hmark : ∀ c ∈ w.form.mark, isFormChar c := by
    cases w.form <;> simp [Form.mark, isFormChar_hyphen]
  simp only [Written.text, Written.afterYear, Written.afterMonth, h.sign, h.before, h.between,
    Option.toList_none, List.nil_append, List.forall_mem_append]
  exact ⟨hdigits w.year_digits, hmark, hdigits w.month_digits, hmark, hdigits w.day_digits⟩

theorem parse?_of_isWritten (h : IsWritten (trimChars s.toList) date) :
    parse? s = some (.date date) := by
  have hdate := (parse?_eq_some_iff (dropBlanks_trimChars s.toList)).mpr h
  have hne : trimChars s.toList ≠ [] := by
    obtain ⟨w, htext, -⟩ := h
    rw [← htext]
    exact w.text_ne_nil
  simp only [parse?, hdate, List.isEmpty_iff, hne, if_false]

theorem parse?_of_not_isWritten (h : ∀ date, ¬ IsWritten (trimChars s.toList) date) :
    parse? s = if HasForm (trimChars s.toList) then some (.partly (trim s)) else none := by
  have hnone := (parse?_eq_none_iff (dropBlanks_trimChars s.toList)).mpr h
  simp only [parse?, hnone, List.isEmpty_iff, List.all_eq_true, trim, HasForm]
  by_cases hempty : trimChars s.toList = [] <;> simp [hempty]

theorem parse?_date_iff : parse? s = some (.date date) ↔ IsWritten (trimChars s.toList) date := by
  refine ⟨fun h => ?_, parse?_of_isWritten⟩
  by_cases hwritten : ∃ other, IsWritten (trimChars s.toList) other
  · obtain ⟨other, hother⟩ := hwritten
    rw [parse?_of_isWritten hother] at h
    cases h
    exact hother
  · rw [parse?_of_not_isWritten (not_exists.mp hwritten)] at h
    split at h <;> cases h

theorem not_isWritten_of_parse? (h : ∀ date, parse? s ≠ some (.date date)) :
    ∀ date, ¬ IsWritten (trimChars s.toList) date :=
  fun date hdate => h date (parse?_of_isWritten hdate)

theorem parse?_partly_iff {kept : String} : parse? s = some (.partly kept) ↔
    (∀ date, ¬ IsWritten (trimChars s.toList) date) ∧ HasForm (trimChars s.toList) ∧
      kept = trim s := by
  constructor
  · intro h
    have hnot := not_isWritten_of_parse? (s := s) (by simp [h])
    rw [parse?_of_not_isWritten hnot] at h
    split at h
    · next hform =>
      cases h
      exact ⟨hnot, hform, rfl⟩
    · cases h
  · rintro ⟨hnot, hform, rfl⟩
    rw [parse?_of_not_isWritten hnot, if_pos hform]

theorem parse?_none_iff : parse? s = none ↔
    (∀ date, ¬ IsWritten (trimChars s.toList) date) ∧ ¬ HasForm (trimChars s.toList) := by
  constructor
  · intro h
    have hnot := not_isWritten_of_parse? (s := s) (by simp [h])
    rw [parse?_of_not_isWritten hnot] at h
    split at h
    · cases h
    · next hform => exact ⟨hnot, hform⟩
  · rintro ⟨hnot, hform⟩
    rw [parse?_of_not_isWritten hnot, if_neg hform]

/-- No text is read as free text. -/
theorem parse?_ne_text (s free : String) : parse? s ≠ some (.text free) := by
  intro h
  have hnot := not_isWritten_of_parse? (s := s) (by simp [h])
  rw [parse?_of_not_isWritten hnot] at h
  split at h <;> cases h

/-- At full width a text is a date just if it writes a day of the calendar. -/
theorem parse?_of_fullWidth {w : Written} (h : w.FullWidth) (htext : w.text = trimChars s.toList) :
    parse? s = some ((w.date?.map .date).getD (.partly (trim s))) := by
  cases hdate : w.date? with
  | some d => exact parse?_of_isWritten ⟨w, htext, hdate⟩
  | none =>
    have hform : HasForm w.text := ⟨w.text_ne_nil, isFormChar_of_fullWidth h⟩
    refine parse?_partly_iff.mpr ⟨fun d hd => ?_, htext ▸ hform, rfl⟩
    have hblank := dropBlanks_trimChars s.toList
    rw [← htext] at hd hblank
    rw [← parse?_eq_some_iff hblank, w.parse?_text hblank, hdate] at hd
    cases hd

theorem parse?_of_reduced (h : Reduced (trimChars s.toList)) :
    parse? s = some (.partly (trim s)) :=
  parse?_partly_iff.mpr ⟨fun _ => h.not_isWritten (dropBlanks_trimChars s.toList),
    ⟨h.ne_nil, h.isFormChar⟩, rfl⟩

end DateOrTime

/-- A text is a date just if it writes one. A text that writes none is kept as it is if it has the
characters of dates and times, and is no value otherwise. So a text at full width is a date just if
it names a day of the calendar, and a reduced form is kept. -/
theorem dates_classified (s : String) :
    (∀ date, DateOrTime.parse? s = some (.date date) ↔
      Date.IsWritten (trimChars s.toList) date) ∧
    (DateOrTime.parse? s = none ↔
      (∀ date, ¬ Date.IsWritten (trimChars s.toList) date) ∧
        ¬ DateOrTime.HasForm (trimChars s.toList)) ∧
    (∀ kept, DateOrTime.parse? s = some (.partly kept) ↔
      (∀ date, ¬ Date.IsWritten (trimChars s.toList) date) ∧
        DateOrTime.HasForm (trimChars s.toList) ∧ kept = trim s) ∧
    (∀ free, DateOrTime.parse? s ≠ some (.text free)) ∧
    (∀ w : Date.Written, w.FullWidth → w.text = trimChars s.toList →
      DateOrTime.parse? s = some ((w.date?.map .date).getD (.partly (trim s)))) ∧
    (DateOrTime.Reduced (trimChars s.toList) → DateOrTime.parse? s = some (.partly (trim s))) :=
  ⟨fun _ => DateOrTime.parse?_date_iff, DateOrTime.parse?_none_iff,
    fun _ => DateOrTime.parse?_partly_iff, DateOrTime.parse?_ne_text s,
    fun _ h htext => DateOrTime.parse?_of_fullWidth h htext, DateOrTime.parse?_of_reduced⟩

/-- Dates are read from a text with blanks in it, which no form of a date or a time has, from digits
of which one is missing, from a year with a sign and from a year of two digits. -/
theorem lenient_dates_read :
    (' ' ∈ trimChars "1985 04 12".toList ∧ ¬ DateOrTime.isFormChar ' ' ∧
      DateOrTime.parse? "1985 04 12" = some (.date ⟨1985, 4, 12, by decide⟩)) ∧
    DateOrTime.parse? "1985041" = some (.date ⟨1985, 4, 1, by decide⟩) ∧
    DateOrTime.parse? "+1985-04-12" = some (.date ⟨1985, 4, 12, by decide⟩) ∧
    DateOrTime.parse? "85-4-12" = some (.date ⟨85, 4, 12, by decide⟩) := by
  exact ⟨⟨by decide +kernel, by decide, by decide +kernel⟩, by decide +kernel, by decide +kernel,
    by decide +kernel⟩

end ContactCards
