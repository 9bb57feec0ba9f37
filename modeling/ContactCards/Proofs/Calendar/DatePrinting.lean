import ContactCards.Proofs.Calendar.FullWidth

/-! Printed dates. A date is printed without separators. If its year has four digits the print is
that date; a year before zero or after 9999 has a sign, all digits behind a sign are read as the
year, and the print is no date. -/
namespace ContactCards

open Scan

variable {rest digits : List Char} {sign : Char} {date : Date} {s : String}

namespace Date

/-- A year of another kind is printed with its sign. -/
theorem renderFields_signed {year : Int} (h : ¬ HasFourDigits year) (month day : Nat) :
    ∃ sign digits, (sign = '+' ∨ sign = '-') ∧ IsDigits digits ∧
      (renderFields year month day).toList = sign :: digits := by
  have hdigits : IsDigits ((padded 4 year.natAbs).toList ++
      ((padded 2 month).toList ++ (padded 2 day).toList)) := by
    refine ⟨fun hnil => (isDigits_padded 4 year.natAbs).ne_nil (List.append_eq_nil_iff.mp hnil).1,
      ?_⟩
    simp only [List.forall_mem_append]
    exact ⟨(isDigits_padded 4 _).isDigit, (isDigits_padded 2 _).isDigit,
      (isDigits_padded 2 _).isDigit⟩
  by_cases hneg : year < 0
  · refine ⟨'-', _, Or.inr rfl, hdigits, ?_⟩
    simp [renderFields, renderYear, hneg]
  · have hlarge : 9999 < year := by
      unfold HasFourDigits at h
      omega
    refine ⟨'+', _, Or.inl rfl, hdigits, ?_⟩
    simp [renderFields, renderYear, hneg, hlarge]

/-- All digits behind a sign are the year. -/
theorem yearNumber_signed (hsign : sign = '+' ∨ sign = '-') (hdigits : IsDigits digits)
    (hends : Ends rest) :
    yearNumber (sign :: (digits ++ rest)) = some (yearOf (some sign) digits, rest) := by
  have hblank : dropBlanks (sign :: (digits ++ rest)) = sign :: (digits ++ rest) := by
    apply dropBlanks_eq_self
    rintro _ ⟨⟩
    exact DateOrTime.isBlank_eq_false_of_isFormChar (DateOrTime.isFormChar_sign hsign)
  refine (yearNumber_eq_some_iff hblank).mpr ⟨some sign, digits, rfl, ⟨hdigits, Or.inr ⟨?_, hends⟩⟩,
    rfl⟩
  rcases hsign with rfl | rfl
  · exact Or.inl rfl
  · exact Or.inr rfl

/-- A sign and digits write no date. -/
theorem not_isWritten_signed (hsign : sign = '+' ∨ sign = '-') (hdigits : IsDigits digits)
    (hblank : dropBlanks (sign :: digits) = sign :: digits) :
    ¬ IsWritten (sign :: digits) date := by
  rintro ⟨w, htext, -⟩
  have hyear := w.yearNumber_text (htext ▸ hblank)
  have hread : yearNumber (sign :: (digits ++ [])) = some (_, []) :=
    yearNumber_signed hsign hdigits nofun
  rw [List.append_nil, ← htext, hyear] at hread
  obtain ⟨-, hnothing⟩ := Prod.mk.inj (Option.some.inj hread)
  have hmonth := w.field_afterYear
  rw [hnothing, Form.field_nil] at hmonth
  cases hmonth

end Date

namespace DateOrTime

open Date

/-- A print with four digits of the year is read as the date that it shows. -/
theorem parse?_render_fourDigits (h : HasFourDigits date.year) :
    parse? date.render = some (.date date) := by
  have hday := date.isYearDay
  have hdate : (FullDate.ofDay h hday).date? = some date := by
    rw [FullDate.date?, FullDate.value_year_ofDay, FullDate.value_month_ofDay,
      FullDate.value_day_ofDay]
    exact dif_pos date.isDay
  have htext : String.ofList ((FullDate.ofDay h hday).text .basic) = date.render := by
    rw [FullDate.text_ofDay h hday, String.ofList_toList]
    rfl
  have hread := (FullDate.ofDay h hday).parse?_text .basic
  rw [hdate, htext] at hread
  exact hread

/-- Any other print is kept as it is. -/
theorem parse?_render_signed (h : ¬ HasFourDigits date.year) :
    parse? date.render = some (.partly date.render) := by
  obtain ⟨sign, digits, hsign, hdigits, hfields⟩ := renderFields_signed h date.month date.day
  have htext : date.render.toList = sign :: digits := hfields
  have hform : ∀ c ∈ date.render.toList, isFormChar c := by
    rw [htext, List.forall_mem_cons]
    exact ⟨isFormChar_sign hsign, fun c hc => isFormChar_of_isDigit (hdigits.isDigit c hc)⟩
  have htrim : trimChars date.render.toList = date.render.toList := trimChars_eq_self hform
  have hblank := dropBlanks_trimChars date.render.toList
  refine parse?_partly_iff.mpr ⟨fun other hwritten => ?_, ?_, ?_⟩
  · rw [htrim, htext] at hwritten hblank
    exact not_isWritten_signed hsign hdigits hblank hwritten
  · rw [htrim]
    exact ⟨by simp [htext], hform⟩
  · rw [trim, htrim, String.ofList_toList]

/-- A text that was kept is kept again. -/
theorem parse?_kept {kept : String} (h : parse? s = some (.partly kept)) :
    parse? kept = some (.partly kept) := by
  obtain ⟨hnot, hform, rfl⟩ := parse?_partly_iff.mp h
  have htrim : trimChars (trim s).toList = trimChars s.toList := by
    rw [trim, String.toList_ofList]
    exact trimChars_eq_self hform.2
  refine parse?_partly_iff.mpr ⟨?_, ?_, ?_⟩
  · rwa [htrim]
  · rwa [htrim]
  · rw [trim.eq_def (trim s), htrim, trim]

end DateOrTime

/-- What was read from a text and printed is read back, unless it is a date whose year is before
zero or after 9999. Such a date is printed with a sign, and its print is kept as it is instead of
being read as a date. -/
theorem printed_dates_read_back {v : DateOrTime} (h : DateOrTime.parse? s = some v) :
    (DateOrTime.parse? v.render = some v ↔
      ∀ date, v = .date date → 0 ≤ date.year ∧ date.year ≤ 9999) ∧
    (DateOrTime.parse? v.render ≠ some v →
      DateOrTime.parse? v.render = some (.partly v.render)) := by
  cases v with
  | date date =>
    by_cases hyear : Date.HasFourDigits date.year
    · have hread := DateOrTime.parse?_render_fourDigits hyear
      refine ⟨iff_of_true hread ?_, fun hne => absurd hread hne⟩
      rintro _ ⟨⟩
      exact hyear
    · have hread : DateOrTime.parse? (DateOrTime.date date).render =
          some (.partly date.render) := DateOrTime.parse?_render_signed hyear
      refine ⟨iff_of_false ?_ fun hall => hyear (hall date rfl), fun _ => hread⟩
      rw [hread]
      exact nofun
  | partly kept =>
    have hread : DateOrTime.parse? (DateOrTime.partly kept).render = some (.partly kept) :=
      DateOrTime.parse?_kept h
    refine ⟨iff_of_true hread fun date hdate => ?_, fun hne => absurd hread hne⟩
    cases hdate
  | text free => exact absurd h (DateOrTime.parse?_ne_text s free)

/-- A date in the extended form, which is printed in the basic one. -/
theorem printed_dates_read_back_extended :
    let v := DateOrTime.date ⟨1985, 4, 12, by decide⟩
    DateOrTime.parse? " 1985-04-12" = some v ∧ v.render = "19850412" ∧
      DateOrTime.parse? v.render = some v := by
  intro v
  have hread : DateOrTime.parse? " 1985-04-12" = some v := by decide +kernel
  refine ⟨hread, by decide +kernel, (printed_dates_read_back hread).1.mpr fun date hdate => ?_⟩
  obtain rfl := DateOrTime.date.inj hdate
  decide

/-- The first day after the year 9999 and the first of the year before zero are read from texts,
but their prints are not read as dates. -/
theorem signed_dates_lost :
    (DateOrTime.parse? "+10000-01-01" = some (.date ⟨10000, 1, 1, by decide⟩) ∧
      (DateOrTime.date ⟨10000, 1, 1, by decide⟩).render = "+100000101" ∧
      DateOrTime.parse? "+100000101" = some (.partly "+100000101")) ∧
    DateOrTime.parse? "-1-01-01" = some (.date ⟨-1, 1, 1, by decide⟩) ∧
      (DateOrTime.date ⟨-1, 1, 1, by decide⟩).render = "-00010101" ∧
      DateOrTime.parse? "-00010101" = some (.partly "-00010101") := by
  decide +kernel

end ContactCards
