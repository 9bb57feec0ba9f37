import ContactCards.Card.Value
import ContactCards.Proofs.Calendar.DatePrinting
import ContactCards.Proofs.Calendar.TimestampForms

/-! Printed points in time. A point in time is printed in basic form, at UTC and without its
fraction of a second. Its year at UTC may be before zero or after 9999 though the text that it was
read from has a year of four digits; then the print has a sign and cannot be read. -/
namespace ContactCards

open Scan Date

namespace Timestamp

variable {cs rest : List Char} {n : Nat} {offset : Int} {c : Civil} {t : Timestamp} {s : String}
  {year : Int} {month day : Nat}

/-! What is read from a text keeps within a second, or within a leap second at the end of a
minute. -/

/-- Less than a second of nanoseconds, and an offset of whole minutes. -/
structure Civil.Regular (c : Civil) : Prop where
  nanos_lt : c.nanos < 1000000000
  dvd_offset : 60 ∣ c.offset

/-- A leap second is the last second of a minute at UTC too. -/
def Regular (t : Timestamp) : Prop :=
  t.nanos < 1000000000 ∨ t.nanos < 2000000000 ∧ t.seconds % 60 = 59

theorem nanos_of_scanFraction (h : scanFraction cs = some (n, rest)) : n < 1000000000 := by
  unfold scanFraction at h
  split at h
  · next cs =>
    dsimp only at h
    split at h
    · cases h
    · cases h
      have hdigits : ∀ c ∈ (cs.takeWhile Char.isDigit).take 9 ++
          List.replicate (9 - ((cs.takeWhile Char.isDigit).take 9).length) '0', c.isDigit := by
        intro c hc
        rcases List.mem_append.mp hc with htaken | hzero
        · exact List.mem_takeWhile_imp (List.mem_of_mem_take htaken)
        · rw [List.eq_of_mem_replicate hzero]
          rfl
      have hlength : ((cs.takeWhile Char.isDigit).take 9 ++
          List.replicate (9 - ((cs.takeWhile Char.isDigit).take 9).length) '0').length = 9 := by
        simp only [List.length_append, List.length_replicate, List.length_take]
        omega
      have hlt := valueOf_lt hdigits
      rwa [hlength] at hlt
  · cases h
    decide

theorem dvd_minutes (sign : Int) (hour minute : Nat) :
    60 ∣ sign * (hour * 3600 + minute * 60 : Nat) := by
  refine Dvd.dvd.mul_left ?_ sign
  omega

theorem dvd_of_scanOffsetExtended (h : scanOffsetExtended cs = some (offset, rest)) :
    60 ∣ offset := by
  unfold scanOffsetExtended at h
  split at h
  · cases h
    exact dvd_zero 60
  · cases h
    exact dvd_zero 60
  · simp only [Option.bind_eq_bind, Option.bind_eq_some_iff, Prod.exists] at h
    obtain ⟨sign, _, -, hour, _, -, _, -, minute, _, -, h⟩ := h
    split at h
    · cases h
      exact dvd_minutes sign hour minute
    · cases h

theorem dvd_of_scanOffsetBasic (h : scanOffsetBasic cs = some (offset, rest)) : 60 ∣ offset := by
  simp only [scanOffsetBasic, Option.bind_eq_bind, Option.bind_eq_some_iff, Prod.exists] at h
  obtain ⟨sign, _, -, hour, _, -, minute, _, -, h⟩ := h
  cases h
  exact dvd_minutes sign hour minute

theorem regular_of_scanExtended (h : scanExtended cs = some c) : c.Regular := by
  simp only [scanExtended, Option.bind_eq_bind, Option.bind_eq_some_iff, Prod.exists] at h
  obtain ⟨_, _, -, _, -, _, _, -, _, -, _, _, -, _, -, _, _, -, _, -, _, _, -, _, -, _, _, -, nanos,
    _, hnanos, offset, _, hoffset, h⟩ := h
  split at h
  · cases h
    exact ⟨nanos_of_scanFraction hnanos, dvd_of_scanOffsetExtended hoffset⟩
  · cases h

theorem regular_of_scanBasic (h : scanBasic cs = some c) : c.Regular := by
  simp only [scanBasic, Option.bind_eq_bind, Option.bind_eq_some_iff, Prod.exists] at h
  obtain ⟨_, _, _, _, -, _, -, _, _, -, _, _, -, _, _, -, offset, _, hoffset, h⟩ := h
  split at h
  · cases h
    exact ⟨Nat.zero_lt_succ _, dvd_of_scanOffsetBasic hoffset⟩
  · cases h

theorem regular_of_ofCivil? (hc : c.Regular) (h : ofCivil? c = some t) : t.Regular := by
  simp only [ofCivil?, Option.ite_none_right_eq_some, Option.some.injEq] at h
  obtain ⟨-, rfl⟩ := h
  obtain ⟨hnanos, minutes, hoffset⟩ := hc
  by_cases hleap : c.second = 60
  · right
    simp only [hleap, if_true, Civil.seconds, hoffset, daySeconds]
    omega
  · left
    simpa only [hleap, if_false, Nat.zero_add] using hnanos

theorem regular_of_parse? (h : parse? s = some t) : t.Regular := by
  unfold parse? at h
  rcases Option.or_eq_some_iff.mp h with hread | ⟨-, hread⟩
  · obtain ⟨c, hscan, hcivil⟩ := Option.bind_eq_some_iff.mp hread
    exact regular_of_ofCivil? (regular_of_scanExtended hscan) hcivil
  · obtain ⟨c, hscan, hcivil⟩ := Option.bind_eq_some_iff.mp hread
    exact regular_of_ofCivil? (regular_of_scanBasic hscan) hcivil

/-! The print at UTC. -/

/-- The year at UTC. -/
def utcYear (t : Timestamp) : Int :=
  (Date.fields (t.seconds / daySeconds)).1

/-- The year at UTC has four digits from the start of the year 0 to that of the year 10000. -/
theorem hasFourDigits_utcYear_iff (t : Timestamp) : HasFourDigits t.utcYear ↔
    dayNumber 0 1 1 * daySeconds ≤ t.seconds ∧ t.seconds < dayNumber 10000 1 1 * daySeconds := by
  obtain ⟨year, month, day, hfields, hday, hnumber⟩ := fields_spec (t.seconds / daySeconds)
  have hutc : t.utcYear = year := by rw [utcYear, hfields]
  have hyears := year_mem_iff hday 0 10000
  have hpos : 0 < daySeconds := by decide
  rw [hnumber, Int.le_ediv_iff_mul_le hpos, Int.ediv_lt_iff_lt_mul hpos] at hyears
  rw [hutc, ← hyears]
  unfold HasFourDigits
  omega

/-- The seconds since the start of the day at UTC. -/
def utcSecond (t : Timestamp) : Nat :=
  (t.seconds % daySeconds).toNat

theorem utcSecond_spec (t : Timestamp) : t.utcSecond < 86400 ∧
    t.seconds = t.seconds / daySeconds * daySeconds + t.utcSecond := by
  unfold utcSecond daySeconds
  omega

/-- The fields of a print whose year has four digits. -/
def printed (hyear : HasFourDigits year) (hday : IsYearDay year month day) (h : t.Regular) :
    FullTime where
  date := .ofDay hyear hday
  hour := .two (t.utcSecond / 3600) (by have := t.utcSecond_spec; omega)
  minute := .two (t.utcSecond / 60 % 60) (by omega)
  second := .two (t.utcSecond % 60 + t.nanos / 1000000000) (by unfold Regular at h; omega)

theorem render_eq (hfields : Date.fields (t.seconds / daySeconds) = (year, month, day)) :
    t.render = renderFields year month day ++ "T" ++ padded 2 (t.utcSecond / 3600) ++
      padded 2 (t.utcSecond / 60 % 60) ++ padded 2 (t.utcSecond % 60 + t.nanos / 1000000000) ++
        "Z" := by
  rw [render, hfields]
  rfl

section Printed

variable (hyear : HasFourDigits year) (hday : IsYearDay year month day) (h : t.Regular)

include hyear hday h

theorem text_printed (hfields : Date.fields (t.seconds / daySeconds) = (year, month, day)) :
    String.ofList ((printed hyear hday h).text .basic .utc) = t.render := by
  apply String.toList_inj.mp
  have hdate : (printed hyear hday h).date.text .basic = (renderFields year month day).toList :=
    FullDate.text_ofDay hyear hday
  have hletters : "T".toList = ['T'] ∧ "Z".toList = ['Z'] := ⟨rfl, rfl⟩
  rw [String.toList_ofList, FullTime.text, hdate]
  simp only [render_eq hfields, String.toList_append, hletters, FullTime.timeText, printed,
    Digits.two, Digits.ofNat, Zone.text, Form.colon, List.append_assoc, List.cons_append,
    List.nil_append]

theorem printed_hour : (printed hyear hday h).hour.value = t.utcSecond / 3600 := by
  simp only [printed, Digits.value_two]

theorem printed_minute : (printed hyear hday h).minute.value = t.utcSecond / 60 % 60 := by
  simp only [printed, Digits.value_two]

theorem printed_second :
    (printed hyear hday h).second.value = t.utcSecond % 60 + t.nanos / 1000000000 := by
  simp only [printed, Digits.value_two]

theorem inRange_printed : (printed hyear hday h).InRange := by
  obtain ⟨hlt, -⟩ := t.utcSecond_spec
  refine ⟨?_, ?_, ?_, ?_⟩
  · have hdate : IsDay (printed hyear hday h).date.year.value
        (printed hyear hday h).date.month.value (printed hyear hday h).date.day.value ↔
        IsDay year month day := by
      rw [printed, FullDate.value_year_ofDay, FullDate.value_month_ofDay, FullDate.value_day_ofDay]
    exact hdate.mpr (hday.isDay hyear)
  · rw [printed_hour]
    omega
  · rw [printed_minute]
    omega
  · rw [printed_second]
    unfold Regular at h
    omega

/-- What the print shows is the point in time, less a fraction of a second. -/
theorem ofFullTime_printed (hnumber : dayNumber year month day = t.seconds / daySeconds) :
    ofFullTime (printed hyear hday h) .utc =
      ⟨t.seconds, t.nanos / 1000000000 * 1000000000⟩ := by
  obtain ⟨hlt, hsplit⟩ := t.utcSecond_spec
  have hminute : t.utcSecond % 60 = (t.seconds % 60).toNat := by
    unfold daySeconds at hsplit
    omega
  have hnanos : t.nanos / 1000000000 = 0 ∨ t.nanos / 1000000000 = 1 ∧ t.utcSecond % 60 = 59 := by
    unfold Regular at h
    omega
  have hdate : dayNumber (printed hyear hday h).date.year.value
      (printed hyear hday h).date.month.value (printed hyear hday h).date.day.value =
        t.seconds / daySeconds := by
    rw [printed, FullDate.value_year_ofDay, FullDate.value_month_ofDay, FullDate.value_day_ofDay,
      hnumber]
  rw [ofFullTime, hdate, printed_hour, printed_minute, printed_second, Zone.seconds, mk.injEq]
  unfold daySeconds at hsplit ⊢
  constructor
  · omega
  · split <;> omega

end Printed

/-- A print whose year has four digits is read as the same point in time, less a fraction of a
second. -/
theorem parse?_render_fourDigits (h : t.Regular) (hyear : HasFourDigits t.utcYear) :
    parse? t.render = some ⟨t.seconds, t.nanos / 1000000000 * 1000000000⟩ := by
  obtain ⟨year, month, day, hfields, hday, hnumber⟩ := fields_spec (t.seconds / daySeconds)
  have hutc : t.utcYear = year := by rw [utcYear, hfields]
  rw [hutc] at hyear
  rw [← text_printed hyear hday h hfields, parse?_fullTime, ofFullTime_printed hyear hday h hnumber,
    if_pos ⟨inRange_printed hyear hday h, trivial⟩]

/-! A print whose year has a sign. -/

theorem fixed_of_not_isDigit {width : Nat} {c : Char} (h : c.isDigit = false) (cs : List Char) :
    fixed (width + 1) (c :: cs) = none := by
  simp [fixed, h]

/-- No reader takes a sign and digits up to the letter before the time: there are no digits left
for the month. -/
theorem scan_signed {sign : Char} {digits : List Char} (hsign : sign = '+' ∨ sign = '-')
    (hdigits : IsDigits digits) (rest : List Char) :
    scanExtended (sign :: (digits ++ 'T' :: rest)) = none ∧
      scanBasic (sign :: (digits ++ 'T' :: rest)) = none := by
  have hnot : sign.isDigit = false := by
    rcases hsign with rfl | rfl <;> rfl
  have hends : Ends ('T' :: rest) := by
    rintro _ ⟨⟩
    rfl
  have hmonth : field ('T' :: rest) = none := field_of_not_isDigit rfl rfl rest
  constructor
  · simp only [scanExtended, fixed_of_not_isDigit hnot, Option.bind_eq_bind, Option.bind_none]
  · simp only [scanBasic, Date.scanBasic, yearNumber_signed hsign hdigits hends, hmonth,
      Option.bind_eq_bind, Option.bind_some, Option.bind_none]

theorem exists_signed_text (hyear : ¬ HasFourDigits t.utcYear) :
    ∃ sign digits time, (sign = '+' ∨ sign = '-') ∧ IsDigits digits ∧ (∀ c ∈ time, c.isDigit) ∧
      t.render.toList = sign :: (digits ++ 'T' :: (time ++ ['Z'])) := by
  obtain ⟨year, month, day, hfields, -, -⟩ := fields_spec (t.seconds / daySeconds)
  have hutc : t.utcYear = year := by rw [utcYear, hfields]
  rw [hutc] at hyear
  obtain ⟨sign, digits, hsign, hdigits, hdate⟩ := renderFields_signed hyear month day
  refine ⟨sign, digits, (padded 2 (t.utcSecond / 3600)).toList ++
    ((padded 2 (t.utcSecond / 60 % 60)).toList ++
      (padded 2 (t.utcSecond % 60 + t.nanos / 1000000000)).toList), hsign, hdigits, ?_, ?_⟩
  · simp only [List.forall_mem_append]
    exact ⟨(isDigits_padded 2 _).isDigit, (isDigits_padded 2 _).isDigit,
      (isDigits_padded 2 _).isDigit⟩
  · have hletters : "T".toList = ['T'] ∧ "Z".toList = ['Z'] := ⟨rfl, rfl⟩
    simp only [render_eq hfields, String.toList_append, hdate, hletters, List.append_assoc,
      List.cons_append, List.nil_append]

/-- A print whose year has a sign is not read. -/
theorem parse?_render_signed (hyear : ¬ HasFourDigits t.utcYear) : parse? t.render = none := by
  obtain ⟨sign, digits, time, hsign, hdigits, htime, htext⟩ := exists_signed_text hyear
  have htrim : trimChars t.render.toList = sign :: (digits ++ 'T' :: (time ++ ['Z'])) := by
    rw [htext]
    apply DateOrTime.trimChars_eq_self
    simp only [List.forall_mem_cons, List.forall_mem_append]
    exact ⟨DateOrTime.isFormChar_sign hsign,
      fun c hc => DateOrTime.isFormChar_of_isDigit (hdigits.isDigit c hc), rfl,
      fun c hc => DateOrTime.isFormChar_of_isDigit (htime c hc), rfl,
      fun c hc => absurd hc List.not_mem_nil⟩
  have hspelled : spellOffset (sign :: (digits ++ 'T' :: (time ++ ['Z']))) =
      sign :: (digits ++ 'T' :: (time ++ "+0000".toList)) := by
    have hsplit (rest : List Char) : sign :: (digits ++ 'T' :: (time ++ rest)) =
        (sign :: (digits ++ 'T' :: time)) ++ rest := by
      simp only [List.cons_append, List.append_assoc]
    rw [hsplit, hsplit, spellOffset_append _ (List.cons_ne_nil 'Z' [])]
    rfl
  rw [parse?, htrim]
  simp only [hspelled, scan_signed hsign hdigits, Option.bind_none, Option.or_none]

end Timestamp

/-- What was read from a text and printed is read back as the same second if it lies in the years
from 0 to 9999 at UTC; only a fraction of the second is lost. In every other case the year that is
printed has a sign and the print cannot be read. -/
theorem printed_timestamps_read_back {s : String} {t : Timestamp}
    (h : Timestamp.parse? s = some t) :
    let first := Date.dayNumber 0 1 1 * Timestamp.daySeconds
    let last := Date.dayNumber 10000 1 1 * Timestamp.daySeconds
    let read := Timestamp.parse? (Value.timestamp t).render
    ((∃ t', read = some t' ∧ t'.seconds = t.seconds) ↔ first ≤ t.seconds ∧ t.seconds < last) ∧
    (first ≤ t.seconds ∧ t.seconds < last →
      read = some ⟨t.seconds, t.nanos / 1000000000 * 1000000000⟩) ∧
    (¬ (first ≤ t.seconds ∧ t.seconds < last) → read = none) := by
  intro first last read
  have hyears : Date.HasFourDigits t.utcYear ↔ first ≤ t.seconds ∧ t.seconds < last :=
    t.hasFourDigits_utcYear_iff
  have hread (hyear : first ≤ t.seconds ∧ t.seconds < last) :
      read = some ⟨t.seconds, t.nanos / 1000000000 * 1000000000⟩ :=
    Timestamp.parse?_render_fourDigits (Timestamp.regular_of_parse? h) (hyears.mpr hyear)
  have hlost (hyear : ¬ (first ≤ t.seconds ∧ t.seconds < last)) : read = none :=
    Timestamp.parse?_render_signed (hyears.not.mpr hyear)
  refine ⟨⟨?_, fun hyear => ⟨_, hread hyear, rfl⟩⟩, hread, hlost⟩
  rintro ⟨t', hsome, -⟩
  by_contra hyear
  rw [hlost hyear] at hsome
  cases hsome

/-- A leap second with a fraction, which the offset carries over the end of a day. -/
theorem printed_timestamps_read_back_leap :
    let t : Timestamp := ⟨820459799, 1250000000⟩
    Timestamp.parse? "1995-12-31T23:59:60.25-01:30" = some t ∧
    (Value.timestamp t).render = "19960101T012960Z" ∧
    Timestamp.parse? "19960101T012960Z" = some ⟨820459799, 1000000000⟩ := by
  intro t
  have hread : Timestamp.parse? "1995-12-31T23:59:60.25-01:30" = some t := by decide +kernel
  have hprint : (Value.timestamp t).render = "19960101T012960Z" := by decide +kernel
  obtain ⟨-, hback, -⟩ := printed_timestamps_read_back hread
  have hcut : t.nanos / 1000000000 * 1000000000 = 1000000000 := by simp [t]
  have hsecond := hback (by decide +kernel)
  rw [hprint, hcut] at hsecond
  exact ⟨hread, hprint, hsecond⟩

/-- The last second of the year 9999 west of UTC, and the first of the year zero east of it: both
are read, and neither print can be. -/
theorem utc_years_lost :
    (Timestamp.parse? "9999-12-31T23:59:59-01:00" = some ⟨253402304399, 0⟩ ∧
      (Value.timestamp ⟨253402304399, 0⟩).render = "+100000101T005959Z" ∧
      Timestamp.parse? "+100000101T005959Z" = none) ∧
    Timestamp.parse? "00000101T000000+0001" = some ⟨-62167219260, 0⟩ ∧
      (Value.timestamp ⟨-62167219260, 0⟩).render = "-00011231T235900Z" ∧
      Timestamp.parse? "-00011231T235900Z" = none := by
  decide +kernel

end ContactCards
