import ContactCards.Calendar.Date
import Mathlib

/-! Day numbers. From one day to the next the number grows by one, over the ends of months and years
too, and every number is that of the day whose fields it has. Years are counted from March here, so
that a leap day is the last day of its year. -/
namespace ContactCards.Date

variable {number year marchYear dayOfYear : Int} {month day : Nat}

/-- The fields name a day of some year, which need not be one that a date may have. -/
def IsYearDay (year : Int) (month day : Nat) : Prop :=
  (1 ≤ month ∧ month ≤ 12) ∧ 1 ≤ day ∧ day ≤ daysInMonth year month

theorem isYearDay (date : Date) : IsYearDay date.year date.month date.day :=
  date.isDay.2

theorem daysInMonth_le (year : Int) (month : Nat) : daysInMonth year month ≤ 31 := by
  unfold daysInMonth
  split <;> split <;> decide

theorem isLeapYear_iff (year : Int) :
    isLeapYear year ↔ year % 4 = 0 ∧ (year % 100 ≠ 0 ∨ year % 400 = 0) := by
  simp [isLeapYear]

/-- The fields of the day after. -/
def tomorrow (year : Int) (month day : Nat) : Int × Nat × Nat :=
  if day < daysInMonth year month then (year, month, day + 1)
  else if month < 12 then (year, month + 1, 1)
  else (year + 1, 1, 1)

theorem dayNumber_epoch : dayNumber 1970 1 1 = 0 := by
  decide

/-- Days are numbered one after another. -/
theorem dayNumber_tomorrow (h : IsYearDay year month day) :
    dayNumber (tomorrow year month day).1 (tomorrow year month day).2.1
      (tomorrow year month day).2.2 = dayNumber year month day + 1 := by
  obtain ⟨⟨hfirst, hlast⟩, hpos, hday⟩ := h
  unfold tomorrow
  split
  · simp only [dayNumber]
    omega
  · have hend : day = daysInMonth year month := by omega
    subst hend
    split
    · by_cases hfebruary : month = 2
      · subst hfebruary
        have hleap := isLeapYear_iff year
        by_cases h29 : isLeapYear year
        · have hyear := hleap.mp h29
          simp [dayNumber, daysInMonth, h29]
          omega
        · have hyear := (not_congr hleap).mp h29
          simp [dayNumber, daysInMonth, h29]
          omega
      · interval_cases month <;> simp_all [dayNumber, daysInMonth] <;> omega
    · obtain rfl : month = 12 := by omega
      simp [dayNumber, daysInMonth]
      omega

/-! The fields of a number are found in two steps: the year that starts in March, then the month. -/

/-- The number of the first of March of a year, counted from that of the year zero. -/
def marchFirst (marchYear : Int) : Int :=
  365 * marchYear + marchYear / 4 - marchYear / 100 + marchYear / 400

/-- A day of a span of 400 years that starts in March: whole centuries, whole leap cycles of the
century, whole years of the cycle, and days of the year. Only the last year of a cycle may have 366
days. -/
structure EraDay (dayOfEra century cycle year day : Int) : Prop where
  sum : dayOfEra = 36524 * century + 1461 * cycle + 365 * year + day
  century_mem : 0 ≤ century ∧ century ≤ 3
  cycle_mem : 0 ≤ cycle ∧ cycle ≤ 24
  year_mem : 0 ≤ year ∧ year ≤ 3
  day_mem : 0 ≤ day ∧ (day ≤ 364 ∨ day = 365 ∧ year = 3 ∧ (cycle ≤ 23 ∨ century = 3))

theorem exists_eraDay {dayOfEra : Int} (h : 0 ≤ dayOfEra ∧ dayOfEra ≤ 146096) :
    ∃ century cycle year day, EraDay dayOfEra century cycle year day := by
  obtain ⟨century, hcentury⟩ : ∃ century, century = min 3 (dayOfEra / 36524) := ⟨_, rfl⟩
  obtain ⟨ofCentury, hofCentury⟩ : ∃ r, r = dayOfEra - 36524 * century := ⟨_, rfl⟩
  have hcenturies : 0 ≤ century ∧ century ≤ 3 ∧ 0 ≤ ofCentury ∧
      (ofCentury ≤ 36523 ∨ ofCentury = 36524 ∧ century = 3) := by omega
  obtain ⟨cycle, hcycle⟩ : ∃ cycle, cycle = ofCentury / 1461 := ⟨_, rfl⟩
  obtain ⟨ofCycle, hofCycle⟩ : ∃ r, r = ofCentury - 1461 * cycle := ⟨_, rfl⟩
  have hcycles : 0 ≤ cycle ∧ cycle ≤ 24 ∧ 0 ≤ ofCycle ∧
      (ofCycle ≤ 1459 ∨ ofCycle = 1460 ∧ (cycle ≤ 23 ∨ century = 3)) := by omega
  obtain ⟨year, hyear⟩ : ∃ year, year = min 3 (ofCycle / 365) := ⟨_, rfl⟩
  refine ⟨century, cycle, year, ofCycle - 365 * year, ?_, ?_, ?_, ?_, ?_⟩ <;> omega

section EraDay

variable {dayOfEra century cycle day : Int}

/-- The year of a day, found without taking the centuries and cycles apart. -/
theorem EraDay.yearOfEra (h : EraDay dayOfEra century cycle year day) :
    (dayOfEra - dayOfEra / 1460 + dayOfEra / 36524 - dayOfEra / 146096) / 365 =
      100 * century + 4 * cycle + year := by
  obtain ⟨hsum, hcentury, hcycle, hyear, hday⟩ := h
  -- Only the last day of the span is a multiple of 36524 that starts no century.
  have hcenturies : dayOfEra / 36524 - dayOfEra / 146096 = century := by
    by_cases hlast : dayOfEra = 146096
    · omega
    · have hspan : dayOfEra / 146096 = 0 := by omega
      omega
  -- A leap day, and perhaps some days before it, is counted to one more run of 1460 days.
  have hcycles : dayOfEra / 1460 = 25 * century + cycle ∧ day ≤ 364 ∨
      dayOfEra / 1460 = 25 * century + cycle + 1 ∧ 1 ≤ day := by
    by_cases hrun : 24 * century + cycle + 365 * year + day ≤ 1459
    · left
      omega
    · right
      omega
  omega

theorem EraDay.yearDay (h : EraDay dayOfEra century cycle year day) {yearOfEra : Int}
    (hyearOfEra : yearOfEra = 100 * century + 4 * cycle + year) :
    dayOfEra - (365 * yearOfEra + yearOfEra / 4 - yearOfEra / 100) = day := by
  obtain ⟨hsum, hcentury, hcycle, hyear, -⟩ := h
  have hcycles : yearOfEra / 4 = 25 * century + cycle := by omega
  have hcenturies : yearOfEra / 100 = century := by omega
  omega

/-- A year of 366 days ends in the February of a leap year. -/
theorem EraDay.isLeapYear (h : EraDay dayOfEra century cycle year 365) (era : Int) :
    isLeapYear (100 * century + 4 * cycle + year + era * 400 + 1) := by
  obtain ⟨-, -, hcycle, -, hday⟩ := h
  rw [isLeapYear_iff]
  omega

end EraDay

theorem marchFirst_add {yearOfEra : Int} (h : 0 ≤ yearOfEra ∧ yearOfEra ≤ 399) (era : Int) :
    marchFirst (yearOfEra + era * 400) =
      146097 * era + (365 * yearOfEra + yearOfEra / 4 - yearOfEra / 100) := by
  have hcycles : (yearOfEra + era * 400) / 4 = yearOfEra / 4 + 100 * era := by omega
  have hcenturies : (yearOfEra + era * 400) / 100 = yearOfEra / 100 + 4 * era := by omega
  have heras : (yearOfEra + era * 400) / 400 = era := by omega
  unfold marchFirst
  omega

/-- The fields of a day of a year that starts in March. -/
def ofMarchYear (marchYear dayOfYear : Int) : Int × Nat × Nat :=
  let marchMonth := (5 * dayOfYear + 2) / 153
  let month := if marchMonth < 10 then marchMonth + 3 else marchMonth - 9
  (marchYear + if month ≤ 2 then 1 else 0, month.toNat,
    (dayOfYear - (153 * marchMonth + 2) / 5 + 1).toNat)

/-- The year of 366 days is the one whose last day is a leap day. -/
def IsMarchDay (marchYear dayOfYear : Int) : Prop :=
  0 ≤ dayOfYear ∧ (dayOfYear ≤ 364 ∨ dayOfYear = 365 ∧ isLeapYear (marchYear + 1))

theorem fields_eq (number : Int) : ∃ marchYear dayOfYear, IsMarchDay marchYear dayOfYear ∧
    number + 719468 = marchFirst marchYear + dayOfYear ∧
    fields number = ofMarchYear marchYear dayOfYear := by
  obtain ⟨era, hera⟩ : ∃ era, era = (number + 719468) / 146097 := ⟨_, rfl⟩
  obtain ⟨dayOfEra, hdayOfEra⟩ : ∃ r, r = (number + 719468) % 146097 := ⟨_, rfl⟩
  have hspan : number + 719468 = 146097 * era + dayOfEra ∧ 0 ≤ dayOfEra ∧ dayOfEra ≤ 146096 := by
    omega
  obtain ⟨century, cycle, year, day, h⟩ := exists_eraDay hspan.2
  have hyear := h.yearOfEra
  have hday := h.yearDay rfl
  refine ⟨100 * century + 4 * cycle + year + era * 400, day, ⟨h.day_mem.1, ?_⟩, ?_, ?_⟩
  · refine h.day_mem.2.imp_right fun hlast => ⟨hlast.1, ?_⟩
    obtain ⟨rfl, -⟩ := hlast
    exact h.isLeapYear era
  · obtain ⟨-, hcentury, hcycle, hyears, -⟩ := h
    rw [marchFirst_add (by omega)]
    omega
  · simp only [fields, ← hera, ← hdayOfEra, hyear, hday, ofMarchYear]

theorem dayNumber_ofMarchYear (h : IsMarchDay marchYear dayOfYear) :
    dayNumber (ofMarchYear marchYear dayOfYear).1 (ofMarchYear marchYear dayOfYear).2.1
      (ofMarchYear marchYear dayOfYear).2.2 = marchFirst marchYear + dayOfYear - 719468 := by
  obtain ⟨hpos, hlast⟩ := h
  obtain ⟨marchMonth, hmonth⟩ : ∃ m, m = (5 * dayOfYear + 2) / 153 := ⟨_, rfl⟩
  have hday : (153 * marchMonth + 2) / 5 ≤ dayOfYear := by omega
  simp only [ofMarchYear, ← hmonth, dayNumber, marchFirst]
  by_cases hspring : marchMonth < 10
  · have hmarch : ¬ marchMonth + 3 ≤ 2 ∧ ¬ (marchMonth + 3).toNat ≤ 2 := by omega
    simp only [hspring, hmarch, if_true, if_false, Int.add_zero]
    omega
  · have hmarch : marchMonth - 9 ≤ 2 ∧ (marchMonth - 9).toNat ≤ 2 := by omega
    simp only [hspring, hmarch, if_true, if_false, Int.add_sub_cancel]
    omega

theorem isYearDay_ofMarchYear (h : IsMarchDay marchYear dayOfYear) :
    IsYearDay (ofMarchYear marchYear dayOfYear).1 (ofMarchYear marchYear dayOfYear).2.1
      (ofMarchYear marchYear dayOfYear).2.2 := by
  obtain ⟨hpos, hlast⟩ := h
  obtain ⟨marchMonth, hmonth⟩ : ∃ m, m = (5 * dayOfYear + 2) / 153 := ⟨_, rfl⟩
  have hbounds : 153 * marchMonth ≤ 5 * dayOfYear + 2 ∧
      5 * dayOfYear + 2 < 153 * (marchMonth + 1) := by omega
  have hmonths : 0 ≤ marchMonth ∧ marchMonth ≤ 11 := by omega
  simp only [IsYearDay, ofMarchYear, ← hmonth]
  clear hmonth
  by_cases hfebruary : marchMonth = 11
  · subst hfebruary
    rcases hlast with hlast | ⟨rfl, hleap⟩
    · have hshort : 28 ≤ daysInMonth (marchYear + 1) 2 := by
        unfold daysInMonth
        split <;> split <;> decide
      simp
      omega
    · simp [daysInMonth, hleap]
  · obtain ⟨hlow, hhigh⟩ : 0 ≤ marchMonth ∧ marchMonth ≤ 10 := by omega
    interval_cases marchMonth <;> simp [daysInMonth] <;> omega

/-- Every number is that of a day, whose fields it has. -/
theorem fields_spec (number : Int) : ∃ year month day, fields number = (year, month, day) ∧
    IsYearDay year month day ∧ dayNumber year month day = number := by
  obtain ⟨marchYear, dayOfYear, hmarch, hnumber, hfields⟩ := fields_eq number
  have hday := dayNumber_ofMarchYear hmarch
  exact ⟨(ofMarchYear marchYear dayOfYear).1, (ofMarchYear marchYear dayOfYear).2.1,
    (ofMarchYear marchYear dayOfYear).2.2, hfields, isYearDay_ofMarchYear hmarch, by omega⟩

/-- A year has 365 days at least. -/
theorem marchFirst_succ (marchYear : Int) :
    marchFirst marchYear + 365 ≤ marchFirst (marchYear + 1) := by
  unfold marchFirst
  -- Years that a century takes out are leap years of the cycle of four.
  have hcentury : (marchYear + 1) / 100 = marchYear / 100 ∨
      (marchYear + 1) / 100 = marchYear / 100 + 1 ∧ (marchYear + 1) / 4 = marchYear / 4 + 1 := by
    omega
  omega

theorem newYear_le {first last : Int} (h : first ≤ last) :
    dayNumber first 1 1 ≤ dayNumber last 1 1 := by
  induction last, h using Int.leInduction with
  | base => exact le_rfl
  | succ last _ ih =>
    have hyear := marchFirst_succ (last - 1)
    simp only [dayNumber, marchFirst] at ih hyear ⊢
    omega

/-- The days of a year lie between its first day and the first day of the next year. -/
theorem dayNumber_of_year (h : IsYearDay year month day) :
    dayNumber year 1 1 ≤ dayNumber year month day ∧
      dayNumber year month day < dayNumber (year + 1) 1 1 := by
  have hyear := marchFirst_succ (year - 1)
  have hday : day ≤ 31 := h.2.2.trans (daysInMonth_le year month)
  obtain ⟨⟨hpos, hmonth⟩, hdaypos, -⟩ := h
  simp only [dayNumber, marchFirst] at hyear ⊢
  split
  · simp
    omega
  · simp
    omega

theorem year_mem_iff (h : IsYearDay year month day) (first last : Int) :
    first ≤ year ∧ year < last ↔ dayNumber first 1 1 ≤ dayNumber year month day ∧
      dayNumber year month day < dayNumber last 1 1 := by
  obtain ⟨hfirst, hnext⟩ := dayNumber_of_year h
  constructor
  · rintro ⟨hlow, hhigh⟩
    exact ⟨(newYear_le hlow).trans hfirst, hnext.trans_le (newYear_le hhigh)⟩
  · rintro ⟨hlow, hhigh⟩
    constructor
    · by_contra hbefore
      have hle : dayNumber (year + 1) 1 1 ≤ dayNumber first 1 1 := newYear_le (by omega)
      omega
    · by_contra hafter
      have hle : dayNumber last 1 1 ≤ dayNumber year 1 1 := newYear_le (by omega)
      omega

/-- The days of the years from 0 to 9999, and the days next to them, are days that a date may
have. -/
theorem dayNumber_bounds (h : IsYearDay year month day) (hyear : 0 ≤ year ∧ year ≤ 9999) :
    firstNumber < dayNumber year month day ∧ dayNumber year month day < lastNumber := by
  obtain ⟨hlow, hhigh⟩ := (year_mem_iff h 0 10000).mp (by omega)
  have hfirst : firstNumber < dayNumber 0 1 1 := by decide
  have hlast : dayNumber 10000 1 1 < lastNumber := by decide
  exact ⟨hfirst.trans_le hlow, hhigh.trans hlast⟩

end ContactCards.Date
