import ContactCards.Proofs.Calendar.FullWidth

/-! The two forms of a point in time at full width: basic, and extended with hyphens and colons.
Both are read alike, though by different readers, each of which refuses the form of the other. -/
namespace ContactCards

open Scan Date

variable {cs rest : List Char} {form : Form}

/-- What parts the fields of a time. -/
def Date.Form.colon : Form → List Char
  | basic => []
  | extended => [':']

/-- How far a civil time is from UTC: not at all, or hours and minutes at full width to the east or
to the west. -/
inductive Zone where
  | utc
  | offset (west : Bool) (hour minute : Digits 2)

namespace Zone

def text (form : Form) : Zone → List Char
  | utc => ['Z']
  | offset west hour minute =>
    (if west then '-' else '+') :: (hour.chars ++ (form.colon ++ minute.chars))

/-- Seconds east of UTC. -/
def seconds : Zone → Int
  | utc => 0
  | offset west hour minute =>
    (if west then -1 else 1) * (hour.value * 3600 + minute.value * 60 : Nat)

/-- Less than a day, and less than an hour of minutes. -/
def InRange : Zone → Prop
  | utc => True
  | offset _ hour minute => hour.value ≤ 23 ∧ minute.value ≤ 59

instance (zone : Zone) : Decidable zone.InRange :=
  match zone with
  | utc => inferInstanceAs (Decidable True)
  | offset _ hour minute => inferInstanceAs (Decidable (hour.value ≤ 23 ∧ minute.value ≤ 59))

/-- No hours and no minutes. -/
def zero : Zone :=
  offset false (.two 0 (by decide)) (.two 0 (by decide))

theorem inRange_zero : zero.InRange := by
  simp only [zero, InRange, Digits.value_two]
  decide

theorem seconds_zero : zero.seconds = 0 := by
  simp only [zero, seconds, Digits.value_two]
  rfl

end Zone

/-- A date and a time of the day at full width. -/
structure FullTime where
  date : FullDate
  hour : Digits 2
  minute : Digits 2
  second : Digits 2

namespace FullTime

def timeText (form : Form) (t : FullTime) (zone : Zone) : List Char :=
  t.hour.chars ++ (form.colon ++ (t.minute.chars ++ (form.colon ++ (t.second.chars ++
    zone.text form))))

def text (form : Form) (t : FullTime) (zone : Zone) : List Char :=
  t.date.text form ++ 'T' :: t.timeText form zone

/-- A day of the calendar and a time of the day, perhaps within a leap second. -/
def InRange (t : FullTime) : Prop :=
  IsDay t.date.year.value t.date.month.value t.date.day.value ∧
    t.hour.value ≤ 23 ∧ t.minute.value ≤ 59 ∧ t.second.value ≤ 60

instance (t : FullTime) : Decidable t.InRange :=
  inferInstanceAs (Decidable (_ ∧ _))

def civil (t : FullTime) (offset : Int) : Timestamp.Civil where
  year := t.date.year.value
  month := t.date.month.value
  day := t.date.day.value
  hour := t.hour.value
  minute := t.minute.value
  second := t.second.value
  nanos := 0
  offset := offset

end FullTime

namespace Timestamp

theorem char_cons (c : Char) (rest : List Char) : char c (c :: rest) = some rest :=
  char_eq_some_iff.mpr rfl

theorem scanFraction_zone (form : Form) (zone : Zone) :
    scanFraction (zone.text form) = some (0, zone.text form) := by
  cases zone with
  | utc => rfl
  | offset west hour minute => cases west <;> rfl

theorem sign_offset (west : Bool) (rest : List Char) :
    sign ((if west then '-' else '+') :: rest) = some (if west then -1 else 1, rest) := by
  cases west <;> rfl

theorem offsetMinutes_digits (d : Digits 2) :
    offsetMinutes d.chars = if d.value ≤ 59 then some (d.value, []) else none := by
  have hfixed := fixed_digits d []
  rw [List.append_nil] at hfixed
  rw [offsetMinutes, hfixed, Option.filter_some]
  simp only [decide_eq_true_eq]

theorem scanOffsetExtended_zone (zone : Zone) :
    scanOffsetExtended (zone.text .extended) =
      if zone.InRange then some (zone.seconds, []) else none := by
  cases zone with
  | utc => rfl
  | offset west hour minute =>
    have hcases : scanOffsetExtended (Zone.text .extended (.offset west hour minute)) =
        (sign (Zone.text .extended (.offset west hour minute))).bind fun s =>
          (fixed 2 s.2).bind fun h =>
            (char ':' h.2).bind fun cs =>
              (offsetMinutes cs).bind fun m =>
                if h.1 ≤ 23 then some (s.1 * (h.1 * 3600 + m.1 * 60 : Nat), m.2) else none := by
      cases west <;> rfl
    rw [hcases, Zone.text, sign_offset]
    simp only [Option.bind_some, fixed_digits, Form.colon, List.singleton_append, char_cons,
      offsetMinutes_digits]
    by_cases hminute : minute.value ≤ 59
    · simp only [Zone.InRange, hminute, and_true, if_true, Option.bind_some]
      rfl
    · rw [if_neg hminute, Option.bind_none, if_neg fun h => hminute h.2]

theorem dropWhile_digits (d : Digits 2) :
    d.chars.dropWhile (fun c => c == ':' || isBlank c) = d.chars := by
  cases hchars : d.chars with
  | nil => rfl
  | cons c cs =>
    have hc : c.isDigit := d.isDigit c (hchars ▸ List.mem_cons_self)
    have hcolon : c ≠ ':' := by
      rintro rfl
      cases hc
    exact List.dropWhile_cons_of_neg (by simp [hcolon, isBlank_eq_false_of_isDigit hc])

theorem scanOffsetBasic_offset (west : Bool) (hour minute : Digits 2) :
    scanOffsetBasic (Zone.text .basic (.offset west hour minute)) =
      if minute.value ≤ 59 then some (Zone.seconds (.offset west hour minute), []) else none := by
  have hsign : dropBlanks (Zone.text .basic (.offset west hour minute)) =
      Zone.text .basic (.offset west hour minute) := by
    apply dropBlanks_eq_self
    rintro _ ⟨⟩
    cases west <;> rfl
  rw [scanOffsetBasic, hsign, Zone.text, sign_offset]
  simp only [Option.bind_eq_bind, Option.bind_some, fixed_digits, Form.colon, List.nil_append,
    dropWhile_digits, offsetMinutes_digits]
  split <;> rfl

/-- The reader of the extended form. -/
theorem scanExtended_text (t : FullTime) (zone : Zone) :
    scanExtended (t.text .extended zone) =
      if zone.InRange then some (t.civil zone.seconds) else none := by
  simp only [scanExtended, FullTime.text, FullTime.timeText, FullDate.text, Form.mark, Form.colon,
    List.append_assoc, List.cons_append, List.nil_append, Option.bind_eq_bind, Option.bind_some,
    fixed_digits, char_cons, scanSeparator, scanFraction_zone, scanOffsetExtended_zone]
  split <;> rfl

theorem char_digits {width : Nat} [NeZero width] {c : Char} (hc : c.isDigit = false)
    (d : Digits width) (rest : List Char) : char c (d.chars ++ rest) = none := by
  rw [Option.eq_none_iff_forall_ne_some]
  intro after hread
  have hhead : c ∈ (d.chars ++ rest).head? → c.isDigit := d.isDigits.head_isDigit c
  rw [char_eq_some_iff.mp hread] at hhead
  exact Bool.false_ne_true (hc.symm.trans (hhead rfl))

/-- It refuses the basic form, which has no hyphen behind the year. -/
theorem scanExtended_basic (t : FullTime) (zone : Zone) :
    scanExtended (t.text .basic zone) = none := by
  have hhyphen : '-'.isDigit = false := rfl
  simp only [scanExtended, FullTime.text, FullDate.text, Form.mark, List.append_assoc,
    List.nil_append, Option.bind_eq_bind, Option.bind_some, fixed_digits, char_digits hhyphen,
    Option.bind_none]

/-- The reader of the basic form. -/
theorem scanBasic_text (t : FullTime) (west : Bool) (hour minute : Digits 2) :
    scanBasic (t.text .basic (.offset west hour minute)) =
      if minute.value ≤ 59 then some (t.civil (Zone.seconds (.offset west hour minute)))
      else none := by
  simp only [scanBasic, Date.scanBasic, FullTime.text, FullTime.timeText, FullDate.text, Form.mark,
    Form.colon, List.append_assoc, List.nil_append, Option.bind_eq_bind, Option.bind_some,
    Option.pure_def, yearNumber_fullWidth, field_digits, char_cons, scanOffsetBasic_offset]
  split <;> rfl

/-- It refuses the extended form, because a month does not begin with a hyphen. -/
theorem scanBasic_extended (year : Digits 4) (rest : List Char) :
    scanBasic (year.chars ++ '-' :: rest) = none := by
  simp only [scanBasic, Date.scanBasic, Option.bind_eq_bind, Option.bind_some, yearNumber_fullWidth,
    field_hyphen, Option.bind_none]

/-! Only the end of a text is spelled anew. -/

theorem spellOffset_append (cs : List Char) (h : rest ≠ []) :
    spellOffset (cs ++ rest) = cs ++ spellOffset rest := by
  rw [spellOffset, spellOffset, List.getLast?_append_of_ne_nil cs h,
    List.dropLast_append_of_ne_nil h]
  split
  · rw [List.append_assoc]
  · rfl

theorem spellOffset_digits (cs : List Char) (d : Digits 2) :
    spellOffset (cs ++ d.chars) = cs ++ d.chars := by
  rw [spellOffset_append cs d.isDigits.ne_nil, spellOffset, if_neg]
  intro hlast
  have hdigit := d.isDigit 'Z' (List.mem_of_getLast? hlast)
  cases hdigit

theorem spellOffset_utc (t : FullTime) :
    spellOffset (t.text .basic .utc) = t.text .basic .zero := by
  have hsplit (zone : Zone) : t.text .basic zone =
      (t.date.text .basic ++ 'T' :: (t.hour.chars ++ (t.minute.chars ++ t.second.chars))) ++
        zone.text .basic := by
    simp only [FullTime.text, FullTime.timeText, Form.colon, List.nil_append, List.append_assoc,
      List.cons_append]
  have hend : Zone.text .basic .utc ≠ [] := List.cons_ne_nil 'Z' []
  rw [hsplit, hsplit, spellOffset_append _ hend]
  rfl

theorem spellOffset_offset (t : FullTime) (west : Bool) (hour minute : Digits 2) :
    spellOffset (t.text .basic (.offset west hour minute)) =
      t.text .basic (.offset west hour minute) := by
  have hsplit : t.text .basic (.offset west hour minute) =
      (t.date.text .basic ++ 'T' :: (t.hour.chars ++ (t.minute.chars ++ (t.second.chars ++
        (if west then '-' else '+') :: hour.chars)))) ++ minute.chars := by
    simp only [FullTime.text, FullTime.timeText, Zone.text, Form.colon, List.nil_append,
      List.append_assoc, List.cons_append]
  rw [hsplit, spellOffset_digits]

theorem scanBasic_spellOffset_extended (t : FullTime) (zone : Zone) :
    scanBasic (spellOffset (t.text .extended zone)) = none := by
  obtain ⟨rest, hrest, htext⟩ : ∃ rest, rest ≠ [] ∧
      t.text .extended zone = t.date.year.chars ++ (['-'] ++ rest) := by
    refine ⟨t.date.month.chars ++ ('-' :: t.date.day.chars ++ 'T' :: t.timeText .extended zone),
      List.append_ne_nil_of_left_ne_nil t.date.month.isDigits.ne_nil _, ?_⟩
    simp only [FullTime.text, FullDate.text, Form.mark, List.append_assoc, List.cons_append,
      List.nil_append]
  have hhyphen : ['-'] ++ rest ≠ [] := List.cons_ne_nil '-' rest
  rw [htext, spellOffset_append _ hhyphen, spellOffset_append _ hrest]
  exact scanBasic_extended t.date.year (spellOffset rest)

theorem isFormChar_text (form : Form) (t : FullTime) (zone : Zone) :
    ∀ c ∈ t.text form zone, DateOrTime.isFormChar c := by
  have hcolon : ∀ c ∈ form.colon, DateOrTime.isFormChar c := by
    cases form with
    | basic => exact nofun
    | extended => exact List.forall_mem_singleton.mpr rfl
  have hzone : ∀ c ∈ zone.text form, DateOrTime.isFormChar c := by
    cases zone with
    | utc => exact List.forall_mem_singleton.mpr rfl
    | offset west hour minute =>
      have hsign : DateOrTime.isFormChar (if west then '-' else '+') := by
        cases west <;> rfl
      simp only [Zone.text, List.forall_mem_cons, List.forall_mem_append]
      exact ⟨hsign, hour.isFormChar, hcolon, minute.isFormChar⟩
  simp only [FullTime.text, FullTime.timeText, List.forall_mem_cons, List.forall_mem_append]
  exact ⟨t.date.isFormChar_text form, rfl, t.hour.isFormChar, hcolon, t.minute.isFormChar, hcolon,
    t.second.isFormChar, hzone⟩

/-- Hours that make a day or more are refused. -/
theorem ofCivil?_of_hours (t : FullTime) (west : Bool) {hour minute : Digits 2}
    (hhour : 23 < hour.value) :
    ofCivil? (t.civil (Zone.seconds (.offset west hour minute))) = none := by
  rw [ofCivil?, if_neg]
  rintro ⟨⟨-, -, -, -, hlow, hhigh⟩, -⟩
  simp only [FullTime.civil, Zone.seconds, daySeconds] at hlow hhigh
  cases west
  · rw [if_neg Bool.false_ne_true] at hhigh
    omega
  · rw [if_pos rfl] at hlow
    omega

/-- What is written at full width is read as that civil time, in either form. -/
theorem parse?_text (form : Form) (t : FullTime) (zone : Zone) :
    parse? (String.ofList (t.text form zone)) =
      if zone.InRange then ofCivil? (t.civil zone.seconds) else none := by
  have htrim : trimChars (String.ofList (t.text form zone)).toList = t.text form zone := by
    rw [String.toList_ofList]
    exact DateOrTime.trimChars_eq_self (isFormChar_text form t zone)
  simp only [parse?, htrim]
  cases form with
  | basic =>
    rw [scanExtended_basic, Option.bind_none, Option.none_or]
    cases zone with
    | utc =>
      have hread : scanBasic (t.text .basic .zero) = some (t.civil (Zone.seconds .zero)) := by
        rw [Zone.zero, scanBasic_text, if_pos (by rw [Digits.value_two]; decide)]
      rw [spellOffset_utc, hread, Option.bind_some, Zone.seconds_zero]
      rfl
    | offset west hour minute =>
      rw [spellOffset_offset, scanBasic_text]
      by_cases hminute : minute.value ≤ 59
      · rw [if_pos hminute, Option.bind_some]
        by_cases hhour : hour.value ≤ 23
        · exact (if_pos ⟨hhour, hminute⟩).symm
        · rw [if_neg fun h => hhour h.1, ofCivil?_of_hours t west (by omega)]
      · rw [if_neg hminute, Option.bind_none, if_neg fun h => hminute h.2]
  | extended =>
    rw [scanExtended_text, scanBasic_spellOffset_extended, Option.bind_none, Option.or_none]
    split <;> rfl

/-- The point in time of a civil time in a zone, in which a leap second is part of the second before
it. -/
def ofFullTime (t : FullTime) (zone : Zone) : Timestamp where
  seconds := dayNumber t.date.year.value t.date.month.value t.date.day.value * 86400 +
    t.hour.value * 3600 + t.minute.value * 60 + min t.second.value 59 - zone.seconds
  nanos := if t.second.value = 60 then 1000000000 else 0

theorem ofFullTime_zero (t : FullTime) : ofFullTime t .zero = ofFullTime t .utc := by
  rw [ofFullTime, ofFullTime, Zone.seconds_zero]
  rfl

/-- No offset within its range leads out of the days that a date may have. -/
theorem ofCivil?_fullTime (t : FullTime) {zone : Zone} (hzone : zone.InRange) :
    ofCivil? (t.civil zone.seconds) = if t.InRange then some (ofFullTime t zone) else none := by
  have hoffset : -86400 < zone.seconds ∧ zone.seconds < 86400 := by
    cases zone with
    | utc => exact ⟨by decide, by decide⟩
    | offset west hour minute =>
      obtain ⟨hhour, hminute⟩ := hzone
      simp only [Zone.seconds]
      split <;> omega
  by_cases hrange : t.InRange
  · have ⟨hday, hhour, hminute, hsecond⟩ := hrange
    have hyear : HasFourDigits t.date.year.value := by
      have hlt := t.date.year.value_lt
      unfold HasFourDigits
      omega
    obtain ⟨hfirst, hlast⟩ := dayNumber_bounds hday.2 hyear
    rw [if_pos hrange, ofCivil?, if_pos]
    · rfl
    · refine ⟨⟨hday, hhour, hminute, hsecond, hoffset⟩, ?_⟩
      simp only [Civil.seconds, FullTime.civil, daySeconds]
      omega
  · rw [if_neg hrange, ofCivil?, if_neg]
    rintro ⟨⟨hday, hhour, hminute, hsecond, -⟩, -⟩
    exact hrange ⟨hday, hhour, hminute, hsecond⟩

/-- In either form a text at full width is a point in time just if all its fields are in range. -/
theorem parse?_fullTime (form : Form) (t : FullTime) (zone : Zone) :
    parse? (String.ofList (t.text form zone)) =
      if t.InRange ∧ zone.InRange then some (ofFullTime t zone) else none := by
  rw [parse?_text]
  by_cases hzone : zone.InRange
  · rw [if_pos hzone, ofCivil?_fullTime t hzone]
    simp only [hzone, and_true]
  · rw [if_neg hzone, if_neg fun h => hzone h.2]

end Timestamp

/-- The two forms of a civil time at full width are read alike, and the letter for UTC like an
offset of zero. They are no point in time just if a field is out of its range or the day does not
exist; otherwise they are the civil time less the offset. The two forms of a date at full width are
the same date. -/
theorem forms_read_alike (t : FullTime) (zone : Zone) :
    let read (form : Form) (zone : Zone) := Timestamp.parse? (String.ofList (t.text form zone))
    read .basic zone = read .extended zone ∧
    (∀ form, read form .utc = read form .zero) ∧
    (∀ form, read form zone = none ↔ ¬ (t.InRange ∧ zone.InRange)) ∧
    (∀ form, t.InRange ∧ zone.InRange → read form zone = some (Timestamp.ofFullTime t zone)) ∧
    ∀ date, DateOrTime.parse? (String.ofList (t.date.text .basic)) = some (.date date) ↔
      DateOrTime.parse? (String.ofList (t.date.text .extended)) = some (.date date) := by
  intro read
  have hread (form : Form) (zone : Zone) : read form zone = _ :=
    Timestamp.parse?_fullTime form t zone
  refine ⟨?_, fun form => ?_, fun form => ?_, fun form hrange => ?_, fun date => ?_⟩
  · rw [hread, hread]
  · have hzero : Zone.zero.InRange ↔ Zone.utc.InRange := iff_of_true Zone.inRange_zero trivial
    rw [hread, hread, Timestamp.ofFullTime_zero]
    simp only [hzero]
  · simp only [hread, ite_eq_right_iff, reduceCtorEq, imp_false]
  · rw [hread, if_pos hrange]
  · rw [FullDate.parse?_text, FullDate.parse?_text]
    cases t.date.date? <;> simp

/-- A leap second at the end of a year, which the offset carries into the next year. -/
theorem forms_read_alike_leap :
    let t : FullTime :=
      { date := ⟨.ofNat 1995 (by decide), .two 12 (by decide), .two 31 (by decide)⟩
        hour := .two 23 (by decide)
        minute := .two 59 (by decide)
        second := .two 60 (by decide) }
    let zone : Zone := .offset true (.two 1 (by decide)) (.two 30 (by decide))
    (t.InRange ∧ zone.InRange) ∧
    String.ofList (t.text .basic zone) = "19951231T235960-0130" ∧
    String.ofList (t.text .extended zone) = "1995-12-31T23:59:60-01:30" ∧
    Timestamp.parse? "19951231T235960-0130" = some ⟨820459799, 1000000000⟩ ∧
    Timestamp.parse? "1995-12-31T23:59:60-01:30" = some ⟨820459799, 1000000000⟩ := by
  intro t zone
  have hrange : t.InRange ∧ zone.InRange := by decide +kernel
  have hbasic : String.ofList (t.text .basic zone) = "19951231T235960-0130" := by decide +kernel
  have hextended : String.ofList (t.text .extended zone) = "1995-12-31T23:59:60-01:30" := by
    decide +kernel
  have hinstant : Timestamp.ofFullTime t zone = ⟨820459799, 1000000000⟩ := by decide +kernel
  obtain ⟨-, -, -, hread, -⟩ := forms_read_alike t zone
  refine ⟨hrange, hbasic, hextended, ?_, ?_⟩
  · rw [← hbasic, ← hinstant]
    exact hread .basic hrange
  · rw [← hextended, ← hinstant]
    exact hread .extended hrange

end ContactCards
