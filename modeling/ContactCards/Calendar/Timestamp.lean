import ContactCards.Calendar.DateForm

/-!
Points in time, counted in seconds from the start of 1970, and their written forms: RFC 3339 and the
basic form without separators. A leap second is counted as part of the second before it.
-/

namespace ContactCards

/-- A point in time; within a leap second the nanoseconds go on from one second. -/
structure Timestamp where
  seconds : Int
  nanos : Nat
  deriving DecidableEq, Repr

namespace Timestamp

open Scan

/-- The seconds of a day. -/
def daySeconds : Int := 86400

/-- The fields of a civil time and its offset, as written. -/
structure Civil where
  year : Int
  month : Nat
  day : Nat
  hour : Nat
  minute : Nat
  second : Nat
  nanos : Nat
  /-- Seconds east of UTC. -/
  offset : Int
  deriving DecidableEq, Repr

/-- A day of the calendar, at a time of the day, less than a day away from UTC. Every minute may
have a leap second. -/
def Civil.InRange (civil : Civil) : Prop :=
  IsDay civil.year civil.month civil.day ∧ civil.hour ≤ 23 ∧ civil.minute ≤ 59 ∧
    civil.second ≤ 60 ∧ -daySeconds < civil.offset ∧ civil.offset < daySeconds

instance (civil : Civil) : Decidable civil.InRange :=
  inferInstanceAs (Decidable (_ ∧ _))

/-- The seconds of a civil time, seen at UTC. -/
def Civil.seconds (civil : Civil) : Int :=
  Date.dayNumber civil.year civil.month civil.day * daySeconds +
    civil.hour * 3600 + civil.minute * 60 + min civil.second 59 - civil.offset

/-- The point in time of a civil time, which at UTC too has to be on a day of the calendar. -/
def ofCivil? (civil : Civil) : Option Timestamp :=
  let seconds := civil.seconds
  if civil.InRange ∧ Date.firstNumber ≤ seconds / daySeconds ∧
      seconds / daySeconds ≤ Date.lastNumber then
    some ⟨seconds, (if civil.second = 60 then 1000000000 else 0) + civil.nanos⟩
  else none

/-- The nanoseconds that the digits after a point write; digits from the tenth on do not count. -/
def fraction (digits : List Char) : Nat :=
  let counted := digits.take 9
  valueOf (counted ++ List.replicate (9 - counted.length) '0')

/-- The fraction of a second, if there is a point. -/
def scanFraction : List Char → Option (Nat × List Char)
  | '.' :: cs =>
    let digits := cs.takeWhile Char.isDigit
    if digits.isEmpty then none else some (fraction digits, cs.dropWhile Char.isDigit)
  | cs => some (0, cs)

/-- The minutes of an offset. -/
def offsetMinutes (cs : List Char) : Option (Nat × List Char) :=
  (fixed 2 cs).filter (·.1 ≤ 59)

/-- An offset with a colon, or the letter for none. -/
def scanOffsetExtended : List Char → Option (Int × List Char)
  | 'Z' :: cs => some (0, cs)
  | 'z' :: cs => some (0, cs)
  | cs => do
    let (s, cs) ← sign cs
    let (h, cs) ← fixed 2 cs
    let cs ← char ':' cs
    let (m, cs) ← offsetMinutes cs
    if h ≤ 23 then return (s * (h * 3600 + m * 60 : Nat), cs) else none

/-- An offset whose hours and minutes colons and blanks may part. -/
def scanOffsetBasic (cs : List Char) : Option (Int × List Char) := do
  let (s, cs) ← sign (dropBlanks cs)
  let (h, cs) ← fixed 2 cs
  let (m, cs) ← offsetMinutes (cs.dropWhile fun c => c == ':' || isBlank c)
  return (s * (h * 3600 + m * 60 : Nat), cs)

/-- The letter, or the space, between a day and a time in RFC 3339. -/
def scanSeparator : List Char → Option (List Char)
  | 'T' :: cs => some cs
  | 't' :: cs => some cs
  | ' ' :: cs => some cs
  | _ => none

/-- A text in the form of RFC 3339, in which all fields have a fixed width. -/
def scanExtended (cs : List Char) : Option Civil := do
  let (year, cs) ← fixed 4 cs
  let cs ← char '-' cs
  let (month, cs) ← fixed 2 cs
  let cs ← char '-' cs
  let (day, cs) ← fixed 2 cs
  let cs ← scanSeparator cs
  let (hour, cs) ← fixed 2 cs
  let cs ← char ':' cs
  let (minute, cs) ← fixed 2 cs
  let cs ← char ':' cs
  let (second, cs) ← fixed 2 cs
  let (nanos, cs) ← scanFraction cs
  let (offset, cs) ← scanOffsetExtended cs
  if cs.isEmpty then return { year, month, day, hour, minute, second, nanos, offset } else none

/-- A text in basic form with a numeric offset. -/
def scanBasic (cs : List Char) : Option Civil := do
  let ((year, month, day), cs) ← Date.scanBasic cs
  let cs ← char 'T' cs
  let (hour, cs) ← field cs
  let (minute, cs) ← field cs
  let (second, cs) ← field cs
  let (offset, cs) ← scanOffsetBasic cs
  if cs.isEmpty then return { year, month, day, hour, minute, second, nanos := 0, offset } else none

/-- A text with a final `Z` spelled as an offset. -/
def spellOffset (cs : List Char) : List Char :=
  if cs.getLast? = some 'Z' then cs.dropLast ++ "+0000".toList else cs

/-- The point in time that a text writes in one of the two forms. -/
def parse? (s : String) : Option Timestamp :=
  let cs := trimChars s.toList
  ((scanExtended cs).bind ofCivil?).or ((scanBasic (spellOffset cs)).bind ofCivil?)

/-- A point in time in basic form, at UTC and without its fraction of a second. -/
def render (t : Timestamp) : String :=
  let (year, month, day) := Date.fields (t.seconds / daySeconds)
  let second := (t.seconds % daySeconds).toNat
  Date.renderFields year month day ++ "T" ++ Date.padded 2 (second / 3600) ++
    Date.padded 2 (second / 60 % 60) ++ Date.padded 2 (second % 60 + t.nanos / 1000000000) ++ "Z"

end Timestamp

end ContactCards
