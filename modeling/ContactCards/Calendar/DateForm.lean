import ContactCards.Calendar.Date
import ContactCards.Calendar.Scan

/-!
The two written forms of a date: basic, without separators, and extended, with hyphens.
-/

namespace ContactCards.Date

open Scan

/-- A day at the front of a text in basic form, still unchecked. -/
def scanBasic (cs : List Char) : Option ((Int × Nat × Nat) × List Char) := do
  let (y, cs) ← yearNumber cs
  let (m, cs) ← field cs
  let (d, cs) ← field cs
  return ((y, m, d), cs)

/-- A day at the front of a text in extended form, still unchecked. -/
def scanExtended (cs : List Char) : Option ((Int × Nat × Nat) × List Char) := do
  let (y, cs) ← yearNumber cs
  let cs ← char '-' cs
  let (m, cs) ← field cs
  let cs ← char '-' cs
  let (d, cs) ← field cs
  return ((y, m, d), cs)

/-- The date that a whole text was read as. -/
def complete? : Option ((Int × Nat × Nat) × List Char) → Option Date
  | some ((y, m, d), []) => ofFields? y m d
  | _ => none

/-- The date that a text without blanks around it writes in one of the two forms. -/
def parse? (cs : List Char) : Option Date :=
  (complete? (scanBasic cs)).or (complete? (scanExtended cs))

end ContactCards.Date
