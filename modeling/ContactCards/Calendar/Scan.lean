import ContactCards.Text.Blank

/-!
Reading numbers and signs from the front of a text. Each reader gives what it has read and what is
left.
-/

namespace ContactCards.Scan

/-- The number that a list of digits writes. -/
def valueOf (digits : List Char) : Nat :=
  digits.foldl (fun n c => n * 10 + (c.toNat - '0'.toNat)) 0

/-- At least one digit and at most `width`. -/
def number (width : Nat) (cs : List Char) : Option (Nat × List Char) :=
  let digits := (cs.take width).takeWhile Char.isDigit
  if digits.isEmpty then none else some (valueOf digits, cs.drop digits.length)

/-- Exactly `width` digits. -/
def fixed (width : Nat) (cs : List Char) : Option (Nat × List Char) :=
  let digits := (cs.take width).takeWhile Char.isDigit
  if digits.length = width then some (valueOf digits, cs.drop width) else none

/-- One or two digits after any blanks. -/
def field (cs : List Char) : Option (Nat × List Char) :=
  number 2 (dropBlanks cs)

/-- A year after any blanks: at most four digits, or any number of them after a sign. -/
def yearNumber (cs : List Char) : Option (Int × List Char) :=
  match dropBlanks cs with
  | '-' :: rest => (number rest.length rest).map fun (n, rest) => (-(n : Int), rest)
  | '+' :: rest => (number rest.length rest).map fun (n, rest) => ((n : Int), rest)
  | rest => (number 4 rest).map fun (n, rest) => ((n : Int), rest)

/-- One given character. -/
def char (c : Char) : List Char → Option (List Char)
  | [] => none
  | d :: rest => if c = d then some rest else none

/-- The sign of an offset, plus or one of two minus signs: 1 or -1. -/
def sign : List Char → Option (Int × List Char)
  | '+' :: rest => some (1, rest)
  | '-' :: rest => some (-1, rest)
  | '\u2212' :: rest => some (-1, rest)
  | _ => none

end ContactCards.Scan
