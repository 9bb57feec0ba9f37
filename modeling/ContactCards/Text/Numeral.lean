/-!
Unsigned numerals in a base, read up to a limit. Digits are read from the left, so the first
offence decides which fault is reported.
-/

namespace ContactCards.Numeral

/-- Why a text is no numeral. -/
inductive Fault where
  | empty
  | invalidDigit
  | tooLarge
  deriving DecidableEq, Repr

def Fault.message : Fault → String
  | .empty => "cannot parse integer from empty string"
  | .invalidDigit => "invalid digit found in string"
  | .tooLarge => "number too large to fit in target type"

/-- The value of an ASCII digit or letter, `a` being ten. -/
def digitValue (c : Char) : Option Nat :=
  if c.isDigit then some (c.toNat - '0'.toNat)
  else if c.isLower then some (c.toNat - 'a'.toNat + 10)
  else if c.isUpper then some (c.toNat - 'A'.toNat + 10)
  else none

/-- The value of a digit of the base. -/
def digit (base : Nat) (c : Char) : Option Nat :=
  (digitValue c).filter (· < base)

/-- Reads the digits that follow a number already read. -/
def readFrom (base limit : Nat) : (value : Nat) → List Char → Except Fault Nat
  | value, [] => .ok value
  | value, c :: cs =>
    match digit base c with
    | none => .error .invalidDigit
    | some d =>
      if value * base + d ≤ limit then readFrom base limit (value * base + d) cs
      else .error .tooLarge

/-- Reads a numeral without a sign. -/
def read (base limit : Nat) : List Char → Except Fault Nat
  | [] => .error .empty
  | c :: cs => readFrom base limit 0 (c :: cs)

/-- Reads a numeral that may have a plus sign before its digits. -/
def readSigned (base limit : Nat) : List Char → Except Fault Nat
  | ['+'] => .error .invalidDigit
  | '+' :: cs => readFrom base limit 0 cs
  | cs => read base limit cs

/-- The largest number of 32 bits. -/
def max32 : Nat := 0xFFFFFFFF

/-- The largest number of 64 bits. -/
def max64 : Nat := 0xFFFFFFFFFFFFFFFF

/-- The largest number of 64 bits with a sign. -/
def maxSigned64 : Nat := 0x7FFFFFFFFFFFFFFF

end ContactCards.Numeral
