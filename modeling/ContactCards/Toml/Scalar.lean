import ContactCards.Text.Numeral
import ContactCards.Toml.Value

/-!
Numbers, dates, times and truth values of TOML: everything that is written without quotes, read from
the characters of one token.
-/

namespace ContactCards.Toml

/-- Digits of a base with single underscores between them: the digits alone. -/
def plainDigits (base : Nat) (cs : List Char) : Option (List Char) :=
  let isDigit (c : Char) : Bool := (Numeral.digit base c).isSome
  let rec rest : List Char → Option (List Char)
    | [] => some []
    | '_' :: c :: cs => if isDigit c then (rest cs).map (c :: ·) else none
    | c :: cs => if isDigit c then (rest cs).map (c :: ·) else none
  match cs with
  | [] => none
  | c :: cs => if isDigit c then (rest cs).map (c :: ·) else none

/-- The number that digits write. -/
def naturalOf (base : Nat) (digits : List Char) : Nat :=
  digits.foldl (fun n c => n * base + (Numeral.digit base c).getD 0) 0

/-- A number without a superfluous zero in front. -/
def decimalDigits (cs : List Char) : Option (List Char) :=
  (plainDigits 10 cs).filter fun digits => digits.head? != some '0' || digits.length == 1

/-- A sign that may be missing. -/
def splitSign : List Char → Bool × List Char
  | '+' :: cs => (false, cs)
  | '-' :: cs => (true, cs)
  | cs => (false, cs)

/-- A whole number of 64 bits. -/
def inRange (n : Int) : Option Toml :=
  if -Numeral.maxSigned64 - 1 ≤ n ∧ n ≤ Numeral.maxSigned64 then some (.integer n) else none

/-- A whole number: decimal with or without a sign, or in another base without one. -/
def integer? (cs : List Char) : Option Toml :=
  match cs with
  | '0' :: 'x' :: cs => (plainDigits 16 cs).bind fun ds => inRange (naturalOf 16 ds)
  | '0' :: 'o' :: cs => (plainDigits 8 cs).bind fun ds => inRange (naturalOf 8 ds)
  | '0' :: 'b' :: cs => (plainDigits 2 cs).bind fun ds => inRange (naturalOf 2 ds)
  | cs =>
    let (negative, cs) := splitSign cs
    (decimalDigits cs).bind fun ds =>
      inRange (if negative then -(naturalOf 10 ds : Int) else naturalOf 10 ds)

/-- The number `digits * 10 ^ exponent`, which may be too large to be finite. -/
def floatOf (negative : Bool) (digits : List Char) (exponent : Int) : Float :=
  let significant := digits.dropWhile (· == '0')
  let magnitude := exponent + significant.length
  let size :=
    if significant.isEmpty ∨ magnitude < -400 then 0.0
    else if 400 < magnitude then 1.0 / 0.0
    else Float.ofScientific (naturalOf 10 significant) (exponent < 0) exponent.natAbs
  if negative then -size else size

/-- The exponent after the letter, and the digits before it. -/
def splitExponent (cs : List Char) : Option (List Char × Int) :=
  let isMark (c : Char) : Bool := c == 'e' || c == 'E'
  match cs.dropWhile (! isMark ·) with
  | [] => some (cs, 0)
  | _ :: exponent =>
    let (negative, exponent) := splitSign exponent
    (plainDigits 10 exponent).map fun ds =>
      (cs.takeWhile (! isMark ·), if negative then -(naturalOf 10 ds : Int) else naturalOf 10 ds)

/-- A number with a fraction, an exponent or both, or one of the words for special numbers. -/
def float? (cs : List Char) : Option Toml := do
  let (negative, cs) := splitSign cs
  if cs = "inf".toList then
    return .float (if negative then -(1.0 / 0.0) else 1.0 / 0.0)
  if cs = "nan".toList then return .float (0.0 / 0.0)
  let (mantissa, exponent) ← splitExponent cs
  let whole ← decimalDigits (mantissa.takeWhile (· != '.'))
  let places ← match mantissa.dropWhile (· != '.') with
    | [] => some []
    | _ :: places => plainDigits 10 places
  let x := floatOf negative (whole ++ places) (exponent - places.length)
  if x.isInf then none else return .float x

/-- Numbers between bounds that are written with a fixed number of digits. -/
def fixedField (width low high : Nat) (cs : List Char) : Option (List Char) :=
  let digits := cs.take width
  if digits.length = width ∧ digits.all Char.isDigit ∧
      low ≤ naturalOf 10 digits ∧ naturalOf 10 digits ≤ high
  then some (cs.drop width) else none

def literal (c : Char) : List Char → Option (List Char)
  | [] => none
  | d :: cs => if c = d then some cs else none

/-- A day, and what is left. -/
def day (cs : List Char) : Option (List Char) := do
  let year := naturalOf 10 (cs.take 4)
  let month := naturalOf 10 ((cs.drop 5).take 2)
  let leap := year % 4 = 0 ∧ (year % 100 ≠ 0 ∨ year % 400 = 0)
  let last := if month = 2 then (if leap then 29 else 28)
    else if month = 4 ∨ month = 6 ∨ month = 9 ∨ month = 11 then 30 else 31
  let cs ← fixedField 4 0 9999 cs
  let cs ← literal '-' cs
  let cs ← fixedField 2 1 12 cs
  let cs ← literal '-' cs
  fixedField 2 1 last cs

/-- What follows the digits after a point, if there is a point. -/
def afterFraction : List Char → Option (List Char)
  | '.' :: c :: rest => if c.isDigit then some (rest.dropWhile Char.isDigit) else none
  | cs => some cs

/-- A time of a day, and what is left. The seconds may be missing. -/
def time (cs : List Char) : Option (List Char) := do
  let cs ← fixedField 2 0 23 cs
  let cs ← literal ':' cs
  let cs ← fixedField 2 0 59 cs
  match cs with
  | ':' :: cs => (fixedField 2 0 60 cs).bind afterFraction
  | cs => some cs

/-- An offset and nothing else. -/
def isOffset : List Char → Bool
  | ['Z'] => true
  | ['z'] => true
  | c :: cs => (c == '+' || c == '-') &&
    ((fixedField 2 0 23 cs).bind (literal ':') |>.bind (fixedField 2 0 59)) == some []
  | [] => false

/-- A day, a time, or both with or without an offset. -/
def isDateTime (cs : List Char) : Bool :=
  time cs == some [] ||
    match day cs with
    | none => false
    | some [] => true
    | some (c :: cs) => (c == 'T' || c == 't' || c == ' ') &&
      match time cs with
      | none => false
      | some rest => rest.isEmpty || isOffset rest

/-- A day or time as text, its letters in upper case. -/
def renderDateTime (cs : List Char) : String :=
  String.ofList (cs.map fun c => if c = ' ' then 'T' else c.toUpper)

/-- The value of a token without quotes. -/
def scalar? (cs : List Char) : Option Toml :=
  if cs = "true".toList then some (.boolean true)
  else if cs = "false".toList then some (.boolean false)
  else if isDateTime cs then some (.string (renderDateTime cs))
  else (integer? cs).or (float? cs)

end ContactCards.Toml
