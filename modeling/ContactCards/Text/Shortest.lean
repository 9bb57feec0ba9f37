/-!
Finite 64-bit binary numbers in the fewest decimal digits that read back as the same number. Of two
such decimals the nearer one counts, and of two equally near ones the greater.
-/

namespace ContactCards

/-- A finite number `m * 2 ^ q` that is not negative. The gap below a power of two is half as wide
as the gap above it. -/
structure Binary64 where
  m : Nat
  q : Int
  narrowBelow : Bool
  deriving DecidableEq, Repr

/-- A number `digits * 10 ^ exponent`. -/
structure Decimal where
  digits : Nat
  exponent : Int
  deriving DecidableEq, Repr

namespace Binary64

/-- The size of the finite number with the given bits. -/
def ofBits (bits : UInt64) : Binary64 :=
  let biased := (bits >>> 52 &&& 0x7FF).toNat
  let fraction := (bits &&& 0xFFFFFFFFFFFFF).toNat
  if biased = 0 then ⟨fraction, -1074, false⟩
  else ⟨0x10000000000000 + fraction, (biased : Int) - 1075, fraction = 0 ∧ 1 < biased⟩

/-- Compares `a * 10 ^ i` with `b * 2 ^ j`. -/
def compareScaled (a : Nat) (i : Int) (b : Nat) (j : Int) : Ordering :=
  compare (a * Nat.pow 10 i.toNat * Nat.pow 2 (-j).toNat)
    (b * Nat.pow 2 j.toNat * Nat.pow 10 (-i).toNat)

/-- A decimal lies among the reals that round to a number; halfway points belong to the even
neighbour. -/
def readsBack (x : Binary64) (d : Decimal) : Bool :=
  let low := if x.narrowBelow then 4 * x.m - 1 else 4 * x.m - 2
  let fromLow := compareScaled d.digits d.exponent low (x.q - 2)
  let toHigh := compareScaled d.digits d.exponent (4 * x.m + 2) (x.q - 2)
  (fromLow == .gt || fromLow == .eq && x.m % 2 == 0) &&
    (toHigh == .lt || toHigh == .eq && x.m % 2 == 0)

/-- The greatest multiple of `10 ^ i` that is not above a number. -/
def floorAt (x : Binary64) (i : Int) : Nat :=
  x.m * Nat.pow 2 x.q.toNat * Nat.pow 10 (-i).toNat /
    (Nat.pow 2 (-x.q).toNat * Nat.pow 10 i.toNat)

/-- The nearer to a number of its two neighbours among the multiples of `10 ^ i`. -/
def nearestAt (x : Binary64) (i : Int) : Decimal :=
  let below := x.floorAt i
  if compareScaled (2 * below + 1) i (2 * x.m) x.q == .gt then ⟨below, i⟩ else ⟨below + 1, i⟩

/-- The neighbour of a number that reads back, on the coarsest grid that has one; `steps` grids
are tried from `10 ^ i` on. -/
def shortestFrom (x : Binary64) : (steps : Nat) → (i : Int) → Decimal
  | 0, i => x.nearestAt i
  | steps + 1, i =>
    let nearest := x.nearestAt i
    let below := x.floorAt i
    if nearest.digits ≠ 0 ∧ x.readsBack nearest then nearest
    else if below ≠ 0 ∧ x.readsBack ⟨below, i⟩ then ⟨below, i⟩
    else if x.readsBack ⟨below + 1, i⟩ then ⟨below + 1, i⟩
    else x.shortestFrom steps (i - 1)

/-- The shortest decimal of a number that is not zero. -/
def shortest (x : Binary64) : Decimal :=
  x.shortestFrom 650 309

end Binary64

/-- A decimal without an exponent, and without a point if it is whole. -/
def Decimal.render (d : Decimal) : String :=
  let digits := Nat.toDigits 10 d.digits
  if 0 ≤ d.exponent then String.ofList (digits ++ List.replicate d.exponent.toNat '0')
  else
    let places := (-d.exponent).toNat
    let padded := List.replicate (places + 1 - digits.length) '0' ++ digits
    let (whole, fraction) := padded.splitAt (padded.length - places)
    String.ofList (whole ++ '.' :: fraction)

/-- A 64-bit number as text. -/
def renderFloat (x : Float) : String :=
  if x.isNaN then "NaN"
  else
    let sign := if x.toBits >>> 63 = 1 then "-" else ""
    if x.isInf then sign ++ "inf"
    else
      let size := Binary64.ofBits x.toBits
      sign ++ if size.m = 0 then "0" else size.shortest.render

end ContactCards
