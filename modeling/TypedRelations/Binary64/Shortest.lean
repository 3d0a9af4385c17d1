import TypedRelations.Binary64.Nearest

/-!
# The shortest decimal text of a binary64 number

A number is written with the fewest significant digits that are read back as that number, and among
equally short texts with the one nearest to it. These decimals lie between the midpoints to the two
neighbours. If any with a given count of digits does, then one of the two next to the number does,
so these two are tried for one digit, two digits and so on.
-/

namespace TypedRelations.Binary64

/-- The decimals that are read as one number: the number and its distances to the midpoints
below and above, all in quarters of `2^(-1074)`, and whether the midpoints belong to it. -/
structure RoundingInterval where
  centre : Nat
  below : Nat
  above : Nat
  closed : Bool
  deriving Repr

/-- The decimals that are read as the number with this unsigned encoding. Right above a power of
two the lower neighbour is at half the distance of the upper one. A midpoint is rounded to the
even neighbour. -/
def RoundingInterval.ofMagnitude (magnitude : Nat) : RoundingInterval :=
  let spacing := powerOfTwo (exponentBits magnitude - 1)
  { centre := 4 * unitsOfMagnitude magnitude
    below :=
      if fractionBits magnitude = 0 ∧ 1 < exponentBits magnitude then spacing else 2 * spacing
    above := 2 * spacing
    closed := fractionBits magnitude % 2 == 0 }

/-- A decimal number `digits * 10^exponent`. -/
structure ShortDecimal where
  digits : Nat
  exponent : Int
  deriving BEq, DecidableEq, Repr

namespace RoundingInterval

/-- A point of the line, scaled like the interval, is read as the interval's number. -/
def containsScaled (interval : RoundingInterval) (scale point : Nat) : Bool :=
  let low := (interval.centre - interval.below) * scale
  let high := (interval.centre + interval.above) * scale
  if interval.closed then decide (low ≤ point ∧ point ≤ high)
  else decide (low < point ∧ point < high)

/-- The decimal with the given exponent that is read as the interval's number and is nearest to
it; of two equally near ones the larger. Only the neighbours of the number are candidates. -/
def decimalWith? (interval : RoundingInterval) (exponent : Int) : Option ShortDecimal :=
  let scale := powerOfTen (-exponent).toNat
  let spacing := powerOfTen exponent.toNat * (4 * unitsPerOne)
  let centre := interval.centre * scale
  let lower := centre / spacing
  let upper := lower + 1
  let lowerFits := interval.containsScaled scale (lower * spacing)
  let upperFits := interval.containsScaled scale (upper * spacing)
  let lowerIsNearer := decide (centre - lower * spacing < upper * spacing - centre)
  if lowerFits && (!upperFits || lowerIsNearer) then some ⟨lower, exponent⟩
  else if upperFits then some ⟨upper, exponent⟩
  else none

/-- The least power of ten above the number, which is given in steps of `2^(-1074)`. -/
def leadingExponent (units : Nat) : Int :=
  if unitsPerOne ≤ units then digitCount (units / unitsPerOne)
  else 1 - digitCount ((unitsPerOne - 1) / units)

/-- The decimal with the fewest digits in the interval. Seventeen digits always suffice. -/
def shortest (interval : RoundingInterval) : ShortDecimal :=
  let leading := leadingExponent (interval.centre / 4)
  ((List.range 17).findSome? fun index =>
    interval.decimalWith? (leading - (index + 1 : Nat))).getD ⟨0, 0⟩

end RoundingInterval

/-- A decimal laid out by position. Zeros that end the fraction are left out, and so is the
decimal point if no fraction remains. -/
def ShortDecimal.positional (decimal : ShortDecimal) : List Char :=
  let places := (-decimal.exponent).toNat
  let digits := Nat.toDigits 10 (decimal.digits * powerOfTen decimal.exponent.toNat)
  let padded := List.replicate (places + 1 - digits.length) '0' ++ digits
  let whole := padded.take (padded.length - places)
  let fraction := (padded.drop (padded.length - places)).reverse.dropWhile (· == '0')
  if fraction.isEmpty then whole else whole ++ '.' :: fraction.reverse

/-- The text of a number without its sign. -/
def magnitudeText (magnitude : Nat) : String :=
  if magnitude = infinityMagnitude then "inf"
  else if magnitude = 0 then "0"
  else String.ofList (RoundingInterval.ofMagnitude magnitude).shortest.positional

/-- The shortest text of a number; the sign of a negative zero is written. -/
def text (x : Binary64) : String :=
  if x.isNaN then "NaN"
  else if x.isNegative then "-" ++ magnitudeText x.magnitudeBits
  else magnitudeText x.magnitudeBits

end TypedRelations.Binary64
