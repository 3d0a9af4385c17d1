import TypedRelations.Binary64.Basic

/-!
# The nearest binary64 number

A rational number between two neighbouring binary64 numbers is read as the nearer of them, and one
that is exactly halfway as the neighbour with an even fraction. What is too large becomes infinity,
and what is too small becomes zero. All the arithmetic is exact, on natural numbers.
-/

namespace TypedRelations.Binary64

/-- A quotient rounded to the nearest natural number; a quotient halfway between two goes to the
even one. -/
def roundQuotient (numerator denominator : Nat) : Nat :=
  let quotient := numerator / denominator
  let remainder := numerator % denominator
  if 2 * remainder < denominator then quotient
  else if denominator < 2 * remainder then quotient + 1
  else if quotient % 2 = 0 then quotient
  else quotient + 1

/-- The encoding, without a sign, of the number nearest to `numerator / denominator`. The quotient
is taken in steps of `2^(-1074)` and cut to fifty-three significant bits. Rounding up to the next
power of two carries from the fraction into the exponent, which is what the encoding needs. -/
def nearestMagnitude (numerator denominator : Nat) : Nat :=
  let scaled := numerator * unitsPerOne
  let shift := (scaled / denominator).log2 - 52
  let significand := roundQuotient scaled (denominator * powerOfTwo shift)
  min (shift * fractionCount + significand) infinityMagnitude

/-- The number with the given sign and unsigned encoding. -/
def ofMagnitude (negative : Bool) (magnitude : Nat) : Binary64 :=
  ⟨UInt64.ofNat (if negative then signBit + magnitude else magnitude)⟩

/-- A power of ten. -/
def powerOfTen (exponent : Nat) : Nat := Nat.pow 10 exponent

/-- How many decimal digits a natural number is written with. -/
def digitCount (number : Nat) : Nat := (Nat.toDigits 10 number).length

/-- The number nearest to `digits * 10^exponent`, with a sign that also zero carries. Numbers from
`10^310` on are infinite and numbers below `10^(-330)` are zero, so an exponent of any length is
settled without raising ten to it. -/
def ofDecimal (negative : Bool) (digits : Nat) (exponent : Int) : Binary64 :=
  let leading := (digitCount digits : Int) + exponent
  ofMagnitude negative <|
    if digits = 0 ∨ leading < -330 then 0
    else if 311 ≤ leading then infinityMagnitude
    else nearestMagnitude (digits * powerOfTen exponent.toNat) (powerOfTen (-exponent).toNat)

/-- The number nearest to an integer. -/
def ofInt (integer : Int) : Binary64 :=
  ofMagnitude (decide (integer < 0)) (nearestMagnitude integer.natAbs 1)

instance (literal : Nat) : OfNat Binary64 literal := ⟨ofInt literal⟩

end TypedRelations.Binary64
