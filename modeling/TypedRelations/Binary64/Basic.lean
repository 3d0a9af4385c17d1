/-!
# Binary64 numbers as data

A floating-point number is kept as the bits of its encoding and answers everything in integer
arithmetic: a finite number is a whole multiple of `2^(-1074)`, and `Binary64.units` counts these.
`compare?` is the numeric comparison, in which NaN is unrelated to everything, and `rankCompare` is
the total order in which NaN is above all else.
-/

namespace TypedRelations

/-- A binary64 floating-point number, given by its encoding: one sign bit, eleven exponent bits
and fifty-two fraction bits. -/
structure Binary64 where
  bits : UInt64
  deriving Repr, Inhabited

namespace Binary64

/-- A power of two, which all the scales of the encoding are. -/
def powerOfTwo (exponent : Nat) : Nat := Nat.pow 2 exponent

/-- How many fractions there are to every exponent. -/
def fractionCount : Nat := powerOfTwo 52

/-- The encoding of the negative zero, which is the sign bit alone. -/
def signBit : Nat := powerOfTwo 63

/-- The exponent field with every bit set and an empty fraction: the magnitude of infinity. -/
def infinityMagnitude : Nat := 2047 * fractionCount

/-- The encoding without its sign bit. -/
def magnitudeBits (x : Binary64) : Nat := x.bits.toNat % signBit

/-- The sign bit is set. The negative zero is negative in this sense. -/
def isNegative (x : Binary64) : Bool := decide (signBit ≤ x.bits.toNat)

/-- The encoding stands for no number. -/
def isNaN (x : Binary64) : Bool := decide (infinityMagnitude < x.magnitudeBits)

/-- The encoding stands for one of the two infinities. -/
def isInfinite (x : Binary64) : Bool := x.magnitudeBits == infinityMagnitude

/-- The eleven bits of an unsigned encoding that scale the fraction. -/
def exponentBits (magnitude : Nat) : Nat := magnitude / fractionCount

/-- The fifty-two bits of an unsigned encoding below the exponent. -/
def fractionBits (magnitude : Nat) : Nat := magnitude % fractionCount

/-- The number `magnitude` encodes, counted in steps of `2^(-1074)`, the smallest positive number.
A zero exponent marks the evenly spaced numbers next to zero; any other exponent adds the
leading bit that the fraction leaves out. -/
def unitsOfMagnitude (magnitude : Nat) : Nat :=
  if exponentBits magnitude = 0 then fractionBits magnitude
  else (fractionCount + fractionBits magnitude) * powerOfTwo (exponentBits magnitude - 1)

/-- The exact value in steps of `2^(-1074)`. Infinity has the value `2^1024` here, the first
power of two above every finite number, which orders it as infinity should be. -/
def units (x : Binary64) : Int :=
  if x.isNegative then -(unitsOfMagnitude x.magnitudeBits : Int)
  else (unitsOfMagnitude x.magnitudeBits : Int)

/-- How many steps make up the number one. -/
def unitsPerOne : Nat := powerOfTwo 1074

/-- The largest integer that is not above the number. -/
def floor (x : Binary64) : Int := x.units / unitsPerOne

/-- The order of two numbers; none if either is not a number. -/
def compare? (x y : Binary64) : Option Ordering :=
  if x.isNaN || y.isNaN then none else some (compare x.units y.units)

/-- The numeric "less than", false on NaN. -/
instance : LT Binary64 := ⟨fun x y => x.compare? y = some .lt⟩

/-- The numeric "at most", false on NaN. -/
instance : LE Binary64 := ⟨fun x y => x.compare? y = some .lt ∨ x.compare? y = some .eq⟩

instance (x y : Binary64) : Decidable (x < y) :=
  inferInstanceAs (Decidable (x.compare? y = some .lt))

instance (x y : Binary64) : Decidable (x ≤ y) :=
  inferInstanceAs (Decidable (x.compare? y = some .lt ∨ x.compare? y = some .eq))

/-- The two numbers are numerically equal: the zeros are, and NaN equals nothing. -/
def numericallyEqual (x y : Binary64) : Bool := x.compare? y == some .eq

/-- The numeric order is the order of the exact values, away from NaN. -/
theorem lt_iff {x y : Binary64} :
    x < y ↔ x.isNaN = false ∧ y.isNaN = false ∧ x.units < y.units := by
  show x.compare? y = some .lt ↔ _
  cases hx : x.isNaN <;> cases hy : y.isNaN <;> simp [compare?, hx, hy, Std.compare_eq_lt]

/-- The weak numeric order is the weak order of the exact values, away from NaN. -/
theorem le_iff {x y : Binary64} :
    x ≤ y ↔ x.isNaN = false ∧ y.isNaN = false ∧ x.units ≤ y.units := by
  show x.compare? y = some .lt ∨ x.compare? y = some .eq ↔ _
  cases hx : x.isNaN <;> cases hy : y.isNaN <;>
    simp [compare?, hx, hy, Std.compare_eq_lt, Int.le_iff_lt_or_eq]

/-- The smaller number; a NaN gives way to the other operand, and of two equal numbers, such as
the two zeros, the second is taken. -/
protected def min (x y : Binary64) : Binary64 :=
  if y.isNaN then x else if x < y then x else y

/-- The larger number; a NaN gives way to the other operand, and of two equal numbers, such as the
two zeros, the second is taken. -/
protected def max (x y : Binary64) : Binary64 :=
  if y.isNaN then x else if y < x then x else y

/-- The order of an integer and a number, without rounding the integer; none if the number is
NaN. A number from `2^63` on is above every integer, and one below `-2^63` is below every integer.
In between the integer is compared with the number's floor, and an integer equal to the floor lies
below a number that has a fraction.

The two guards may test the floor in place of the number, as both limits are integers. What passes
them is finite with a floor from `-2^63` up to `2^63 - 1`. Two things are exact there that need not
be elsewhere: the floor of a number of this format is again one of this format, so that no rounding
comes in, and `Int64.ofInt`, which wraps around, gives the integer itself, as a cast that stops at
the least and the greatest integer does. -/
def compareInt (bound : Binary64) (integer : Int64) : Option Ordering :=
  if bound.isNaN then none
  else if (signBit : Int) ≤ bound.floor then some .lt
  else if bound.floor < -(signBit : Int) then some .gt
  else
    match compare integer.toInt (Int64.ofInt bound.floor).toInt with
    | .eq => if bound.floor * unitsPerOne < bound.units then some .lt else some .eq
    | order => some order

/-- A key for the total order: the exact value, and for every NaN one key above infinity. -/
def rank (x : Binary64) : Int :=
  if x.isNaN then unitsOfMagnitude infinityMagnitude + 1 else x.units

/-- The total order of numbers in which NaN is above everything and equal to NaN. -/
def rankCompare (x y : Binary64) : Ordering := compare x.rank y.rank

/-- The two numbers are the same for the total order: all NaNs are one, and so are the zeros. -/
def sameRank (x y : Binary64) : Bool := x.rank == y.rank

/-- The total order and its equality agree. -/
theorem rankCompare_eq_eq {x y : Binary64} : x.rankCompare y = .eq ↔ x.sameRank y = true := by
  simp [rankCompare, sameRank]

end Binary64

end TypedRelations
