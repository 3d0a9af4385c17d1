import TypedRelations.Proofs.Constraint.Bounds
import Mathlib.Data.EReal.Basic
import Mathlib.Data.Int.ConditionallyCompleteOrder
import Mathlib.Tactic.FieldSimp

/-!
# The numbers that encodings stand for

Comparisons of numbers count steps of `2^(-1074)`. Here an encoding is read field by field, as the
binary64 format defines it, into a real number or an infinity. Counting steps is faithful to this
reading, so a value and a bound are ordered as the numbers that they stand for, and the floor of a
bound within the range of the integers is cast without loss (`compareNumber?_exact`).
-/

namespace TypedRelations

namespace Binary64

variable {x : Binary64}

/-- The highest bit, which is set in negative numbers. -/
def signField (x : Binary64) : Nat := x.bits.toNat / 2 ^ 63

/-- The eleven bits below the sign. -/
def exponentField (x : Binary64) : Nat := x.bits.toNat / 2 ^ 52 % 2 ^ 11

/-- The fifty-two lowest bits. -/
def fractionField (x : Binary64) : Nat := x.bits.toNat % 2 ^ 52

/-- What an encoding stands for whose exponent field is not full. With an empty exponent field the
fraction has no leading bit. -/
noncomputable def finiteValue (x : Binary64) : ℝ :=
  if x.exponentField = 0 then
    (-1) ^ x.signField * (x.fractionField / 2 ^ 52) * 2 ^ (-1022 : ℤ)
  else
    (-1) ^ x.signField * (1 + x.fractionField / 2 ^ 52) * 2 ^ ((x.exponentField : ℤ) - 1023)

/-- The number that an encoding stands for; none for NaN. A full exponent field marks the two
infinities and NaN. -/
noncomputable def real? (x : Binary64) : Option EReal :=
  if x.exponentField = 2047 then
    if x.fractionField = 0 then some (if x.signField = 1 then ⊥ else ⊤) else none
  else some x.finiteValue

theorem fractionCount_eq : fractionCount = 4503599627370496 := by decide

theorem signBit_eq : signBit = 9223372036854775808 := by decide

theorem signField_eq (x : Binary64) : x.signField = if x.isNegative then 1 else 0 := by
  have bound : x.bits.toNat < 2 ^ 64 := x.bits.toNat_lt
  rw [signField, isNegative, signBit_eq]
  simp only [decide_eq_true_eq]
  split <;> omega

theorem exponentField_eq (x : Binary64) : x.exponentField = exponentBits x.magnitudeBits := by
  rw [exponentField, exponentBits, magnitudeBits, fractionCount_eq, signBit_eq]
  omega

theorem fractionField_eq (x : Binary64) : x.fractionField = fractionBits x.magnitudeBits := by
  rw [fractionField, fractionBits, magnitudeBits, fractionCount_eq, signBit_eq]
  omega

theorem isNaN_iff : x.isNaN = true ↔ x.exponentField = 2047 ∧ x.fractionField ≠ 0 := by
  have bound : x.bits.toNat < 2 ^ 64 := x.bits.toNat_lt
  rw [isNaN, decide_eq_true_iff, infinityMagnitude, magnitudeBits, fractionCount_eq, signBit_eq,
    exponentField, fractionField]
  omega

theorem magnitudeBits_eq_infinity_iff :
    x.magnitudeBits = infinityMagnitude ↔ x.exponentField = 2047 ∧ x.fractionField = 0 := by
  have bound : x.bits.toNat < 2 ^ 64 := x.bits.toNat_lt
  rw [infinityMagnitude, magnitudeBits, fractionCount_eq, signBit_eq, exponentField, fractionField]
  omega

theorem real?_eq_none_iff : x.real? = none ↔ x.isNaN = true := by
  rw [isNaN_iff, real?]
  split
  next full =>
    split
    next empty => simp [empty]
    next filled => simp [full, filled]
  next partly => simp [partly]

/-! ## Counting steps -/

/-- The number of steps from zero to infinity. -/
def infinityUnits : Int := unitsOfMagnitude infinityMagnitude

theorem infinityUnits_pos : 0 < infinityUnits := by
  rw [infinityUnits, unitsOfMagnitude_infinity]
  exact Int.natCast_pos.mpr (Nat.mul_pos (powerOfTwo_pos 52) (powerOfTwo_pos 2046))

/-- The number at a given count of steps. It is infinite from a certain count on. -/
noncomputable def ofUnits (count : Int) : EReal :=
  if infinityUnits ≤ count then ⊤
  else if count ≤ -infinityUnits then ⊥
  else ((count / 2 ^ 1074 : ℝ) : EReal)

/-- Up to the infinities, numbers are ordered as their counts are. -/
theorem strictMonoOn_ofUnits :
    StrictMonoOn ofUnits (Set.Icc (-infinityUnits) infinityUnits) := by
  intro first firstBounds second secondBounds less
  rw [Set.mem_Icc] at firstBounds secondBounds
  rw [ofUnits, ofUnits, if_neg (by omega), if_neg (show ¬ second ≤ -infinityUnits by omega)]
  have scale : (0 : ℝ) < 2 ^ 1074 := by positivity
  by_cases lowest : first ≤ -infinityUnits
  · rw [if_pos lowest]
    split
    · exact bot_lt_top
    · exact EReal.bot_lt_coe _
  · rw [if_neg lowest]
    split
    · exact EReal.coe_lt_top _
    · rw [EReal.coe_lt_coe_iff]
      exact div_lt_div_of_pos_right (Int.cast_lt.mpr less) scale

/-- A number lies between the infinities. -/
theorem units_mem_Icc (number : x.isNaN = false) :
    x.units ∈ Set.Icc (-infinityUnits) infinityUnits := by
  have bounded : x.magnitudeBits ≤ infinityMagnitude :=
    Nat.le_of_not_lt (of_decide_eq_false number)
  have within := unitsOfMagnitude_le bounded
  rw [Set.mem_Icc, units, infinityUnits]
  split <;> omega

theorem units_eq_infinity (infinite : x.magnitudeBits = infinityMagnitude) :
    x.units = if x.isNegative then -infinityUnits else infinityUnits := by
  rw [units, infinite, infinityUnits]

/-- A number that is not infinite lies strictly between the infinities. -/
theorem units_mem_Ioo (number : x.isNaN = false) (finite : x.magnitudeBits ≠ infinityMagnitude) :
    x.units ∈ Set.Ioo (-infinityUnits) infinityUnits := by
  have bounded : x.magnitudeBits ≤ infinityMagnitude :=
    Nat.le_of_not_lt (of_decide_eq_false number)
  have within := unitsOfMagnitude_lt (Nat.lt_of_le_of_ne bounded finite)
  rw [Set.mem_Ioo, units, infinityUnits]
  split <;> omega

theorem ofUnits_of_finite {count : Int} (finite : count ∈ Set.Ioo (-infinityUnits) infinityUnits) :
    ofUnits count = ((count / 2 ^ 1074 : ℝ) : EReal) := by
  rw [Set.mem_Ioo] at finite
  rw [ofUnits, if_neg (by omega), if_neg (by omega)]

theorem eq_of_ofUnits {count : Int} {number : ℝ} (finite : ofUnits count = (number : EReal)) :
    number = count / 2 ^ 1074 := by
  rw [ofUnits] at finite
  split at finite
  · exact absurd finite.symm (EReal.coe_ne_top number)
  · split at finite
    · exact absurd finite.symm (EReal.coe_ne_bot number)
    · exact (EReal.coe_eq_coe_iff.mp finite).symm

theorem cast_units (x : Binary64) :
    (x.units : ℝ) = (-1) ^ x.signField * unitsOfMagnitude x.magnitudeBits := by
  rw [signField_eq, units]
  cases x.isNegative with
  | true => simp
  | false => simp

theorem cast_powerOfTwo (exponent : ℕ) : (powerOfTwo exponent : ℝ) = 2 ^ exponent :=
  Nat.cast_pow 2 exponent

/-- Scaling by the number of steps turns the significand and the exponent of the format into
integers. -/
theorem scale_mul (sign significand : ℝ) (exponent : ℕ) :
    sign * (significand / 2 ^ 52) * 2 ^ ((exponent : ℤ) - 1022) * 2 ^ 1074 =
      sign * (significand * 2 ^ exponent) := by
  have powers : (2 : ℝ) ^ ((exponent : ℤ) - 1022) * 2 ^ 1074 = 2 ^ 52 * 2 ^ exponent := by
    rw [← zpow_natCast 2 1074, ← zpow_add₀ two_ne_zero, ← zpow_natCast 2 52,
      ← zpow_natCast 2 exponent, ← zpow_add₀ two_ne_zero]
    congr 1
    push_cast
    ring
  rw [mul_assoc, powers]
  field_simp

/-- Read by its fields, a number is its count of steps. -/
theorem finiteValue_eq (x : Binary64) : x.finiteValue = x.units / 2 ^ 1074 := by
  rw [eq_div_iff (by positivity), cast_units, unitsOfMagnitude, ← exponentField_eq,
    ← fractionField_eq, finiteValue]
  by_cases subnormal : x.exponentField = 0
  · have scaled := scale_mul ((-1) ^ x.signField) x.fractionField 0
    rw [if_pos subnormal, if_pos subnormal]
    simpa using scaled
  · obtain ⟨exponent, shifted⟩ := Nat.exists_eq_succ_of_ne_zero subnormal
    have scaled := scale_mul ((-1) ^ x.signField) (2 ^ 52 + x.fractionField) exponent
    have leading : (fractionCount : ℝ) = 2 ^ 52 := by
      rw [fractionCount_eq]
      norm_num
    have significand :
        ((2 : ℝ) ^ 52 + x.fractionField) / 2 ^ 52 = 1 + x.fractionField / 2 ^ 52 := by
      field_simp
    have biased : ((exponent.succ : ℕ) : ℤ) - 1023 = (exponent : ℤ) - 1022 := by
      omega
    rw [significand] at scaled
    rw [if_neg subnormal, if_neg subnormal, shifted, biased, scaled, Nat.succ_sub_one,
      Nat.cast_mul, Nat.cast_add, leading, cast_powerOfTwo]

/-- The number that an encoding stands for lies at its count of steps. -/
theorem real?_eq (number : x.isNaN = false) : x.real? = some (ofUnits x.units) := by
  by_cases infinite : x.magnitudeBits = infinityMagnitude
  · obtain ⟨full, empty⟩ := magnitudeBits_eq_infinity_iff.mp infinite
    rw [real?, if_pos full, if_pos empty, units_eq_infinity infinite, signField_eq]
    cases x.isNegative with
    | true => simp [ofUnits, infinityUnits_pos]
    | false => simp [ofUnits]
  · have partly : x.exponentField ≠ 2047 := by
      intro full
      by_cases empty : x.fractionField = 0
      · exact infinite (magnitudeBits_eq_infinity_iff.mpr ⟨full, empty⟩)
      · rw [isNaN_iff.mpr ⟨full, empty⟩] at number
        nomatch number
    rw [real?, if_neg partly, finiteValue_eq, ofUnits_of_finite (units_mem_Ioo number infinite)]

/-- Two encodings are the same for the total order if they stand for one number, or if both are
NaN. -/
theorem sameRank_iff_real?_eq {y : Binary64} : x.sameRank y = true ↔ x.real? = y.real? := by
  rw [sameRank_iff]
  cases special : x.isNaN with
  | true =>
      rw [real?_eq_none_iff.mpr special, eq_comm, @eq_comm _ none, real?_eq_none_iff]
      simp
  | false =>
      rw [real?_eq special]
      cases other : y.isNaN with
      | true => simp [real?_eq_none_iff.mpr other]
      | false =>
          rw [real?_eq other, Option.some.injEq, strictMonoOn_ofUnits.injOn.eq_iff
            (units_mem_Icc special) (units_mem_Icc other)]
          simp

/-- Every integer of a value is far from the infinities. -/
theorem mul_unitsPerOne_mem_Ioo (integer : Int64) :
    integer.toInt * unitsPerOne ∈ Set.Ioo (-infinityUnits) infinityUnits := by
  have least := Int64.le_toInt integer
  have greatest := Int64.toInt_lt integer
  have size : (powerOfTwo 63 : Int) = 2 ^ 63 := by decide
  have scaledLeast : -(powerOfTwo 63 : Int) * unitsPerOne ≤ integer.toInt * unitsPerOne :=
    Int.mul_le_mul_of_nonneg_right (by omega) (Int.le_of_lt unitsPerOne_pos)
  have scaledGreatest : integer.toInt * unitsPerOne < (powerOfTwo 63 : Int) * unitsPerOne :=
    Int.mul_lt_mul_of_pos_right (by omega) unitsPerOne_pos
  have within : ((powerOfTwo 63 : Nat) : Int) * (unitsPerOne : Nat) < infinityUnits := by
    rw [infinityUnits, unitsOfMagnitude_infinity, fractionCount, unitsPerOne, ← powerOfTwo_add,
      ← Int.natCast_mul, ← powerOfTwo_add]
    exact Int.ofNat_lt.mpr (powerOfTwo_lt (by decide))
  rw [Int.neg_mul] at scaledLeast
  exact ⟨by omega, by omega⟩

theorem cast_unitsPerOne : ((unitsPerOne : Int) : ℝ) = 2 ^ 1074 := by
  rw [Int.cast_natCast, unitsPerOne, cast_powerOfTwo]

/-- The floor of a number is the greatest integer that is not above it. -/
theorem floor_eq {number : ℝ} (finite : x.real? = some (number : EReal)) :
    x.floor = ⌊number⌋ := by
  have isNumber : x.isNaN = false := by
    rw [Bool.eq_false_iff, ne_eq, ← real?_eq_none_iff, finite]
    simp
  rw [real?_eq isNumber] at finite
  have steps := eq_of_ofUnits (Option.some.inj finite)
  have below : x.floor * unitsPerOne ≤ x.units :=
    Int.ediv_mul_le x.units (Int.ne_of_gt unitsPerOne_pos)
  have above : x.units < (x.floor + 1) * unitsPerOne :=
    Int.lt_ediv_add_one_mul_self x.units unitsPerOne_pos
  have scale : (0 : ℝ) < 2 ^ 1074 := by positivity
  rw [eq_comm, Int.floor_eq_iff, steps, le_div_iff₀ scale, div_lt_iff₀ scale, ← cast_unitsPerOne]
  exact ⟨by exact_mod_cast below, by exact_mod_cast above⟩

end Binary64

open Binary64 (ofUnits infinityUnits unitsPerOne)

namespace Value

/-- The number that a value is; none for NaN and for what is no number. -/
noncomputable def real? : Value → Option EReal
  | .int integer => some ((integer.toInt : ℝ) : EReal)
  | .float number => number.real?
  | _ => none

theorem real?_eq (value : Value) : value.real? = value.units?.map ofUnits := by
  cases value with
  | int integer =>
      have scale : (2 : ℝ) ^ 1074 ≠ 0 := by positivity
      rw [real?, units?, Option.map_some, Binary64.ofUnits_of_finite
        (Binary64.mul_unitsPerOne_mem_Ioo integer), Int.cast_mul, Binary64.cast_unitsPerOne,
        mul_div_cancel_right₀ _ scale]
  | float number =>
      cases special : number.isNaN with
      | true => simp [real?, units?, special, Binary64.real?_eq_none_iff.mpr special]
      | false => simp [real?, units?, special, Binary64.real?_eq special]
  | null | str value | bool value => rfl

theorem units?_mem_Icc {value : Value} {count : Int} (counted : value.units? = some count) :
    count ∈ Set.Icc (-infinityUnits) infinityUnits := by
  cases value with
  | int integer =>
      rw [← Option.some.inj counted]
      exact Set.Ioo_subset_Icc_self (Binary64.mul_unitsPerOne_mem_Ioo integer)
  | float number =>
      cases special : number.isNaN with
      | true => simp [units?, special] at counted
      | false =>
          rw [units?, special] at counted
          rw [← Option.some.inj counted]
          exact Binary64.units_mem_Icc special
  | null | str value | bool value => simp [units?] at counted

/-- The comparison with a bound is that of the two numbers of steps. -/
theorem compareNumber?_eq_bind (value : Value) (bound : Binary64) :
    value.compareNumber? bound = value.units?.bind fun count =>
      (Value.float bound).units?.map fun limit => compare count limit := by
  rw [compareNumber?_eq, units?.eq_2]
  cases bound.isNaN with
  | true => simp
  | false => cases value.units? <;> simp

/-- A value and a bound are compared as the numbers that they stand for. The last part is about the
cast in `Binary64.compareInt`: from `-2^63` up to `2^63` it gives the floor of the bound, so that
neither wrapping around nor stopping at the limits of sixty-four bits shows. -/
theorem compareNumber?_exact (value : Value) (bound : Binary64) :
    (value.compareNumber? bound = none ↔ value.real? = none ∨ bound.real? = none) ∧
    (∀ number limit, value.real? = some number → bound.real? = some limit →
      ∃ order, value.compareNumber? bound = some order ∧ order.Compares number limit) ∧
    (∀ limit : ℝ, bound.real? = some (limit : EReal) → -2 ^ 63 ≤ limit → limit < 2 ^ 63 →
      (Int64.ofInt bound.floor).toInt = ⌊limit⌋) := by
  have boundExact : bound.real? = (Value.float bound).units?.map ofUnits :=
    real?_eq (.float bound)
  refine ⟨?_, ?_, ?_⟩
  · rw [compareNumber?_eq_bind, real?_eq, boundExact]
    cases value.units? <;> cases (Value.float bound).units? <;> simp
  · intro number limit isNumber isLimit
    rw [real?_eq, Option.map_eq_some_iff] at isNumber
    rw [boundExact, Option.map_eq_some_iff] at isLimit
    obtain ⟨count, counted, rfl⟩ := isNumber
    obtain ⟨limitCount, limitCounted, rfl⟩ := isLimit
    have compared : value.compareNumber? bound = some (compare count limitCount) := by
      rw [compareNumber?_eq_bind, counted, limitCounted]
      rfl
    refine ⟨compare count limitCount, compared, ?_⟩
    rw [Binary64.strictMonoOn_ofUnits.compares (units?_mem_Icc counted)
      (units?_mem_Icc limitCounted), ← compare_iff]
  · intro limit isLimit above below
    have least : -2 ^ 63 ≤ ⌊limit⌋ := Int.le_floor.mpr (by exact_mod_cast above)
    have greatest : ⌊limit⌋ < 2 ^ 63 := Int.floor_lt.mpr (by exact_mod_cast below)
    rw [Binary64.floor_eq isLimit]
    exact Int64.toInt_ofInt_of_le least greatest

/-- The number `2^53`. -/
def twoToThe53 : Binary64 := ⟨0x4340000000000000⟩

/-- The number `-2^63`, which is the least integer of a value. -/
def minusTwoToThe63 : Binary64 := ⟨0xC3E0000000000000⟩

theorem real?_twoToThe53 : twoToThe53.real? = some ((2 ^ 53 : ℝ) : EReal) := by
  have exponent : twoToThe53.exponentField = 1076 := by decide
  have fraction : twoToThe53.fractionField = 0 := by decide
  have sign : twoToThe53.signField = 0 := by decide
  rw [Binary64.real?, Binary64.finiteValue, exponent, fraction, sign]
  norm_num

theorem real?_minusTwoToThe63 : minusTwoToThe63.real? = some ((-2 ^ 63 : ℝ) : EReal) := by
  have exponent : minusTwoToThe63.exponentField = 1086 := by decide
  have fraction : minusTwoToThe63.fractionField = 0 := by decide
  have sign : minusTwoToThe63.signField = 1 := by decide
  rw [Binary64.real?, Binary64.finiteValue, exponent, fraction, sign]
  norm_num

/-- The integer `2^53 + 1` is above `2^53`, although no encoding stands for it, and the least
integer is what its own encoding is cast to. -/
theorem compareNumber?_twoToThe53 :
    (Value.int 9007199254740993).compareNumber? twoToThe53 = some .gt ∧
      Ordering.gt.Compares (((9007199254740993 : Int64).toInt : ℝ) : EReal)
        ((2 ^ 53 : ℝ) : EReal) ∧
      (Int64.ofInt minusTwoToThe63.floor).toInt = -2 ^ 63 := by
  have compared : (Value.int 9007199254740993).compareNumber? twoToThe53 = some .gt := by
    decide +kernel
  obtain ⟨order, computed, compares⟩ :=
    (compareNumber?_exact (.int 9007199254740993) twoToThe53).2.1 _ _ rfl real?_twoToThe53
  rw [compared] at computed
  have cast := (compareNumber?_exact .null minusTwoToThe63).2.2 _ real?_minusTwoToThe63
    (le_refl _) (by norm_num)
  refine ⟨compared, Option.some.inj computed ▸ compares, ?_⟩
  rw [cast]
  norm_num

end Value

end TypedRelations
