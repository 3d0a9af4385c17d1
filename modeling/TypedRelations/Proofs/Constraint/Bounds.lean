import TypedRelations.Constraint
import TypedRelations.Proofs.Binary64.Order

/-!
# Numbers against bounds

A value is compared with a bound in two ways, one for integers and one for numbers, and the one for
integers works around the bound's floor. Both come to the comparison of two integers, the exact
values in steps of `2^(-1074)`. `compareNumber?_eq` says so, and the two tests on bounds follow.
-/

namespace TypedRelations

namespace Binary64

theorem unitsPerOne_pos : (0 : Int) < unitsPerOne :=
  Int.ofNat_lt.mpr (powerOfTwo_pos 1074)

/-- Scaling an integer and comparing it comes to comparing it with the floor first. The exact
value lies between its floor and the next integer. -/
theorem compare_scaled {scale exact floor : Int} (positive : 0 < scale)
    (below : floor * scale ≤ exact) (above : exact < (floor + 1) * scale) (integer : Int) :
    compare (integer * scale) exact =
      match compare integer floor with
      | .eq => if floor * scale < exact then .lt else .eq
      | order => order := by
  rcases Int.lt_trichotomy integer floor with less | same | greater
  · have scaled : integer * scale < floor * scale := Int.mul_lt_mul_of_pos_right less positive
    rw [Int.compare_eq_lt.mpr less, Int.compare_eq_lt.mpr (by omega)]
  · rw [Int.compare_eq_eq.mpr same, same]
    by_cases fraction : floor * scale < exact
    · rw [if_pos fraction, Int.compare_eq_lt.mpr fraction]
    · rw [if_neg fraction, Int.compare_eq_eq.mpr (by omega)]
  · have scaled : (floor + 1) * scale ≤ integer * scale :=
      Int.mul_le_mul_of_nonneg_right greater (Int.le_of_lt positive)
    rw [Int.compare_eq_gt.mpr greater, Int.compare_eq_gt.mpr (by omega)]

/-- Comparing an integer with a number is exact. -/
theorem compareInt_eq (bound : Binary64) (integer : Int64) :
    bound.compareInt integer =
      if bound.isNaN then none
      else some (compare (integer.toInt * unitsPerOne) bound.units) := by
  rw [compareInt]
  split
  · rfl
  · have least := Int64.le_toInt integer
    have greatest := Int64.toInt_lt integer
    have size : (signBit : Int) = 2 ^ 63 := by decide
    have below : bound.floor * unitsPerOne ≤ bound.units :=
      Int.ediv_mul_le bound.units (Int.ne_of_gt unitsPerOne_pos)
    have above : bound.units < (bound.floor + 1) * unitsPerOne :=
      Int.lt_ediv_add_one_mul_self bound.units unitsPerOne_pos
    rw [compare_scaled unitsPerOne_pos below above]
    split
    next beyond =>
      rw [Int.compare_eq_lt.mpr (show integer.toInt < bound.floor by omega)]
    next within =>
      split
      next beyond =>
        rw [Int.compare_eq_gt.mpr (show bound.floor < integer.toInt by omega)]
      next within' =>
        have cast : (Int64.ofInt bound.floor).toInt = bound.floor :=
          Int64.toInt_ofInt_of_le (by omega) (by omega)
        rw [cast]
        cases compare integer.toInt bound.floor with
        | eq => exact (apply_ite some _ _ _).symm
        | lt => rfl
        | gt => rfl

end Binary64

open Binary64 (unitsPerOne)

namespace Value

/-- The exact value of a number in steps of `2^(-1074)`; none for NaN and for what is no
number. -/
def units? : Value → Option Int
  | .int integer => some (integer.toInt * unitsPerOne)
  | .float number => if number.isNaN then none else some number.units
  | _ => none

/-- A value and a bound are compared as exact numbers. -/
theorem compareNumber?_eq (value : Value) (bound : Binary64) :
    value.compareNumber? bound =
      if bound.isNaN then none else value.units?.map fun exact => compare exact bound.units := by
  cases value with
  | int integer =>
      rw [compareNumber?, units?, Option.map_some]
      exact bound.compareInt_eq integer
  | float number =>
      cases first : number.isNaN <;> cases second : bound.isNaN <;>
        simp [compareNumber?, Binary64.compare?, units?, first, second]
  | null | str value | bool value => simp [compareNumber?, units?]

/-- A value equals a bound if it is a number with the bound's exact value. -/
theorem compareNumber?_eq_some_eq_iff {value : Value} {bound : Binary64} :
    value.compareNumber? bound = some .eq ↔
      bound.isNaN = false ∧ value.units? = some bound.units := by
  rw [compareNumber?_eq]
  cases bound.isNaN with
  | true => simp
  | false => cases value.units? <;> simp

theorem isNull_congr {first second : Value} (same : (first == second) = true) :
    first.isNull = second.isNull := by
  have types := type_eq_of_beq same
  cases first <;> cases second <;> first | rfl | nomatch types

/-- Equal values are alike for every bound. -/
theorem units?_congr {first second : Value} (same : (first == second) = true) :
    first.units? = second.units? := by
  cases first with
  | int left =>
      cases second with
      | int right =>
          have equal : left = right := by simpa using same
          rw [equal]
      | _ => nomatch same
  | float left =>
      cases second with
      | float right =>
          rcases Binary64.sameRank_iff.mp same with ⟨special, exact⟩
          cases number : left.isNaN with
          | true => simp [units?, number, ← special]
          | false => simp [units?, number, ← special, exact number]
      | _ => nomatch same
  | null | str left | bool left =>
      cases second <;> first | rfl | nomatch same

end Value

namespace Constraint

variable {value : Value} {bound : Binary64}

theorem atLeast_iff :
    atLeast value bound = true ↔
      bound.isNaN = false ∧ ∃ exact, value.units? = some exact ∧ bound.units ≤ exact := by
  rw [atLeast, Value.compareNumber?_eq]
  cases bound.isNaN with
  | true => simp
  | false =>
      cases value.units? with
      | none => simp
      | some exact =>
          simp only [Bool.false_eq_true, if_false, Option.map_some]
          rcases Int.lt_trichotomy exact bound.units with less | same | greater
          · rw [Int.compare_eq_lt.mpr less]
            simpa using less
          · rw [Int.compare_eq_eq.mpr same]
            simp [same]
          · rw [Int.compare_eq_gt.mpr greater]
            simpa using Int.le_of_lt greater

theorem atMost_iff :
    atMost value bound = true ↔
      bound.isNaN = false ∧ ∃ exact, value.units? = some exact ∧ exact ≤ bound.units := by
  rw [atMost, Value.compareNumber?_eq]
  cases bound.isNaN with
  | true => simp
  | false =>
      cases value.units? with
      | none => simp
      | some exact =>
          simp only [Bool.false_eq_true, if_false, Option.map_some]
          rcases Int.lt_trichotomy exact bound.units with less | same | greater
          · rw [Int.compare_eq_lt.mpr less]
            simpa using Int.le_of_lt less
          · rw [Int.compare_eq_eq.mpr same]
            simp [same]
          · rw [Int.compare_eq_gt.mpr greater]
            simpa using greater

/-- Only numbers reach a bound. -/
theorem exists_units_of_atLeast (holds : atLeast value bound = true) :
    ∃ exact, value.units? = some exact := by
  rcases atLeast_iff.mp holds with ⟨-, exact, number, -⟩
  exact ⟨exact, number⟩

/-- A number above a bound is above every lower one. -/
theorem atLeast_mono {lower : Binary64} (le : lower ≤ bound) (holds : atLeast value bound = true) :
    atLeast value lower = true := by
  rcases Binary64.le_iff.mp le with ⟨number, -, units⟩
  rcases atLeast_iff.mp holds with ⟨-, exact, numeric, above⟩
  exact atLeast_iff.mpr ⟨number, exact, numeric, Int.le_trans units above⟩

/-- A number below a bound is below every higher one. -/
theorem atMost_mono {higher : Binary64} (le : bound ≤ higher) (holds : atMost value bound = true) :
    atMost value higher = true := by
  rcases Binary64.le_iff.mp le with ⟨-, number, units⟩
  rcases atMost_iff.mp holds with ⟨-, exact, numeric, below⟩
  exact atMost_iff.mpr ⟨number, exact, numeric, Int.le_trans below units⟩

/-- No number lies between two bounds of which the lower one comes first: it is within the upper
bound or past the lower one. -/
theorem atMost_or_atLeast {lower upper : Binary64} {exact : Int} (le : lower ≤ upper)
    (number : value.units? = some exact) :
    atMost value upper = true ∨ atLeast value lower = true := by
  rcases Binary64.le_iff.mp le with ⟨lowerNumber, upperNumber, ordered⟩
  rcases Int.le_total exact upper.units with below | above
  · exact .inl (atMost_iff.mpr ⟨upperNumber, exact, number, below⟩)
  · exact .inr (atLeast_iff.mpr ⟨lowerNumber, exact, number, Int.le_trans ordered above⟩)

end Constraint

end TypedRelations
