import TypedRelations.Binary64.Basic

/-!
# Order on binary64 numbers

The comparisons of binary64 numbers are comparisons of the integers that `units` names, with NaN
set apart. This module says so for the two selections `min` and `max`, which skip a NaN, and for
the total order, whose key for NaN lies above the keys of all numbers.
-/

namespace TypedRelations.Binary64

variable {x y z : Binary64}

theorem powerOfTwo_pos (exponent : Nat) : 0 < powerOfTwo exponent :=
  Nat.pow_pos (by decide)

theorem powerOfTwo_add (first second : Nat) :
    powerOfTwo (first + second) = powerOfTwo first * powerOfTwo second :=
  Nat.pow_add 2 first second

theorem powerOfTwo_le {first second : Nat} (le : first ≤ second) :
    powerOfTwo first ≤ powerOfTwo second :=
  Nat.pow_le_pow_right (by decide) le

theorem powerOfTwo_lt {first second : Nat} (lt : first < second) :
    powerOfTwo first < powerOfTwo second :=
  Nat.pow_lt_pow_right (by decide) lt

theorem le_refl (number : x.isNaN = false) : x ≤ x :=
  le_iff.mpr ⟨number, number, Int.le_refl _⟩

theorem le_of_lt (less : x < y) : x ≤ y := by
  rw [lt_iff] at less
  exact le_iff.mpr ⟨less.1, less.2.1, Int.le_of_lt less.2.2⟩

theorem le_trans (first : x ≤ y) (second : y ≤ z) : x ≤ z := by
  rw [le_iff] at first second ⊢
  exact ⟨first.1, second.2.1, Int.le_trans first.2.2 second.2.2⟩

/-- Numbers can be compared, so the only obstacle is a NaN. -/
theorem le_of_not_lt (first : x.isNaN = false) (second : y.isNaN = false) (above : ¬ y < x) :
    x ≤ y := by
  rw [le_iff]
  simp only [lt_iff, first, second, true_and] at above ⊢
  omega

theorem min_eq_or (x y : Binary64) : x.min y = x ∨ x.min y = y := by
  rw [Binary64.min]
  split
  · exact .inl rfl
  · split
    · exact .inl rfl
    · exact .inr rfl

theorem max_eq_or (x y : Binary64) : x.max y = x ∨ x.max y = y := by
  rw [Binary64.max]
  split
  · exact .inl rfl
  · split
    · exact .inl rfl
    · exact .inr rfl

/-- The smaller number is a number as soon as one operand is, and not above that operand. -/
theorem min_le_left (number : x.isNaN = false) : x.min y ≤ x := by
  rw [Binary64.min]
  cases other : y.isNaN with
  | true =>
      rw [if_pos rfl]
      exact le_iff.mpr ⟨number, number, Int.le_refl _⟩
  | false =>
      by_cases less : x < y
      · simpa [less] using le_iff.mpr ⟨number, number, Int.le_refl _⟩
      · simp only [less, Bool.false_eq_true, if_false]
        have above : ¬ x.units < y.units := fun below => less (lt_iff.mpr ⟨number, other, below⟩)
        exact le_iff.mpr ⟨other, number, by omega⟩

theorem min_le_right (number : y.isNaN = false) : x.min y ≤ y := by
  rw [Binary64.min, number]
  by_cases less : x < y
  · rcases lt_iff.mp less with ⟨other, -, below⟩
    simpa [less] using le_iff.mpr ⟨other, number, by omega⟩
  · simpa [less] using le_iff.mpr ⟨number, number, Int.le_refl _⟩

/-- The larger number is a number as soon as one operand is, and not below that operand. -/
theorem le_max_left (number : x.isNaN = false) : x ≤ x.max y := by
  rw [Binary64.max]
  cases other : y.isNaN with
  | true =>
      rw [if_pos rfl]
      exact le_iff.mpr ⟨number, number, Int.le_refl _⟩
  | false =>
      by_cases less : y < x
      · simpa [less] using le_iff.mpr ⟨number, number, Int.le_refl _⟩
      · simp only [less, Bool.false_eq_true, if_false]
        have above : ¬ y.units < x.units := fun below => less (lt_iff.mpr ⟨other, number, below⟩)
        exact le_iff.mpr ⟨number, other, by omega⟩

theorem le_max_right (number : y.isNaN = false) : y ≤ x.max y := by
  rw [Binary64.max, number]
  by_cases less : y < x
  · rcases lt_iff.mp less with ⟨-, other, below⟩
    simpa [less] using le_iff.mpr ⟨number, other, by omega⟩
  · simpa [less] using le_iff.mpr ⟨number, number, Int.le_refl _⟩

/-- The value that infinity has: the leading bit under the largest exponent. -/
theorem unitsOfMagnitude_infinity :
    unitsOfMagnitude infinityMagnitude = fractionCount * powerOfTwo 2046 := by
  have exponent : exponentBits infinityMagnitude = 2047 :=
    Nat.mul_div_cancel 2047 (powerOfTwo_pos 52)
  have fraction : fractionBits infinityMagnitude = 0 := Nat.mul_mod_left 2047 fractionCount
  rw [unitsOfMagnitude, exponent, fraction, if_neg (by decide), Nat.add_zero]

/-- Finite numbers are below infinity. -/
theorem unitsOfMagnitude_lt {magnitude : Nat} (finite : magnitude < infinityMagnitude) :
    unitsOfMagnitude magnitude < unitsOfMagnitude infinityMagnitude := by
  have fraction : fractionBits magnitude < fractionCount :=
    Nat.mod_lt magnitude (powerOfTwo_pos 52)
  have exponent : exponentBits magnitude < 2047 := (Nat.div_lt_iff_lt_mul (powerOfTwo_pos 52)).mpr
    finite
  rw [unitsOfMagnitude_infinity, unitsOfMagnitude]
  split
  · exact Nat.lt_of_lt_of_le fraction (Nat.le_mul_of_pos_right _ (powerOfTwo_pos 2046))
  · calc (fractionCount + fractionBits magnitude) * powerOfTwo (exponentBits magnitude - 1)
        < fractionCount * powerOfTwo 1 * powerOfTwo (exponentBits magnitude - 1) := by
          apply Nat.mul_lt_mul_of_pos_right _ (powerOfTwo_pos _)
          change _ < fractionCount * 2
          omega
      _ = fractionCount * powerOfTwo (1 + (exponentBits magnitude - 1)) := by
          rw [powerOfTwo_add, Nat.mul_assoc]
      _ ≤ fractionCount * powerOfTwo 2046 := by
          apply Nat.mul_le_mul_left
          apply powerOfTwo_le
          omega

/-- Unsigned encodings up to the one of infinity have values up to the one of infinity. -/
theorem unitsOfMagnitude_le {magnitude : Nat} (bounded : magnitude ≤ infinityMagnitude) :
    unitsOfMagnitude magnitude ≤ unitsOfMagnitude infinityMagnitude := by
  rcases Nat.eq_or_lt_of_le bounded with rfl | finite
  · exact Nat.le_refl _
  · exact Nat.le_of_lt (unitsOfMagnitude_lt finite)

theorem units_le_infinity (number : x.isNaN = false) :
    x.units ≤ unitsOfMagnitude infinityMagnitude := by
  have finite : x.magnitudeBits ≤ infinityMagnitude :=
    Nat.le_of_not_lt (of_decide_eq_false number)
  have bound := unitsOfMagnitude_le finite
  rw [units]
  split
  · omega
  · omega

/-- Numbers of one rank are alike for every comparison: both are NaN, or they have the same exact
value. -/
theorem sameRank_iff :
    x.sameRank y = true ↔ x.isNaN = y.isNaN ∧ (x.isNaN = false → x.units = y.units) := by
  rw [sameRank, beq_iff_eq, rank, rank]
  cases first : x.isNaN with
  | true =>
      cases second : y.isNaN with
      | true =>
          rw [if_pos rfl, if_pos rfl]
          exact ⟨fun _ => ⟨rfl, fun number => absurd number (by decide)⟩, fun _ => rfl⟩
      | false =>
          have := units_le_infinity second
          simp only [if_true, Bool.false_eq_true, if_false]
          constructor
          · intro same
            omega
          · intro same
            cases same.1
  | false =>
      cases second : y.isNaN with
      | true =>
          have := units_le_infinity first
          simp only [if_true, Bool.false_eq_true, if_false]
          constructor
          · intro same
            omega
          · intro same
            cases same.1
      | false => simp

end TypedRelations.Binary64
