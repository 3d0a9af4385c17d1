import TypedRelations.Proofs.Constraint.Combination

/-!
# Intersections of constraints, exactly

The intersection of two constraints accepts what both accept as long as no bound is NaN, for a NaN
is skipped when bounds are combined. Two constraints of one kind have an intersection unless they
are `Apart`, and then no value of the types that they govern is accepted by both. Constraints of
different kinds have none, and these are all the outcomes (`inter_outcomes`).
-/

namespace TypedRelations.Constraint

variable {first second combined : Constraint} {value : Value} {clash : Clash}

/-- The bounds of a constraint that are floating-point numbers. -/
def bounds : Constraint → List Binary64
  | .range min max => [min, max]
  | .positive max => max.toList
  | .notNull | .stringLength .. => []

/-- No bound is NaN. -/
def NumberBounds (constraint : Constraint) : Prop :=
  ∀ bound ∈ constraint.bounds, bound.isNaN = false

instance (constraint : Constraint) : Decidable constraint.NumberBounds :=
  inferInstanceAs (Decidable (∀ bound ∈ constraint.bounds, bound.isNaN = false))

@[simp] theorem numberBounds_range {min max : Binary64} :
    (range min max).NumberBounds ↔ min.isNaN = false ∧ max.isNaN = false := by
  simp [NumberBounds, bounds]

theorem stringLength_accepts_of_inter {min₁ max₁ min₂ max₂ : UInt64}
    (accepted : (stringLength (max min₁ min₂) (min max₁ max₂)).accepts value = true) :
    (stringLength min₁ max₁).accepts value = true ∧
      (stringLength min₂ max₂).accepts value = true := by
  rw [accepts_stringLength] at accepted
  rw [accepts_stringLength, accepts_stringLength]
  simp only [toNat_min, toNat_max] at accepted
  constructor
  · intro string same
    have within := accepted string same
    omega
  · intro string same
    have within := accepted string same
    omega

theorem range_accepts_of_inter {min₁ max₁ min₂ max₂ : Binary64}
    (firstNumbers : (range min₁ max₁).NumberBounds)
    (secondNumbers : (range min₂ max₂).NumberBounds)
    (accepted : (range (min₁.max min₂) (max₁.min max₂)).accepts value = true) :
    (range min₁ max₁).accepts value = true ∧ (range min₂ max₂).accepts value = true := by
  rw [accepts_range] at accepted
  rw [accepts_range, accepts_range, ← forall_and]
  intro numeric
  have within := accepted numeric
  have above := atLeast_of_max (firstNumbers min₁ (by simp [bounds]))
    (secondNumbers min₂ (by simp [bounds])) within.1
  have below := atMost_of_min (firstNumbers max₁ (by simp [bounds]))
    (secondNumbers max₂ (by simp [bounds])) within.2
  exact ⟨⟨above.1, below.1⟩, above.2, below.2⟩

theorem positive_accepts_of_inter {max₁ max₂ : Binary64}
    (firstNumber : max₁.isNaN = false) (secondNumber : max₂.isNaN = false)
    (accepted : (positive (some (max₁.min max₂))).accepts value = true) :
    (positive (some max₁)).accepts value = true ∧
      (positive (some max₂)).accepts value = true := by
  simp only [accepts_positive, Option.some.injEq, forall_eq'] at accepted ⊢
  rw [← forall_and]
  intro numeric
  have within := accepted numeric
  have below := atMost_of_min firstNumber secondNumber within.2
  exact ⟨⟨within.1, below.1⟩, within.1, below.2⟩

/-- A missing maximum is no restriction. -/
theorem positive_accepts_of_some {max : Binary64}
    (accepted : (positive (some max)).accepts value = true) :
    (positive none).accepts value = true := by
  rw [accepts_positive] at accepted ⊢
  exact fun numeric => ⟨(accepted numeric).1, nofun⟩

/-- What an intersection accepts, both constraints accept, unless a NaN bound was skipped. -/
theorem accepts_of_inter (made : first.inter second = .ok combined)
    (firstNumbers : first.NumberBounds) (secondNumbers : second.NumberBounds)
    (accepted : combined.accepts value = true) :
    first.accepts value = true ∧ second.accepts value = true := by
  cases oneKind_of_ok (by simp) made with
  | notNull =>
      rw [Except.ok.inj made]
      exact ⟨accepted, accepted⟩
  | stringLength =>
      simp only [inter] at made
      split at made
      · cases made
      · rw [← Except.ok.inj made] at accepted
        exact stringLength_accepts_of_inter accepted
  | range =>
      simp only [inter] at made
      split at made
      · cases made
      · rw [← Except.ok.inj made] at accepted
        exact range_accepts_of_inter firstNumbers secondNumbers accepted
  | positive max₁ max₂ =>
      cases max₁ with
      | none =>
          rw [← Except.ok.inj made] at accepted
          cases max₂ with
          | none => exact ⟨accepted, accepted⟩
          | some bound₂ => exact ⟨positive_accepts_of_some accepted, accepted⟩
      | some bound₁ => cases max₂ with
        | none =>
            rw [← Except.ok.inj made] at accepted
            exact ⟨accepted, positive_accepts_of_some accepted⟩
        | some bound₂ =>
            rw [← Except.ok.inj made] at accepted
            exact positive_accepts_of_inter (firstNumbers bound₁ (by simp [bounds]))
              (secondNumbers bound₂ (by simp [bounds])) accepted

theorem inter_accepts_iff (made : first.inter second = .ok combined)
    (firstNumbers : first.NumberBounds) (secondNumbers : second.NumberBounds) :
    combined.accepts value = true ↔ first.accepts value = true ∧ second.accepts value = true :=
  ⟨accepts_of_inter made firstNumbers secondNumbers, inter_accepts made⟩

/-- Two bounds on lengths or two ranges of which the larger minimum is above the smaller maximum.
A NaN is skipped in either choice. -/
def Apart : Constraint → Constraint → Prop
  | .stringLength min₁ max₁, .stringLength min₂ max₂ => min max₁ max₂ < max min₁ min₂
  | .range min₁ max₁, .range min₂ max₂ => max₁.min max₂ < min₁.max min₂
  | _, _ => False

instance (first second : Constraint) : Decidable (first.Apart second) := by
  unfold Apart
  split <;> infer_instance

/-- The clash is between two intervals that have nothing in common. -/
def Clash.isEmptyRange : Clash → Bool
  | .lengths .. | .ranges .. => true
  | .kinds .. => false

/-- The types of the values that the clashing intervals are about. -/
def Clash.concerns : Clash → ValueType → Bool
  | .lengths .., type => type == .str
  | .ranges .., type => type.isNumeric
  | .kinds .., _ => false

/-- Constraints of one kind have an intersection unless they are apart. -/
theorem inter_eq_ok_or_error (kinds : first.sameKind second = true) :
    (¬ first.Apart second ∧ ∃ combined, first.inter second = .ok combined) ∨
      (first.Apart second ∧ ∃ clash, clash.isEmptyRange = true ∧
        first.inter second = .error clash) := by
  cases oneKind_of_sameKind kinds with
  | notNull => exact .inl ⟨id, _, rfl⟩
  | stringLength =>
      simp only [inter, Apart]
      split
      next crossed => exact .inr ⟨crossed, _, rfl, rfl⟩
      next common => exact .inl ⟨common, _, rfl⟩
  | range =>
      simp only [inter, Apart]
      split
      next crossed => exact .inr ⟨crossed, _, rfl, rfl⟩
      next common => exact .inl ⟨common, _, rfl⟩
  | positive max₁ max₂ => cases max₁ <;> cases max₂ <;> exact .inl ⟨id, _, rfl⟩

theorem not_within_lengths {min₁ max₁ min₂ max₂ : UInt64}
    (crossed : min max₁ max₂ < max min₁ min₂) (string : value.type = .str)
    (first : (stringLength min₁ max₁).accepts value = true) :
    (stringLength min₂ max₂).accepts value = false := by
  cases value with
  | str text =>
      rw [Bool.eq_false_iff]
      intro second
      have within := accepts_stringLength.mp (stringLength_inter_accepts first second) text rfl
      have crossedLengths := UInt64.lt_iff_toNat_lt.mp crossed
      omega
  | _ => cases string

theorem not_within_ranges {min₁ max₁ min₂ max₂ : Binary64}
    (crossed : max₁.min max₂ < min₁.max min₂) (numeric : value.type.isNumeric = true)
    (first : (range min₁ max₁).accepts value = true) :
    (range min₂ max₂).accepts value = false := by
  rw [Bool.eq_false_iff]
  intro second
  have within := accepts_range.mp (range_inter_accepts first second) numeric
  obtain ⟨-, above, number, least⟩ := atLeast_iff.mp within.1
  obtain ⟨-, below, sameNumber, greatest⟩ := atMost_iff.mp within.2
  rw [← Option.some.inj (number.symm.trans sameNumber)] at greatest
  have crossedUnits := (Binary64.lt_iff.mp crossed).2.2
  omega

/-- Two constraints that clash accept no value in common, of the types that the clash is about. -/
theorem not_accepts_of_inter_eq_error (failed : first.inter second = .error clash)
    (concerned : clash.concerns value.type = true) (inFirst : first.accepts value = true) :
    second.accepts value = false := by
  rcases oneKind_or_error first second with oneKind | ⟨-, fails⟩
  · cases oneKind with
    | notNull => cases failed
    | stringLength =>
        simp only [inter] at failed
        split at failed
        next crossed =>
          rw [← Except.error.inj failed] at concerned
          exact not_within_lengths crossed (beq_iff_eq.mp concerned) inFirst
        · cases failed
    | range =>
        simp only [inter] at failed
        split at failed
        next crossed =>
          rw [← Except.error.inj failed] at concerned
          exact not_within_ranges crossed concerned inFirst
        · cases failed
    | positive max₁ max₂ => cases max₁ <;> cases max₂ <;> cases failed
  · rw [fails inter (by simp)] at failed
    rw [← Except.error.inj failed] at concerned
    cases concerned

/-! ## All outcomes -/

/-- An intersection is refused for the kinds exactly if they differ, and the error names both. -/
theorem inter_eq_mismatch_iff {left right : Kind} :
    first.inter second = .error (.kinds left right) ↔
      first.kind ≠ second.kind ∧ left = first.kind ∧ right = second.kind := by
  rcases oneKind_or_error first second with oneKind | ⟨differ, fails⟩
  · have kinds : first.sameKind second = true := by cases oneKind <;> rfl
    have same : first.kind = second.kind := beq_iff_eq.mp kinds
    rcases inter_eq_ok_or_error kinds with ⟨-, combined, made⟩ | ⟨-, clash, empty, failed⟩
    · simp [made, same]
    · rw [failed]
      simp only [Except.error.injEq, same, ne_eq, not_true_eq_false, false_and, iff_false]
      intro mismatch
      rw [mismatch] at empty
      cases empty
  · rw [fails inter (by simp)]
    have kinds : first.kind ≠ second.kind := beq_eq_false_iff_ne.mp differ
    simp [kinds, eq_comm]

/-- If an intersection is refused for the bounds, the error names the larger minimum and the smaller
maximum. -/
theorem bounds_of_inter_eq_error (failed : first.inter second = .error clash)
    (empty : clash.isEmptyRange = true) :
    (∃ min₁ max₁ min₂ max₂, first = stringLength min₁ max₁ ∧ second = stringLength min₂ max₂ ∧
      clash = .lengths (max min₁ min₂) (min max₁ max₂)) ∨
    ∃ min₁ max₁ min₂ max₂, first = range min₁ max₁ ∧ second = range min₂ max₂ ∧
      clash = .ranges (min₁.max min₂) (max₁.min max₂) := by
  rcases oneKind_or_error first second with oneKind | ⟨-, fails⟩
  · cases oneKind with
    | notNull => cases failed
    | stringLength min₁ max₁ min₂ max₂ =>
        simp only [inter] at failed
        split at failed
        · exact .inl ⟨min₁, max₁, min₂, max₂, rfl, rfl, (Except.error.inj failed).symm⟩
        · cases failed
    | range min₁ max₁ min₂ max₂ =>
        simp only [inter] at failed
        split at failed
        · exact .inr ⟨min₁, max₁, min₂, max₂, rfl, rfl, (Except.error.inj failed).symm⟩
        · cases failed
    | positive max₁ max₂ => cases max₁ <;> cases max₂ <;> cases failed
  · rw [fails inter (by simp)] at failed
    rw [← Except.error.inj failed] at empty
    cases empty

/-- The outcomes of an intersection. It is refused for the kinds exactly if they differ. If there is
one, it accepts what both constraints accept and, as long as no bound is NaN, nothing else. If it is
refused for the bounds, both constraints bound lengths and have no string in common, or both bound
numbers and have no number in common. -/
theorem inter_outcomes (first second : Constraint) :
    (∀ left right, first.inter second = .error (.kinds left right) ↔
      first.kind ≠ second.kind ∧ left = first.kind ∧ right = second.kind) ∧
    (∀ combined, first.inter second = .ok combined → ∀ value,
      (first.accepts value = true ∧ second.accepts value = true →
        combined.accepts value = true) ∧
      (first.NumberBounds → second.NumberBounds → combined.accepts value = true →
        first.accepts value = true ∧ second.accepts value = true)) ∧
    (∀ low high, first.inter second = .error (.lengths low high) →
      first.kind = .stringLength ∧ second.kind = .stringLength ∧ ∀ string,
        ¬ (first.accepts (.str string) = true ∧ second.accepts (.str string) = true)) ∧
    ∀ low high, first.inter second = .error (.ranges low high) →
      first.kind = .range ∧ second.kind = .range ∧ ∀ value, value.type.isNumeric = true →
        ¬ (first.accepts value = true ∧ second.accepts value = true) := by
  refine ⟨fun left right => inter_eq_mismatch_iff, fun combined made value => ?_,
    fun low high failed => ?_, fun low high failed => ?_⟩
  · exact ⟨inter_accepts made,
      fun firstNumbers secondNumbers => accepts_of_inter made firstNumbers secondNumbers⟩
  · rcases bounds_of_inter_eq_error failed rfl with
      ⟨min₁, max₁, min₂, max₂, rfl, rfl, -⟩ | ⟨_, _, _, _, -, -, other⟩
    · refine ⟨rfl, rfl, fun string both => ?_⟩
      have rejected : (stringLength min₂ max₂).accepts (.str string) = false :=
        not_accepts_of_inter_eq_error failed rfl both.1
      simp [both.2] at rejected
    · cases other
  · rcases bounds_of_inter_eq_error failed rfl with
      ⟨_, _, _, _, -, -, other⟩ | ⟨min₁, max₁, min₂, max₂, rfl, rfl, -⟩
    · cases other
    · refine ⟨rfl, rfl, fun value numeric both => ?_⟩
      have rejected := not_accepts_of_inter_eq_error failed numeric both.1
      simp [both.2] at rejected

/-- Two ranges that overlap have an intersection, which is exact. Lengths the wrong way round and
two ranges one after the other have none. -/
theorem inter_outcomes_ranges :
    (range 1 5).NumberBounds ∧ (range 3 6).NumberBounds ∧
      (∃ combined, (range 1 5).inter (range 3 6) = .ok combined ∧
        combined.accepts (.int 4) = true ∧ combined.accepts (.int 2) = false) ∧
      (range 1 5).inter .notNull = .error (.kinds .range .notNull) ∧
      ((stringLength 4 2).inter (stringLength 0 9) = .error (.lengths 4 2) ∧
        ¬ ((stringLength 4 2).accepts (.str "abc") = true ∧
          (stringLength 0 9).accepts (.str "abc") = true)) ∧
      ∃ low high, (range 1 2).inter (range 3 4) = .error (.ranges low high) ∧
        ¬ ((range 1 2).accepts (.int 2) = true ∧ (range 3 4).accepts (.int 2) = true) := by
  have numbers : (range 1 5).NumberBounds ∧ (range 3 6).NumberBounds := by decide +kernel
  have clash : (stringLength 4 2).inter (stringLength 0 9) = .error (.lengths 4 2) := by rfl
  have overlapping : (range 1 5).sameKind (range 3 6) = true := rfl
  have consecutive : (range 1 2).sameKind (range 3 4) = true := rfl
  refine ⟨numbers.1, numbers.2, ?_, ?_, ⟨clash, ?_⟩, ?_⟩
  · rcases inter_eq_ok_or_error overlapping with ⟨-, combined, made⟩ | ⟨apart, -⟩
    · have exact2 := (inter_outcomes (range 1 5) (range 3 6)).2.1 combined made (.int 2)
      have exact4 := (inter_outcomes (range 1 5) (range 3 6)).2.1 combined made (.int 4)
      refine ⟨combined, made, exact4.1 (by decide +kernel), ?_⟩
      rw [Bool.eq_false_iff]
      intro accepted
      exact absurd (exact2.2 numbers.1 numbers.2 accepted) (by decide +kernel)
    · exact absurd apart (by decide +kernel)
  · exact ((inter_outcomes (range 1 5) .notNull).1 .range .notNull).mpr ⟨nofun, rfl, rfl⟩
  · exact ((inter_outcomes _ _).2.2.1 4 2 clash).2.2 "abc"
  · rcases inter_eq_ok_or_error consecutive with ⟨common, -⟩ | ⟨-, clash, empty, failed⟩
    · exact absurd (show (range 1 2).Apart (range 3 4) by decide +kernel) common
    · rcases bounds_of_inter_eq_error failed empty with
        ⟨_, _, _, _, lengths, -⟩ | ⟨_, _, _, _, -, -, rfl⟩
      · cases lengths
      · exact ⟨_, _, failed, ((inter_outcomes _ _).2.2.2 _ _ failed).2.2 (.int 2) rfl⟩

end TypedRelations.Constraint
