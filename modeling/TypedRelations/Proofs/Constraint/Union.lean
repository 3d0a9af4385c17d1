import TypedRelations.Proofs.Constraint.Intersection

/-!
# Unions of constraints, exactly

The union of two constraints reaches from the smaller of their minima to the larger of their maxima.
It accepts what either accepts and what lies in a gap between the two. Constraints that `Meet` leave
no gap.
-/

namespace TypedRelations.Constraint

variable {first second combined : Constraint} {value : Value}

/-- Two constraints of one kind with nothing between them: if they bound lengths or numbers, the
larger of their minima is at most the smaller of their maxima, and none of the bounds is NaN. -/
def Meet : Constraint → Constraint → Prop
  | .notNull, .notNull => True
  | .stringLength min₁ max₁, .stringLength min₂ max₂ => max min₁ min₂ ≤ min max₁ max₂
  | .range min₁ max₁, .range min₂ max₂ =>
    (range min₁ max₁).NumberBounds ∧ (range min₂ max₂).NumberBounds ∧
      min₁.max min₂ ≤ max₁.min max₂
  | .positive _, .positive _ => True
  | _, _ => False

theorem oneKind_of_meet (meet : first.Meet second) : OneKind first second := by
  unfold Meet at meet
  split at meet
  · exact .notNull
  · exact .stringLength ..
  · exact .range ..
  · exact .positive ..
  · exact meet.elim

/-- The lower bound of each of two ranges that meet is at most the upper bound of the other. -/
theorem le_of_meet {min₁ max₁ min₂ max₂ : Binary64}
    (meet : (range min₁ max₁).Meet (range min₂ max₂)) : min₂ ≤ max₁ ∧ min₁ ≤ max₂ := by
  obtain ⟨firstNumbers, secondNumbers, le⟩ := meet
  rw [numberBounds_range] at firstNumbers secondNumbers
  have low₁ : min₁ ≤ min₁.max min₂ := Binary64.le_max_left firstNumbers.1
  have low₂ : min₂ ≤ min₁.max min₂ := Binary64.le_max_right secondNumbers.1
  have high₁ : max₁.min max₂ ≤ max₁ := Binary64.min_le_left firstNumbers.2
  have high₂ : max₁.min max₂ ≤ max₂ := Binary64.min_le_right secondNumbers.2
  exact ⟨Binary64.le_trans low₂ (Binary64.le_trans le high₁),
    Binary64.le_trans low₁ (Binary64.le_trans le high₂)⟩

/-- A value that respects one of the lower bounds is not beyond the one and short of the other of
two constraints that meet. The lower bound is asked for because of NaN, which is short of nothing
and respects no bound. -/
theorem limits_of_meet (meet : first.Meet second)
    (lower : (first.limits value).1 = true ∨ (second.limits value).1 = true) :
    ((first.limits value).2 = true ∨ (second.limits value).1 = true) ∧
      ((second.limits value).2 = true ∨ (first.limits value).1 = true) := by
  cases oneKind_of_meet meet with
  | notNull => simp [limits]
  | stringLength min₁ max₁ min₂ max₂ =>
      cases value with
      | str string =>
          have ordered := UInt64.le_iff_toNat_le.mp meet
          rw [toNat_max, toNat_min] at ordered
          simp only [limits, decide_eq_true_eq]
          omega
      | _ => simp [limits]
  | range min₁ max₁ min₂ max₂ =>
      cases numeric : value.type.isNumeric with
      | false => simp [limits, numeric]
      | true =>
          simp only [limits, numeric, Bool.not_true, Bool.false_or] at lower ⊢
          obtain ⟨exact, number⟩ := lower.elim exists_units_of_atLeast exists_units_of_atLeast
          obtain ⟨le₁, le₂⟩ := le_of_meet meet
          exact ⟨atMost_or_atLeast le₁ number, atMost_or_atLeast le₂ number⟩
  | positive max₁ max₂ =>
      simp only [limits, or_self] at lower ⊢
      exact ⟨.inr lower, .inr lower⟩

/-- What the union of two constraints that meet accepts, one of them accepts. -/
theorem accepts_of_union (made : first.union second = .ok combined) (meet : first.Meet second)
    (accepted : combined.accepts value = true) :
    first.accepts value = true ∨ second.accepts value = true := by
  rw [accepts_iff_limits, limits_union made, eitherLimits, Prod.mk.injEq, Bool.or_eq_true,
    Bool.or_eq_true] at accepted
  obtain ⟨lower, upper⟩ := accepted
  obtain ⟨notBeyond₁, notBeyond₂⟩ := limits_of_meet meet lower
  rw [accepts_iff_limits, accepts_iff_limits, Prod.ext_iff, Prod.ext_iff]
  grind

/-- Two constraints of one kind have a union. It accepts what either accepts, whatever the bounds
are, and nothing else if the two meet. -/
theorem union_hull (kinds : first.sameKind second = true) :
    ∃ combined, first.union second = .ok combined ∧ ∀ value,
      (first.accepts value = true ∨ second.accepts value = true →
        combined.accepts value = true) ∧
      (first.Meet second → combined.accepts value = true →
        first.accepts value = true ∨ second.accepts value = true) := by
  obtain ⟨combined, made⟩ := exists_union kinds
  exact ⟨combined, made, fun value => ⟨union_accepts made, accepts_of_union made⟩⟩

/-- Two ranges that share a part make one range without a gap. A range with a NaN bound accepts no
number that could be lost. -/
theorem union_hull_ranges :
    (range 1 5).sameKind (range 3 6) = true ∧ (range 1 5).Meet (range 3 6) ∧
      (∃ combined, (range 1 5).union (range 3 6) = .ok combined ∧
        combined.accepts (.int 2) = true ∧ combined.accepts (.int 6) = true ∧
        combined.accepts (.int 7) = false) ∧
      ∃ combined, (range ⟨0x7FF8000000000000⟩ 5).union (range 3 6) = .ok combined ∧
        combined.accepts (.int 6) = true := by
  have meet : (range 1 5).Meet (range 3 6) :=
    ⟨by decide +kernel, by decide +kernel, by decide +kernel⟩
  have kinds : (range 1 5).sameKind (range 3 6) = true := rfl
  have kindsToo : (range ⟨0x7FF8000000000000⟩ 5).sameKind (range 3 6) = true := rfl
  obtain ⟨combined, made, hull⟩ := union_hull kinds
  obtain ⟨skipping, madeToo, hullToo⟩ := union_hull kindsToo
  refine ⟨kinds, meet, ⟨combined, made, (hull _).1 (.inl ?_), (hull _).1 (.inr ?_), ?_⟩,
    skipping, madeToo, (hullToo _).1 (.inr ?_)⟩
  · decide +kernel
  · decide +kernel
  · rw [Bool.eq_false_iff]
    intro accepted
    exact absurd ((hull _).2 meet accepted) (by decide +kernel)
  · decide +kernel

end TypedRelations.Constraint
