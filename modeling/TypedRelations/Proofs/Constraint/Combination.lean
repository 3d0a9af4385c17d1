import TypedRelations.Proofs.Constraint.Bounds

/-!
# Combined constraints and the values they accept

A union of two constraints accepts whatever either of them accepts, and an intersection whatever
both accept. Neither needs anything of the bounds: a NaN among them is skipped when it is combined,
and a constraint with a NaN bound accepts no number that could be lost.
-/

namespace TypedRelations.Constraint

variable {first second combined : Constraint} {value other : Value}

theorem accepts_notNull : notNull.accepts value = true ↔ value.isNull = false := by
  cases null : value.isNull <;> simp [accepts, violation?, null]

theorem accepts_stringLength {min max : UInt64} :
    (stringLength min max).accepts value = true ↔
      ∀ string, value = .str string → min.toNat ≤ string.length ∧
        string.length ≤ max.toNat := by
  cases value with
  | str string =>
      simp only [accepts, violation?, lengthViolation?, Value.str.injEq, forall_eq']
      split
      next outside =>
        simp only [Option.isNone_some, Bool.false_eq_true, false_iff]
        omega
      next inside =>
        simp only [Option.isNone_none, true_iff]
        omega
  | _ => simp [accepts, violation?, lengthViolation?]

theorem accepts_stringLength_str {min max : UInt64} {string : String} :
    (stringLength min max).accepts (.str string) = true ↔
      min.toNat ≤ string.length ∧ string.length ≤ max.toNat := by
  simp [accepts_stringLength]

theorem accepts_range {min max : Binary64} :
    (range min max).accepts value = true ↔
      (value.type.isNumeric = true → atLeast value min = true ∧ atMost value max = true) := by
  simp only [accepts, violation?, rangeViolation?]
  cases value.type.isNumeric <;> cases atLeast value min <;> cases atMost value max <;> simp

theorem accepts_positive {max : Option Binary64} :
    (positive max).accepts value = true ↔
      (value.type.isNumeric = true → atLeast value 0 = true ∧
        ∀ bound, max = some bound → atMost value bound = true) := by
  simp only [accepts, violation?, positiveViolation?]
  cases value.type.isNumeric <;> cases atLeast value 0 <;> cases max with
  | none => simp
  | some bound => cases atMost value bound <;> simp

/-- Constraints do not tell equal values apart. -/
theorem accepts_congr (constraint : Constraint) (same : (value == other) = true) :
    constraint.accepts value = constraint.accepts other := by
  have types := Value.type_eq_of_beq same
  have units := Value.units?_congr same
  have bounds : ∀ bound, atLeast value bound = atLeast other bound ∧
      atMost value bound = atMost other bound := by
    intro bound
    constructor
    · rw [Bool.eq_iff_iff, atLeast_iff, atLeast_iff, units]
    · rw [Bool.eq_iff_iff, atMost_iff, atMost_iff, units]
  rw [Bool.eq_iff_iff]
  cases constraint with
  | notNull => rw [accepts_notNull, accepts_notNull, Value.isNull_congr same]
  | stringLength min max =>
      rw [accepts_stringLength, accepts_stringLength]
      cases value <;> cases other <;> simp_all [Value.type]
  | range min max =>
      rw [accepts_range, accepts_range, types, (bounds min).1, (bounds max).2]
  | positive max =>
      rw [accepts_positive, accepts_positive, types, (bounds 0).1]
      simp only [fun bound => (bounds bound).2]

/-- A number is above the smaller of two bounds if it is above either. A NaN among them is skipped
by the minimum, and nothing is above it. -/
theorem atLeast_min (x y : Binary64) :
    atLeast value (x.min y) = (atLeast value x || atLeast value y) := by
  rw [Bool.eq_iff_iff, Bool.or_eq_true]
  constructor
  · intro above
    rcases Binary64.min_eq_or x y with same | same
    · exact .inl (same ▸ above)
    · exact .inr (same ▸ above)
  · rintro (above | above)
    · exact atLeast_mono (Binary64.min_le_left (atLeast_iff.mp above).1) above
    · exact atLeast_mono (Binary64.min_le_right (atLeast_iff.mp above).1) above

theorem atMost_max (x y : Binary64) :
    atMost value (x.max y) = (atMost value x || atMost value y) := by
  rw [Bool.eq_iff_iff, Bool.or_eq_true]
  constructor
  · intro below
    rcases Binary64.max_eq_or x y with same | same
    · exact .inl (same ▸ below)
    · exact .inr (same ▸ below)
  · rintro (below | below)
    · exact atMost_mono (Binary64.le_max_left (atMost_iff.mp below).1) below
    · exact atMost_mono (Binary64.le_max_right (atMost_iff.mp below).1) below

/-- A number above both bounds is above the larger one. -/
theorem atLeast_max {x y : Binary64} (above : atLeast value x = true ∧ atLeast value y = true) :
    atLeast value (x.max y) = true := by
  rcases Binary64.max_eq_or x y with same | same
  · rw [same]
    exact above.1
  · rw [same]
    exact above.2

theorem atMost_min {x y : Binary64} (below : atMost value x = true ∧ atMost value y = true) :
    atMost value (x.min y) = true := by
  rcases Binary64.min_eq_or x y with same | same
  · rw [same]
    exact below.1
  · rw [same]
    exact below.2

/-- Unless one of them is NaN, the larger of two bounds is above both. -/
theorem atLeast_of_max {x y : Binary64} (first : x.isNaN = false) (second : y.isNaN = false)
    (above : atLeast value (x.max y) = true) : atLeast value x = true ∧ atLeast value y = true :=
  ⟨atLeast_mono (Binary64.le_max_left first) above,
    atLeast_mono (Binary64.le_max_right second) above⟩

theorem atMost_of_min {x y : Binary64} (first : x.isNaN = false) (second : y.isNaN = false)
    (below : atMost value (x.min y) = true) : atMost value x = true ∧ atMost value y = true :=
  ⟨atMost_mono (Binary64.min_le_left first) below,
    atMost_mono (Binary64.min_le_right second) below⟩

theorem toNat_min (x y : UInt64) : (min x y).toNat = min x.toNat y.toNat := by
  change (if x ≤ y then x else y).toNat = _
  by_cases ordered : x ≤ y
  · rw [if_pos ordered, Nat.min_eq_left (UInt64.le_iff_toNat_le.mp ordered)]
  · rw [if_neg ordered, Nat.min_eq_right]
    exact Nat.le_of_not_le fun le => ordered (UInt64.le_iff_toNat_le.mpr le)

theorem toNat_max (x y : UInt64) : (max x y).toNat = max x.toNat y.toNat := by
  change (if x ≤ y then y else x).toNat = _
  by_cases ordered : x ≤ y
  · rw [if_pos ordered, Nat.max_eq_right (UInt64.le_iff_toNat_le.mp ordered)]
  · rw [if_neg ordered, Nat.max_eq_left]
    exact Nat.le_of_not_le fun le => ordered (UInt64.le_iff_toNat_le.mpr le)

/-! ## Constraints of one kind -/

/-- Two constraints of one kind, with the bounds of both. -/
inductive OneKind : Constraint → Constraint → Prop where
  | notNull : OneKind .notNull .notNull
  | stringLength (min₁ max₁ min₂ max₂ : UInt64) :
      OneKind (.stringLength min₁ max₁) (.stringLength min₂ max₂)
  | range (min₁ max₁ min₂ max₂ : Binary64) : OneKind (.range min₁ max₁) (.range min₂ max₂)
  | positive (max₁ max₂ : Option Binary64) : OneKind (.positive max₁) (.positive max₂)

/-- Only constraints of one kind are combined. For others every operation fails, and says so. -/
theorem oneKind_or_error (first second : Constraint) :
    OneKind first second ∨ first.sameKind second = false ∧
      ∀ operation ∈ [union, inter, diff],
        operation first second = .error (.kinds first.kind second.kind) := by
  cases first with
  | notNull => cases second with
    | notNull => exact .inl .notNull
    | _ => exact .inr ⟨rfl, by simp [union, inter, diff]⟩
  | stringLength min₁ max₁ => cases second with
    | stringLength min₂ max₂ => exact .inl (.stringLength min₁ max₁ min₂ max₂)
    | _ => exact .inr ⟨rfl, by simp [union, inter, diff]⟩
  | range min₁ max₁ => cases second with
    | range min₂ max₂ => exact .inl (.range min₁ max₁ min₂ max₂)
    | _ => exact .inr ⟨rfl, by simp [union, inter, diff]⟩
  | positive max₁ => cases second with
    | positive max₂ => exact .inl (.positive max₁ max₂)
    | _ => exact .inr ⟨rfl, by simp [union, inter, diff]⟩

theorem oneKind_of_sameKind (kinds : first.sameKind second = true) : OneKind first second := by
  rcases oneKind_or_error first second with oneKind | ⟨differ, -⟩
  · exact oneKind
  · cases differ.symm.trans kinds

theorem oneKind_of_ok {operation : Constraint → Constraint → Except Clash Constraint}
    (listed : operation ∈ [union, inter, diff]) (made : operation first second = .ok combined) :
    OneKind first second := by
  rcases oneKind_or_error first second with oneKind | ⟨-, fails⟩
  · exact oneKind
  · cases (fails operation listed).symm.trans made

/-- Constraints of one kind always have a union. -/
theorem exists_union (kinds : first.sameKind second = true) :
    ∃ combined, first.union second = .ok combined := by
  cases oneKind_of_sameKind kinds with
  | notNull => exact ⟨_, rfl⟩
  | stringLength => exact ⟨_, rfl⟩
  | range => exact ⟨_, rfl⟩
  | positive max₁ max₂ => cases max₁ <;> cases max₂ <;> exact ⟨_, rfl⟩

theorem exists_diff (kinds : first.sameKind second = true) :
    ∃ combined, first.diff second = .ok combined := by
  cases oneKind_of_sameKind kinds with
  | notNull => exact ⟨_, rfl⟩
  | stringLength =>
      simp only [diff]
      split <;> exact ⟨_, rfl⟩
  | range =>
      simp only [diff]
      split <;> exact ⟨_, rfl⟩
  | positive => exact ⟨_, rfl⟩

/-- Whether a value respects the lower bound of a constraint, and whether it respects the upper
one. A bound that is missing, or that is for values of another type, is respected. -/
def limits (constraint : Constraint) (value : Value) : Bool × Bool :=
  match constraint, value with
  | .notNull, value => (!value.isNull, true)
  | .stringLength min max, .str string =>
    (decide (min.toNat ≤ string.length), decide (string.length ≤ max.toNat))
  | .stringLength .., _ => (true, true)
  | .range min max, value =>
    (!value.type.isNumeric || atLeast value min, !value.type.isNumeric || atMost value max)
  | .positive max, value =>
    (!value.type.isNumeric || atLeast value 0, !value.type.isNumeric || max.all (atMost value))

theorem accepts_iff_limits : first.accepts value = true ↔ first.limits value = (true, true) := by
  cases first with
  | notNull => rw [accepts_notNull]; simp [limits]
  | stringLength min max =>
      rw [accepts_stringLength]
      cases value <;> simp [limits]
  | range min max =>
      rw [accepts_range]
      cases numeric : value.type.isNumeric <;> simp [limits, numeric]
  | positive max =>
      rw [accepts_positive]
      cases numeric : value.type.isNumeric <;> cases max <;> simp [limits, numeric]

/-- What a value respects of two pairs of limits when it need only respect either limit of each
sort. -/
def eitherLimits (left right : Bool × Bool) : Bool × Bool := (left.1 || right.1, left.2 || right.2)

/-- A value respects a bound of a union if it respects that bound of either constraint. -/
theorem limits_union (made : first.union second = .ok combined) (value : Value) :
    combined.limits value = eitherLimits (first.limits value) (second.limits value) := by
  cases oneKind_of_ok (by simp) made with
  | notNull =>
      rw [← Except.ok.inj made]
      simp [limits, eitherLimits]
  | stringLength =>
      rw [← Except.ok.inj made]
      cases value with
      | str string =>
          simp only [limits, eitherLimits, toNat_min, toNat_max, Std.min_le, Std.le_max,
            Bool.decide_or]
      | _ => rfl
  | range =>
      rw [← Except.ok.inj made]
      cases numeric : value.type.isNumeric <;>
        simp [limits, eitherLimits, numeric, atLeast_min, atMost_max]
  | positive max₁ max₂ =>
      cases max₁ <;> cases max₂ <;> rw [← Except.ok.inj made] <;>
        cases numeric : value.type.isNumeric <;> simp [limits, eitherLimits, numeric, atMost_max]

/-- A union accepts what either constraint accepts. -/
theorem union_accepts (made : first.union second = .ok combined)
    (accepted : first.accepts value = true ∨ second.accepts value = true) :
    combined.accepts value = true := by
  rw [accepts_iff_limits, accepts_iff_limits] at accepted
  rw [accepts_iff_limits, limits_union made]
  rcases accepted with within | within <;> simp [within, eitherLimits]

theorem stringLength_inter_accepts {min₁ max₁ min₂ max₂ : UInt64}
    (first : (stringLength min₁ max₁).accepts value = true)
    (second : (stringLength min₂ max₂).accepts value = true) :
    (stringLength (max min₁ min₂) (min max₁ max₂)).accepts value = true := by
  rw [accepts_stringLength]
  intro string same
  have within₁ := accepts_stringLength.mp first string same
  have within₂ := accepts_stringLength.mp second string same
  rw [toNat_min, toNat_max]
  omega

theorem range_inter_accepts {min₁ max₁ min₂ max₂ : Binary64}
    (first : (range min₁ max₁).accepts value = true)
    (second : (range min₂ max₂).accepts value = true) :
    (range (min₁.max min₂) (max₁.min max₂)).accepts value = true := by
  rw [accepts_range]
  intro numeric
  have within₁ := accepts_range.mp first numeric
  have within₂ := accepts_range.mp second numeric
  exact ⟨atLeast_max ⟨within₁.1, within₂.1⟩, atMost_min ⟨within₁.2, within₂.2⟩⟩

theorem positive_inter_accepts {max₁ max₂ : Binary64}
    (first : (positive (some max₁)).accepts value = true)
    (second : (positive (some max₂)).accepts value = true) :
    (positive (some (max₁.min max₂))).accepts value = true := by
  rw [accepts_positive]
  intro numeric
  have within₁ := accepts_positive.mp first numeric
  have within₂ := accepts_positive.mp second numeric
  refine ⟨within₁.1, fun bound same => ?_⟩
  rw [← Option.some.inj same]
  exact atMost_min ⟨within₁.2 max₁ rfl, within₂.2 max₂ rfl⟩

/-- An intersection accepts what both constraints accept. A bound that is NaN is skipped, so it
may accept more. -/
theorem inter_accepts (made : first.inter second = .ok combined)
    (accepted : first.accepts value = true ∧ second.accepts value = true) :
    combined.accepts value = true := by
  cases oneKind_of_ok (by simp) made with
  | notNull =>
      rw [← Except.ok.inj made]
      exact accepted.1
  | stringLength =>
      simp only [inter] at made
      split at made
      · cases made
      · rw [← Except.ok.inj made]
        exact stringLength_inter_accepts accepted.1 accepted.2
  | range =>
      simp only [inter] at made
      split at made
      · cases made
      · rw [← Except.ok.inj made]
        exact range_inter_accepts accepted.1 accepted.2
  | positive max₁ max₂ => cases max₁ with
    | none =>
        rw [← Except.ok.inj made]
        exact accepted.2
    | some bound₁ => cases max₂ with
      | none =>
          rw [← Except.ok.inj made]
          exact accepted.1
      | some bound₂ =>
          rw [← Except.ok.inj made]
          exact positive_inter_accepts accepted.1 accepted.2

end TypedRelations.Constraint
