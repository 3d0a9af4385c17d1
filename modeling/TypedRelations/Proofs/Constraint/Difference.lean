import TypedRelations.Proofs.Constraint.Intersection

/-!
# Differences of constraints

The difference of two constraints of one kind is the first one, cut short if the second one overlaps
with exactly one of its ends (`OverlapsAtOneEnd`). Where it is cut, a bound on lengths stops next to
the other one, and a range shares one number with it. Bounds may be NaN or the wrong way round, and
those of lengths are moved by one only where there is a smaller or a larger length.
-/

namespace TypedRelations.Constraint

variable {first second rest : Constraint} {value : Value}

section Intervals

variable {α : Type} [LT α] [LE α] {min₁ max₁ min₂ max₂ : α}

/-- The bound is strictly outside of an interval. -/
def Outside (bound min max : α) : Prop := bound < min ∨ max < bound

instance [DecidableLT α] (bound min max : α) : Decidable (Outside bound min max) :=
  inferInstanceAs (Decidable (_ ∨ _))

/-- Two intervals, neither of them empty, have something in common, and exactly one end of the
first is outside of the second. A NaN is neither above nor below anything, so none of the bounds is
one. -/
structure OverlapsAtOneEnd (min₁ max₁ min₂ max₂ : α) : Prop where
  first_nonempty : min₁ ≤ max₁
  second_nonempty : min₂ ≤ max₂
  common : ∃ shared, (min₁ ≤ shared ∧ shared ≤ max₁) ∧ min₂ ≤ shared ∧ shared ≤ max₂
  one_end : (Outside min₁ min₂ max₂ ∧ ¬ Outside max₁ min₂ max₂) ∨
    (¬ Outside min₁ min₂ max₂ ∧ Outside max₁ min₂ max₂)

/-- The bound at which the second interval starts or ends inside the first one. -/
def CutAt (bound min₁ max₁ min₂ max₂ : α) : Prop :=
  (bound = min₂ ∧ min₁ < min₂ ∧ min₂ ≤ max₁) ∨ (bound = max₂ ∧ min₁ ≤ max₂ ∧ max₂ < max₁)

variable [DecidableLT α] [DecidableLE α]

theorem remainder_eq_below_iff :
    remainder min₁ max₁ min₂ max₂ = .below ↔
      (¬ max₂ < min₁ ∧ ¬ max₁ < min₂) ∧ ¬ min₂ ≤ min₁ ∧ max₁ ≤ max₂ := by
  grind [remainder]

theorem remainder_eq_above_iff :
    remainder min₁ max₁ min₂ max₂ = .above ↔
      (¬ max₂ < min₁ ∧ ¬ max₁ < min₂) ∧ min₂ ≤ min₁ ∧ ¬ max₁ ≤ max₂ := by
  grind [remainder]

end Intervals

section Lengths

variable {min₁ max₁ min₂ max₂ : UInt64}

theorem lengths_below_iff :
    remainder min₁ max₁ min₂ max₂ = .below ↔
      min₁.toNat < min₂.toNat ∧ min₂.toNat ≤ max₁.toNat ∧ max₁.toNat ≤ max₂.toNat := by
  simp only [remainder_eq_below_iff, UInt64.lt_iff_toNat_lt, UInt64.le_iff_toNat_le]
  omega

theorem lengths_above_iff :
    remainder min₁ max₁ min₂ max₂ = .above ↔
      min₂.toNat ≤ min₁.toNat ∧ min₁.toNat ≤ max₂.toNat ∧ max₂.toNat < max₁.toNat := by
  simp only [remainder_eq_above_iff, UInt64.lt_iff_toNat_lt, UInt64.le_iff_toNat_le]
  omega

/-- The part below starts at a length, so there is one less than the minimum of what is cut off. -/
theorem toNat_before_cut (cut : remainder min₁ max₁ min₂ max₂ = .below) :
    (min₂ - 1).toNat + 1 = min₂.toNat := by
  have order := lengths_below_iff.mp cut
  have one_le : (1 : UInt64) ≤ min₂ := by
    rw [UInt64.le_iff_toNat_le, UInt64.toNat_one]
    omega
  rw [UInt64.toNat_sub_of_le _ _ one_le, UInt64.toNat_one]
  omega

theorem toNat_after_cut (cut : remainder min₁ max₁ min₂ max₂ = .above) :
    (max₂ + 1).toNat = max₂.toNat + 1 := by
  have order := lengths_above_iff.mp cut
  have bounded := max₁.toNat_lt
  rw [UInt64.toNat_add, UInt64.toNat_one]
  omega

/-- A difference of lengths is the first constraint or, cut short, one of its two parts. -/
theorem stringLength_diff_cases
    (made : (stringLength min₁ max₁).diff (stringLength min₂ max₂) = .ok rest) :
    (remainder min₁ max₁ min₂ max₂ = .whole ∧ rest = stringLength min₁ max₁) ∨
      (remainder min₁ max₁ min₂ max₂ = .below ∧ rest = stringLength min₁ (min₂ - 1)) ∨
      (remainder min₁ max₁ min₂ max₂ = .above ∧ rest = stringLength (max₂ + 1) max₁) := by
  rw [diff] at made
  cases cut : remainder min₁ max₁ min₂ max₂ <;> simp_all

/-- Of the strings that the first constraint accepts, the difference accepts those that the second
rejects, and all of them if nothing is cut off. Other values are none of its business. -/
theorem stringLength_diff_accepts_iff
    (made : (stringLength min₁ max₁).diff (stringLength min₂ max₂) = .ok rest) :
    rest.accepts value = true ↔
      (stringLength min₁ max₁).accepts value = true ∧
        (value.type = .str → remainder min₁ max₁ min₂ max₂ ≠ .whole →
          (stringLength min₂ max₂).accepts value = false) := by
  cases value with
  | str string =>
      simp only [← Bool.not_eq_true]
      rcases stringLength_diff_cases made with ⟨whole, rfl⟩ | ⟨cut, rfl⟩ | ⟨cut, rfl⟩
      · simp [whole]
      · have order := lengths_below_iff.mp cut
        have before := toNat_before_cut cut
        simp only [accepts_stringLength_str, cut, Value.type, ne_eq, reduceCtorEq,
          not_false_eq_true, forall_const]
        omega
      · have order := lengths_above_iff.mp cut
        have after := toNat_after_cut cut
        simp only [accepts_stringLength_str, cut, Value.type, ne_eq, reduceCtorEq,
          not_false_eq_true, forall_const]
        omega
  | _ =>
      rcases stringLength_diff_cases made with ⟨-, rfl⟩ | ⟨-, rfl⟩ | ⟨-, rfl⟩ <;>
        simp [accepts_stringLength, Value.type]

/-- An overlap at one end is cut off. -/
theorem OverlapsAtOneEnd.lengths_cut (overlap : OverlapsAtOneEnd min₁ max₁ min₂ max₂) :
    remainder min₁ max₁ min₂ max₂ ≠ .whole := by
  obtain ⟨nonempty₁, nonempty₂, ⟨shared, within₁, within₂⟩, oneEnd⟩ := overlap
  have cut : remainder min₁ max₁ min₂ max₂ = .below ∨ remainder min₁ max₁ min₂ max₂ = .above := by
    rw [lengths_below_iff, lengths_above_iff]
    simp only [Outside, UInt64.lt_iff_toNat_lt, UInt64.le_iff_toNat_le] at *
    omega
  rcases cut with below | above
  · simp [below]
  · simp [above]

end Lengths

section Ranges

variable {min₁ max₁ min₂ max₂ : Binary64}

theorem range_diff_cases (made : (range min₁ max₁).diff (range min₂ max₂) = .ok rest) :
    (remainder min₁ max₁ min₂ max₂ = .whole ∧ rest = range min₁ max₁) ∨
      (remainder min₁ max₁ min₂ max₂ = .below ∧ rest = range min₁ min₂) ∨
      (remainder min₁ max₁ min₂ max₂ = .above ∧ rest = range max₂ max₁) := by
  rw [diff] at made
  cases cut : remainder min₁ max₁ min₂ max₂ <;> simp_all

/-- A difference of ranges accepts nothing that the first range does not. A bound at which it is cut
may be NaN, but then it accepts no number at all. -/
theorem range_accepts_of_diff (made : (range min₁ max₁).diff (range min₂ max₂) = .ok rest)
    (accepted : rest.accepts value = true) : (range min₁ max₁).accepts value = true := by
  rcases range_diff_cases made with ⟨-, rfl⟩ | ⟨cut, rfl⟩ | ⟨cut, rfl⟩
  · exact accepted
  · obtain ⟨⟨-, reaches⟩, -, ends⟩ := remainder_eq_below_iff.mp cut
    rw [accepts_range] at accepted ⊢
    intro numeric
    obtain ⟨above, below⟩ := accepted numeric
    have le : min₂ ≤ max₁ :=
      Binary64.le_of_not_lt (atMost_iff.mp below).1 (Binary64.le_iff.mp ends).1 reaches
    exact ⟨above, atMost_mono le below⟩
  · obtain ⟨⟨reaches, -⟩, starts, -⟩ := remainder_eq_above_iff.mp cut
    rw [accepts_range] at accepted ⊢
    intro numeric
    obtain ⟨above, below⟩ := accepted numeric
    have le : min₁ ≤ max₂ :=
      Binary64.le_of_not_lt (Binary64.le_iff.mp starts).2.1 (atLeast_iff.mp above).1 reaches
    exact ⟨atLeast_mono le above, below⟩

/-- Where a range is cut, the numbers beyond the cut are lost. -/
theorem range_diff_accepts_iff (made : (range min₁ max₁).diff (range min₂ max₂) = .ok rest) :
    rest.accepts value = true ↔
      (range min₁ max₁).accepts value = true ∧ ¬ (value.type.isNumeric = true ∧
        ((remainder min₁ max₁ min₂ max₂ = .below ∧ atMost value min₂ = false) ∨
          (remainder min₁ max₁ min₂ max₂ = .above ∧ atLeast value max₂ = false))) := by
  constructor
  · intro accepted
    refine ⟨range_accepts_of_diff made accepted, ?_⟩
    rintro ⟨numeric, beyond⟩
    rcases range_diff_cases made with ⟨whole, rfl⟩ | ⟨cut, rfl⟩ | ⟨cut, rfl⟩
    · simp [whole] at beyond
    · simp [cut, (accepts_range.mp accepted numeric).2] at beyond
    · simp [cut, (accepts_range.mp accepted numeric).1] at beyond
  · rintro ⟨inFirst, within⟩
    rcases range_diff_cases made with ⟨-, rfl⟩ | ⟨cut, rfl⟩ | ⟨cut, rfl⟩
    · exact inFirst
    · rw [accepts_range] at inFirst ⊢
      intro numeric
      exact ⟨(inFirst numeric).1, by simpa [numeric, cut] using within⟩
    · rw [accepts_range] at inFirst ⊢
      intro numeric
      exact ⟨by simpa [numeric, cut] using within, (inFirst numeric).2⟩

/-- A number of the first range that the second one rejects is below the cut, or above it. -/
theorem range_diff_accepts (made : (range min₁ max₁).diff (range min₂ max₂) = .ok rest)
    (numbers : (range min₂ max₂).NumberBounds)
    (inFirst : (range min₁ max₁).accepts value = true)
    (notInSecond : (range min₂ max₂).accepts value = false) : rest.accepts value = true := by
  rw [numberBounds_range] at numbers
  rw [← Bool.not_eq_true, accepts_range] at notInSecond
  rcases range_diff_cases made with ⟨-, rfl⟩ | ⟨cut, rfl⟩ | ⟨cut, rfl⟩
  · exact inFirst
  · obtain ⟨-, -, ends⟩ := remainder_eq_below_iff.mp cut
    rw [accepts_range] at inFirst ⊢
    intro numeric
    obtain ⟨above, below⟩ := inFirst numeric
    obtain ⟨exact, number⟩ := exists_units_of_atLeast above
    refine ⟨above, (atMost_or_atLeast (Binary64.le_refl numbers.1) number).resolve_right ?_⟩
    exact fun starts => notInSecond fun _ => ⟨starts, atMost_mono ends below⟩
  · obtain ⟨-, starts, -⟩ := remainder_eq_above_iff.mp cut
    rw [accepts_range] at inFirst ⊢
    intro numeric
    obtain ⟨above, below⟩ := inFirst numeric
    obtain ⟨exact, number⟩ := exists_units_of_atLeast above
    refine ⟨(atMost_or_atLeast (Binary64.le_refl numbers.2) number).resolve_left ?_, below⟩
    exact fun ends => notInSecond fun _ => ⟨atLeast_mono starts above, ends⟩

/-- A range that ends where another one starts shares one number with it. -/
theorem accepts_touching_iff {low bound high : Binary64} (below : low ≤ bound)
    (above : bound ≤ high) (numeric : value.type.isNumeric = true) :
    (range low bound).accepts value = true ∧ (range bound high).accepts value = true ↔
      value.compareNumber? bound = some .eq := by
  have number := (Binary64.le_iff.mp below).2.1
  rw [accepts_range, accepts_range, Value.compareNumber?_eq_some_eq_iff]
  simp only [numeric, forall_const]
  constructor
  · rintro ⟨⟨-, ends⟩, starts, -⟩
    obtain ⟨-, exact, same, le⟩ := atMost_iff.mp ends
    obtain ⟨-, other, alsoSame, ge⟩ := atLeast_iff.mp starts
    cases same.symm.trans alsoSame
    exact ⟨number, same.trans (congrArg some (Int.le_antisymm le ge))⟩
  · rintro ⟨-, same⟩
    have ends : atMost value bound = true := atMost_iff.mpr ⟨number, _, same, Int.le_refl _⟩
    have starts : atLeast value bound = true := atLeast_iff.mpr ⟨number, _, same, Int.le_refl _⟩
    exact ⟨⟨atLeast_mono below starts, ends⟩, starts, atMost_mono above ends⟩

/-- If two ranges overlap at one end of the first, the second one starts or ends inside the first,
and there it is cut. -/
theorem OverlapsAtOneEnd.ranges_cut (overlap : OverlapsAtOneEnd min₁ max₁ min₂ max₂) :
    (remainder min₁ max₁ min₂ max₂ = .below ∧ min₁ < min₂ ∧ min₂ ≤ max₁) ∨
      (remainder min₁ max₁ min₂ max₂ = .above ∧ min₁ ≤ max₂ ∧ max₂ < max₁) := by
  obtain ⟨nonempty₁, nonempty₂, ⟨shared, within₁, within₂⟩, oneEnd⟩ := overlap
  obtain ⟨number₁, number₂, -⟩ := Binary64.le_iff.mp nonempty₁
  obtain ⟨number₃, number₄, -⟩ := Binary64.le_iff.mp nonempty₂
  have number₅ := (Binary64.le_iff.mp within₁.1).2.1
  rw [remainder_eq_below_iff, remainder_eq_above_iff]
  simp only [Outside, Binary64.lt_iff, Binary64.le_iff, number₁, number₂, number₃, number₄,
    number₅, true_and] at *
  omega

end Ranges

/-! ## Constraints of one kind -/

/-- The value gets lost when the second constraint is taken away from the first one: the first is
cut, and the value is a string that the second accepts, or a number beyond the cut. -/
def Loses (first second : Constraint) (value : Value) : Prop :=
  match first, second with
  | .stringLength min₁ max₁, .stringLength min₂ max₂ =>
    value.type = .str ∧ remainder min₁ max₁ min₂ max₂ ≠ .whole ∧ second.accepts value = true
  | .range min₁ max₁, .range min₂ max₂ =>
    value.type.isNumeric = true ∧
      ((remainder min₁ max₁ min₂ max₂ = .below ∧ atMost value min₂ = false) ∨
        (remainder min₁ max₁ min₂ max₂ = .above ∧ atLeast value max₂ = false))
  | _, _ => False

/-- A difference accepts what the first constraint does, but for what gets lost. -/
theorem diff_accepts_iff (made : first.diff second = .ok rest) :
    rest.accepts value = true ↔ first.accepts value = true ∧ ¬ first.Loses second value := by
  cases oneKind_of_ok (by simp) made with
  | notNull =>
      rw [← Except.ok.inj made]
      exact (and_iff_left id).symm
  | stringLength =>
      rw [stringLength_diff_accepts_iff made, ← Bool.not_eq_true]
      simp only [Loses, not_and]
  | range => exact range_diff_accepts_iff made
  | positive =>
      rw [← Except.ok.inj made]
      exact (and_iff_left id).symm

theorem diff_accepts (made : first.diff second = .ok rest) (numbers : second.NumberBounds)
    (inFirst : first.accepts value = true) (notInSecond : second.accepts value = false) :
    rest.accepts value = true := by
  cases oneKind_of_ok (by simp) made with
  | notNull => rwa [← Except.ok.inj made]
  | stringLength => exact (stringLength_diff_accepts_iff made).mpr ⟨inFirst, fun _ _ => notInSecond⟩
  | range => exact range_diff_accepts made numbers inFirst notInSecond
  | positive => rwa [← Except.ok.inj made]

/-- What the difference `rest` of two constraints keeps and what it loses. -/
structure DifferenceLaws (first second rest : Constraint) : Prop where
  within : ∀ value, rest.accepts value = true → first.accepts value = true
  keeps : second.NumberBounds → ∀ value,
    first.accepts value = true → second.accepts value = false → rest.accepts value = true
  lengths_apart : ∀ min₁ max₁ min₂ max₂,
    first = .stringLength min₁ max₁ → second = .stringLength min₂ max₂ →
      OverlapsAtOneEnd min₁ max₁ min₂ max₂ → ∀ string,
        ¬ (rest.accepts (.str string) = true ∧ second.accepts (.str string) = true)
  ranges_touch : ∀ min₁ max₁ min₂ max₂, first = .range min₁ max₁ → second = .range min₂ max₂ →
    OverlapsAtOneEnd min₁ max₁ min₂ max₂ → ∃ bound, CutAt bound min₁ max₁ min₂ max₂ ∧
      ∀ value, value.type.isNumeric = true →
        (rest.accepts value = true ∧ second.accepts value = true ↔
          value.compareNumber? bound = some .eq)
  no_wrap : ∀ min₁ max₁ min₂ max₂,
    first = .stringLength min₁ max₁ → second = .stringLength min₂ max₂ →
      (remainder min₁ max₁ min₂ max₂ = .below → (min₂ - 1).toNat + 1 = min₂.toNat) ∧
        (remainder min₁ max₁ min₂ max₂ = .above → (max₂ + 1).toNat = max₂.toNat + 1)

theorem differenceLaws_of_diff (made : first.diff second = .ok rest) :
    DifferenceLaws first second rest := by
  constructor
  case within => exact fun value accepted => ((diff_accepts_iff made).mp accepted).1
  case keeps => exact fun numbers value => diff_accepts made numbers
  case lengths_apart =>
    rintro min₁ max₁ min₂ max₂ rfl rfl overlap string ⟨inRest, inSecond⟩
    have rejected := ((stringLength_diff_accepts_iff made).mp inRest).2 rfl overlap.lengths_cut
    simp [inSecond] at rejected
  case ranges_touch =>
    rintro min₁ max₁ min₂ max₂ rfl rfl overlap
    rcases overlap.ranges_cut with ⟨below, starts, within⟩ | ⟨above, within, ends⟩
    · refine ⟨min₂, .inl ⟨rfl, starts, within⟩, fun value numeric => ?_⟩
      have cut : rest = range min₁ min₂ := by simpa [below] using range_diff_cases made
      rw [cut]
      exact accepts_touching_iff (Binary64.le_of_lt starts) overlap.second_nonempty numeric
    · refine ⟨max₂, .inr ⟨rfl, within, ends⟩, fun value numeric => ?_⟩
      have cut : rest = range max₂ max₁ := by simpa [above] using range_diff_cases made
      rw [cut, and_comm]
      exact accepts_touching_iff overlap.second_nonempty (Binary64.le_of_lt ends) numeric
  case no_wrap =>
    intro min₁ max₁ min₂ max₂ _ _
    exact ⟨toNat_before_cut, toNat_after_cut⟩

/-- Two constraints of one kind have a difference. It accepts nothing that the first constraint
does not and, unless a bound of the second one is NaN, all that only the first accepts. If the
second overlaps with one end of the first, it accepts no string that the second accepts, and no
number but the one at which the second starts or ends. Bounds on lengths are never moved past the
smallest or the largest length. -/
theorem diff_laws (kinds : first.sameKind second = true) :
    ∃ rest, first.diff second = .ok rest ∧ DifferenceLaws first second rest := by
  obtain ⟨rest, made⟩ := exists_diff kinds
  exact ⟨rest, made, differenceLaws_of_diff made⟩

/-- From the numbers one to five those from three on are cut off, but for three itself, and from the
lengths two to nine those up to four. -/
theorem diff_laws_ranges_lengths :
    ((range 1 5).sameKind (range 3 6) = true ∧ (range 3 6).NumberBounds ∧
      OverlapsAtOneEnd (1 : Binary64) 5 3 6 ∧
      ∃ rest, (range 1 5).diff (range 3 6) = .ok rest ∧ rest.accepts (.int 2) = true ∧
        rest.accepts (.int 4) = false) ∧
    ((stringLength 2 9).sameKind (stringLength 0 4) = true ∧
      OverlapsAtOneEnd (2 : UInt64) 9 0 4 ∧
      ∃ rest, (stringLength 2 9).diff (stringLength 0 4) = .ok rest ∧
        rest.accepts (.str "attic") = true ∧ rest.accepts (.str "den") = false) := by
  have numbers : (range 3 6).NumberBounds := by decide +kernel
  have ranges : OverlapsAtOneEnd (1 : Binary64) 5 3 6 :=
    ⟨by decide +kernel, by decide +kernel, ⟨4, by decide +kernel⟩, by decide +kernel⟩
  have lengths : OverlapsAtOneEnd (2 : UInt64) 9 0 4 :=
    ⟨by decide, by decide, ⟨3, by decide⟩, by decide⟩
  have rangeKinds : (range 1 5).sameKind (range 3 6) = true := rfl
  have lengthKinds : (stringLength 2 9).sameKind (stringLength 0 4) = true := rfl
  obtain ⟨rest, made, laws⟩ := diff_laws rangeKinds
  obtain ⟨others, madeToo, lawsToo⟩ := diff_laws lengthKinds
  refine ⟨⟨rfl, numbers, ranges, rest, made, ?_, ?_⟩, rfl, lengths, others, madeToo, ?_, ?_⟩
  · exact laws.keeps numbers (.int 2) (by decide +kernel) (by decide +kernel)
  · rw [Bool.eq_false_iff]
    intro accepted
    obtain ⟨bound, cut, touches⟩ := laws.ranges_touch 1 5 3 6 rfl rfl ranges
    have equal := (touches (.int 4) rfl).mp ⟨accepted, by decide +kernel⟩
    rcases cut with ⟨rfl, -⟩ | ⟨-, -, inside⟩
    · exact absurd equal (by decide +kernel)
    · exact absurd inside (by decide +kernel)
  · exact lawsToo.keeps (by decide) (.str "attic") (by decide) (by decide)
  · rw [Bool.eq_false_iff]
    intro accepted
    exact lawsToo.lengths_apart 2 9 0 4 rfl rfl lengths "den" ⟨accepted, by decide⟩

end TypedRelations.Constraint
