import TypedRelations.Proofs.Constraint.Intersection
import TypedRelations.Proofs.Domain.Union

/-!
# What an intersection of domains accepts

The intersection of two domains drops the constraints that only one of them has, and a value that
only one of them lists has to be admitted by its type on both sides. So it is not the intersection
of the two sets of legal values, unless neither matters. Two domains without an intersection may
still have legal values in common.
-/

namespace TypedRelations.Domain

variable {left right combined : Domain} {value : Value} {clash : Constraint.Clash}

/-- No constraint has a bound that is NaN. -/
def NumberBounds (domain : Domain) : Prop :=
  ∀ constraint ∈ domain.constraints, constraint.NumberBounds

instance (domain : Domain) : Decidable domain.NumberBounds :=
  inferInstanceAs (Decidable (∀ constraint ∈ domain.constraints, constraint.NumberBounds))

/-- The constraints of the left domain that have no partner of their kind on the right. -/
def unpairedConstraints (left right : Domain) : List Constraint :=
  left.constraints.filter fun constraint => !right.constraints.any constraint.sameKind

/-- With one constraint of each kind on the right, all constraints of one kind are paired. -/
theorem mem_pairedConstraints_of_sameKind (rightOne : right.OnePerKind)
    {first second : Constraint} (inLeft : first ∈ left.constraints)
    (inRight : second ∈ right.constraints) (kinds : first.sameKind second = true) :
    (first, second) ∈ left.pairedConstraints right := by
  have found := constraint?_of_mem rightOne inRight
  rw [← beq_iff_eq.mp kinds] at found
  exact mem_pairedConstraints_iff.mpr ⟨inLeft, found⟩

/-- The constraints of an intersection accept what all paired constraints accept. -/
theorem accepts_intersected_iff {constraints : List Constraint}
    (intersected : List.Forall₂ (fun pair made => pair.1.inter pair.2 = .ok made)
      (left.pairedConstraints right) constraints)
    (leftNumbers : left.NumberBounds) (rightNumbers : right.NumberBounds) :
    (∀ constraint ∈ constraints, constraint.accepts value = true) ↔
      ∀ pair ∈ left.pairedConstraints right,
        pair.1.accepts value = true ∧ pair.2.accepts value = true := by
  constructor
  · intro passes pair paired
    obtain ⟨made, stored, meets⟩ := exists_left_of_forall₂ intersected.flip paired
    obtain ⟨inLeft, inRight, -⟩ := mem_pairedConstraints paired
    exact (Constraint.inter_accepts_iff meets (leftNumbers _ inLeft)
      (rightNumbers _ inRight)).mp (passes made stored)
  · intro within made stored
    obtain ⟨pair, paired, meets⟩ := exists_left_of_forall₂ intersected stored
    exact Constraint.inter_accepts meets (within pair paired)

/-- What an intersection accepts, in terms of the two domains. -/
theorem inter_accepts_iff_shared (made : left.inter right = .ok combined)
    (rightOne : right.OnePerKind) (leftNumbers : left.NumberBounds)
    (rightNumbers : right.NumberBounds) :
    combined.accepts value = true ↔
      (left.values.contains value = true ∧ right.values.contains value = true) ∨
        value.isNull = false ∧ (left.types.contains value.type = true ∧
          right.types.contains value.type = true) ∧
          ∀ first ∈ left.constraints, ∀ second ∈ right.constraints,
            first.sameKind second = true →
              first.accepts value = true ∧ second.accepts value = true := by
  have paired : (∀ pair ∈ left.pairedConstraints right,
      pair.1.accepts value = true ∧ pair.2.accepts value = true) ↔
        ∀ first ∈ left.constraints, ∀ second ∈ right.constraints,
          first.sameKind second = true →
            first.accepts value = true ∧ second.accepts value = true := by
    constructor
    · intro within first inLeft second inRight kinds
      exact within _ (mem_pairedConstraints_of_sameKind rightOne inLeft inRight kinds)
    · intro within pair member
      obtain ⟨inLeft, inRight, kinds⟩ := mem_pairedConstraints member
      exact within _ inLeft _ inRight kinds
  rw [inter_accepts_iff made]
  obtain ⟨constraints, intersected, rfl⟩ := combine_eq_ok.mp made
  rw [accepts_intersected_iff intersected leftNumbers rightNumbers, paired]

/-- A value that meets the constraints with a partner and those without meets all of them. -/
theorem accepts_of_paired_of_unpaired
    (paired : ∀ first ∈ left.constraints, ∀ second ∈ right.constraints,
      first.sameKind second = true → first.accepts value = true)
    (unpaired : ∀ constraint ∈ left.unpairedConstraints right, constraint.accepts value = true) :
    ∀ constraint ∈ left.constraints, constraint.accepts value = true := by
  intro constraint member
  cases partnered : right.constraints.any constraint.sameKind with
  | true =>
      obtain ⟨partner, inRight, kinds⟩ := List.any_eq_true.mp partnered
      exact paired constraint member partner inRight kinds
  | false =>
      exact unpaired constraint (List.mem_filter.mpr ⟨member, by rw [partnered]; rfl⟩)

/-- What an intersection accepts, both domains accept, as long as the value meets the constraints
that were dropped. -/
theorem accepts_of_inter (made : left.inter right = .ok combined) (rightOne : right.OnePerKind)
    (leftNumbers : left.NumberBounds) (rightNumbers : right.NumberBounds)
    (dropped : ∀ constraint ∈ left.unpairedConstraints right ++ right.unpairedConstraints left,
      constraint.accepts value = true)
    (accepted : combined.accepts value = true) :
    left.accepts value = true ∧ right.accepts value = true := by
  rw [List.forall_mem_append] at dropped
  rw [accepts_iff, accepts_iff]
  rcases (inter_accepts_iff_shared made rightOne leftNumbers rightNumbers).mp accepted with
    ⟨inLeft, inRight⟩ | ⟨notNull, ⟨leftAllows, rightAllows⟩, shared⟩
  · exact ⟨.inl inLeft, .inl inRight⟩
  · refine ⟨.inr ⟨notNull, leftAllows, ?_⟩, .inr ⟨notNull, rightAllows, ?_⟩⟩
    · exact accepts_of_paired_of_unpaired
        (fun first inLeft second inRight kinds => (shared first inLeft second inRight kinds).1)
        dropped.1
    · exact accepts_of_paired_of_unpaired
        (fun second inRight first inLeft kinds =>
          (shared first inLeft second inRight (BEq.symm kinds)).2)
        dropped.2

/-- Two domains that clash have no legal value in common, of the types that the clash is about,
unless one of them lists it. -/
theorem listed_of_inter_eq_error (failed : left.inter right = .error clash)
    (concerned : clash.concerns value.type = true) (inLeft : left.accepts value = true)
    (inRight : right.accepts value = true) :
    left.values.contains value = true ∨ right.values.contains value = true := by
  obtain ⟨pair, paired, clashes⟩ := exists_of_combine_eq_error failed
  obtain ⟨first, second, -⟩ := mem_pairedConstraints paired
  rcases accepts_iff.mp inLeft with listed | ⟨-, -, leftPasses⟩
  · exact .inl listed
  · rcases accepts_iff.mp inRight with listed | ⟨-, -, rightPasses⟩
    · exact .inr listed
    · have rejected :=
        Constraint.not_accepts_of_inter_eq_error clashes concerned (leftPasses _ first)
      rw [rightPasses _ second] at rejected
      cases rejected

/-- A constraint of the left domain is apart from the first constraint of its kind on the right. -/
def Apart (left right : Domain) : Prop :=
  ∃ first ∈ left.constraints, ∃ second,
    right.constraints.find? (·.sameKind first) = some second ∧ first.Apart second

/-- Two domains have an intersection unless they are apart. -/
theorem inter_eq_ok_or_error (left right : Domain) :
    (¬ left.Apart right ∧ ∃ combined, left.inter right = .ok combined) ∨
      (left.Apart right ∧ ∃ clash, clash.isEmptyRange = true ∧
        left.inter right = .error clash) := by
  cases result : left.inter right with
  | ok combined =>
      refine .inl ⟨?_, combined, rfl⟩
      rintro ⟨first, inLeft, second, found, apart⟩
      have paired := mem_pairedConstraints_iff.mpr ⟨inLeft, found⟩
      obtain ⟨constraints, intersected, -⟩ := combine_eq_ok.mp result
      obtain ⟨made, -, meets⟩ := exists_left_of_forall₂ intersected.flip paired
      rcases Constraint.inter_eq_ok_or_error (mem_pairedConstraints paired).2.2 with
        ⟨common, -⟩ | ⟨-, clash, -, failed⟩
      · exact common apart
      · cases meets.symm.trans failed
  | error clash =>
      obtain ⟨⟨first, second⟩, paired, failed⟩ := exists_of_combine_eq_error result
      obtain ⟨inLeft, found⟩ := mem_pairedConstraints_iff.mp paired
      rcases Constraint.inter_eq_ok_or_error (mem_pairedConstraints paired).2.2 with
        ⟨-, made, meets⟩ | ⟨apart, other, empty, failedSo⟩
      · cases meets.symm.trans failed
      · rw [Except.error.inj (failedSo.symm.trans failed)] at empty
        exact .inr ⟨⟨first, inLeft, second, found, apart⟩, clash, empty, rfl⟩

/-- An intersection fails only for want of anything in common. -/
theorem isEmptyRange_of_inter_eq_error (failed : left.inter right = .error clash) :
    clash.isEmptyRange = true := by
  rcases inter_eq_ok_or_error left right with ⟨-, combined, made⟩ | ⟨-, other, empty, failedSo⟩
  · cases made.symm.trans failed
  · exact Except.error.inj (failedSo.symm.trans failed) ▸ empty

/-- Two domains without NaN bounds, the right one with one constraint of each kind. Their
intersection accepts the values that both list, and the values of common types that meet every
constraint of a kind that both constrain. It accepts exactly what both domains accept, among the
values that both list or neither lists and that meet the constraints which only one domain has. If
there is no intersection, then no string, or no number, is accepted by both unless one of them lists
it. -/
theorem inter_exact (rightOne : right.OnePerKind) (leftNumbers : left.NumberBounds)
    (rightNumbers : right.NumberBounds) :
    (∀ combined, left.inter right = .ok combined → ∀ value,
      (combined.accepts value = true ↔
        (left.values.contains value = true ∧ right.values.contains value = true) ∨
          value.isNull = false ∧ (left.types.contains value.type = true ∧
            right.types.contains value.type = true) ∧
            ∀ first ∈ left.constraints, ∀ second ∈ right.constraints,
              first.sameKind second = true →
                first.accepts value = true ∧ second.accepts value = true) ∧
      (left.values.contains value = right.values.contains value →
        (∀ constraint ∈ left.unpairedConstraints right ++ right.unpairedConstraints left,
          constraint.accepts value = true) →
        (combined.accepts value = true ↔
          left.accepts value = true ∧ right.accepts value = true))) ∧
    ∀ clash, left.inter right = .error clash →
      clash.isEmptyRange = true ∧ ∀ value, clash.concerns value.type = true →
        left.accepts value = true → right.accepts value = true →
          left.values.contains value = true ∨ right.values.contains value = true := by
  constructor
  · intro combined made value
    refine ⟨inter_accepts_iff_shared made rightOne leftNumbers rightNumbers, ?_⟩
    intro alike dropped
    exact ⟨accepts_of_inter made rightOne leftNumbers rightNumbers dropped,
      fun both => inter_accepts made both.1 both.2 alike⟩
  · intro clash failed
    exact ⟨isEmptyRange_of_inter_eq_error failed, fun value => listed_of_inter_eq_error failed⟩

/-- Integers from one to five, none of them negative, and the text that stands for no integer. -/
def lowIntegers : Domain :=
  ⟨.ofList [.int 2, .str "none"], .ofList [.int], [.range 1 5, .positive none]⟩

/-- Integers from three to six, and three that are listed. -/
def midIntegers : Domain :=
  ⟨.ofList [.int 2, .int 3, .int 4], .ofList [.int], [.range 3 6]⟩

/-- Values of any type, the numbers among them from eight to nine. -/
def highNumbers : Domain := Domain.any.withConstraints [.range 8 9]

theorem exists_clash_low_high : ∃ clash, lowIntegers.inter highNumbers = .error clash := by
  have refused : (lowIntegers.inter highNumbers).toBool = false := by decide +kernel
  cases result : lowIntegers.inter highNumbers with
  | error clash => exact ⟨clash, rfl⟩
  | ok combined => rw [result] at refused; cases refused

/-- Five is in the intersection of the first two domains, since both accept it and neither lists
it; six is not. The first and the last domain clash. -/
theorem inter_exact_integers :
    midIntegers.OnePerKind ∧ lowIntegers.NumberBounds ∧ midIntegers.NumberBounds ∧
      (∃ combined, lowIntegers.inter midIntegers = .ok combined ∧
        combined.accepts (.int 5) = true ∧ combined.accepts (.int 6) = false) ∧
      ∃ clash, lowIntegers.inter highNumbers = .error clash ∧ clash.isEmptyRange = true := by
  have midOne : midIntegers.OnePerKind := by decide
  have lowNumbers : lowIntegers.NumberBounds := by decide +kernel
  have midNumbers : midIntegers.NumberBounds := by decide +kernel
  have highOne : highNumbers.OnePerKind := by decide
  have highBounds : highNumbers.NumberBounds := by decide +kernel
  refine ⟨midOne, lowNumbers, midNumbers, ?_, ?_⟩
  · have succeeds : (lowIntegers.inter midIntegers).toBool = true := by decide +kernel
    cases made : lowIntegers.inter midIntegers with
    | error clash => rw [made] at succeeds; cases succeeds
    | ok combined =>
        have exact5 := ((inter_exact midOne lowNumbers midNumbers).1 combined made (.int 5)).2
          (by decide) (by decide +kernel)
        have exact6 := ((inter_exact midOne lowNumbers midNumbers).1 combined made (.int 6)).2
          (by decide) (by decide +kernel)
        refine ⟨combined, rfl, exact5.mpr (by decide +kernel), ?_⟩
        rw [Bool.eq_false_iff]
        intro accepted
        exact absurd (exact6.mp accepted) (by decide +kernel)
  · obtain ⟨clash, failed⟩ := exists_clash_low_high
    exact ⟨clash, failed, ((inter_exact highOne lowNumbers highBounds).2 clash failed).1⟩

/-- An intersection may accept a value that one of the domains rejects, by a constraint that the
other lacks. It may reject a value that both domains accept, if only one lists it. And two domains
that clash may still accept a value in common. -/
theorem inter_not_exact :
    (¬ ∀ left right combined : Domain, left.OnePerKind → right.OnePerKind → left.NumberBounds →
      right.NumberBounds → left.inter right = .ok combined → ∀ value,
        combined.accepts value = true → left.accepts value = true ∧ right.accepts value = true) ∧
    (¬ ∀ left right combined : Domain, left.OnePerKind → right.OnePerKind → left.NumberBounds →
      right.NumberBounds → left.inter right = .ok combined → ∀ value,
        left.accepts value = true ∧ right.accepts value = true → combined.accepts value = true) ∧
    ¬ ∀ (left right : Domain) (clash : Constraint.Clash), left.OnePerKind → right.OnePerKind →
      left.NumberBounds → right.NumberBounds → left.inter right = .error clash →
        clash.isEmptyRange = true → ∀ value,
          ¬ (left.accepts value = true ∧ right.accepts value = true) := by
  have anyNumbers : Domain.any.NumberBounds := by decide
  refine ⟨?_, ?_, ?_⟩
  · intro every
    have accepted := every highNumbers .any .any (by decide) (by decide) (by decide +kernel)
      anyNumbers (by rfl) (.int 1) (by decide)
    exact absurd accepted.1 (by decide +kernel)
  · intro every
    have accepted := every ⟨.ofList [.int 5], .empty, []⟩ .any .empty (by decide) (by decide)
      (by decide) anyNumbers (by rfl) (.int 5) (by decide)
    exact absurd accepted (by decide)
  · intro every
    obtain ⟨clash, failed⟩ := exists_clash_low_high
    have empty := isEmptyRange_of_inter_eq_error failed
    exact every _ _ clash (by decide) (by decide) (by decide +kernel) (by decide +kernel) failed
      empty (.str "none") (by decide)

end TypedRelations.Domain
